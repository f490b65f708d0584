import MiniOverlay.Constants
import MiniOverlay.FixedByteCodec

/-!
# Segments and their byte images

The records of `common/seg.h`. Every field is fixed-width and none of the
records has padding, so the image that `send` puts on a connection determines
the record and every string of `sizeof(sendseg_arg_t)` bytes is an image.
Integers are little-endian, as on the machines the code is built for; nothing
below depends on it.
-/

namespace MiniOverlay

open FixedByteCodec

set_option autoImplicit false

namespace SegType

def syn : UInt16 := 0
def synack : UInt16 := 1
def fin : UInt16 := 2
def finack : UInt16 := 3
def data : UInt16 := 4
def dataack : UInt16 := 5

end SegType

structure MrtHdr where
  srcPort : UInt32
  destPort : UInt32
  seqNum : UInt32
  ackNum : UInt32
  length : UInt16
  type : UInt16
  rcvWin : UInt16
  checksum : UInt16
  deriving DecidableEq

structure Seg where
  header : MrtHdr
  data : Vector Byte maxSegLen
  deriving DecidableEq

/-- A segment with the node it goes to or comes from; the node ID is an `int`. -/
structure SendsegArg where
  nodeID : Int32
  seg : Seg
  deriving DecidableEq

def MrtHdr.cleared : MrtHdr := ⟨0, 0, 0, 0, 0, 0, 0, 0⟩

/-- A segment after `memset(&seg, 0, sizeof(seg_t))`. -/
def Seg.cleared : Seg := ⟨MrtHdr.cleared, padVector maxSegLen []⟩

def Seg.payload (seg : Seg) : List Byte := seg.data.toList.take seg.header.length.toNat

theorem payload_length (seg : Seg) (fits : seg.header.length.toNat ≤ maxSegLen) :
    seg.payload.length = seg.header.length.toNat := by
  simp [Seg.payload, fits]

def int32Codec : FixedCodec Int32 :=
  FixedCodec.u32.iso UInt32.toInt32 Int32.toUInt32
    Int32.toInt32_toUInt32 UInt32.toUInt32_toInt32

def mrtHdrCodec : FixedCodec MrtHdr :=
  (FixedCodec.u32.pair (FixedCodec.u32.pair (FixedCodec.u32.pair (FixedCodec.u32.pair
    (FixedCodec.u16.pair (FixedCodec.u16.pair (FixedCodec.u16.pair FixedCodec.u16))))))).iso
    (fun (srcPort, destPort, seqNum, ackNum, length, type, rcvWin, checksum) =>
      ⟨srcPort, destPort, seqNum, ackNum, length, type, rcvWin, checksum⟩)
    (fun header => (header.srcPort, header.destPort, header.seqNum, header.ackNum,
      header.length, header.type, header.rcvWin, header.checksum))
    (fun _ => rfl) (fun _ => rfl)

def segCodec : FixedCodec Seg :=
  (mrtHdrCodec.pair (bytes maxSegLen)).iso (fun (header, data) => ⟨header, data⟩)
    (fun seg => (seg.header, seg.data)) (fun _ => rfl) (fun _ => rfl)

def sendsegArgCodec : FixedCodec SendsegArg :=
  (int32Codec.pair segCodec).iso (fun (nodeID, seg) => ⟨nodeID, seg⟩)
    (fun arg => (arg.nodeID, arg.seg)) (fun _ => rfl) (fun _ => rfl)

def sizeofSeg : Nat := segCodec.width

def sizeofSendsegArg : Nat := sendsegArgCodec.width

theorem seg_image (seg : Seg) :
    segCodec.encode seg = mrtHdrCodec.encode seg.header ++ seg.data.toList := rfl

theorem sizeof_seg : sizeofSeg = mrtHdrCodec.width + maxSegLen := rfl

theorem cleared_seg_image : segCodec.encode Seg.cleared = List.replicate sizeofSeg 0 := by
  have header : mrtHdrCodec.encode MrtHdr.cleared = List.replicate mrtHdrCodec.width 0 := by
    decide
  have data : Seg.cleared.data.toList = List.replicate maxSegLen 0 :=
    pad_vector_to_list maxSegLen [] (Nat.zero_le _)
  have clearedHeader : Seg.cleared.header = MrtHdr.cleared := rfl
  rw [seg_image, clearedHeader, header, data, sizeof_seg, List.replicate_append_replicate]

example : sizeofSeg = 1488 ∧ sizeofSendsegArg = 1492 := by decide

end MiniOverlay
