import MiniOverlay.DelimitedRecords
import MiniOverlay.SegmentFormat

/-!
# Segment transfer between the MRT and MNP processes

The senders and the MNP-side receiver of `common/seg.c`. `send` is taken to
succeed and to write its whole argument, so a sender is the list of its three
writes.
-/

namespace MiniOverlay

open DelimitedFrames FixedByteCodec

set_option autoImplicit false

def mnpSendseg (destNodeID : Int32) (seg : Seg) : List (List Byte) :=
  sendDelimited (sendsegArgCodec.encode ⟨destNodeID, seg⟩)

def forwardsegToMRT (srcNodeID : Int32) (seg : Seg) : List (List Byte) :=
  sendDelimited (sendsegArgCodec.encode ⟨srcNodeID, seg⟩)

/-- The value of a successful call is `*dest_nodeID` with `*segPtr`. -/
def getsegToSend (tranConn : List Byte) : Read SendsegArg Byte :=
  recvRecord sendsegArgCodec tranConn

theorem getseg_to_send_eq : getsegToSend = recvRecord sendsegArgCodec := rfl

/-- One call of either sender of a `sendseg_arg_t`. -/
inductive SegSend where
  | mnpSendseg (destNodeID : Int32) (seg : Seg)
  | forwardsegToMRT (srcNodeID : Int32) (seg : Seg)

def SegSend.arg : SegSend → SendsegArg
  | .mnpSendseg nodeID seg => ⟨nodeID, seg⟩
  | .forwardsegToMRT nodeID seg => ⟨nodeID, seg⟩

def SegSend.bytes : SegSend → List Byte
  | .mnpSendseg destNodeID seg => (MiniOverlay.mnpSendseg destNodeID seg).flatten
  | .forwardsegToMRT srcNodeID seg => (MiniOverlay.forwardsegToMRT srcNodeID seg).flatten

def SegSend.image (send : SegSend) : List Byte := sendsegArgCodec.encode send.arg

theorem seg_send_bytes (send : SegSend) :
    send.bytes = recordFrame sendsegArgCodec send.arg := by
  cases send with
  | mnpSendseg nodeID seg => exact send_delimited_flatten _
  | forwardsegToMRT nodeID seg => exact send_delimited_flatten _

theorem seg_send_stream (sends : List SegSend) :
    sends.flatMap SegSend.bytes =
      (sends.map SegSend.arg).flatMap (recordFrame sendsegArgCodec) := by
  rw [List.flatMap_map]
  exact congrArg (sends.flatMap ·) (funext seg_send_bytes)

theorem cleared_record_image (c : Byte)
    (stored : c ∈ sendsegArgCodec.encode ⟨1, Seg.cleared⟩) :
    c ≠ markers.escape ∧ c ≠ markers.opening := by
  have image : sendsegArgCodec.encode ⟨1, Seg.cleared⟩ =
      int32Codec.encode 1 ++ List.replicate sizeofSeg 0 :=
    congrArg (int32Codec.encode 1 ++ ·) cleared_seg_image
  rw [image, List.mem_append] at stored
  rcases stored with inNodeID | inSeg
  · have nodeIDBytes : ∀ b ∈ int32Codec.encode 1, b ≠ markers.escape ∧ b ≠ markers.opening := by
      decide +kernel
    exact nodeIDBytes c inNodeID
  · rw [List.eq_of_mem_replicate inSeg]
    decide

/-- Framing is exact on whole streams. The left side of the equivalence says
that call `i` returns `pᵢ` and leaves exactly the frames after it, and that the
call after the last one finds the end of the stream. -/
theorem segment_stream_exact (sends : List SegSend) :
    (calls getsegToSend (sends.length + 1) (sends.flatMap SegSend.bytes) =
        gotAll (recordFrame sendsegArgCodec) [] (sends.map SegSend.arg) ++ [.ended] ↔
      ∀ send ∈ sends, Clean markers send.image) ∧
    ∀ good bad more, sends = good ++ bad :: more →
      (∀ send ∈ good, Clean markers send.image) → ¬ Clean markers bad.image →
      calls getsegToSend (sends.length + 1) (sends.flatMap SegSend.bytes) =
        gotAll (recordFrame sendsegArgCodec) ((bad :: more).flatMap SegSend.bytes)
          (good.map SegSend.arg) ++ [.assertionFailed] := by
  constructor
  · have exact := calls_exact_iff sendsegArgCodec (sends.map SegSend.arg)
    rw [List.length_map, ← seg_send_stream, ← getseg_to_send_eq] at exact
    refine exact.trans ?_
    simp only [List.forall_mem_map, SegSend.image]
  · rintro good bad more rfl clean dirty
    have failed := calls_first_dirty sendsegArgCodec (good.map SegSend.arg)
      (more.map SegSend.arg) bad.arg (by simpa [SegSend.image] using clean) dirty
      (more.length + 1)
    simpa only [getseg_to_send_eq, seg_send_stream, List.map_append, List.map_cons, List.length_map,
      List.length_append, List.length_cons, Nat.add_assoc] using failed

end MiniOverlay
