import MiniOverlay.SegmentFormat

/-!
# Packets and their byte images

The records of `common/pkt.h`, laid out like the segments: fixed-width fields,
no padding, little-endian.
-/

namespace MiniOverlay

open FixedByteCodec

set_option autoImplicit false

namespace PktType

def routeUpdate : UInt16 := 1
def mnp : UInt16 := 2

end PktType

structure MnpHdr where
  srcNodeID : Int32
  destNodeID : Int32
  length : UInt16
  type : UInt16
  deriving DecidableEq

structure MnpPkt where
  header : MnpHdr
  data : Vector Byte maxPktLen
  deriving DecidableEq

structure SendpktArg where
  nextNodeID : Int32
  pkt : MnpPkt
  deriving DecidableEq

structure RouteupdateEntry where
  nodeID : UInt32
  cost : UInt32
  deriving DecidableEq

structure PktRouteupdate where
  entryNum : UInt32
  entry : Fin maxNodeNum → RouteupdateEntry

def MnpPkt.cleared : MnpPkt := ⟨⟨0, 0, 0, 0⟩, padVector maxPktLen []⟩

def mnpHdrCodec : FixedCodec MnpHdr :=
  (int32Codec.pair (int32Codec.pair (FixedCodec.u16.pair FixedCodec.u16))).iso
    (fun (srcNodeID, destNodeID, length, type) => ⟨srcNodeID, destNodeID, length, type⟩)
    (fun header => (header.srcNodeID, header.destNodeID, header.length, header.type))
    (fun _ => rfl) (fun _ => rfl)

def mnpPktCodec : FixedCodec MnpPkt :=
  (mnpHdrCodec.pair (bytes maxPktLen)).iso (fun (header, data) => ⟨header, data⟩)
    (fun pkt => (pkt.header, pkt.data)) (fun _ => rfl) (fun _ => rfl)

def sendpktArgCodec : FixedCodec SendpktArg :=
  (int32Codec.pair mnpPktCodec).iso (fun (nextNodeID, pkt) => ⟨nextNodeID, pkt⟩)
    (fun arg => (arg.nextNodeID, arg.pkt)) (fun _ => rfl) (fun _ => rfl)

def routeupdateEntryCodec : FixedCodec RouteupdateEntry :=
  (FixedCodec.u32.pair FixedCodec.u32).iso (fun (nodeID, cost) => ⟨nodeID, cost⟩)
    (fun entry => (entry.nodeID, entry.cost)) (fun _ => rfl) (fun _ => rfl)

def pktRouteupdateCodec : FixedCodec PktRouteupdate :=
  (FixedCodec.u32.pair (routeupdateEntryCodec.array maxNodeNum)).iso
    (fun (entryNum, entry) => ⟨entryNum, entry⟩)
    (fun pktUpdate => (pktUpdate.entryNum, pktUpdate.entry)) (fun _ => rfl) (fun _ => rfl)

def sizeofPktRouteupdate : Nat := pktRouteupdateCodec.width

def sizeofMnpHdr : Nat := mnpHdrCodec.width

def sizeofMnpPkt : Nat := mnpPktCodec.width

def sizeofSendpktArg : Nat := sendpktArgCodec.width

def MnpPkt.image (pkt : MnpPkt) : List Byte := mnpPktCodec.encode pkt

theorem sizeof_mnp_pkt : sizeofMnpPkt = sizeofMnpHdr + maxPktLen := rfl

example : sizeofMnpHdr = 12 ∧ sizeofMnpPkt = 1500 ∧ sendpktArgCodec.width = 1504 := by decide

example : sizeofPktRouteupdate = 84 := rfl

theorem mnp_pkt_image_length (pkt : MnpPkt) : pkt.image.length = sizeofMnpPkt :=
  mnpPktCodec.encode_length pkt

theorem mnp_pkt_image (pkt : MnpPkt) :
    pkt.image = mnpHdrCodec.encode pkt.header ++ pkt.data.toList := rfl

theorem cleared_image : MnpPkt.cleared.image = List.replicate sizeofMnpPkt 0 := by
  have header : mnpHdrCodec.encode MnpPkt.cleared.header = List.replicate sizeofMnpHdr 0 := by
    decide
  have data : MnpPkt.cleared.data.toList = List.replicate maxPktLen 0 :=
    pad_vector_to_list maxPktLen [] (Nat.zero_le _)
  rw [mnp_pkt_image, header, data, sizeof_mnp_pkt, List.replicate_append_replicate]

/-- The bytes of a packet that `sendpkt` sends: the header and
`header.length` bytes of data. -/
def MnpPkt.sentBytes (pkt : MnpPkt) : List Byte :=
  pkt.image.take (sizeofMnpHdr + pkt.header.length.toNat)

def MnpPkt.payload (pkt : MnpPkt) : List Byte := pkt.data.toList.take pkt.header.length.toNat

theorem sent_bytes_eq (pkt : MnpPkt) :
    pkt.sentBytes = mnpHdrCodec.encode pkt.header ++ pkt.payload := by
  have width : (mnpHdrCodec.encode pkt.header).length = sizeofMnpHdr :=
    mnpHdrCodec.encode_length _
  rw [MnpPkt.sentBytes, mnp_pkt_image, List.take_append, width, Nat.add_sub_cancel_left,
    List.take_of_length_le (by omega), MnpPkt.payload]

theorem sent_bytes_length (pkt : MnpPkt) (fits : pkt.header.length.toNat ≤ maxPktLen) :
    pkt.sentBytes.length = sizeofMnpHdr + pkt.header.length.toNat := by
  rw [MnpPkt.sentBytes, List.length_take, mnp_pkt_image_length, sizeof_mnp_pkt]
  omega

/-- `memcpy(pkt, buf, n)` over the packet that is already in the variable: the
bytes from index `n` on stay. -/
def MnpPkt.copyInto (pkt : MnpPkt) (buf : List Byte) : MnpPkt :=
  mnpPktCodec.decode (buf ++ pkt.image.drop buf.length)

theorem copy_into_image (pkt : MnpPkt) (buf : List Byte) (fits : buf.length ≤ sizeofMnpPkt) :
    (pkt.copyInto buf).image = buf ++ pkt.image.drop buf.length := by
  apply mnpPktCodec.encode_decode
  change (buf ++ pkt.image.drop buf.length).length = sizeofMnpPkt
  rw [List.length_append, List.length_drop, mnp_pkt_image_length]
  omega

theorem header_payload_of_prefix (pkt received : MnpPkt) (suffix : List Byte)
    (image : received.image = pkt.sentBytes ++ suffix) :
    received.header = pkt.header ∧ received.payload = pkt.payload := by
  have headerWidth (header : MnpHdr) : (mnpHdrCodec.encode header).length = sizeofMnpHdr :=
    mnpHdrCodec.encode_length header
  have split : mnpHdrCodec.encode received.header ++ received.data.toList =
      mnpHdrCodec.encode pkt.header ++ (pkt.payload ++ suffix) := by
    rw [← mnp_pkt_image, image, sent_bytes_eq, List.append_assoc]
  obtain ⟨headers, datas⟩ := List.append_inj split (by rw [headerWidth, headerWidth])
  have sameHeader := mnpHdrCodec.encode_injective headers
  refine ⟨sameHeader, ?_⟩
  have short : pkt.payload.length ≤ pkt.header.length.toNat := List.length_take_le _ _
  have room : pkt.payload.length = min pkt.header.length.toNat maxPktLen := by
    simp [MnpPkt.payload]
  rw [MnpPkt.payload, sameHeader, datas, List.take_append]
  rcases Nat.le_total pkt.header.length.toNat maxPktLen with fits | past
  · rw [show pkt.header.length.toNat - pkt.payload.length = 0 by omega, List.take_zero,
      List.append_nil, List.take_of_length_le short]
  · have noSuffix : suffix = [] := by
      have lengths := congrArg List.length datas
      simp only [Vector.length_toList, List.length_append] at lengths
      exact List.eq_nil_of_length_eq_zero (by omega)
    rw [noSuffix, List.take_nil, List.append_nil, List.take_of_length_le short]

/-- `memcpy(packet.data, buf, n)`: the data from index `n` on stay. -/
def MnpPkt.copyData (packet : MnpPkt) (buf : List Byte) : Vector Byte maxPktLen :=
  padVector maxPktLen (buf ++ packet.data.toList.drop buf.length)

theorem copied_payload (packet : MnpPkt) (header : MnpHdr) (buf : List Byte)
    (length : header.length.toNat = buf.length) (fits : buf.length ≤ maxPktLen) :
    (MnpPkt.mk header (packet.copyData buf)).payload = buf := by
  have whole : (buf ++ packet.data.toList.drop buf.length).length ≤ maxPktLen := by
    rw [List.length_append, List.length_drop, Vector.length_toList]
    omega
  change (packet.copyData buf).toList.take header.length.toNat = buf
  rw [length, MnpPkt.copyData, pad_vector_to_list _ _ whole, List.append_assoc, List.take_left]

/-- `memcpy(&pktUpdate, buf, n)` over the update that is already in the variable. -/
def PktRouteupdate.copyInto (pktUpdate : PktRouteupdate) (buf : List Byte) : PktRouteupdate :=
  pktRouteupdateCodec.decode (buf ++ (pktRouteupdateCodec.encode pktUpdate).drop buf.length)

def PktRouteupdate.entries (pktUpdate : PktRouteupdate) : List RouteupdateEntry :=
  (List.ofFn pktUpdate.entry).take pktUpdate.entryNum.toNat

theorem mem_entries_iff (pktUpdate : PktRouteupdate) (entry : RouteupdateEntry) :
    entry ∈ pktUpdate.entries ↔
      ∃ index : Fin maxNodeNum, index.val < pktUpdate.entryNum.toNat ∧
        pktUpdate.entry index = entry := by
  rw [PktRouteupdate.entries, List.mem_take_iff_getElem]
  constructor
  · rintro ⟨index, inside, rfl⟩
    rw [List.length_ofFn, Nat.lt_min] at inside
    exact ⟨⟨index, inside.2⟩, inside.1, by rw [List.getElem_ofFn]⟩
  · rintro ⟨index, inside, rfl⟩
    refine ⟨index.val, ?_, by rw [List.getElem_ofFn]⟩
    rw [List.length_ofFn]
    exact Nat.lt_min.mpr ⟨inside, index.isLt⟩

theorem copy_into_update (pktUpdate sent : PktRouteupdate) :
    pktUpdate.copyInto (pktRouteupdateCodec.encode sent) = sent := by
  rw [PktRouteupdate.copyInto, List.drop_eq_nil_of_le, List.append_nil,
    pktRouteupdateCodec.decode_encode]
  rw [pktRouteupdateCodec.encode_length, pktRouteupdateCodec.encode_length]

def MnpPkt.routeupdate (packet : MnpPkt) : PktRouteupdate :=
  pktRouteupdateCodec.decode (packet.data.toList.take sizeofPktRouteupdate)

def sizeofRouteupdateEntry : Nat := routeupdateEntryCodec.width

def sizeofEntryNum : Nat := FixedCodec.u32.width

/-- There are no more entries than an update holds, and `header.length` covers them. -/
structure CarriesUpdate (packet : MnpPkt) : Prop where
  few : packet.routeupdate.entryNum.toNat ≤ maxNodeNum
  covers : sizeofEntryNum + sizeofRouteupdateEntry * packet.routeupdate.entryNum.toNat ≤
    packet.header.length.toNat

theorem update_decode_num (bytes : List Byte) :
    (pktRouteupdateCodec.decode bytes).entryNum =
      FixedCodec.u32.decode (bytes.take sizeofEntryNum) := rfl

theorem update_decode_entry (bytes : List Byte) (index : Fin maxNodeNum) :
    (pktRouteupdateCodec.decode bytes).entry index =
      routeupdateEntryCodec.decode
        (((bytes.drop sizeofEntryNum).drop (index.val * sizeofRouteupdateEntry)).take
          sizeofRouteupdateEntry) :=
  routeupdateEntryCodec.array_decode maxNodeNum (bytes.drop sizeofEntryNum) index

theorem update_decode_congr {left right : List Byte} {total : Nat}
    (same : left.take total = right.take total)
    (covers : sizeofEntryNum +
      sizeofRouteupdateEntry * (pktRouteupdateCodec.decode right).entryNum.toNat ≤ total) :
    (pktRouteupdateCodec.decode left).entryNum = (pktRouteupdateCodec.decode right).entryNum ∧
      (pktRouteupdateCodec.decode left).entries =
        (pktRouteupdateCodec.decode right).entries := by
  have num : (pktRouteupdateCodec.decode left).entryNum =
      (pktRouteupdateCodec.decode right).entryNum := by
    have head : (left.drop 0).take sizeofEntryNum = (right.drop 0).take sizeofEntryNum :=
      take_drop_congr same (by omega)
    rw [List.drop_zero, List.drop_zero] at head
    rw [update_decode_num, head, update_decode_num]
  refine ⟨num, ?_⟩
  rw [PktRouteupdate.entries, num, PktRouteupdate.entries]
  apply List.ext_getElem?
  intro index
  rw [List.getElem?_take, List.getElem?_take]
  split_ifs with counted
  · by_cases inside : index < maxNodeNum
    · rw [List.getElem?_ofFn, List.getElem?_ofFn, dif_pos inside, dif_pos inside,
        update_decode_entry, update_decode_entry, List.drop_drop, List.drop_drop,
        take_drop_congr same]
      have places : (index + 1) * sizeofRouteupdateEntry ≤
          sizeofRouteupdateEntry * (pktRouteupdateCodec.decode right).entryNum.toNat := by
        rw [Nat.mul_comm]
        exact Nat.mul_le_mul_left _ counted
      rw [Nat.succ_mul] at places
      dsimp only
      omega
    · rw [List.getElem?_ofFn, List.getElem?_ofFn, dif_neg inside, dif_neg inside]
  · rfl

theorem copy_into_covered (pktUpdate : PktRouteupdate) {packet : MnpPkt}
    (carries : CarriesUpdate packet)
    (fits : packet.header.length.toNat ≤ sizeofPktRouteupdate) :
    (pktUpdate.copyInto packet.payload).entryNum = packet.routeupdate.entryNum ∧
      (pktUpdate.copyInto packet.payload).entries = packet.routeupdate.entries := by
  have room : packet.header.length.toNat ≤ packet.data.toList.length := by
    rw [Vector.length_toList]
    exact fits.trans (by decide)
  have width : packet.payload.length = packet.header.length.toNat := by
    rw [MnpPkt.payload, List.length_take, Nat.min_eq_left room]
  apply update_decode_congr _ carries.covers
  rw [← width, List.take_left, width, List.take_take, Nat.min_eq_left fits, MnpPkt.payload]

end MiniOverlay
