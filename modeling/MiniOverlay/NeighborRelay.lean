import MiniOverlay.ListenToNeighbor
import Mathlib.Data.List.Forall2

/-!
# From a neighbour's `sendpkt` to the MNP process

`listen_to_neighbor` receives every packet into the same variable, `recvpkt`
overwrites only as many bytes as the packet has, and `forwardpktToMNP` sends
the whole variable. So the image that reaches the MNP process ends in bytes of
earlier packets, and an end marker can arise where the new bytes meet the old.
-/

namespace MiniOverlay

open DelimitedFrames FixedByteCodec

set_option autoImplicit false

/-- The bytes a neighbour puts on the connection, `none` when one of the
packets is too long for `sendpkt`. -/
def sendpktStream (pkts : List MnpPkt) : Option (List Byte) :=
  (pkts.mapM sendpkt).map fun writes => writes.flatten.flatten

def forwardStream (pkts : List MnpPkt) : List Byte :=
  pkts.flatMap fun pkt => (forwardpktToMNP pkt).flatten

theorem forward_stream_eq (pkts : List MnpPkt) :
    forwardStream pkts = pkts.flatMap (recordFrame mnpPktCodec) :=
  congrArg (pkts.flatMap ·) (funext fun _ => send_delimited_flatten _)

theorem sendpkt_stream_eq (pkts : List MnpPkt)
    (fits : ∀ pkt ∈ pkts, pkt.header.length.toNat ≤ maxPktLen) :
    sendpktStream pkts =
      some (pkts.flatMap fun pkt => frameOf markers pkt.sentBytes) := by
  have writes : pkts.mapM sendpkt = some (pkts.map fun pkt => sendDelimited pkt.sentBytes) := by
    induction pkts with
    | nil => rfl
    | cons pkt pkts ih =>
        have room : sizeofMnpHdr + pkt.header.length.toNat ≤ sizeofMnpPkt :=
          Nat.add_le_add_left (fits pkt (by simp)) _
        rw [List.mapM_cons, ih fun item member => fits item (by simp [member])]
        simp [sendpkt, room]
  simp only [sendpktStream, writes, Option.map_some, List.flatMap_def, List.flatten_flatten,
    List.map_map, Function.comp_def, send_delimited_flatten]

def relayed : MnpPkt → List MnpPkt → List MnpPkt
  | _, [] => []
  | slot, pkt :: pkts =>
      slot.copyInto pkt.sentBytes :: relayed (slot.copyInto pkt.sentBytes) pkts

/-- No packet ends in `!` where the variable still holds a `#` right behind its
last byte. -/
def SeamsSafe : MnpPkt → List MnpPkt → Prop
  | _, [] => True
  | slot, pkt :: pkts =>
      ¬ (pkt.sentBytes.getLast? = some markers.escape ∧
          slot.image[pkt.sentBytes.length]? = some markers.closing) ∧
        SeamsSafe (slot.copyInto pkt.sentBytes) pkts

/-- A packet that fits its variable and has no end marker in what is sent of it. -/
structure Sendable (pkt : MnpPkt) : Prop where
  fits : pkt.header.length.toNat ≤ maxPktLen
  clean : Clean markers pkt.sentBytes

theorem sendable_length {pkt : MnpPkt} (sendable : Sendable pkt) :
    pkt.sentBytes.length ≤ sizeofMnpPkt := by
  rw [sent_bytes_length pkt sendable.fits]
  exact Nat.add_le_add_left sendable.fits _

theorem listen_relays (pkts : List MnpPkt) (slot : MnpPkt)
    (sendable : ∀ pkt ∈ pkts, Sendable pkt) :
    (listenToNeighbor pkts.length slot
        (pkts.flatMap fun pkt => frameOf markers pkt.sentBytes)).forwarded =
      relayed slot pkts := by
  induction pkts generalizing slot with
  | nil => rfl
  | cons pkt pkts ih =>
      have head := sendable pkt (by simp)
      have received := recvpkt_clean slot pkt.sentBytes
        (pkts.flatMap fun pkt => frameOf markers pkt.sentBytes) head.clean (sendable_length head)
      rw [List.length_cons, List.flatMap_cons, listen_step _ _ _ _ _ _ received,
        ih _ fun item member => sendable item (by simp [member])]
      rfl

theorem copy_into_clean_iff {slot pkt : MnpPkt} (clean : Clean markers slot.image)
    (sendable : Sendable pkt) :
    Clean markers (slot.copyInto pkt.sentBytes).image ↔
      ¬ (pkt.sentBytes.getLast? = some markers.escape ∧
          slot.image[pkt.sentBytes.length]? = some markers.closing) := by
  rw [copy_into_image slot pkt.sentBytes (sendable_length sendable),
    clean_append_iff sendable.clean (clean.drop _), List.head?_drop]

theorem relayed_clean_iff (pkts : List MnpPkt) (slot : MnpPkt)
    (clean : Clean markers slot.image) (sendable : ∀ pkt ∈ pkts, Sendable pkt) :
    (∀ pkt ∈ relayed slot pkts, Clean markers pkt.image) ↔ SeamsSafe slot pkts := by
  induction pkts generalizing slot with
  | nil => simp [relayed, SeamsSafe]
  | cons pkt pkts ih =>
      have seam := copy_into_clean_iff clean (sendable pkt (by simp))
      simp only [relayed, SeamsSafe, List.forall_mem_cons, seam]
      refine and_congr_right fun safe => ?_
      exact ih _ (seam.mpr safe) fun item member => sendable item (by simp [member])

theorem relayed_matches (pkts : List MnpPkt) (slot : MnpPkt)
    (sendable : ∀ pkt ∈ pkts, Sendable pkt) :
    List.Forall₂ (fun pkt received : MnpPkt =>
      received.header = pkt.header ∧ received.payload = pkt.payload)
      pkts (relayed slot pkts) := by
  induction pkts generalizing slot with
  | nil => exact .nil
  | cons pkt pkts ih =>
      refine .cons ?_ (ih _ fun item member => sendable item (by simp [member]))
      exact header_payload_of_prefix pkt _ _
        (copy_into_image slot pkt.sentBytes (sendable_length (sendable pkt (by simp))))

/-- After `recvpkt` and `forwardpktToMNP` for each packet, `overlay_recvpkt`
returns 1 for each packet in order, with its header and its data. -/
def RelayKeepsPackets (slot : MnpPkt) (pkts : List MnpPkt) : Prop :=
  ∃ conn received, sendpktStream pkts = some conn ∧
    (calls overlayRecvpkt pkts.length
        (forwardStream (listenToNeighbor pkts.length slot conn).forwarded)).map Read.value? =
      received.map some ∧
    List.Forall₂ (fun pkt received : MnpPkt =>
      received.header = pkt.header ∧ received.payload = pkt.payload) pkts received

theorem relayed_length (pkts : List MnpPkt) (slot : MnpPkt) :
    (relayed slot pkts).length = pkts.length := by
  induction pkts generalizing slot with
  | nil => rfl
  | cons pkt pkts ih => simp [relayed, ih]

theorem overlay_recvpkt_eq : overlayRecvpkt = recvRecord mnpPktCodec := rfl

theorem keeps_of_seams_safe (pkts : List MnpPkt) (slot : MnpPkt)
    (sendable : ∀ pkt ∈ pkts, Sendable pkt) (clean : Clean markers slot.image)
    (safe : SeamsSafe slot pkts) : RelayKeepsPackets slot pkts := by
  refine ⟨_, relayed slot pkts,
    sendpkt_stream_eq pkts fun pkt member => (sendable pkt member).fits, ?_,
    relayed_matches pkts slot sendable⟩
  have images := (relayed_clean_iff pkts slot clean sendable).mpr safe
  have exact := calls_clean mnpPktCodec (relayed slot pkts) images 0 []
  rw [listen_relays pkts slot sendable, forward_stream_eq, overlay_recvpkt_eq]
  rw [relayed_length, List.append_nil, calls, List.append_nil, Nat.add_zero] at exact
  rw [exact, got_all_values]

theorem seams_safe_of_keeps (pkts : List MnpPkt) (slot : MnpPkt)
    (sendable : ∀ pkt ∈ pkts, Sendable pkt) (clean : Clean markers slot.image)
    (keeps : RelayKeepsPackets slot pkts) : SeamsSafe slot pkts := by
  obtain ⟨conn, received, sent, returned, _⟩ := keeps
  rw [sendpkt_stream_eq pkts fun pkt member => (sendable pkt member).fits,
    Option.some.injEq] at sent
  rw [← sent, listen_relays pkts slot sendable, forward_stream_eq,
    overlay_recvpkt_eq] at returned
  rw [← relayed_clean_iff pkts slot clean sendable]
  rcases all_clean_or_first_dirty mnpPktCodec (relayed slot pkts) with
    images | ⟨good, bad, more, split, goodClean, dirty⟩
  · exact images
  · have count : pkts.length = good.length + (more.length + 1) := by
      rw [← relayed_length pkts slot, split]
      simp
    rw [split, count, calls_first_dirty mnpPktCodec good more bad goodClean dirty] at returned
    have last := congrArg List.getLast? returned
    cases final : received.getLast? <;> simp [Read.value?, final] at last

/-- Relaying keeps every packet exactly when no seam completes an end marker. -/
theorem relay_keeps_packets_iff (pkts : List MnpPkt) (slot : MnpPkt)
    (sendable : ∀ pkt ∈ pkts, Sendable pkt) (clean : Clean markers slot.image) :
    RelayKeepsPackets slot pkts ↔ SeamsSafe slot pkts :=
  ⟨seams_safe_of_keeps pkts slot sendable clean,
    keeps_of_seams_safe pkts slot sendable clean⟩

theorem cleared_image_clean : Clean markers MnpPkt.cleared.image := by
  apply clean_of_no_escape
  rw [cleared_image, List.mem_replicate]
  exact fun member => absurd member.2 (by decide)

theorem relay_keeps_cleared_packet : RelayKeepsPackets MnpPkt.cleared [MnpPkt.cleared] := by
  refine (relay_keeps_packets_iff [MnpPkt.cleared] MnpPkt.cleared ?_ cleared_image_clean).mpr ?_
  · intro pkt member
    rw [List.mem_singleton.mp member]
    exact ⟨by decide, clean_of_no_escape (by decide +kernel)⟩
  · exact ⟨by decide +kernel, trivial⟩

def hashPacket : MnpPkt := ⟨⟨1, 2, 2, PktType.mnp⟩, padVector maxPktLen ['a'.toUInt8, '#'.toUInt8]⟩

def bangPacket : MnpPkt := ⟨⟨1, 2, 1, PktType.mnp⟩, padVector maxPktLen ['!'.toUInt8]⟩

/-- Neither packet has `!#` in it and neither has the cleared variable, but the
`!` of the second lands in front of the `#` of the first. -/
theorem stale_byte_breaks_relay :
    (∀ pkt ∈ [hashPacket, bangPacket], Sendable pkt) ∧
      Clean markers MnpPkt.cleared.image ∧
      ¬ RelayKeepsPackets MnpPkt.cleared [hashPacket, bangPacket] := by
  have sendable : ∀ pkt ∈ [hashPacket, bangPacket], Sendable pkt := by
    intro pkt member
    rcases List.mem_pair.mp member with rfl | rfl
    · exact ⟨by decide, by decide +kernel⟩
    · exact ⟨by decide, by decide +kernel⟩
  refine ⟨sendable, cleared_image_clean, fun keeps => ?_⟩
  have safe := seams_safe_of_keeps _ _ sendable cleared_image_clean keeps
  exact safe.2.1 (by decide +kernel)

end MiniOverlay
