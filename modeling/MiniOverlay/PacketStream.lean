import MiniOverlay.NeighborRelay

/-!
# Packets of every length between neighbours

A packet is sent with as many bytes as its header counts, and `recvpkt` takes what
lies between the delimiters, whatever its length, over one packet variable. Without
an end marker in the bytes that are sent, every call takes one frame and changes
only these bytes of the variable.
-/

namespace MiniOverlay

open DelimitedFrames FixedByteCodec

set_option autoImplicit false

/-- A call of `recvpkt`: its return value, the packet variable and the unread bytes. -/
structure RecvpktResult where
  status : Int
  slot : MnpPkt
  unread : List Byte

def recvpktCalls : Nat → MnpPkt → List Byte → Option (List RecvpktResult)
  | 0, _, _ => some []
  | count + 1, slot, conn =>
      match recvpkt slot conn with
      | some (status, received, rest) =>
          (recvpktCalls count received rest).map (⟨status, received, rest⟩ :: ·)
      | none => none

def MnpPkt.sentSize (pkt : MnpPkt) : Nat := sizeofMnpHdr + pkt.header.length.toNat

/-- The variable begins with what was sent and goes on as before. -/
structure Overlays (slot pkt received : MnpPkt) : Prop where
  sent : received.image.take pkt.sentSize = pkt.image.take pkt.sentSize
  kept : received.image.drop pkt.sentSize = slot.image.drop pkt.sentSize

/-- Every call returns 1, consumes what one `sendpkt` wrote and overlays the variable;
`last` is the variable behind them. -/
inductive TakesEach : MnpPkt → List Byte → List MnpPkt → List RecvpktResult → MnpPkt → Prop where
  | done (slot : MnpPkt) : TakesEach slot [] [] [] slot
  | frame {slot pkt received last : MnpPkt} {writes : List (List Byte)} {unread : List Byte}
      {pkts : List MnpPkt} {results : List RecvpktResult}
      (sends : sendpkt pkt = some writes) (overlays : Overlays slot pkt received)
      (later : TakesEach received unread pkts results last) :
      TakesEach slot (writes.flatten ++ unread) (pkt :: pkts) (⟨1, received, unread⟩ :: results)
        last

theorem recvpkt_calls_step {slot received : MnpPkt} {conn rest : List Byte} {status : Int}
    (count : Nat) (returned : recvpkt slot conn = some (status, received, rest)) :
    recvpktCalls (count + 1) slot conn =
      (recvpktCalls count received rest).map (⟨status, received, rest⟩ :: ·) := by
  rw [recvpktCalls, returned]

theorem overlays_copy (slot : MnpPkt) {pkt : MnpPkt} (sendable : Sendable pkt) :
    Overlays slot pkt (slot.copyInto pkt.sentBytes) := by
  have length := sent_bytes_length pkt sendable.fits
  have image := copy_into_image slot pkt.sentBytes (sendable_length sendable)
  constructor
  · rw [image, MnpPkt.sentSize, ← length, List.take_left, length, MnpPkt.sentBytes]
  · rw [image, MnpPkt.sentSize, ← length, List.drop_left]

theorem calls_take_each (pkts : List MnpPkt) (slot : MnpPkt)
    (sendable : ∀ pkt ∈ pkts, Sendable pkt) :
    ∃ results last,
      recvpktCalls (pkts.length + 1) slot
          (pkts.flatMap fun pkt => frameOf markers pkt.sentBytes) =
        some (results ++ [⟨-1, last, []⟩]) ∧
      TakesEach slot (pkts.flatMap fun pkt => frameOf markers pkt.sentBytes) pkts results last := by
  induction pkts generalizing slot with
  | nil => exact ⟨[], slot, rfl, .done slot⟩
  | cons pkt pkts ih =>
      have head := sendable pkt (by simp)
      obtain ⟨results, last, calls, takes⟩ := ih (slot.copyInto pkt.sentBytes)
        fun item member => sendable item (by simp [member])
      let unread := pkts.flatMap fun pkt => frameOf markers pkt.sentBytes
      have received := recvpkt_clean slot pkt.sentBytes unread head.clean (sendable_length head)
      have sends : sendpkt pkt = some (sendDelimited pkt.sentBytes) :=
        if_pos (Nat.add_le_add_left head.fits _)
      refine ⟨⟨1, slot.copyInto pkt.sentBytes, unread⟩ :: results, last, ?_, ?_⟩
      · rw [List.length_cons, List.flatMap_cons, recvpkt_calls_step _ received, calls]
        rfl
      · rw [List.flatMap_cons, ← send_delimited_flatten pkt.sentBytes]
        exact .frame sends (overlays_copy slot head) takes

/-- Packets that fit and have no end marker in what is sent of them are received one
by one, each over the variable of the call before; the call after the last one
returns -1 and leaves the variable alone. -/
theorem packet_stream_exact (pkts : List MnpPkt) (slot : MnpPkt)
    (sendable : ∀ pkt ∈ pkts, Sendable pkt) :
    ∃ conn results last, sendpktStream pkts = some conn ∧
      recvpktCalls (pkts.length + 1) slot conn = some (results ++ [⟨-1, last, []⟩]) ∧
      TakesEach slot conn pkts results last := by
  obtain ⟨results, last, calls, takes⟩ := calls_take_each pkts slot sendable
  have stream := sendpkt_stream_eq pkts fun pkt member => (sendable pkt member).fits
  exact ⟨_, results, last, stream, calls, takes⟩

theorem hash_bang_stream :
    ∃ conn results last, sendpktStream [hashPacket, bangPacket] = some conn ∧
      recvpktCalls 3 MnpPkt.cleared conn = some (results ++ [⟨-1, last, []⟩]) ∧
      TakesEach MnpPkt.cleared conn [hashPacket, bangPacket] results last := by
  apply packet_stream_exact [hashPacket, bangPacket] MnpPkt.cleared
  intro pkt member
  rcases List.mem_pair.mp member with rfl | rfl
  · exact ⟨by decide, by decide +kernel⟩
  · exact ⟨by decide, by decide +kernel⟩

end MiniOverlay
