import MiniOverlay.PacketIo

/-!
# The thread that listens to one neighbour

`listen_to_neighbor` of `overlay/overlay.c`: one packet variable, a loop on the
return value of `recvpkt`, and a packet to the MNP process for every turn of
the loop. The loop tests `recvpkt` for zero, and `recvpkt` reports the end of
the stream with `-1`.
-/

namespace MiniOverlay

open DelimitedFrames FixedByteCodec

set_option autoImplicit false

inductive ListenExit where
  | inLoop (pkt : MnpPkt) (conn : List Byte)
  | left
  | crashed
  deriving DecidableEq

/-- The packets passed to `forwardpktToMNP`, in order, and where the thread is. -/
structure ListenRun where
  forwarded : List MnpPkt
  exit : ListenExit
  deriving DecidableEq

/-- At most `turns` turns of the loop, from the packet variable and the bytes
the neighbour sends before it closes. Leaving the loop closes the connection
and ends the thread. -/
def listenToNeighbor : Nat → MnpPkt → List Byte → ListenRun
  | 0, pkt, conn => ⟨[], .inLoop pkt conn⟩
  | turns + 1, pkt, conn =>
      match recvpkt pkt conn with
      | none => ⟨[], .crashed⟩
      | some (status, received, rest) =>
          if status ≠ 0 then
            let later := listenToNeighbor turns received rest
            ⟨received :: later.forwarded, later.exit⟩
          else ⟨[], .left⟩

/-- The packets that successive calls of `recvpkt` decode before one of them
reports the end of the stream. -/
inductive Decodes : MnpPkt → List Byte → List MnpPkt → Prop where
  | ended {pkt left : MnpPkt} {conn rest : List Byte}
      (returned : recvpkt pkt conn = some (-1, left, rest)) : Decodes pkt conn []
  | packet {pkt received : MnpPkt} {conn rest : List Byte} {decoded : List MnpPkt}
      (returned : recvpkt pkt conn = some (1, received, rest))
      (later : Decodes received rest decoded) : Decodes pkt conn (received :: decoded)

theorem listen_step (turns : Nat) (pkt received : MnpPkt) (conn rest : List Byte) (status : Int)
    (returned : recvpkt pkt conn = some (status, received, rest)) :
    listenToNeighbor (turns + 1) pkt conn =
      ⟨received :: (listenToNeighbor turns received rest).forwarded,
        (listenToNeighbor turns received rest).exit⟩ := by
  have nonzero : status ≠ 0 := by
    rcases recvpkt_status pkt received conn rest status returned with rfl | rfl <;> decide
  simp [listenToNeighbor, returned, nonzero]

/-- No return value of `recvpkt` is zero, so no turn leaves the loop. -/
theorem listen_never_leaves (turns : Nat) (pkt : MnpPkt) (conn : List Byte) :
    (listenToNeighbor turns pkt conn).exit ≠ .left := by
  induction turns generalizing pkt conn with
  | zero => simp [listenToNeighbor]
  | succ turns ih =>
      cases returned : recvpkt pkt conn with
      | none => simp [listenToNeighbor, returned]
      | some result =>
          obtain ⟨status, received, rest⟩ := result
          rw [listen_step turns pkt received conn rest status returned]
          exact ih received rest

theorem listen_replays (turns : Nat) (pkt : MnpPkt) :
    listenToNeighbor turns pkt [] = ⟨List.replicate turns pkt, .inLoop pkt []⟩ := by
  induction turns with
  | zero => rfl
  | succ turns ih =>
      rw [listen_step turns pkt pkt [] [] (-1) (recvpkt_closed pkt), ih]
      rfl

/-- The thread forwards exactly the decoded packets, once each and in order,
and leaves its loop at the end of the stream. -/
def RelaysOnce (pkt : MnpPkt) (conn : List Byte) : Prop :=
  ∃ turns decoded, Decodes pkt conn decoded ∧
    listenToNeighbor turns pkt conn = ⟨decoded, .left⟩

theorem not_relays_once (pkt : MnpPkt) (conn : List Byte) : ¬ RelaysOnce pkt conn := by
  rintro ⟨turns, decoded, _, run⟩
  exact listen_never_leaves turns pkt conn (by rw [run])

/-- A neighbour that closes at once: one turn forwards the uninitialised
variable, and no number of turns leaves the loop. -/
theorem closed_neighbor_not_relayed_once :
    (listenToNeighbor 1 MnpPkt.cleared []).forwarded = [MnpPkt.cleared] ∧
      ¬ RelaysOnce MnpPkt.cleared [] := by
  refine ⟨by rw [listen_replays]; rfl, ?_⟩
  rintro ⟨turns, decoded, _, run⟩
  rw [listen_replays] at run
  exact ListenExit.noConfusion (congrArg ListenRun.exit run)

end MiniOverlay
