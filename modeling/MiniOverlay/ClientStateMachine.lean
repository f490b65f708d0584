import Mathlib.Data.List.TakeWhile
import MiniOverlay.SocketTraffic

/-!
# The documented state machine of the client

A SYNACK of the recorded server completes the connection and a FINACK of the
recorded server completes its end. `seghandler` compares the node of a FINACK
with the port of the server, and on a connected TCB it reads the head of the send
buffer for a message.
-/

namespace MiniOverlay

open LinkedHeap FixedByteCodec

set_option autoImplicit false

def ClientTcb.FromServer (table : ClientTcb) (sourceNodeID : Int32) (seg : Seg) : Prop :=
  table.svrNodeID = sourceNodeID.toUInt32 ∧ table.svrPortNum = seg.header.srcPort

instance (table : ClientTcb) (sourceNodeID : Int32) (seg : Seg) :
    Decidable (table.FromServer sourceNodeID seg) :=
  inferInstanceAs (Decidable (_ ∧ _))

def ClientTcb.documentedState (table : ClientTcb) (sourceNodeID : Int32) (seg : Seg) :
    ClientState :=
  match table.state with
  | .synsent =>
      if seg.header.type = SegType.synack ∧ table.FromServer sourceNodeID seg then .connected
      else .synsent
  | .finwait =>
      if seg.header.type = SegType.finack ∧ table.FromServer sourceNodeID seg then .closed
      else .finwait
  | .connected => .connected
  | .closed => .closed

/-- A FINACK from the server's port that is taken for the server's by the number
of its node when it is not, or the other way round. -/
structure MistakesSource (table : ClientTcb) (sourceNodeID : Int32) (seg : Seg) : Prop where
  finwait : table.state = .finwait
  finack : seg.header.type = SegType.finack
  port : table.svrPortNum = seg.header.srcPort
  node : ¬ (table.svrNodeID = sourceNodeID.toUInt32 ↔ table.svrPortNum = sourceNodeID.toUInt32)

/-- The message about a segment other than the server's DATAACK is printed while
the send buffer is empty. -/
structure PrintsEmptyBuffer (table : ClientTcb) (sourceNodeID : Int32) (seg : Seg) : Prop where
  connected : table.state = .connected
  empty : table.sendBufHead = none
  other : ¬ (table.FromServer sourceNodeID seg ∧ seg.header.type = SegType.dataack)

def FollowsClientFsm (now : Nat → Timeval) (client : Client) (sourceNodeID : Int32) (seg : Seg) :
    Prop :=
  ∃ after effects, clientSeghandler now client sourceNodeID seg = some (after, effects) ∧
    after.tcb.state = client.tcb.documentedState sourceNodeID seg

/-- The send buffer as the other functions leave it, with fewer unsent segments
than `unAck_segNum` can count. -/
def WholeBuffer (client : Client) : Prop :=
  ∃ sent unsent, Holds client sent unsent ∧ unsent.length + gbnWindow ≤ UInt32.size

theorem sending_loop_defined (now : Nat → Timeval) (turns : Nat) (client : Client)
    (cells : List (Nat × SegBuf)) (owns : Owns client.heap client.tcb.sendBufunSent cells) :
    ∃ result, sendBufferSendingLoop now turns client = some result := by
  induction turns generalizing client cells with
  | zero => exact ⟨_, rfl⟩
  | succ turns ih =>
      by_cases ready : client.tcb.unAckSegNum.toNat < gbnWindow ∧ client.tcb.sendBufunSent ≠ none
      · cases cells with
        | nil => exact absurd owns.chain ready.2
        | cons entry rest =>
            obtain ⟨head, held⟩ := owns_head owns
            have split : Owns client.heap client.tcb.sendBufunSent ([entry] ++ rest) := owns
            have restOwns := owns_suffix split
            let heap := client.heap.set entry.1
              (some ⟨⟨entry.2.seg, (now turns).stamp 1000⟩, firstPtr rest⟩)
            have stamped : Owns heap (firstPtr rest) rest :=
              ⟨chain_set restOwns.chain (List.nodup_cons.mp owns.nodup).1 _, restOwns.nodup⟩
            have later (unSent : Ptr) (stops : unSent = firstPtr rest ∨ unSent = none) :
                ∃ result, sendBufferSendingLoop now turns ⟨heap, { client.tcb with
                  unAckSegNum := client.tcb.unAckSegNum + 1
                  sendBufunSent := unSent }⟩ = some result := by
              rcases stops with rfl | rfl
              · exact ih _ rest stamped
              · exact ih _ [] ⟨rfl, List.nodup_nil⟩
            obtain ⟨result, run⟩ := later
              (if client.tcb.sendBufunSent ≠ client.tcb.sendBufTail then firstPtr rest else none)
              (by split_ifs <;> simp)
            rw [sendBufferSendingLoop, if_pos ready]
            simp only [head, held, write, store_of_read held, Option.bind_eq_bind,
              Option.bind_some]
            rw [head] at run
            rw [run]
            exact ⟨_, rfl⟩
      · exact ⟨_, by rw [sendBufferSendingLoop]; exact if_neg ready⟩

theorem overtaken_window (unAckSegNum : UInt32) (sent gone unsent : Nat)
    (counted : unAckSegNum.toNat = sent) (overtakes : sent < gone)
    (inside : gone ≤ sent + unsent) (few : unsent + gbnWindow ≤ UInt32.size) :
    gbnWindow ≤ (unAckSegNum - UInt32.ofNat gone).toNat := by
  rw [UInt32.toNat_sub, UInt32.toNat_ofNat', counted]
  simp only [gbnWindow, UInt32.size] at few ⊢
  omega

def covers (ackSeqnum : UInt32) (entry : Nat × SegBuf) : Bool :=
  entry.2.seg.header.seqNum < ackSeqnum

theorem recv_ack_covered (client : Client) (cells : List (Nat × SegBuf)) (ackSeqnum : UInt32)
    (owns : Owns client.heap client.tcb.sendBufHead cells)
    (tail : client.tcb.sendBufTail = lastPtr cells) (filled : cells ≠ []) :
    ∃ acknowledged, sendBufferRecvAck client ackSeqnum = some acknowledged ∧
      Removes ackSeqnum client acknowledged (cells.takeWhile (covers ackSeqnum))
        (cells.dropWhile (covers ackSeqnum)) := by
  have split : cells.takeWhile (covers ackSeqnum) ++ cells.dropWhile (covers ackSeqnum) = cells :=
    List.takeWhile_append_dropWhile
  apply recv_ack_removes client _ _ ackSeqnum (split.symm ▸ owns) (split.symm ▸ tail)
    (split.symm ▸ filled)
  · intro entry member
    simpa [covers] using List.mem_takeWhile_imp member
  · intro entry member
    have stopped := List.head?_dropWhile_not (covers ackSeqnum) cells
    rw [Option.mem_def.mp member] at stopped
    simpa [covers] using stopped

theorem acknowledgement_defined (now : Nat → Timeval) (client : Client)
    (sent unsent : List (Nat × SegBuf)) (buffer : SendBuffer client sent unsent)
    (few : unsent.length + gbnWindow ≤ UInt32.size) (filled : sent ++ unsent ≠ [])
    (ackSeqnum : UInt32) :
    ∃ acknowledged result, sendBufferRecvAck client ackSeqnum = some acknowledged ∧
      sendBufferSending now acknowledged = some result := by
  obtain ⟨acknowledged, run, removes⟩ :=
    recv_ack_covered client (sent ++ unsent) ackSeqnum buffer.owns buffer.tail filled
  have split : (sent ++ unsent).takeWhile (covers ackSeqnum) ++
      (sent ++ unsent).dropWhile (covers ackSeqnum) = sent ++ unsent :=
    List.takeWhile_append_dropWhile
  generalize (sent ++ unsent).takeWhile (covers ackSeqnum) = gone at removes split
  generalize (sent ++ unsent).dropWhile (covers ackSeqnum) = rest at removes split
  have lengths := congrArg List.length split
  rw [List.length_append, List.length_append] at lengths
  by_cases overtakes : sent.length < gone.length
  · have closed := overtaken_window client.tcb.unAckSegNum sent.length gone.length unsent.length
      buffer.unAck overtakes (by omega) few
    have notReady : ¬ (acknowledged.tcb.unAckSegNum.toNat < gbnWindow ∧
        acknowledged.tcb.sendBufunSent ≠ none) := by
      rw [removes.unAck]
      exact fun ready => absurd ready.1 (Nat.not_lt.mpr closed)
    refine ⟨acknowledged, (acknowledged, []), run, ?_⟩
    exact if_neg notReady
  · have unsentBehind : ∃ kept, rest = kept ++ unsent := by
      rcases List.append_eq_append_iff.mp split.symm with ⟨beyond, longer, same⟩ | ⟨kept, _, same⟩
      · have nothing : beyond = [] := by
          rw [longer, List.length_append] at overtakes
          exact List.length_eq_zero_iff.mp (by omega)
        exact ⟨[], by rw [same, nothing]; rfl⟩
      · exact ⟨kept, same⟩
    obtain ⟨kept, rfl⟩ := unsentBehind
    have unsentOwns : Owns acknowledged.heap acknowledged.tcb.sendBufunSent unsent := by
      rw [removes.unSent, buffer.unSent]
      exact owns_suffix removes.owns
    obtain ⟨result, sending⟩ := sending_loop_defined now gbnWindow acknowledged unsent unsentOwns
    exact ⟨acknowledged, result, run, sending⟩

theorem synsent_handled (now : Nat → Timeval) (client : Client) (sourceNodeID : Int32) (seg : Seg)
    (synsent : client.tcb.state = .synsent) :
    FollowsClientFsm now client sourceNodeID seg := by
  simp only [FollowsClientFsm, clientSeghandler, ClientTcb.documentedState, synsent]
  by_cases answered : seg.header.type = SegType.synack ∧ client.tcb.FromServer sourceNodeID seg
  · rw [if_pos answered, if_pos ⟨answered.1, answered.2.2, answered.2.1⟩]
    exact ⟨_, _, rfl, rfl⟩
  · rw [if_neg answered, if_neg fun fits => answered ⟨fits.1, fits.2.2, fits.2.1⟩]
    exact ⟨_, _, rfl, synsent⟩

theorem closed_handled (now : Nat → Timeval) (client : Client) (sourceNodeID : Int32) (seg : Seg)
    (closed : client.tcb.state = .closed) :
    FollowsClientFsm now client sourceNodeID seg := by
  simp only [FollowsClientFsm, clientSeghandler, ClientTcb.documentedState, closed]
  exact ⟨_, _, rfl, closed⟩

theorem finwait_handled (now : Nat → Timeval) (client : Client) (sourceNodeID : Int32) (seg : Seg)
    (finwait : client.tcb.state = .finwait) :
    ∃ after effects, clientSeghandler now client sourceNodeID seg = some (after, effects) ∧
      (after.tcb.state = client.tcb.documentedState sourceNodeID seg ↔
        ¬ MistakesSource client.tcb sourceNodeID seg) := by
  have mistaken : MistakesSource client.tcb sourceNodeID seg ↔
      seg.header.type = SegType.finack ∧ client.tcb.svrPortNum = seg.header.srcPort ∧
        ¬ (client.tcb.svrNodeID = sourceNodeID.toUInt32 ↔
          client.tcb.svrPortNum = sourceNodeID.toUInt32) :=
    ⟨fun mistakes => ⟨mistakes.finack, mistakes.port, mistakes.node⟩,
      fun ⟨finack, port, node⟩ => ⟨finwait, finack, port, node⟩⟩
  simp only [clientSeghandler, ClientTcb.documentedState, finwait, mistaken]
  by_cases relevant : seg.header.type = SegType.finack ∧ client.tcb.svrPortNum = seg.header.srcPort
  · obtain ⟨finack, port⟩ := relevant
    simp only [finack, port, true_and, and_true]
    have server : client.tcb.FromServer sourceNodeID seg ↔
        client.tcb.svrNodeID = sourceNodeID.toUInt32 := and_iff_left port
    by_cases node : client.tcb.svrNodeID = sourceNodeID.toUInt32
    · by_cases closes : seg.header.srcPort = sourceNodeID.toUInt32
      · exact ⟨_, _, if_pos closes, by simp [server, node, closes]⟩
      · exact ⟨_, _, if_neg closes, by simp [server, node, closes, finwait]⟩
    · by_cases closes : seg.header.srcPort = sourceNodeID.toUInt32
      · exact ⟨_, _, if_pos closes, by simp [server, node, closes]⟩
      · exact ⟨_, _, if_neg closes, by simp [server, node, closes, finwait]⟩
  · refine ⟨client, [], if_neg fun closes => relevant ⟨closes.1, closes.2.2⟩, ?_⟩
    rw [if_neg fun closes => relevant ⟨closes.1, closes.2.2⟩]
    exact iff_of_true finwait fun mistakes => relevant ⟨mistakes.1, mistakes.2.1⟩

theorem follows_documented {now : Nat → Timeval} {client after : Client} {sourceNodeID : Int32}
    {seg : Seg} {effects : List ClientEffect}
    (follows : FollowsClientFsm now client sourceNodeID seg)
    (handled : clientSeghandler now client sourceNodeID seg = some (after, effects)) :
    after.tcb.state = client.tcb.documentedState sourceNodeID seg := by
  obtain ⟨after', effects', handled', state⟩ := follows
  rw [handled] at handled'
  cases handled'
  exact state

theorem finwait_follows_iff (now : Nat → Timeval) (client : Client) (sourceNodeID : Int32)
    (seg : Seg) (finwait : client.tcb.state = .finwait) :
    FollowsClientFsm now client sourceNodeID seg ↔
      ¬ MistakesSource client.tcb sourceNodeID seg := by
  obtain ⟨after, effects, handled, result⟩ := finwait_handled now client sourceNodeID seg finwait
  rw [← result]
  constructor
  · exact fun follows => follows_documented follows handled
  · exact fun reached => ⟨after, effects, handled, reached⟩

theorem mistaken_not_followed (now : Nat → Timeval) (client : Client) (sourceNodeID : Int32)
    (seg : Seg) (mistakes : MistakesSource client.tcb sourceNodeID seg) :
    ¬ FollowsClientFsm now client sourceNodeID seg := by
  intro follows
  exact (finwait_follows_iff now client sourceNodeID seg mistakes.finwait).mp follows mistakes

theorem connected_keeps_state (now : Nat → Timeval) (client after : Client)
    (sourceNodeID : Int32) (seg : Seg) (effects : List ClientEffect)
    (connected : client.tcb.state = .connected)
    (handled : clientSeghandler now client sourceNodeID seg = some (after, effects)) :
    after.tcb.state = .connected := by
  have everything : client.Keeps fun _ => True := fun _ _ _ => trivial
  rcases client_handled_cases now sourceNodeID seg handled everything with kept | ⟨_, moves⟩
  · exact (congrArg ClientEnds.state kept.ends).trans connected
  · rcases moves with ⟨synsent, _, _⟩ | ⟨finwait, _⟩
    · rw [connected] at synsent
      cases synsent
    · rw [connected] at finwait
      cases finwait

theorem connected_defined_iff (now : Nat → Timeval) {client : Client} (sourceNodeID : Int32)
    (seg : Seg) (connected : client.tcb.state = .connected)
    (readable : client.tcb.sendBufHead = none ∨
      ∃ cell, read client.heap client.tcb.sendBufHead = some cell) :
    (∃ result, clientSeghandler now client sourceNodeID seg = some result) ↔
      ¬ PrintsEmptyBuffer client.tcb sourceNodeID seg ∧
        ∀ cell, client.tcb.FromServer sourceNodeID seg → seg.header.type = SegType.dataack →
          read client.heap client.tcb.sendBufHead = some cell →
            cell.val.seg.header.seqNum ≤ seg.header.ackNum →
              ∃ result, (sendBufferRecvAck client seg.header.ackNum).bind
                (sendBufferSending now) = some result := by
  simp only [clientSeghandler, connected]
  by_cases answer : client.tcb.svrNodeID = sourceNodeID.toUInt32 ∧
      client.tcb.svrPortNum = seg.header.srcPort ∧ seg.header.type = SegType.dataack
  · have server : client.tcb.FromServer sourceNodeID seg := ⟨answer.1, answer.2.1⟩
    have quiet : ¬ PrintsEmptyBuffer client.tcb sourceNodeID seg :=
      fun prints => prints.other ⟨server, answer.2.2⟩
    rw [if_pos answer, and_iff_right quiet]
    by_cases empty : client.tcb.sendBufHead = none
    · rw [if_pos empty]
      refine iff_of_true ⟨_, rfl⟩ fun cell _ _ held => ?_
      rw [empty] at held
      cases held
    · obtain ⟨cell, held⟩ := readable.resolve_left empty
      simp only [if_neg empty, held, Option.bind_eq_bind, Option.bind_some]
      by_cases reached : seg.header.ackNum ≥ cell.val.seg.header.seqNum
      · rw [if_pos reached]
        constructor
        · exact fun defined _ _ _ _ _ => defined
        · exact fun defined => defined cell server answer.2.2 rfl reached
      · rw [if_neg reached]
        refine iff_of_true ⟨_, rfl⟩ fun other _ _ same reaches => ?_
        obtain rfl := Option.some.inj same
        exact absurd reaches reached
  · have stranger : ¬ (client.tcb.FromServer sourceNodeID seg ∧
        seg.header.type = SegType.dataack) :=
      fun both => answer ⟨both.1.1, both.1.2, both.2⟩
    have elsewhere : ∀ cell : Cell SegBuf, client.tcb.FromServer sourceNodeID seg →
        seg.header.type = SegType.dataack → read client.heap client.tcb.sendBufHead = some cell →
          cell.val.seg.header.seqNum ≤ seg.header.ackNum →
            ∃ result, (sendBufferRecvAck client seg.header.ackNum).bind
              (sendBufferSending now) = some result :=
      fun _ server dataack => absurd ⟨server, dataack⟩ stranger
    rw [if_neg answer, and_iff_left elsewhere]
    rcases readable with empty | ⟨cell, held⟩
    · rw [empty]
      refine iff_of_false ?_ fun prints => prints ⟨connected, empty, stranger⟩
      rintro ⟨result, undefined⟩
      cases undefined
    · rw [held]
      refine iff_of_true ⟨_, rfl⟩ fun prints => ?_
      rw [prints.empty] at held
      cases held

theorem unconnected_defined (now : Nat → Timeval) {client : Client} (sourceNodeID : Int32)
    (seg : Seg) (elsewhere : client.tcb.state ≠ .connected) :
    ∃ result, clientSeghandler now client sourceNodeID seg = some result := by
  cases state : client.tcb.state with
  | connected => exact absurd state elsewhere
  | synsent =>
      obtain ⟨after, effects, handled, _⟩ := synsent_handled now client sourceNodeID seg state
      exact ⟨_, handled⟩
  | finwait =>
      obtain ⟨after, effects, handled, _⟩ := finwait_handled now client sourceNodeID seg state
      exact ⟨_, handled⟩
  | closed =>
      obtain ⟨after, effects, handled, _⟩ := closed_handled now client sourceNodeID seg state
      exact ⟨_, handled⟩

theorem holds_readable {client : Client} {sent unsent : List Seg}
    (holds : Holds client sent unsent) : client.tcb.sendBufHead = none ∨
      ∃ cell, read client.heap client.tcb.sendBufHead = some cell :=
  (holds_head holds).imp And.left fun ⟨_, cell, _, held, _⟩ => ⟨cell, held⟩

theorem connected_handled_iff (now : Nat → Timeval) (client : Client) (sourceNodeID : Int32)
    (seg : Seg) (connected : client.tcb.state = .connected) (whole : WholeBuffer client) :
    (∃ result, clientSeghandler now client sourceNodeID seg = some result) ↔
      ¬ PrintsEmptyBuffer client.tcb sourceNodeID seg := by
  obtain ⟨_, _, ⟨sent, unsent, buffer, rfl, rfl⟩, few⟩ := whole
  rw [entrySegs, List.length_map] at few
  have holds : Holds client (entrySegs sent) (entrySegs unsent) :=
    ⟨sent, unsent, buffer, rfl, rfl⟩
  rw [connected_defined_iff now sourceNodeID seg connected (holds_readable holds)]
  apply and_iff_left
  intro cell _ _ held _
  have nonempty : sent ++ unsent ≠ [] := by
    intro empty
    have owns := buffer.owns
    rw [empty] at owns
    rw [chain_first owns.chain] at held
    cases held
  obtain ⟨acknowledged, result, run, sending⟩ := acknowledgement_defined now client sent
    unsent buffer few nonempty seg.header.ackNum
  rw [run, Option.bind_some]
  exact ⟨result, sending⟩

theorem connected_state_documented {now : Nat → Timeval} {client after : Client}
    {sourceNodeID : Int32} {seg : Seg} {effects : List ClientEffect}
    (connected : client.tcb.state = .connected)
    (handled : clientSeghandler now client sourceNodeID seg = some (after, effects)) :
    after.tcb.state = client.tcb.documentedState sourceNodeID seg := by
  rw [connected_keeps_state now client after sourceNodeID seg effects connected handled,
    ClientTcb.documentedState, connected]

theorem connected_follows_iff (now : Nat → Timeval) (client : Client) (sourceNodeID : Int32)
    (seg : Seg) (connected : client.tcb.state = .connected) (whole : WholeBuffer client) :
    FollowsClientFsm now client sourceNodeID seg ↔
      ¬ PrintsEmptyBuffer client.tcb sourceNodeID seg := by
  rw [← connected_handled_iff now client sourceNodeID seg connected whole]
  constructor
  · rintro ⟨after, effects, handled, _⟩
    exact ⟨(after, effects), handled⟩
  · rintro ⟨⟨after, effects⟩, handled⟩
    exact ⟨after, effects, handled, connected_state_documented connected handled⟩

theorem mistakes_finwait {client : Client} {sourceNodeID : Int32} {seg : Seg}
    (elsewhere : client.tcb.state ≠ .finwait) : ¬ MistakesSource client.tcb sourceNodeID seg :=
  fun mistakes => elsewhere mistakes.finwait

theorem prints_connected {client : Client} {sourceNodeID : Int32} {seg : Seg}
    (elsewhere : client.tcb.state ≠ .connected) :
    ¬ PrintsEmptyBuffer client.tcb sourceNodeID seg :=
  fun prints => elsewhere prints.connected

theorem documented_state_iff (now : Nat → Timeval) (client : Client) (sourceNodeID : Int32)
    (seg : Seg) :
    (∀ after effects, clientSeghandler now client sourceNodeID seg = some (after, effects) →
        after.tcb.state = client.tcb.documentedState sourceNodeID seg) ↔
      ¬ MistakesSource client.tcb sourceNodeID seg := by
  cases state : client.tcb.state with
  | closed =>
      have follows := closed_handled now client sourceNodeID seg state
      exact iff_of_true (fun _ _ => follows_documented follows) (mistakes_finwait (by simp [state]))
  | synsent =>
      have follows := synsent_handled now client sourceNodeID seg state
      exact iff_of_true (fun _ _ => follows_documented follows) (mistakes_finwait (by simp [state]))
  | connected =>
      exact iff_of_true (fun _ _ => connected_state_documented state)
        (mistakes_finwait (by simp [state]))
  | finwait =>
      obtain ⟨after, effects, handled, result⟩ := finwait_handled now client sourceNodeID seg state
      rw [← result]
      constructor
      · exact fun all => all after effects handled
      · intro reached
        exact fun _ _ => follows_documented ⟨after, effects, handled, reached⟩

theorem whole_buffer_follows_iff (now : Nat → Timeval) (client : Client) (sourceNodeID : Int32)
    (seg : Seg) (whole : WholeBuffer client) :
    FollowsClientFsm now client sourceNodeID seg ↔
      ¬ MistakesSource client.tcb sourceNodeID seg ∧
        ¬ PrintsEmptyBuffer client.tcb sourceNodeID seg := by
  cases state : client.tcb.state with
  | closed =>
      exact iff_of_true (closed_handled now client sourceNodeID seg state)
        ⟨mistakes_finwait (by simp [state]), prints_connected (by simp [state])⟩
  | synsent =>
      exact iff_of_true (synsent_handled now client sourceNodeID seg state)
        ⟨mistakes_finwait (by simp [state]), prints_connected (by simp [state])⟩
  | connected =>
      rw [and_iff_right (mistakes_finwait (by simp [state]))]
      exact connected_follows_iff now client sourceNodeID seg state whole
  | finwait =>
      rw [and_iff_left (prints_connected (by simp [state]))]
      exact finwait_follows_iff now client sourceNodeID seg state

/-- The state changes as documented exactly when a FINACK's source is not mistaken,
and with a whole buffer there is such a change exactly when no empty buffer is read
either. -/
theorem client_fsm_iff (now : Nat → Timeval) (client : Client) (sourceNodeID : Int32) (seg : Seg) :
    ((∀ after effects, clientSeghandler now client sourceNodeID seg = some (after, effects) →
        after.tcb.state = client.tcb.documentedState sourceNodeID seg) ↔
      ¬ MistakesSource client.tcb sourceNodeID seg) ∧
    (WholeBuffer client → (FollowsClientFsm now client sourceNodeID seg ↔
      ¬ MistakesSource client.tcb sourceNodeID seg ∧
        ¬ PrintsEmptyBuffer client.tcb sourceNodeID seg)) := by
  constructor
  · exact documented_state_iff now client sourceNodeID seg
  · intro whole
    exact whole_buffer_follows_iff now client sourceNodeID seg whole

def finwaitClient : Client :=
  ⟨establishedClient.heap, { establishedClient.tcb with state := .finwait }⟩

def serverFinack : Seg :=
  { Seg.cleared with
    header := { MrtHdr.cleared with type := SegType.finack, srcPort := 200, destPort := 100 } }

/-- The FINACK of the server does not close the connection, and a FINACK of node
200 does. -/
theorem finack_not_followed :
    ¬ FollowsClientFsm (fun _ => ⟨0, 0⟩) finwaitClient 2 serverFinack ∧
      ¬ FollowsClientFsm (fun _ => ⟨0, 0⟩) finwaitClient 200 serverFinack := by
  constructor
  · apply mistaken_not_followed
    exact ⟨rfl, rfl, rfl, by decide⟩
  · apply mistaken_not_followed
    exact ⟨rfl, rfl, rfl, by decide⟩

end MiniOverlay
