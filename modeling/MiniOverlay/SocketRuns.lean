import MiniOverlay.ClientReconnect

/-!
# What the calls on a client socket keep

A property of the send buffer that every operation on it keeps is kept by the
calls, the timer and the waits of a socket, whatever segments come in. The
operations keep the list in order even when an acknowledgement has gone past what
was sent; `sendBufunSent` may then lead to a freed cell.
-/

namespace MiniOverlay

open LinkedHeap FixedByteCodec PartialRuns

set_option autoImplicit false

structure SamePointers (table other : ClientTcb) : Prop where
  head : other.sendBufHead = table.sendBufHead
  unSent : other.sendBufunSent = table.sendBufunSent
  tail : other.sendBufTail = table.sendBufTail
  unAck : other.unAckSegNum = table.unAckSegNum
  next : other.nextSeqNum = table.nextSeqNum

structure KeptByCalls (keep : Client → Prop) : Prop where
  table : ∀ client table, SamePointers client.tcb table → keep client → keep ⟨client.heap, table⟩
  alloc : ∀ client cell, keep client → keep ⟨(alloc client.heap cell).1, client.tcb⟩
  append : ∀ client after seg, FullSegment seg → queueSegment client seg = some after →
    keep client → keep after
  sending : ∀ now client after effects, sendBufferSending now client = some (after, effects) →
    keep client → keep after
  timeout : ∀ now client after effects, sendBufferTimeout now client = some (after, effects) →
    keep client → keep after
  empty : ∀ client, FreshBuffer client.tcb → keep client

section Calls

variable {keep : Client → Prop}

theorem KeptByCalls.sendTurn (kept : KeptByCalls keep) (data : List Byte) (segmentNumber : Nat)
    (index : Nat) {client after : Client} (keeps : keep client)
    (turned : mrtClientSendTurn data segmentNumber client index = some after) : keep after := by
  unfold mrtClientSendTurn at turned
  split_ifs at turned with last
  · cases turned
    exact kept.alloc client _ keeps
  · obtain ⟨chunk, _, queued⟩ := Option.bind_eq_some_iff.mp turned
    exact kept.append client after _ ⟨rfl, rfl⟩ queued keeps

theorem KeptByCalls.send (kept : KeptByCalls keep) (now : Nat → Timeval) (data : List Byte)
    {client after : Client} {value : Int} {effects : List ClientEffect} (keeps : keep client)
    (sent : mrtClientSend now client data = some (value, after, effects)) : keep after := by
  unfold mrtClientSend at sent
  cases state : client.tcb.state with
  | connected =>
      rw [state] at sent
      obtain ⟨queued, turned, sent⟩ := Option.bind_eq_some_iff.mp sent
      obtain ⟨⟨last, sends⟩, sending, sent⟩ := Option.bind_eq_some_iff.mp sent
      cases sent
      have filled := fold_keeps _ keep _
        (fun index _ before next beforeKeeps turn => kept.sendTurn data _ index beforeKeeps turn)
        keeps turned
      exact kept.sending now queued _ _ sending filled
  | closed =>
      rw [state] at sent
      cases sent
      exact keeps
  | synsent =>
      rw [state] at sent
      cases sent
      exact keeps
  | finwait =>
      rw [state] at sent
      cases sent
      exact keeps

theorem KeptByCalls.state (kept : KeptByCalls keep) (client : Client) (state : ClientState)
    (keeps : keep client) : keep ⟨client.heap, { client.tcb with state := state }⟩ :=
  kept.table client _ ⟨rfl, rfl, rfl, rfl, rfl⟩ keeps

theorem KeptByCalls.step (kept : KeptByCalls keep) {party next : Party} {event : PartyEvent}
    {effects : List ClientEffect} (keeps : keep party.client)
    (segment : ∀ now sourceNodeID seg after sends, event = .segment now sourceNodeID seg →
      clientSeghandler now party.client sourceNodeID seg = some (after, sends) → keep after)
    (stepped : party.callStep event = some (next, effects)) : keep next.client := by
  cases event with
  | connect nodeID serverPort =>
      cases caller : party.caller with
      | returned =>
          simp only [Party.callStep, caller, Party.step, mrtClientConnect] at stepped
          cases state : party.client.tcb.state <;> rw [state] at stepped <;> cases stepped <;>
            first | exact keeps | exact kept.table party.client _ ⟨rfl, rfl, rfl, rfl, rfl⟩ keeps
      | _ =>
          simp only [Party.callStep, caller] at stepped
          cases stepped
  | connectWake =>
      simp only [Party.callStep, Party.step] at stepped
      cases caller : party.caller <;> rw [caller] at stepped <;> cases stepped
      exact keeps
  | disconnect =>
      simp only [Party.callStep, Party.step] at stepped
      cases caller : party.caller <;> rw [caller] at stepped <;> try cases stepped
      simp only [mrtClientDisconnect] at stepped
      cases state : party.client.tcb.state <;> rw [state] at stepped <;> cases stepped <;>
        first | exact keeps | exact kept.state party.client .finwait keeps
  | disconnectWake =>
      simp only [Party.callStep, Party.step] at stepped
      cases caller : party.caller <;> rw [caller] at stepped <;> try cases stepped
      obtain ⟨⟨after, turn, sends⟩, turned, stepped⟩ := Option.bind_eq_some_iff.mp stepped
      have afterKeeps : keep after := by
        rcases disconnect_wake_cases turned with
          ⟨_, fresh, _⟩ | ⟨_, _, rfl, _⟩ | ⟨_, _, _, rfl⟩
        · exact kept.empty after fresh
        · exact keeps
        · exact kept.state party.client .closed keeps
      cases turn <;> cases stepped <;> exact afterKeeps
  | send now data =>
      obtain ⟨⟨value, after, sends⟩, sent, stepped⟩ := Option.bind_eq_some_iff.mp stepped
      cases stepped
      exact kept.send now data keeps sent
  | timeout now =>
      obtain ⟨⟨after, sends⟩, sent, stepped⟩ := Option.bind_eq_some_iff.mp stepped
      cases stepped
      exact kept.timeout now party.client after sends sent keeps
  | segment now sourceNodeID seg =>
      obtain ⟨⟨after, sends⟩, handled, stepped⟩ := Option.bind_eq_some_iff.mp stepped
      cases stepped
      exact segment now sourceNodeID seg after sends rfl handled

end Calls

theorem queued_tail {client after : Client} {seg : Seg}
    (queued : queueSegment client seg = some after) (null : client.tcb.sendBufTail = none) :
    client.tcb.sendBufHead = none := by
  by_contra filled
  have noCell (heap : Heap SegBuf) : read heap none = none := rfl
  simp only [queueSegment, sendBufferAppendSegment, null, if_neg filled, noCell,
    Option.bind_eq_bind, Option.bind_eq_some_iff] at queued
  obtain ⟨_, _, _, _, _, absent, _⟩ := queued
  cases absent

structure ReachesHead (client : Client) (sourceNodeID : Int32) (seg : Seg) : Prop where
  connected : client.tcb.state = .connected
  server : client.tcb.FromServer sourceNodeID seg
  dataack : seg.header.type = SegType.dataack
  head : ∃ cell, read client.heap client.tcb.sendBufHead = some cell ∧
    cell.val.seg.header.seqNum ≤ seg.header.ackNum

theorem handled_cases {now : Nat → Timeval} {client after : Client} {sourceNodeID : Int32}
    {seg : Seg} {effects : List ClientEffect}
    (handled : clientSeghandler now client sourceNodeID seg = some (after, effects)) :
    after.heap = client.heap ∧ SamePointers client.tcb after.tcb ∧ effects = [] ∨
      ReachesHead client sourceNodeID seg ∧ ∃ acknowledged,
        sendBufferRecvAck client seg.header.ackNum = some acknowledged ∧
          sendBufferSending now acknowledged = some (after, effects) := by
  cases client_handles handled with
  | nothing same quiet =>
      subst same
      exact Or.inl ⟨rfl, ⟨rfl, rfl, rfl, rfl, rfl⟩, quiet⟩
  | acknowledges middle cell connected server dataack held reached acknowledged sent =>
      exact Or.inr ⟨⟨connected, server, dataack, cell, held, reached⟩, middle, acknowledged, sent⟩
  | connects _ _ moved quiet =>
      subst moved
      exact Or.inl ⟨rfl, ⟨rfl, rfl, rfl, rfl, rfl⟩, quiet⟩
  | closes _ _ moved quiet =>
      subst moved
      exact Or.inl ⟨rfl, ⟨rfl, rfl, rfl, rfl, rfl⟩, quiet⟩

end MiniOverlay
