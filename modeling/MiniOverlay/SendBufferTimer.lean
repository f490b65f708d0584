import MiniOverlay.SendBufferInvariant
import MiniOverlay.StreamSend

/-!
# The timer of the send buffer

A thread of `sendingBuffer_timer` is started when the first segment is sent and
ends at a turn that finds nothing unacknowledged. Calls and acknowledgements
refill the window before they end, so whatever is buffered is either sent or
behind a full window, and a thread is alive that will send it again.
-/

namespace MiniOverlay

open LinkedHeap FixedByteCodec

set_option autoImplicit false

def dataTimeout : Int64 := 100000

/-- What a turn of the loop of `sendingBuffer_timer` does after its wait. -/
inductive TimerTurn where
  | exits
  | goesOn (client : Client) (effects : List ClientEffect)

/-- One turn; the difference in the test is a `long`. -/
def sendingBufferTimerTurn (currentTime : Timeval) (now : Nat → Timeval) (client : Client) :
    Option TimerTurn :=
  if client.tcb.unAckSegNum = 0 then some .exits
  else do
    let cell ← read client.heap client.tcb.sendBufHead
    if cell.val.sentTime > 0 ∧ cell.val.sentTime.toUInt64.toInt64 <
        currentTime.tvSec * 1000000 + currentTime.tvUsec - dataTimeout then
      let result ← sendBufferTimeout now client
      return .goesOn result.1 result.2
    else return .goesOn client []

structure Sender where
  client : Client
  timers : Nat

inductive SenderEvent where
  | send (now : Nat → Timeval) (data : List Byte)
  | dataack (now : Nat → Timeval) (sourceNodeID : Int32) (segmentBuffer : Seg)
  | poll (currentTime : Timeval) (now : Nat → Timeval)

def Sender.polled (sender : Sender) : TimerTurn → Sender
  | .exits => { sender with timers := sender.timers - 1 }
  | .goesOn client _ => { sender with client := client }

def Sender.step (sender : Sender) : SenderEvent → Option Sender
  | .send now data => do
      let result ← mrtClientSend now sender.client data
      return ⟨result.2.1, sender.timers + timersStarted result.2.2⟩
  | .dataack now sourceNodeID segmentBuffer => do
      let result ← clientSeghandler now sender.client sourceNodeID segmentBuffer
      return ⟨result.1, sender.timers + timersStarted result.2⟩
  | .poll currentTime now =>
      if 0 < sender.timers then
        (sendingBufferTimerTurn currentTime now sender.client).map sender.polled
      else none

def SenderEvent.Allowed (sender : Sender) : SenderEvent → Prop
  | .send _ _ => True
  | .dataack _ _ segmentBuffer => AcknowledgesSent sender.client segmentBuffer
  | .poll _ _ => True

def SenderEvent.bytes : SenderEvent → Nat
  | .send _ data => data.length
  | .dataack _ _ _ => 0
  | .poll _ _ => 0

/-- The senders that events lead to, with the bytes handed to `mrt_client_send`. -/
inductive SenderReaches (start : Sender) : Sender → Nat → Prop where
  | start : SenderReaches start start 0
  | step {sender after : Sender} {bytes : Nat} (event : SenderEvent)
      (before : SenderReaches start sender bytes) (allowed : event.Allowed sender)
      (stepped : sender.step event = some after) :
      SenderReaches start after (bytes + event.bytes)

/-- With something buffered, something is sent, what is not sent waits for a full
window, and a timer thread is alive. -/
structure KeepsGoing (sender : Sender) : Prop where
  sent : 1 ≤ sender.client.tcb.unAckSegNum.toNat
  window : sender.client.tcb.unAckSegNum.toNat = gbnWindow ∨
    sender.client.tcb.sendBufunSent = none
  timer : 1 ≤ sender.timers

theorem sending_timers (now : Nat → Timeval) (client after : Client)
    (sent unsent : List Seg) (effects : List ClientEffect) (holds : Holds client sent unsent)
    (run : sendBufferSending now client = some (after, effects)) :
    timersStarted effects = if sent = [] ∧ unsent ≠ [] then 1 else 0 := by
  obtain ⟨sentCells, unsentCells, buffer, rfl, rfl⟩ := holds
  obtain ⟨after', effects', moved, rest, run', facts⟩ :=
    sending_loop_cells now gbnWindow client sentCells unsentCells buffer.intact
  obtain rfl := (Prod.mk.inj (Option.some.inj (run.symm.trans run'))).2
  have turns : gbnWindow ≠ 0 := by decide
  rw [facts.timers]
  simp only [turns, ne_eq, not_false_eq_true, and_true, entrySegs, List.map_eq_nil_iff]

def Going (client : Client) (timers queued : Nat) : Prop :=
  ∃ sent unsent, Numbers client sent unsent queued ∧
    (unsent = [] ∨ sent.length = gbnWindow) ∧ (sent ≠ [] → 1 ≤ timers)

theorem sending_going (now : Nat → Timeval) {client : Client} {sent unsent : List Seg}
    {queued timers : Nat} (numbers : Numbers client sent unsent queued)
    (timed : sent ≠ [] → 1 ≤ timers) :
    ∃ after effects, sendBufferSending now client = some (after, effects) ∧
      Going after (timers + timersStarted effects) queued := by
  obtain ⟨after, effects, moved, rest, run, split, afterNumbers, stop⟩ :=
    sending_numbers now numbers
  have started := sending_timers now client after sent unsent effects numbers.1 run
  have bounded := (holds_window afterNumbers.1).2
  refine ⟨after, effects, run, sent ++ moved, rest, afterNumbers, ?_, ?_⟩
  · rcases stop with nothing | full
    · exact Or.inl nothing
    · exact Or.inr (Nat.le_antisymm bounded full)
  · intro someSent
    by_cases before : sent = []
    · have moves : unsent ≠ [] := by
        intro nothing
        rw [nothing] at split
        have none := (List.append_eq_nil_iff.mp split.symm).1
        exact someSent (by rw [before, none]; rfl)
      rw [if_pos ⟨before, moves⟩] at started
      omega
    · have running := timed before
      omega

theorem numbered_from_of_numbered (start : UInt32) (segs : List Seg)
    (numbered : Numbered start segs) (nonempty : ∀ seg ∈ segs, 1 ≤ seg.header.length.toNat)
    (room : start.toNat + byteLength segs < UInt32.size) :
    NumberedFrom start.toNat segs ∧
      (endSeqNum start segs).toNat = start.toNat + byteLength segs := by
  induction segs generalizing start with
  | nil => exact ⟨trivial, rfl⟩
  | cons seg segs ih =>
      rw [byteLength] at room ⊢
      have sum : (start + seg.header.length.toUInt32).toNat =
          start.toNat + seg.header.length.toNat := by
        rw [UInt32.toNat_add, UInt16.toNat_toUInt32]
        apply Nat.mod_eq_of_lt
        have size : UInt32.size = 2 ^ 32 := rfl
        omega
      obtain ⟨tail, last⟩ := ih _ numbered.2
        (fun item member => nonempty item (by simp [member])) (by omega)
      rw [sum] at tail last
      refine ⟨⟨congrArg UInt32.toNat numbered.1, nonempty seg (by simp), tail⟩, ?_⟩
      rw [endSeqNum, last]
      omega

theorem full_queueable {seg : Seg} (full : FullSegment seg) : Queueable seg := by
  have length := full_length full
  exact ⟨full.type, by rw [length]; decide, Nat.le_of_eq length⟩

theorem queued_numbers {client queued : Client} {sent unsent added : List Seg} {bytes : Nat}
    (data : List Byte) (numbers : Numbers client sent unsent bytes)
    (room : bytes + data.length < UInt32.size) (holds : Holds queued sent (unsent ++ added))
    {count : Nat} (facts : Queued client queued data count added) :
    byteLength added ≤ data.length ∧
      Numbers queued sent (unsent ++ added) (bytes + byteLength added) := by
  obtain ⟨_, next, start, numbered, total⟩ := numbers
  have queueable : ∀ seg ∈ added, Queueable seg := fun seg member =>
    full_queueable (facts.full seg member)
  have size := payload_byte_length added queueable
  have fewer : byteLength added ≤ data.length := by
    rw [← size, facts.payload, List.length_take]
    exact Nat.min_le_right _ _
  obtain ⟨natural, last⟩ := numbered_from_of_numbered client.tcb.nextSeqNum added facts.numbered
    (fun seg member => (queueable seg member).nonempty) (by omega)
  rw [next] at natural last
  refine ⟨fewer, holds, by rw [facts.next, last], start, ?_, ?_⟩
  · rw [← List.append_assoc, numbered_from_append, total]
    exact ⟨numbered, natural⟩
  · rw [← List.append_assoc, byte_length_append, ← Nat.add_assoc, total]

theorem send_going (now : Nat → Timeval) {client after : Client} {timers queued : Nat}
    {value : Int} {effects : List ClientEffect} (data : List Byte)
    (going : Going client timers queued) (room : queued + data.length < UInt32.size)
    (called : mrtClientSend now client data = some (value, after, effects)) :
    ∃ more, more ≤ queued + data.length ∧ Going after (timers + timersStarted effects) more := by
  by_cases connected : client.tcb.state = .connected
  · have indexable : Indexable data := by
      by_contra past
      rw [client_send_overflows now client data connected past] at called
      cases called
    obtain ⟨sent, unsent, numbers, _, timed⟩ := going
    obtain ⟨filled, added, call, holds, facts⟩ :=
      client_send_turns now client sent unsent data numbers.1 connected indexable
    obtain ⟨fewer, filledNumbers⟩ := queued_numbers data numbers room holds facts
    obtain ⟨last, lastEffects, sending, lastGoing⟩ := sending_going now filledNumbers timed
    rw [call, sending] at called
    cases called
    exact ⟨_, Nat.add_le_add_left fewer queued, lastGoing⟩
  · have refused : mrtClientSend now client data = some (-1, client, []) := by
      unfold mrtClientSend
      cases state : client.tcb.state <;> first | rfl | exact absurd state connected
    rw [refused] at called
    cases called
    exact ⟨queued, Nat.le_add_right _ _, going⟩

theorem dataack_going (now : Nat → Timeval) {client after : Client} {timers queued : Nat}
    {effects : List ClientEffect} (sourceNodeID : Int32) (seg : Seg)
    (going : Going client timers queued) (acknowledges : AcknowledgesSent client seg)
    (handled : clientSeghandler now client sourceNodeID seg = some (after, effects)) :
    Going after (timers + timersStarted effects) queued := by
  rcases dataack_cases now sourceNodeID seg acknowledges.dataack handled with
    ⟨rfl, rfl⟩ | ⟨head, acknowledged, run, sending⟩
  · exact going
  · obtain ⟨sent, unsent, numbers, _, timed⟩ := going
    obtain ⟨shrunk, gone, kept, run', rfl, shrunkNumbers⟩ :=
      recv_ack_numbers numbers (numbers_filled numbers head) acknowledges.sent
    obtain rfl := Option.some.inj (run.symm.trans run')
    obtain ⟨last, lastEffects, sending', lastGoing⟩ := sending_going now shrunkNumbers
      fun left => timed (by simp [left])
    rw [sending] at sending'
    cases sending'
    exact lastGoing

theorem poll_going {sender : Sender} {queued : Nat} (currentTime : Timeval) (now : Nat → Timeval)
    {turn : TimerTurn} (going : Going sender.client sender.timers queued)
    (turned : sendingBufferTimerTurn currentTime now sender.client = some turn) :
    Going (sender.polled turn).client (sender.polled turn).timers queued := by
  obtain ⟨sent, unsent, numbers, refilled, timed⟩ := going
  have counted := (holds_window numbers.1).1
  unfold sendingBufferTimerTurn at turned
  split_ifs at turned with idle
  · cases turned
    rw [idle] at counted
    have nothing : sent = [] := List.length_eq_zero_iff.mp counted.symm
    exact ⟨sent, unsent, numbers, refilled, fun someSent => absurd nothing someSent⟩
  · obtain ⟨cell, _, turned⟩ := Option.bind_eq_some_iff.mp turned
    split_ifs at turned with late
    · obtain ⟨last, effects, run, lastNumbers⟩ := timeout_numbers now numbers
      rw [run] at turned
      cases turned
      exact ⟨sent, unsent, lastNumbers, refilled, timed⟩
    · cases turned
      exact ⟨sent, unsent, numbers, refilled, timed⟩

theorem sender_step_going {sender after : Sender} {event : SenderEvent} {queued bytes : Nat}
    (going : Going sender.client sender.timers queued) (fewer : queued ≤ bytes)
    (allowed : event.Allowed sender) (room : bytes + event.bytes < UInt32.size)
    (stepped : sender.step event = some after) :
    ∃ more, more ≤ bytes + event.bytes ∧ Going after.client after.timers more := by
  cases event with
  | send now data =>
      obtain ⟨⟨value, client, effects⟩, called, stepped⟩ := Option.bind_eq_some_iff.mp stepped
      cases stepped
      obtain ⟨more, bounded, next⟩ := send_going now data going
        (Nat.lt_of_le_of_lt (Nat.add_le_add_right fewer _) room) called
      exact ⟨more, Nat.le_trans bounded (Nat.add_le_add_right fewer _), next⟩
  | dataack now sourceNodeID seg =>
      obtain ⟨⟨client, effects⟩, handled, stepped⟩ := Option.bind_eq_some_iff.mp stepped
      cases stepped
      exact ⟨queued, fewer, dataack_going now sourceNodeID seg going allowed handled⟩
  | poll currentTime now =>
      simp only [Sender.step] at stepped
      split_ifs at stepped with alive
      obtain ⟨turn, turned, rfl⟩ := Option.map_eq_some_iff.mp stepped
      exact ⟨queued, fewer, poll_going currentTime now going turned⟩

theorem sender_reaches_going {start sender : Sender} {bytes : Nat}
    (fresh : FreshBuffer start.client.tcb) (reaches : SenderReaches start sender bytes)
    (fewer : bytes < UInt32.size) :
    ∃ queued, queued ≤ bytes ∧ Going sender.client sender.timers queued := by
  induction reaches with
  | start =>
      have nothing : ([] : List Seg) ≠ [] → 1 ≤ start.timers := fun someSent => absurd rfl someSent
      exact ⟨0, Nat.le_refl 0, [], [], fresh_numbers fresh, Or.inl rfl, nothing⟩
  | step event before allowed stepped ih =>
      obtain ⟨queued, bounded, going⟩ := ih (Nat.lt_of_le_of_lt (Nat.le_add_right _ _) fewer)
      exact sender_step_going going bounded allowed fewer stepped

/-- The sender never stalls: whenever something is buffered, something is sent,
what is not sent waits for a full window, and a timer thread is alive. -/
theorem sender_keeps_going (start sender : Sender) (bytes : Nat)
    (fresh : FreshBuffer start.client.tcb) (reaches : SenderReaches start sender bytes)
    (fewer : bytes < UInt32.size) (buffered : sender.client.tcb.sendBufHead ≠ none) :
    KeepsGoing sender := by
  obtain ⟨queued, _, sent, unsent, numbers, refilled, timed⟩ :=
    sender_reaches_going fresh reaches fewer
  have counted := (holds_window numbers.1).1
  have someSent : sent ≠ [] := by
    rintro rfl
    rcases refilled with rfl | full
    · exact numbers_filled numbers buffered rfl
    · exact absurd full (by decide)
  refine ⟨?_, ?_, timed someSent⟩
  · rw [counted]
    exact List.length_pos_iff.mpr someSent
  · rcases refilled with nothing | full
    · exact Or.inr ((holds_unsent_nil_iff numbers.1).mpr nothing)
    · exact Or.inl (counted.trans full)

/-- A client that has sent one whole segment waits for its acknowledgement. -/
theorem whole_segment_keeps_going :
    ∃ sender, SenderReaches ⟨establishedClient, 0⟩ sender maxSegLen ∧ KeepsGoing sender := by
  obtain ⟨data, whole⟩ : ∃ data : List Byte, data.length = maxSegLen :=
    ⟨List.replicate maxSegLen 7, List.length_replicate⟩
  obtain ⟨after, effects, call, _, buffered⟩ := whole_segment_buffered (fun _ => ⟨0, 0⟩)
    establishedClient data established_client_holds rfl whole
  have reaches : SenderReaches ⟨establishedClient, 0⟩ ⟨after, 0 + timersStarted effects⟩
      (0 + data.length) := by
    apply SenderReaches.step (.send (fun _ => ⟨0, 0⟩) data) .start trivial
    rw [Sender.step, call]
    rfl
  rw [whole, Nat.zero_add] at reaches
  exact ⟨_, reaches, sender_keeps_going ⟨establishedClient, 0⟩ _ maxSegLen established_buffer_fresh
    reaches (by decide) buffered⟩

end MiniOverlay
