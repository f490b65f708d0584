import MiniOverlay.StrayAcknowledgement

/-!
# How many timer threads there are

`sendBuffer_sending` starts a thread of `sendingBuffer_timer` when nothing is
unacknowledged, but the thread before it ends only at its next poll. A segment sent
between the last acknowledgement and that poll, or by the acknowledgement itself,
starts a second one.
-/

namespace MiniOverlay

open LinkedHeap FixedByteCodec

set_option autoImplicit false

inductive TimerEvent where
  | append (seg : Seg)
  | sending (now : Nat → Timeval)
  | dataack (now : Nat → Timeval) (sourceNodeID : Int32) (segmentBuffer : Seg)
  | poll (currentTime : Timeval) (now : Nat → Timeval)

def Sender.timerStep (sender : Sender) : TimerEvent → Option Sender
  | .append seg => do
      let client ← queueSegment sender.client seg
      return { sender with client := client }
  | .sending now => do
      let result ← sendBufferSending now sender.client
      return ⟨result.1, sender.timers + timersStarted result.2⟩
  | .dataack now sourceNodeID segmentBuffer =>
      sender.step (.dataack now sourceNodeID segmentBuffer)
  | .poll currentTime now => sender.step (.poll currentTime now)

def TimerEvent.Allowed (sender : Sender) : TimerEvent → Prop
  | .dataack _ _ segmentBuffer => ¬ Overtakes sender.client segmentBuffer.header.ackNum
  | _ => True

def CoversSent (client : Client) (ackNum : UInt32) : Prop :=
  ∃ front node back, Owns client.heap client.tcb.sendBufHead (front ++ node :: back) ∧
    client.tcb.sendBufunSent = some node.1 ∧ ∀ entry ∈ front, entry.2.seg.header.seqNum < ackNum

def TimerEvent.SendsFirst (sender : Sender) : TimerEvent → Prop
  | .append _ => False
  | .sending _ => sender.client.tcb.unAckSegNum = 0 ∧ sender.client.tcb.sendBufunSent ≠ none
  | .dataack _ sourceNodeID segmentBuffer =>
      ReachesHead sender.client sourceNodeID segmentBuffer ∧
        CoversSent sender.client segmentBuffer.header.ackNum
  | .poll _ _ => False

inductive TimerReaches (start : Sender) : Sender → Prop where
  | start : TimerReaches start start
  | step {sender after : Sender} (event : TimerEvent) (before : TimerReaches start sender)
      (allowed : event.Allowed sender) (stepped : sender.timerStep event = some after) :
      TimerReaches start after

def TimerEvent.Spaced (sender : Sender) (event : TimerEvent) : Prop :=
  event.SendsFirst sender → sender.timers = 0

/-- Runs in which every thread ends before the next first segment is sent. -/
inductive SpacedReaches (start : Sender) : Sender → Prop where
  | start : SpacedReaches start start
  | step {sender after : Sender} (event : TimerEvent) (before : SpacedReaches start sender)
      (allowed : event.Allowed sender) (spaced : event.Spaced sender)
      (stepped : sender.timerStep event = some after) : SpacedReaches start after

theorem sending_timed (now : Nat → Timeval) {client after : Client} {effects : List ClientEffect}
    {sent unsent : List (Nat × SegBuf)} (intact : Intact client sent unsent)
    (run : sendBufferSending now client = some (after, effects)) :
    (∃ sent unsent, Intact after sent unsent) ∧
      timersStarted effects = if sent = [] ∧ unsent ≠ [] then 1 else 0 := by
  obtain ⟨after', effects', moved, rest, run', facts⟩ :=
    sending_loop_cells now gbnWindow client sent unsent intact
  obtain ⟨rfl, rfl⟩ := Prod.mk.inj (Option.some.inj (run.symm.trans run'))
  have turns : gbnWindow ≠ 0 := by decide
  refine ⟨⟨_, _, facts.intact⟩, ?_⟩
  rw [facts.timers]
  simp only [turns, ne_eq, not_false_eq_true, and_true]

theorem unsent_iff {client : Client} {sent unsent : List (Nat × SegBuf)}
    (intact : Intact client sent unsent) : client.tcb.sendBufunSent ≠ none ↔ unsent ≠ [] := by
  rw [intact.unSent]
  cases unsent <;> simp [firstPtr]

theorem unacknowledged_iff {client : Client} {sent unsent : List (Nat × SegBuf)}
    (intact : Intact client sent unsent) : client.tcb.unAckSegNum = 0 ↔ sent = [] := by
  rw [← UInt32.toNat_inj, intact.unAck]
  exact List.length_eq_zero_iff

/-- The cells in front of `sendBufunSent` are the sent ones. -/
theorem covers_sent_iff {client : Client} {sent unsent : List (Nat × SegBuf)}
    (intact : Intact client sent unsent) (ackNum : UInt32) :
    CoversSent client ackNum ↔
      unsent ≠ [] ∧ ∀ entry ∈ sent, entry.2.seg.header.seqNum < ackNum := by
  constructor
  · rintro ⟨front, node, back, owns, unSent, covered⟩
    have cells := chain_unique owns.chain intact.owns.chain
    have first : firstPtr (node :: back) = some node.1 := rfl
    have same : front = sent := by
      rw [← take_while_before owns.nodup, ← take_while_before intact.owns.nodup, cells, first,
        ← unSent, intact.unSent]
    refine ⟨(unsent_iff intact).mp (by simp [unSent]), same ▸ covered⟩
  · rintro ⟨waiting, covered⟩
    obtain ⟨node, back, rfl⟩ := List.exists_cons_of_ne_nil waiting
    exact ⟨sent, node, back, intact.owns, intact.unSent, covered⟩

theorem kept_nil_iff {client acknowledged : Client} {ackNum : UInt32}
    {sent unsent gone kept : List (Nat × SegBuf)}
    (shrinks : Shrinks ackNum client acknowledged sent unsent gone kept) :
    kept = [] ↔ ∀ entry ∈ sent, entry.2.seg.header.seqNum < ackNum := by
  rw [shrinks.split]
  constructor
  · rintro rfl
    rw [List.append_nil]
    exact shrinks.covered
  · intro covered
    cases cells : kept with
    | nil => rfl
    | cons entry rest =>
        have stops := shrinks.stops entry (by rw [cells]; rfl)
        exact absurd (covered entry (by simp [cells])) stops

theorem dataack_timed (now : Nat → Timeval) {client after : Client} {effects : List ClientEffect}
    {sourceNodeID : Int32} {seg : Seg} {sent unsent : List (Nat × SegBuf)}
    (intact : Intact client sent unsent) (behind : ¬ Overtakes client seg.header.ackNum)
    (handled : clientSeghandler now client sourceNodeID seg = some (after, effects)) :
    (∃ sent unsent, Intact after sent unsent) ∧ timersStarted effects ≤ 1 ∧
      (timersStarted effects = 1 ↔
        ReachesHead client sourceNodeID seg ∧ CoversSent client seg.header.ackNum) := by
  by_cases reaches : ReachesHead client sourceNodeID seg
  · obtain ⟨entry, rest, cells⟩ := List.exists_cons_of_ne_nil (reached_filled intact reaches)
    have owns := intact.owns
    rw [cells] at owns
    obtain ⟨cell, held, reached⟩ := reaches.head
    obtain ⟨head, first⟩ := owns_head owns
    rw [head, first] at held
    obtain rfl := Option.some.inj held
    let incoming : Incoming := ⟨now, sourceNodeID, seg⟩
    have handler := dataack_handled incoming reaches.connected reaches.server
      reaches.dataack owns
    rw [if_pos reached] at handler
    obtain ⟨acknowledged, run, sending⟩ :=
      Option.bind_eq_some_iff.mp (handler.symm.trans handled)
    obtain ⟨acknowledged', gone, kept, run', shrinks⟩ := recv_ack_intact intact
      (reached_filled intact reaches) (recv_ack_tail_held run) behind
    obtain rfl := Option.some.inj (run.symm.trans run')
    obtain ⟨afterIntact, started⟩ := sending_timed now shrinks.intact sending
    rw [covers_sent_iff intact, ← kept_nil_iff shrinks, started]
    refine ⟨afterIntact, by split_ifs <;> omega, ?_⟩
    split_ifs with first
    · simp [reaches, first]
    · refine iff_of_false (by simp) ?_
      exact fun covers => first ⟨covers.2.2, covers.2.1⟩
  · rcases handled_cases handled with ⟨heap, same, rfl⟩ | ⟨stray, _⟩
    · refine ⟨⟨sent, unsent, intact.pointers (fun _ owns => heap ▸ owns) same⟩, Nat.zero_le _, ?_⟩
      refine iff_of_false ?_ fun covers => reaches covers.1
      intro started
      cases started
    · exact absurd stray reaches

theorem poll_timed (currentTime : Timeval) (now : Nat → Timeval) {sender : Sender}
    {turn : TimerTurn} {sent unsent : List (Nat × SegBuf)}
    (intact : Intact sender.client sent unsent)
    (turned : sendingBufferTimerTurn currentTime now sender.client = some turn) :
    (∃ sent unsent, Intact (sender.polled turn).client sent unsent) ∧
      (sender.polled turn).timers ≤ sender.timers := by
  unfold sendingBufferTimerTurn at turned
  split_ifs at turned with idle
  · cases turned
    exact ⟨⟨sent, unsent, intact⟩, Nat.sub_le _ _⟩
  · obtain ⟨cell, _, turned⟩ := Option.bind_eq_some_iff.mp turned
    split_ifs at turned
    · obtain ⟨last, effects, again, run, lastIntact, _⟩ :=
        timeout_cells now sender.client sent unsent intact
      rw [run] at turned
      cases turned
      exact ⟨⟨again, unsent, lastIntact⟩, Nat.le_refl _⟩
    · cases turned
      exact ⟨⟨sent, unsent, intact⟩, Nat.le_refl _⟩

theorem event_timed {sender after : Sender} {event : TimerEvent}
    {sent unsent : List (Nat × SegBuf)} (intact : Intact sender.client sent unsent)
    (allowed : event.Allowed sender) (stepped : sender.timerStep event = some after) :
    (∃ sent unsent, Intact after.client sent unsent) ∧
      (event.SendsFirst sender → after.timers = sender.timers + 1) ∧
      (¬ event.SendsFirst sender → after.timers ≤ sender.timers) := by
  cases event with
  | append seg =>
      obtain ⟨client, queued, stepped⟩ := Option.bind_eq_some_iff.mp stepped
      cases stepped
      obtain ⟨added, _, afterIntact, _⟩ := append_intact intact seg queued
      exact ⟨⟨_, _, afterIntact⟩, False.elim, fun _ => Nat.le_refl _⟩
  | sending now =>
      obtain ⟨⟨client, effects⟩, run, stepped⟩ := Option.bind_eq_some_iff.mp stepped
      cases stepped
      obtain ⟨afterIntact, started⟩ := sending_timed now intact run
      refine ⟨afterIntact, ?_, ?_⟩
      · rintro ⟨unAck, unSent⟩
        rw [if_pos ⟨(unacknowledged_iff intact).mp unAck, (unsent_iff intact).mp unSent⟩] at started
        rw [started]
      · intro later
        have none : ¬ (sent = [] ∧ unsent ≠ []) := fun first =>
          later ⟨(unacknowledged_iff intact).mpr first.1, (unsent_iff intact).mpr first.2⟩
        rw [if_neg none] at started
        exact Nat.le_of_eq (by rw [started]; rfl)
  | dataack now sourceNodeID seg =>
      obtain ⟨⟨client, effects⟩, handled, stepped⟩ := Option.bind_eq_some_iff.mp stepped
      cases stepped
      obtain ⟨afterIntact, most, started⟩ := dataack_timed now intact allowed handled
      refine ⟨afterIntact, ?_, ?_⟩
      · intro first
        rw [started.mpr first]
      · intro later
        have none : timersStarted effects ≠ 1 := fun one => later (started.mp one)
        change sender.timers + timersStarted effects ≤ sender.timers
        omega
  | poll currentTime now =>
      simp only [Sender.timerStep, Sender.step] at stepped
      split_ifs at stepped
      obtain ⟨turn, turned, rfl⟩ := Option.map_eq_some_iff.mp stepped
      obtain ⟨afterIntact, fewer⟩ := poll_timed currentTime now intact turned
      exact ⟨afterIntact, False.elim, fun _ => fewer⟩

theorem spaced_reaches_single {start sender : Sender} (fresh : FreshBuffer start.client.tcb)
    (noTimer : start.timers = 0) (reaches : SpacedReaches start sender) :
    (∃ sent unsent, Intact sender.client sent unsent) ∧ sender.timers ≤ 1 := by
  induction reaches with
  | start =>
      have buffer := consistent_fresh fresh
      exact ⟨⟨[], [], buffer.intact⟩, by omega⟩
  | @step sender after event _ allowed spaced stepped ih =>
      obtain ⟨⟨sent, unsent, intact⟩, single⟩ := ih
      obtain ⟨afterIntact, first, later⟩ := event_timed intact allowed stepped
      refine ⟨afterIntact, ?_⟩
      by_cases sendsFirst : event.SendsFirst sender
      · have ended := spaced sendsFirst
        have started := first sendsFirst
        omega
      · have fewer := later sendsFirst
        omega

/-- In runs in which every thread ends before the next first segment is sent there is at
most one thread, and there are two after the first event that does not wait for it. -/
theorem single_timer_iff (start sender : Sender) (fresh : FreshBuffer start.client.tcb)
    (noTimer : start.timers = 0) (reaches : SpacedReaches start sender) :
    sender.timers ≤ 1 ∧ ∀ event after, event.Allowed sender →
      sender.timerStep event = some after → (after.timers ≤ 1 ↔ event.Spaced sender) := by
  obtain ⟨⟨sent, unsent, intact⟩, single⟩ := spaced_reaches_single fresh noTimer reaches
  refine ⟨single, ?_⟩
  intro event after allowed stepped
  obtain ⟨_, first, later⟩ := event_timed intact allowed stepped
  constructor
  · intro few sendsFirst
    have started := first sendsFirst
    omega
  · intro spaced
    by_cases sendsFirst : event.SendsFirst sender
    · have ended := spaced sendsFirst
      have started := first sendsFirst
      omega
    · have fewer := later sendsFirst
      omega

/-- After the first segment was sent there is one thread. -/
theorem first_segment_single :
    ∃ sender, SpacedReaches ⟨establishedClient, 0⟩ sender ∧ sender.client.tcb.unAckSegNum = 1 ∧
      sender.timers ≤ 1 ∧ ∀ event after, event.Allowed sender →
        sender.timerStep event = some after → (after.timers ≤ 1 ↔ event.Spaced sender) := by
  have queued := SpacedReaches.step (.append oneByteSegment) .start trivial
    (fun first => first.elim) (Eq.refl (Sender.timerStep ⟨establishedClient, 0⟩ _))
  have sent := queued.step (.sending stoppedClock) trivial (fun _ => rfl) rfl
  exact ⟨_, sent, rfl, single_timer_iff ⟨establishedClient, 0⟩ _ established_buffer_fresh rfl sent⟩

/-- A segment, its acknowledgement and another segment before the next poll: two
threads. -/
theorem second_timer_started :
    ∃ sender, TimerReaches ⟨establishedClient, 0⟩ sender ∧ sender.timers = 2 := by
  have queued := TimerReaches.step (.append oneByteSegment) .start trivial
    (Eq.refl (Sender.timerStep ⟨establishedClient, 0⟩ _))
  have sent := queued.step (.sending stoppedClock) trivial rfl
  have acknowledged := sent.step (.dataack stoppedClock 2 oneByteDataack)
    (fun ⟨_, _, _, _, unSent, _⟩ => by cases unSent) rfl
  have again := acknowledged.step (.append oneByteSegment) trivial rfl
  have sentAgain := again.step (.sending stoppedClock) trivial rfl
  exact ⟨_, sentAgain, rfl⟩

end MiniOverlay
