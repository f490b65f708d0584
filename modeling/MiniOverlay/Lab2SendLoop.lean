import MiniOverlay.Lab2Acknowledgement
import MiniOverlay.StreamSend

/-!
# The loop of `mrt_client_send` in lab 2

The loop runs while `length` is positive and never makes it smaller. A call with something
to send holds its thread for ever, in every interleaving with the segment handler; a call
with nothing to send returns at once. So a thread that is outside a call has queued nothing.
-/

namespace MiniOverlay.Lab2

open LinkedHeap FixedByteCodec PartialRuns

set_option autoImplicit false

def ClientSocket.run (socket : ClientSocket) (events : List ClientEvent) : Option ClientSocket :=
  events.foldlM (fun socket event => (socket.step event).map Prod.fst) socket

/-- The pointers of a TCB that `mrt_client_sock` has made. -/
structure NothingQueued (table : ClientTcb) : Prop where
  head : table.sendBufHead = none
  unSent : table.sendBufunSent = none
  tail : table.sendBufTail = none

/-- The list has new cells at its end: different ones, with at most `MAX_SEG_LEN` bytes each,
which carry `data` and are numbered from `next_seqNum` on. -/
def QueuesData (before after : Client) (data : List Byte) : Prop :=
  ∃ old kept added : List (Nat × SegBuf),
    Owns before.heap before.tcb.sendBufHead old ∧ labels kept = labels old ∧
    Owns after.heap after.tcb.sendBufHead (kept ++ added) ∧
    after.tcb.sendBufTail = lastPtr (kept ++ added) ∧
    (entrySegs added).flatMap Seg.payload = data ∧
    (∀ seg ∈ entrySegs added, seg.header.length.toNat ≤ maxSegLen) ∧
    Numbered before.tcb.nextSeqNum (entrySegs added)

/-- The call returns after some turns of its loop, whatever the clock shows, and has queued
its data. -/
def ReturnsQueued (socket : ClientSocket) (data : List Byte) (memory : SegBuf) : Prop :=
  ∃ turns, ∀ clock : Nat → Nat → UInt32, ∃ after,
    socket.run (.send data memory :: (List.range turns).map fun i => .sendTurn (clock i)) =
      some after ∧ after.caller = .returned ∧ QueuesData socket.client after.client data

theorem positive_length_stays {socket next : ClientSocket} {event : ClientEvent}
    {effects : List ClientEffect} {buffer : Ptr} {data : List Byte} {length : UInt32}
    (caller : socket.caller = .sending buffer data length) (positive : length ≠ 0)
    (stepped : socket.step event = some (next, effects)) :
    next.caller = .sending buffer data length := by
  cases event with
  | send more memory =>
      simp only [ClientSocket.step, caller] at stepped
      cases stepped
  | disconnect =>
      simp only [ClientSocket.step, caller] at stepped
      cases stepped
  | sendTurn now =>
      simp only [ClientSocket.step, caller, if_neg positive] at stepped
      cases mutex : socket.bufMutex with
      | locked =>
          rw [mutex] at stepped
          cases stepped
      | free =>
          rw [mutex] at stepped
          obtain ⟨sent, _, stepped⟩ := Option.bind_eq_some_iff.mp stepped
          cases stepped
          rfl
  | segment received =>
      obtain ⟨_, handled, _, rfl⟩ := segment_step stepped
      exact caller

theorem call_enters_loop {socket called : ClientSocket} {data : List Byte} {memory : SegBuf}
    {effects : List ClientEffect}
    (stepped : socket.step (.send data memory) = some (called, effects)) :
    called.caller = .sending (alloc socket.client.heap ⟨memory, none⟩).2 data
      (UInt32.ofNat data.length) := by
  simp only [ClientSocket.step] at stepped
  cases caller : socket.caller with
  | sending buffer more length =>
      rw [caller] at stepped
      cases stepped
  | returned =>
      rw [caller] at stepped
      cases state : socket.client.tcb.state <;> rw [state] at stepped <;> cases stepped
      rfl

theorem positive_length {data : List Byte} (filled : data ≠ [])
    (size : data.length < UInt32.size) : UInt32.ofNat data.length ≠ 0 := by
  intro zero
  have none := congrArg UInt32.toNat zero
  rw [UInt32.toNat_ofNat_of_lt' size] at none
  exact filled (List.length_eq_zero_iff.mp none)

theorem filled_never_returns {socket after : ClientSocket} {data : List Byte}
    (filled : data ≠ []) (size : data.length < UInt32.size) {memory : SegBuf}
    {events : List ClientEvent} (run : socket.run (.send data memory :: events) = some after) :
    after.caller ≠ .returned := by
  rw [ClientSocket.run, List.foldlM_cons] at run
  obtain ⟨called, entered, run⟩ := Option.bind_eq_some_iff.mp run
  obtain ⟨⟨_, effects⟩, stepped, rfl⟩ := Option.map_eq_some_iff.mp entered
  have begins := call_enters_loop stepped
  have stays := fold_keeps _ (fun before : ClientSocket => before.caller =
      .sending (alloc socket.client.heap ⟨memory, none⟩).2 data (UInt32.ofNat data.length)) events
    (fun event _ before next caller result => by
      obtain ⟨⟨reached, _⟩, taken, rfl⟩ := Option.map_eq_some_iff.mp result
      exact positive_length_stays caller (positive_length filled size) taken) begins run
  rw [stays]
  exact Caller.noConfusion

def ClientSocket.Idle (socket : ClientSocket) : Prop :=
  match socket.caller with
  | .returned => NothingQueued socket.client.tcb
  | .sending _ _ length => length = 0 → NothingQueued socket.client.tcb

theorem state_branch {client after : Client} {mutex : Mutex} {expected : Prop}
    [Decidable expected] {state : ClientState}
    (handled : (if expected then
      some (⟨client.heap, { client.tcb with state := state }⟩, Mutex.free)
      else some (client, Mutex.free)) = some (after, mutex)) :
    ∃ state, after = ⟨client.heap, { client.tcb with state := state }⟩ := by
  by_cases isExpected : expected
  · rw [if_pos isExpected] at handled
    cases handled
    exact ⟨state, rfl⟩
  · rw [if_neg isExpected] at handled
    cases handled
    exact ⟨client.tcb.state, rfl⟩

theorem client_handled_cases {client after : Client} {segment : Seg} {mutex : Mutex}
    (handled : clientSeghandler client segment = some (after, mutex)) :
    (∃ state, after = ⟨client.heap, { client.tcb with state := state }⟩) ∨
      handleDataack client segment = some (after, mutex) := by
  unfold clientSeghandler at handled
  by_cases port : client.tcb.clientPortNum = segment.header.destPort
  · simp only [if_pos port] at handled
    cases state : client.tcb.state with
    | closed =>
        rw [state] at handled
        cases handled
        exact Or.inl ⟨client.tcb.state, rfl⟩
    | synsent =>
        rw [state] at handled
        exact Or.inl (state_branch handled)
    | connected =>
        rw [state] at handled
        by_cases dataack : segment.header.type = SegType.dataack ∧
          client.tcb.svrPortNum = segment.header.srcPort
        · rw [if_pos dataack] at handled
          exact Or.inr handled
        · rw [if_neg dataack] at handled
          cases handled
          exact Or.inl ⟨client.tcb.state, rfl⟩
    | finwait =>
        rw [state] at handled
        exact Or.inl (state_branch handled)
  · rw [if_neg port] at handled
    cases handled
    exact Or.inl ⟨client.tcb.state, rfl⟩

theorem handler_nothing_queued {client after : Client} {segment : Seg} {mutex : Mutex}
    (nothing : NothingQueued client.tcb)
    (handled : clientSeghandler client segment = some (after, mutex)) :
    NothingQueued after.tcb := by
  rcases client_handled_cases handled with ⟨state, rfl⟩ | dataack
  · exact ⟨nothing.head, nothing.unSent, nothing.tail⟩
  · rw [handleDataack, nothing.tail] at dataack
    cases dataack

theorem idle_step {socket next : ClientSocket} {event : ClientEvent} {effects : List ClientEffect}
    (idle : socket.Idle) (stepped : socket.step event = some (next, effects)) : next.Idle := by
  cases caller : socket.caller with
  | returned =>
      rw [ClientSocket.Idle, caller] at idle
      cases event with
      | send data memory =>
          simp only [ClientSocket.step, caller] at stepped
          cases state : socket.client.tcb.state <;> rw [state] at stepped <;> cases stepped
          exact fun _ => idle
      | sendTurn now =>
          simp only [ClientSocket.step, caller] at stepped
          cases stepped
      | disconnect =>
          simp only [ClientSocket.step, caller] at stepped
          obtain ⟨after, disconnected, stepped⟩ := Option.bind_eq_some_iff.mp stepped
          obtain ⟨heap, _, disconnected⟩ := Option.bind_eq_some_iff.mp disconnected
          cases disconnected
          cases stepped
          exact ⟨rfl, rfl, rfl⟩
      | segment received =>
          obtain ⟨_, handled, taken, rfl⟩ := segment_step stepped
          rw [ClientSocket.Idle]
          simp only [caller]
          exact handler_nothing_queued idle taken
  | sending buffer data length =>
      rw [ClientSocket.Idle, caller] at idle
      by_cases positive : length = 0
      · cases event with
        | send more memory =>
            simp only [ClientSocket.step, caller] at stepped
            cases stepped
        | disconnect =>
            simp only [ClientSocket.step, caller] at stepped
            cases stepped
        | sendTurn now =>
            simp only [ClientSocket.step, caller, if_pos positive] at stepped
            cases stepped
            exact idle positive
        | segment received =>
            obtain ⟨_, handled, taken, rfl⟩ := segment_step stepped
            rw [ClientSocket.Idle]
            simp only [caller]
            exact fun _ => handler_nothing_queued (idle positive) taken
      · rw [ClientSocket.Idle, positive_length_stays caller positive stepped]
        exact fun zero => absurd zero positive

theorem run_idle {start socket : ClientSocket} {events : List ClientEvent} (idle : start.Idle)
    (run : start.run events = some socket) : socket.Idle := by
  refine fold_keeps _ ClientSocket.Idle events (fun event _ before after kept result => ?_) idle run
  obtain ⟨⟨reached, _⟩, stepped, rfl⟩ := Option.map_eq_some_iff.mp result
  exact idle_step kept stepped

theorem empty_returns {socket : ClientSocket} (idle : socket.caller = .returned)
    (connected : socket.client.tcb.state = .connected) (memory : SegBuf) (now : Nat → UInt32) :
    socket.run [.send [] memory, .sendTurn now] =
      some { socket with
        client := ⟨(alloc socket.client.heap ⟨memory, none⟩).1, socket.client.tcb⟩ } := by
  simp only [ClientSocket.run, List.foldlM_cons, List.foldlM_nil, ClientSocket.step, idle,
    connected]
  rfl

/-- On a connected TCB, after anything that happened before, a call returns and has queued
its data exactly when there is nothing to send. -/
theorem client_send_returns_iff (start socket : ClientSocket) (events : List ClientEvent)
    (idle : start.caller = .returned) (nothing : NothingQueued start.client.tcb)
    (run : start.run events = some socket) (returned : socket.caller = .returned)
    (connected : socket.client.tcb.state = .connected) (data : List Byte)
    (size : data.length < UInt32.size) (memory : SegBuf) :
    ReturnsQueued socket data memory ↔ data = [] := by
  have begins : start.Idle := by
    rw [ClientSocket.Idle, idle]
    exact nothing
  have kept := run_idle begins run
  rw [ClientSocket.Idle, returned] at kept
  constructor
  · rintro ⟨turns, returns⟩
    by_contra filled
    obtain ⟨after, called, wrong, _⟩ := returns fun _ _ => 0
    exact filled_never_returns filled size called wrong
  · rintro rfl
    refine ⟨1, fun clock => ⟨_, empty_returns returned connected memory (clock 0), returned, ?_⟩⟩
    have owns : Owns socket.client.heap socket.client.tcb.sendBufHead [] :=
      ⟨kept.head, List.nodup_nil⟩
    exact ⟨[], [], [], owns, rfl, owns_alloc owns _, kept.tail, rfl, by simp [entrySegs], trivial⟩

theorem empty_send_returns : ReturnsQueued establishedConnection.client [] ⟨Seg.cleared, 0⟩ :=
  (client_send_returns_iff establishedConnection.client establishedConnection.client [] rfl
    ⟨rfl, rfl, rfl⟩ rfl rfl rfl [] (by decide) ⟨Seg.cleared, 0⟩).mpr rfl

/-- One byte is never sent to the end. -/
theorem byte_send_never_returns :
    ¬ ReturnsQueued establishedConnection.client [97] ⟨Seg.cleared, 0⟩ ∧
      ∀ events after,
        establishedConnection.client.run (.send [97] ⟨Seg.cleared, 0⟩ :: events) = some after →
          after.caller ≠ .returned := by
  have never (events : List ClientEvent) (after : ClientSocket)
      (run : establishedConnection.client.run (.send [97] ⟨Seg.cleared, 0⟩ :: events) =
        some after) : after.caller ≠ .returned :=
    filled_never_returns (by simp) (by decide) run
  refine ⟨?_, never⟩
  rintro ⟨turns, returns⟩
  obtain ⟨after, called, wrong, _⟩ := returns fun _ _ => 0
  exact never _ after called wrong

end MiniOverlay.Lab2
