import MiniOverlay.Lab2Acknowledgement
import MiniOverlay.ReceiveQueue

/-!
# The receive buffer of lab 2

The segment handler appends the DATA it accepts, and no other segment touches the buffer.
`mrt_server_recv` does not wait until enough has arrived, and it returns in front of its
unlock: the first call keeps `bufMutex` locked, and the second waits for it for ever.
-/

namespace MiniOverlay.Lab2

open FixedByteCodec PartialRuns

set_option autoImplicit false

/-- A segment that the handler takes, with what its other variable holds, or a call of
`mrt_server_recv` behind its only wait, with what its index variable holds. -/
inductive ReceiveEvent where
  | segment (received segmentSend : Seg)
  | recv (length : UInt32) (l : Nat)

/-- A socket, the bytes accepted for it and the bytes its calls have returned. -/
structure ReceiveRun where
  socket : ServerSocket
  accepted : List Byte
  returned : List Byte

def acceptedBytes (table : ServerTcb) (received : Seg) : List Byte :=
  if TakesData table received then received.payload else []

def ReceiveRun.step (run : ReceiveRun) : ReceiveEvent → Option ReceiveRun
  | .segment received segmentSend => do
      let turn ← seghandlerSwitch run.socket.tcb received segmentSend
      return { run with
        socket := { run.socket with tcb := turn.tcb }
        accepted := run.accepted ++ acceptedBytes run.socket.tcb received }
  | .recv length l => do
      let result ← mrtServerRecv run.socket length l
      return { run with socket := result.2, returned := run.returned ++ result.1 }

def ReceiveRun.InOrder (run : ReceiveRun) : Prop :=
  run.returned ++ run.socket.tcb.held = run.accepted

/-- A segment keeps the order. A call that goes on finds enough bytes, returns and leaves the
mutex free, keeps the order, and `usedBufLen` does not wrap. -/
def ReceiveEvent.Serves (run : ReceiveRun) : ReceiveEvent → Prop
  | .segment received segmentSend =>
      ∀ next, run.step (.segment received segmentSend) = some next → next.InOrder
  | .recv length l =>
      length ≤ run.socket.tcb.usedBufLen ∧ ∃ next, run.step (.recv length l) = some next ∧
        next.socket.bufMutex = .free ∧ next.InOrder ∧
          next.socket.tcb.usedBufLen.toNat + length.toNat = run.socket.tcb.usedBufLen.toNat

def ReceiveEvent.NoCall : ReceiveEvent → Prop
  | .segment _ _ => True
  | .recv _ _ => False

theorem recv_keeps_lock {socket : ServerSocket} {length : UInt32} {l : Nat}
    {result : List Byte × ServerSocket} (received : mrtServerRecv socket length l = some result) :
    result.2.bufMutex = .locked := by
  rw [mrtServerRecv] at received
  cases mutex : socket.bufMutex with
  | locked =>
      rw [mutex] at received
      cases received
  | free =>
      rw [mutex] at received
      simp only at received
      split_ifs at received
      cases received
      rfl

theorem recv_returns {socket : ServerSocket} {held : List Byte}
    (buffer : RecvBuffer socket.tcb held) (free : socket.bufMutex = .free) {length : UInt32}
    (enough : length.toNat ≤ held.length) {l : Nat} (inside : l + held.length ≤ receiveBufSize) :
    ∃ after, mrtServerRecv socket length l = some (held.take length.toNat, after) := by
  have block := buffer.block
  have room := buffer.room
  have front : socket.tcb.recvBuf.take length.toNat = held.take length.toNat := by
    rw [← buffer.bytes, List.take_take, Nat.min_eq_left enough]
  rw [mrtServerRecv, free]
  simp only
  rw [if_pos (by rw [buffer.used]; omega), front]
  exact ⟨_, rfl⟩

theorem locked_recv_stuck {socket : ServerSocket} (locked : socket.bufMutex = .locked)
    (length : UInt32) (l : Nat) : mrtServerRecv socket length l = none := by
  rw [mrtServerRecv, locked]

theorem recv_never_serves (run : ReceiveRun) (length : UInt32) (l : Nat) :
    ¬ ReceiveEvent.Serves run (.recv length l) := by
  rintro ⟨_, next, stepped, free, _⟩
  obtain ⟨result, received, same⟩ := Option.bind_eq_some_iff.mp stepped
  cases same
  have locked := recv_keeps_lock received
  rw [free] at locked
  cases locked

theorem stored_buffer {table : ServerTcb} {held : List Byte} (buffer : RecvBuffer table held)
    {received segmentSend : Seg} (takes : TakesData table received) {turn : Turn}
    (handled : seghandlerSwitch table received segmentSend = some turn) :
    RecvBuffer turn.tcb (held ++ received.payload) := by
  rw [takes_data_switch segmentSend takes] at handled
  obtain ⟨_, _, _, expected, fits⟩ := takes
  rw [turnData, if_pos expected, if_pos fits] at handled
  split_ifs at handled with short
  obtain ⟨recvBuf, copied, handled⟩ := Option.bind_eq_some_iff.mp handled
  cases handled
  have total := used_after buffer received
  have size := payload_length received short
  have block := buffer.block
  rw [Fits, total] at fits
  obtain ⟨after, copied', length, bytes⟩ := copy_to_prefix table.recvBuf held received.payload
    buffer.bytes (by omega)
  rw [buffer.used, copied'] at copied
  cases copied
  refine ⟨length.trans block, ?_, ?_, bytes⟩
  · rw [List.length_append, size, ← total,
      UInt32.add_comm received.header.length.toUInt32]
  · rw [List.length_append, size]
    exact fits

theorem turn_data_untaken {table : ServerTcb} {received segmentSend : Seg} {turn : Turn}
    (untaken : ¬ (received.header.seqNum = table.expectSeqNum ∧ Fits table received))
    (handled : turnData table received segmentSend = some turn) : turn.tcb = table := by
  rw [turnData] at handled
  split_ifs at handled with expected fits
  · exact absurd ⟨expected, fits⟩ untaken
  · cases handled
    rfl
  · cases handled
    rfl

theorem switch_untaken {table : ServerTcb} {received segmentSend : Seg} {turn : Turn}
    (untaken : ¬ TakesData table received)
    (handled : seghandlerSwitch table received segmentSend = some turn) :
    turn.tcb.recvBuf = table.recvBuf ∧ turn.tcb.usedBufLen = table.usedBufLen := by
  rw [seghandlerSwitch] at handled
  cases state : table.state with
  | closed =>
      rw [state] at handled
      cases handled
      exact ⟨rfl, rfl⟩
  | listening =>
      rw [state] at handled
      cases handled
      rw [turnListening]
      split_ifs <;> exact ⟨rfl, rfl⟩
  | connected =>
      rw [state] at handled
      simp only at handled
      split_ifs at handled with syn data fin
      · cases handled
        exact ⟨rfl, rfl⟩
      · have same := turn_data_untaken (fun both => untaken ⟨state, data.1, data.2, both⟩) handled
        rw [same]
        exact ⟨rfl, rfl⟩
      · cases handled
        exact ⟨rfl, rfl⟩
      · cases handled
        exact ⟨rfl, rfl⟩
  | closewait =>
      rw [state] at handled
      simp only at handled
      split_ifs at handled <;> cases handled <;> exact ⟨rfl, rfl⟩

theorem switch_buffer {table : ServerTcb} {held : List Byte} (buffer : RecvBuffer table held)
    {received segmentSend : Seg} {turn : Turn}
    (handled : seghandlerSwitch table received segmentSend = some turn) :
    RecvBuffer turn.tcb (held ++ acceptedBytes table received) := by
  rw [acceptedBytes]
  by_cases takes : TakesData table received
  · rw [if_pos takes]
    exact stored_buffer buffer takes handled
  · obtain ⟨block, used⟩ := switch_untaken takes handled
    rw [if_neg takes, List.append_nil]
    refine ⟨?_, ?_, buffer.room, ?_⟩
    · rw [block, buffer.block]
    · rw [used, buffer.used]
    · rw [block, buffer.bytes]

def ReceiveRun.Holds (run : ReceiveRun) : Prop :=
  ∃ held, RecvBuffer run.socket.tcb held ∧ run.returned ++ held = run.accepted

theorem in_order_of_holds {run : ReceiveRun} (holds : run.Holds) : run.InOrder := by
  obtain ⟨held, buffer, total⟩ := holds
  rw [ReceiveRun.InOrder, held_eq buffer, total]

theorem segment_holds {run next : ReceiveRun} {received segmentSend : Seg} (holds : run.Holds)
    (stepped : run.step (.segment received segmentSend) = some next) : next.Holds := by
  obtain ⟨held, buffer, total⟩ := holds
  obtain ⟨turn, handled, stepped⟩ := Option.bind_eq_some_iff.mp stepped
  cases stepped
  refine ⟨_, switch_buffer buffer handled, ?_⟩
  rw [← List.append_assoc, total]

theorem event_serves_iff (run : ReceiveRun) (event : ReceiveEvent) (holds : run.Holds) :
    event.Serves run ↔ event.NoCall := by
  cases event with
  | segment received segmentSend =>
      exact iff_of_true (fun next stepped => in_order_of_holds (segment_holds holds stepped))
        trivial
  | recv length l => exact iff_of_false (recv_never_serves run length l) not_false

/-- From an empty buffer on, a run serves its callers exactly when there are none. -/
theorem server_recv_serves_iff (socket : ServerSocket) (empty : RecvBuffer socket.tcb [])
    (events : List ReceiveEvent) :
    Throughout ReceiveRun.step (fun run event => event.Serves run) ⟨socket, [], []⟩ events ↔
      Throughout ReceiveRun.step (fun _ event => event.NoCall) ⟨socket, [], []⟩ events := by
  have begins : ReceiveRun.Holds ⟨socket, [], []⟩ := ⟨[], empty, rfl⟩
  refine throughout_agree _ ReceiveRun.Holds _ _ event_serves_iff ?_ begins events
  intro run event next holds noCall stepped
  cases event with
  | segment received segmentSend => exact segment_holds holds stepped
  | recv length l => exact absurd noCall not_false

def emptySocket : ServerSocket :=
  let socket := mrtServerSock 8881 0 0 8880 0 (Vector.replicate receiveBufSize 0)
  { socket with tcb := { socket.tcb with state := .connected } }

theorem empty_socket_buffer : RecvBuffer emptySocket.tcb [] := by
  refine ⟨?_, rfl, by decide, rfl⟩
  change (Vector.replicate receiveBufSize (0 : Byte)).toList.length = receiveBufSize
  rw [Vector.length_toList]

def byteSegment : Seg where
  header := { MrtHdr.cleared with
    srcPort := 8880
    type := SegType.data
    length := 1 }
  data := padVector maxSegLen [97]

theorem one_byte_in_order :
    Throughout ReceiveRun.step (fun run event => event.Serves run) ⟨emptySocket, [], []⟩
      [.segment byteSegment Seg.cleared] := by
  refine (server_recv_serves_iff emptySocket empty_socket_buffer _).mpr ⟨trivial, fun _ _ => ?_⟩
  exact trivial

/-- The byte is accepted, and the call that asks for it returns it with the mutex locked, so
no other call returns. -/
theorem byte_recv_keeps_lock :
    ¬ Throughout ReceiveRun.step (fun run event => event.Serves run) ⟨emptySocket, [], []⟩
      [.segment byteSegment Seg.cleared, .recv 1 0] ∧
    ∃ run next : ReceiveRun,
      ReceiveRun.step ⟨emptySocket, [], []⟩ (.segment byteSegment Seg.cleared) = some run ∧
      run.accepted = [97] ∧ run.step (.recv 1 0) = some next ∧ next.returned = [97] ∧
      ∀ length l, next.step (.recv length l) = none := by
  have takes : TakesData emptySocket.tcb byteSegment := by decide
  have payload : byteSegment.payload = [97] := pad_vector_take maxSegLen [97] (by decide)
  obtain ⟨turn, handled⟩ := takes_data_runs Seg.cleared takes (by decide) (by
    rw [empty_socket_buffer.block]
    decide)
  have stored := stored_buffer empty_socket_buffer takes handled
  have stepped : ReceiveRun.step ⟨emptySocket, [], []⟩ (.segment byteSegment Seg.cleared) =
      some ⟨{ emptySocket with tcb := turn.tcb }, [97], []⟩ := by
    rw [ReceiveRun.step, handled, acceptedBytes, if_pos takes, payload]
    rfl
  rw [payload] at stored
  have enough : (1 : UInt32).toNat ≤ ([] ++ [97] : List Byte).length := by decide
  have inside : 0 + ([] ++ [97] : List Byte).length ≤ receiveBufSize := by decide
  have returns : ∃ after, mrtServerRecv { emptySocket with tcb := turn.tcb } 1 0 =
      some ([97], after) := recv_returns stored rfl enough inside
  obtain ⟨after, received⟩ := returns
  have called : ReceiveRun.step ⟨{ emptySocket with tcb := turn.tcb }, [97], []⟩ (.recv 1 0) =
      some ⟨after, [97], [97]⟩ := by
    rw [ReceiveRun.step, received]
    rfl
  refine ⟨fun serves => ?_, _, _, stepped, rfl, called, rfl, fun length l => ?_⟩
  · exact recv_never_serves _ 1 0 (serves.2 _ stepped).1
  · rw [ReceiveRun.step, locked_recv_stuck (recv_keeps_lock received)]
    rfl

end MiniOverlay.Lab2
