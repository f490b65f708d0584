import MiniOverlay.ServerStateMachine
import MiniOverlay.SocketTraffic
import MiniOverlay.StreamTransfer

/-!
# The file of the stress programs

`app_stress_client` sends the length of a file and then the file, each with one call of
`mrt_client_send`, and disconnects. `app_stress_server` reads an `int` and then that many
bytes, and saves them. The four bytes of the length are no whole segment and are not sent, so
the server takes the first bytes of the file for the length and never saves the file, over any
connection that delivers what was queued. The programs do not look at what `mrt_server_recv`
returns, and behind the FIN it returns -1 without a byte.
-/

namespace MiniOverlay

open LinkedHeap FixedByteCodec CumulativeAckWindow PartialRuns

set_option autoImplicit false

def stressCalls (content : List Byte) : List (List Byte) :=
  [int32Codec.encode (Int32.ofNat content.length), content]

/-- What the variable `fileLen` and the block for the file hold before they are written. -/
structure StressMemory where
  fileLen : Int32
  block : List Byte

/-- Where `app_stress_server` is behind `mrt_server_accept`: in its first or its second call
of `mrt_server_recv`, or with the file that it saves. A call that has slept is in its loop and
does not look at the state again. -/
inductive StressServer where
  | receivesLength (sleeping : Bool)
  | receivesFile (fileLen : Int32) (sleeping : Bool)
  | saves (fileLen : Int32) (buf : List Byte)

/-- `finSent` is the client in `mrt_client_disconnect`, behind its first FIN. -/
structure StressTransfer where
  transfer : Transfer
  server : StressServer
  finSent : Bool

inductive StressEvent where
  | client (now : Nat → Timeval)
  | disconnect
  | server
  | segment (seg : Seg)
  | closewait
  | other (event : ConnectionEvent)

/-- What the memory of a variable holds when a call of `mrt_server_recv` has returned. -/
def receivedInto (memory : List Byte) : RecvTurn → Option (List Byte)
  | .sleeps => none
  | .returns _ buf _ => some (buf ++ memory.drop buf.length)

def recvFrom (table : ServerTcb) (sleeping : Bool) (length : UInt32) : Option RecvTurn :=
  if sleeping then mrtServerRecvTurn table length else mrtServerRecv table length

def Connection.afterRecv (connection : Connection) : RecvTurn → Connection
  | .sleeps => connection
  | .returns _ buf server =>
      { connection with server := server, delivered := connection.delivered ++ buf }

def Transfer.withConnection (transfer : Transfer) (connection : Connection) : Transfer :=
  { transfer with connection := connection }

def StressTransfer.table (stress : StressTransfer) : ServerTcb :=
  stress.transfer.connection.server

def StressTransfer.withTable (stress : StressTransfer) (table : ServerTcb) : StressTransfer :=
  { stress with
    transfer := stress.transfer.withConnection
      { stress.transfer.connection with server := table } }

def StressTransfer.afterRecv (stress : StressTransfer) (turn : RecvTurn)
    (server : StressServer) : StressTransfer :=
  { stress with
    transfer := stress.transfer.withConnection (stress.transfer.connection.afterRecv turn)
    server := server }

/-- `segment` is a segment of the client that `seghandler` gets behind the data phase. The
FINACKs of the server are left out, since the client has nothing more to send. -/
def StressTransfer.step (memory : StressMemory) (stress : StressTransfer) :
    StressEvent → Option StressTransfer
  | .client now => do
      let transfer ← stress.transfer.step (.send 0 now)
      return { stress with transfer := transfer }
  | .disconnect => some { stress with finSent := true }
  | .segment seg => do
      let result ← serverSeghandler stress.table
        stress.transfer.connection.client.tcb.clientNodeID.toInt32 seg
      return stress.withTable result.1
  | .closewait => some (stress.withTable (closewait stress.table))
  | .other event => do
      let transfer ← stress.transfer.step (.other event)
      return { stress with transfer := transfer }
  | .server =>
      match stress.server with
      | .receivesLength sleeping => do
          let turn ← recvFrom stress.table sleeping 4
          match receivedInto (int32Codec.encode memory.fileLen) turn with
          | none => return stress.afterRecv turn (.receivesLength true)
          | some bytes =>
              return stress.afterRecv turn (.receivesFile (int32Codec.decode bytes) false)
      | .receivesFile fileLen sleeping => do
          let length := fileLen.toUInt32
          let turn ← recvFrom stress.table sleeping length
          match receivedInto (memory.block.take length.toNat) turn with
          | none => return stress.afterRecv turn (.receivesFile fileLen true)
          | some buf => return stress.afterRecv turn (.saves fileLen buf)
      | .saves _ _ => some stress

def StressTransfer.fin (stress : StressTransfer) : Seg :=
  stress.transfer.connection.client.tcb.newSeg SegType.fin 0 []

/-- The server program is the only one that reads. What the client sends behind its FIN are
copies of what it sent before. -/
def StressEvent.Enabled (stress : StressTransfer) : StressEvent → Prop
  | .client now => (TransferEvent.send 0 now).Enabled stress.transfer ∧ stress.finSent = false
  | .disconnect =>
      (∃ thread, stress.transfer.threads[0]? = some thread ∧ thread.calls = []) ∧
        stress.finSent = false
  | .server => True
  | .segment seg => stress.finSent = true ∧
      (seg = stress.fin ∨ stress.table.state ≠ .connected ∧
        ∃ arg ∈ stress.transfer.connection.toServer, arg.seg = seg)
  | .closewait => stress.table.state = .closewait
  | .other event => (TransferEvent.other event).Enabled stress.transfer ∧
      (∀ length, event ≠ .recv length) ∧ stress.table.state = .connected ∧
        (stress.finSent = true → ∃ arg, event = .data arg)

abbrev StressTransfer.Runs (memory : StressMemory) :
    StressTransfer → List StressEvent → StressTransfer → Prop :=
  Guarded (StressTransfer.step memory) fun stress event => event.Enabled stress

def StressTransfer.start (connection : Connection) (content : List Byte) : StressTransfer :=
  ⟨Transfer.start connection [stressCalls content], .receivesLength false, false⟩

/-- How far the program is with the bytes that were read from the connection. Once the FIN
was handled, a call may have returned without a byte. -/
inductive StressServer.Reads (memory : StressMemory) (late : Prop) :
    StressServer → List Byte → Prop where
  | nothing (sleeping : Bool) : StressServer.Reads memory late (.receivesLength sleeping) []
  | length (bytes : List Byte) (sleeping : Bool) (four : bytes.length = 4) :
      StressServer.Reads memory late (.receivesFile (int32Codec.decode bytes) sleeping) bytes
  | file (bytes buf : List Byte) (four : bytes.length = 4)
      (whole : buf.length = (int32Codec.decode bytes).toUInt32.toNat) :
      StressServer.Reads memory late (.saves (int32Codec.decode bytes) buf) (bytes ++ buf)
  | unset (isLate : late) : StressServer.Reads memory late (.receivesFile memory.fileLen false) []
  | unsetFile (isLate : late) :
      StressServer.Reads memory late
        (.saves memory.fileLen (memory.block.take memory.fileLen.toUInt32.toNat)) []
  | lateFile (isLate : late) (bytes : List Byte) (four : bytes.length = 4) :
      StressServer.Reads memory late
        (.saves (int32Codec.decode bytes)
          (memory.block.take (int32Codec.decode bytes).toUInt32.toNat)) bytes

def wholePart (content : List Byte) : List Byte :=
  content.take (content.length / maxSegLen * maxSegLen)

/-- The server has handled the FIN, and its buffer is not filled any more. -/
structure StressTransfer.Ended (content : List Byte) (stress : StressTransfer) : Prop where
  finSent : stress.finSent = true
  state : stress.table.state ≠ .connected
  listening : stress.table.state ≠ .listening
  buffer : ∃ held, RecvBuffer stress.table held ∧
    stress.transfer.connection.delivered ++ held <+: wholePart content

structure StressTransfer.Underway (memory : StressMemory) (content : List Byte)
    (stress : StressTransfer) : Prop where
  phase : stress.transfer.Underway [stressCalls content] ∨ stress.Ended content
  reads : stress.server.Reads memory (stress.table.state ≠ .connected)
    stress.transfer.connection.delivered

theorem length_not_queued (content : List Byte) :
    (stressCalls content).flatMap wholeChunks = wholeChunks content := by
  have width : (int32Codec.encode (Int32.ofNat content.length)).length = 4 :=
    int32Codec.encode_length _
  have none : wholeChunks (int32Codec.encode (Int32.ofNat content.length)) = [] := by
    rw [wholeChunks, width]
    rfl
  rw [stressCalls, List.flatMap_cons, none, List.nil_append, List.flatMap_singleton]

theorem whole_chunks_flatten (data : List Byte) :
    (wholeChunks data).flatten = wholePart data := by
  have fits : data.length / maxSegLen * maxSegLen ≤ data.length := Nat.div_mul_le_self _ _
  rw [wholeChunks, wholePart]
  generalize data.length / maxSegLen = count at fits
  induction count with
  | zero => simp
  | succ count ih =>
      rw [Nat.succ_mul] at fits
      rw [List.range_succ, List.map_append, List.flatten_append, ih (by omega), List.map_singleton,
        List.flatten_singleton, segmentChunk, Nat.succ_mul, List.take_add]

theorem delivered_unread {connection after : Connection} {event : ConnectionEvent}
    (unread : ∀ length, event ≠ .recv length) (stepped : connection.step event = some after) :
    after.delivered = connection.delivered := by
  cases event with
  | queue seg =>
      obtain ⟨client, _, same⟩ := Option.bind_eq_some_iff.mp stepped
      cases same
      rfl
  | sending now =>
      obtain ⟨result, _, same⟩ := Option.bind_eq_some_iff.mp stepped
      cases same
      rfl
  | timeout now =>
      obtain ⟨result, _, same⟩ := Option.bind_eq_some_iff.mp stepped
      cases same
      rfl
  | data arg =>
      obtain ⟨result, _, same⟩ := Option.bind_eq_some_iff.mp stepped
      cases same
      rfl
  | ack now arg =>
      simp only [Connection.step] at stepped
      split_ifs at stepped with addressed
      · obtain ⟨result, _, same⟩ := Option.bind_eq_some_iff.mp stepped
        cases same
        rfl
      · cases stepped
        rfl
  | recv length => exact absurd rfl (unread length)

theorem delivered_client {transfer after : Transfer} {index : Nat} {now : Nat → Timeval}
    (stepped : transfer.step (.send index now) = some after) :
    after.connection.delivered = transfer.connection.delivered := by
  obtain ⟨thread, _, turned⟩ := Option.bind_eq_some_iff.mp stepped
  unfold Transfer.sendTurn at turned
  cases calls : thread.calls with
  | nil =>
      rw [calls] at turned
      cases turned
  | cons data calls' =>
      simp only [calls] at turned
      by_cases refused : thread.turn = 0 ∧ transfer.connection.client.tcb.state ≠ .connected
      · rw [if_pos refused] at turned
        cases turned
        rfl
      by_cases looping : thread.turn < data.length / maxSegLen + 1
      · rw [if_neg refused, if_pos looping] at turned
        obtain ⟨client, _, same⟩ := Option.bind_eq_some_iff.mp turned
        cases same
        rfl
      · rw [if_neg refused, if_neg looping] at turned
        obtain ⟨connection, sent, same⟩ := Option.bind_eq_some_iff.mp turned
        cases same
        exact delivered_unread (fun length same => by cases same) sent

theorem reads_late {memory : StressMemory} {early late : Prop} {server : StressServer}
    {delivered : List Byte} (reads : server.Reads memory early delivered)
    (later : early → late) : server.Reads memory late delivered := by
  cases reads with
  | nothing sleeping => exact .nothing sleeping
  | length _ sleeping four => exact .length _ sleeping four
  | file bytes buf four whole => exact .file bytes buf four whole
  | unset isEarly => exact .unset (later isEarly)
  | unsetFile isEarly => exact .unsetFile (later isEarly)
  | lateFile isEarly _ four => exact .lateFile (later isEarly) _ four

/-- How a look at the buffer ends: in a sleep, with all the bytes that were asked for, or at
the test of the state. -/
inductive Received (table : ServerTcb) (held : List Byte) (sleeping : Bool) (length : UInt32) :
    RecvTurn → Prop where
  | waits (looks : sleeping = true ∨ table.state = .connected)
      (short : held.length < length.toNat) :
      Received table held sleeping length .sleeps
  | takes (looks : sleeping = true ∨ table.state = .connected) (enough : length.toNat ≤ held.length)
      (buffer : RecvBuffer (table.taken length) (held.drop length.toNat)) :
      Received table held sleeping length
        (.returns 1 (held.take length.toNat) (table.taken length))
  | refused (fresh : sleeping = false) (late : table.state ≠ .connected) :
      Received table held sleeping length (.returns (-1) [] table)

theorem recv_from_received {table : ServerTcb} {held : List Byte} (buffer : RecvBuffer table held)
    (sleeping : Bool) (length : UInt32) :
    ∃ turn, recvFrom table sleeping length = some turn ∧
      Received table held sleeping length turn := by
  have looks (test : sleeping = true ∨ table.state = .connected) :
      recvFrom table sleeping length = mrtServerRecvTurn table length := by
    unfold recvFrom
    rcases test with isSleeping | connected
    · rw [if_pos isSleeping]
    · split_ifs
      · rfl
      · rw [mrtServerRecv, connected]
  by_cases test : sleeping = true ∨ table.state = .connected
  · rw [looks test]
    rcases recv_turn_cases table held length buffer with sleeps | ⟨returns, after⟩
    · have short : held.length < length.toNat := by
        rw [mrtServerRecvTurn] at sleeps
        split_ifs at sleeps with more
        · rw [gt_iff_lt, UInt32.lt_iff_toNat_lt, buffer.used] at more
          exact more
        · cases sleeps
      exact ⟨.sleeps, sleeps, .waits test short⟩
    · have enough : length.toNat ≤ held.length := by
        rcases recv_turn_result returns with none | ⟨fits, _⟩
        · cases none
        · rw [UInt32.le_iff_toNat_le, buffer.used] at fits
          exact fits
      exact ⟨_, returns, .takes test enough after⟩
  · rw [not_or, Bool.not_eq_true] at test
    refine ⟨_, ?_, .refused test.1 test.2⟩
    rw [recvFrom, test.1, if_neg Bool.false_ne_true, mrtServerRecv]
    cases state : table.state with
    | connected => exact absurd state test.2
    | closewait => rfl
    | listening => rfl
    | closed => rfl

section Underway

variable {memory : StressMemory} {content : List Byte} {stress : StressTransfer}

theorem open_connected (transferring : stress.transfer.Underway [stressCalls content]) :
    stress.table.state = .connected := by
  obtain ⟨_, _, represents, _⟩ := transferring.represents
  exact represents.peers.serverState

theorem open_prefix (transferring : stress.transfer.Underway [stressCalls content]) :
    ∃ held, RecvBuffer stress.table held ∧
      stress.transfer.connection.delivered ++ held <+: wholePart content := by
  obtain ⟨history, window, represents, _⟩ := transferring.represents
  obtain ⟨held, rest, buffer, queued⟩ := represents_prefix represents
  have first : [stressCalls content][0]? = some (stressCalls content) := rfl
  obtain ⟨thread, here⟩ := thread_of_calls transferring first
  obtain ⟨finished, split, begun⟩ := transferring.own 0 thread here
  rw [first] at split
  have own : chunksOf 0 stress.transfer.chunks <+: wholeChunks content := by
    rw [begun, ← length_not_queued, Option.some.inj split, List.flatMap_append]
    exact (List.prefix_append_right_inj _).mpr (begun_in_order thread)
  have all : chunksOf 0 stress.transfer.chunks = stress.transfer.chunks.map Prod.snd := by
    rw [chunksOf, ← List.filterMap_eq_map]
    refine List.filterMap_congr fun chunk member => ?_
    have zero := transferring.within chunk member
    exact if_pos (Nat.lt_one_iff.mp zero)
  rw [all] at own
  obtain ⟨more, whole⟩ := own
  refine ⟨held, buffer, ?_⟩
  rw [← whole_chunks_flatten, ← whole, List.flatten_append, ← transferring.queued, ← queued,
    List.append_assoc]
  exact List.prefix_append _ _

theorem phase_prefix
    (phase : stress.transfer.Underway [stressCalls content] ∨ stress.Ended content) :
    ∃ held, RecvBuffer stress.table held ∧
      stress.transfer.connection.delivered ++ held <+: wholePart content := by
  rcases phase with transferring | ended
  · exact open_prefix transferring
  · exact ended.buffer

theorem phase_received
    (phase : stress.transfer.Underway [stressCalls content] ∨ stress.Ended content)
    (indexable : ∀ calls ∈ [stressCalls content], ∀ data ∈ calls, Indexable data)
    (bounded : maxSegLen * ([stressCalls content].map segmentCount).sum < 2 ^ 32)
    {held : List Byte} (buffer : RecvBuffer stress.table held)
    (front : stress.transfer.connection.delivered ++ held <+: wholePart content)
    {sleeping : Bool} {length : UInt32} {turn : RecvTurn}
    (looked : recvFrom stress.table sleeping length = some turn)
    (received : Received stress.table held sleeping length turn) (server : StressServer) :
    (stress.afterRecv turn server).transfer.Underway [stressCalls content] ∨
      (stress.afterRecv turn server).Ended content := by
  rcases phase with transferring | ended
  · have connected := open_connected transferring
    cases received with
    | waits looks short => exact .inl transferring
    | refused fresh late => exact absurd connected late
    | takes looks enough after =>
        have calls : mrtServerRecv stress.transfer.connection.server length =
            some (.returns 1 (held.take length.toNat) (stress.table.taken length)) := by
          have tested : stress.transfer.connection.server.state = .connected := connected
          rw [mrtServerRecv, tested]
          unfold recvFrom at looked
          split_ifs at looked
          · exact looked
          · rw [mrtServerRecv, connected] at looked
            exact looked
        have readable : (TransferEvent.other (.recv length)).Enabled stress.transfer :=
          ⟨trivial, trivial⟩
        obtain ⟨next, stepped, kept⟩ := step_underway transferring bounded indexable readable
        simp only [Transfer.step, Connection.step, calls, Option.bind_eq_bind,
          Option.bind_some] at stepped
        cases stepped
        exact .inl kept
  · apply Or.inr
    cases received with
    | waits looks short => exact ⟨ended.finSent, ended.state, ended.listening, ended.buffer⟩
    | refused fresh late =>
        refine ⟨ended.finSent, ended.state, ended.listening, held, buffer, ?_⟩
        rw [StressTransfer.afterRecv]
        simpa [Transfer.withConnection, Connection.afterRecv] using front
    | takes looks enough after =>
        refine ⟨ended.finSent, ended.state, ended.listening, _, after, ?_⟩
        simpa [StressTransfer.afterRecv, Transfer.withConnection, Connection.afterRecv] using front

theorem late_refused {table : ServerTcb} {held : List Byte} {length : UInt32} {turn : RecvTurn}
    (late : table.state ≠ .connected) (received : Received table held false length turn) :
    turn = .returns (-1) [] table := by
  cases received with
  | waits looks short => exact absurd (looks.resolve_left Bool.false_ne_true) late
  | takes looks enough buffer => exact absurd (looks.resolve_left Bool.false_ne_true) late
  | refused fresh isLate => rfl

theorem received_into_full (unset : List Byte) (count : Nat) {buf : List Byte} {value : Int}
    {table : ServerTcb} (full : buf.length = count) :
    receivedInto (unset.take count) (.returns value buf table) = some buf := by
  rw [receivedInto, full, List.drop_take_self, List.append_nil]

theorem reads_length {late : Prop} {sleeping : Bool} {delivered : List Byte}
    (reads : (StressServer.receivesLength sleeping).Reads memory late delivered) :
    delivered = [] := by
  cases reads
  rfl

theorem reads_file {late : Prop} {fileLen : Int32} {sleeping : Bool} {delivered : List Byte}
    (reads : (StressServer.receivesFile fileLen sleeping).Reads memory late delivered) :
    delivered.length = 4 ∧ fileLen = int32Codec.decode delivered ∨
      late ∧ sleeping = false ∧ delivered = [] ∧ fileLen = memory.fileLen := by
  cases reads with
  | length _ _ four => exact .inl ⟨four, rfl⟩
  | unset isLate => exact .inr ⟨isLate, rfl, rfl, rfl⟩

theorem length_taken {sleeping : Bool} {bytes : List Byte} {table : ServerTcb}
    (program : stress.server = .receivesLength sleeping)
    (looked : recvFrom stress.table sleeping 4 = some (.returns 1 bytes table))
    (four : bytes.length = 4) :
    stress.step memory .server = some
      (stress.afterRecv (.returns 1 bytes table)
        (.receivesFile (int32Codec.decode bytes) false)) := by
  have width : (int32Codec.encode memory.fileLen).length = 4 := int32Codec.encode_length _
  have full : receivedInto (int32Codec.encode memory.fileLen) (.returns 1 bytes table) =
      some bytes := by
    rw [receivedInto, four, List.drop_of_length_le (Nat.le_of_eq width), List.append_nil]
  simp only [StressTransfer.step, program, looked, Option.bind_eq_bind, Option.bind_some, full]
  rfl

theorem file_taken {fileLen : Int32} {sleeping : Bool} {bytes : List Byte} {table : ServerTcb}
    (program : stress.server = .receivesFile fileLen sleeping)
    (looked : recvFrom stress.table sleeping fileLen.toUInt32 = some (.returns 1 bytes table))
    (whole : bytes.length = fileLen.toUInt32.toNat) :
    stress.step memory .server =
      some (stress.afterRecv (.returns 1 bytes table) (.saves fileLen bytes)) := by
  simp only [StressTransfer.step, program, looked, Option.bind_eq_bind, Option.bind_some,
    received_into_full _ _ whole]
  rfl

theorem taken_length {held : List Byte} {count : Nat} (enough : count ≤ held.length) :
    (held.take count).length = count := by
  rw [List.length_take, Nat.min_eq_left enough]

section ServerStep

variable (underway : stress.Underway memory content)
  (indexable : ∀ calls ∈ [stressCalls content], ∀ data ∈ calls, Indexable data)
  (bounded : maxSegLen * ([stressCalls content].map segmentCount).sum < 2 ^ 32)
include underway indexable bounded

theorem receives_length_step {sleeping : Bool}
    (program : stress.server = .receivesLength sleeping) :
    ∃ after, stress.step memory .server = some after ∧ after.Underway memory content := by
  obtain ⟨phase, reads⟩ := underway
  obtain ⟨held, buffer, front⟩ := phase_prefix phase
  obtain ⟨turn, looked, received⟩ := recv_from_received buffer sleeping 4
  have kept := phase_received phase indexable bounded buffer front looked received
  have unread := reads_length (program ▸ reads)
  cases received with
  | waits looks short =>
      refine ⟨stress.afterRecv .sleeps (.receivesLength true), ?_, kept _,
        unread ▸ .nothing true⟩
      simp only [StressTransfer.step, program, looked, Option.bind_eq_bind, Option.bind_some]
      rfl
  | refused fresh late =>
      have unset : int32Codec.decode ([] ++ (int32Codec.encode memory.fileLen).drop 0) =
          memory.fileLen := int32Codec.decode_encode _
      refine ⟨stress.afterRecv (.returns (-1) [] stress.table)
        (.receivesFile memory.fileLen false), ?_, kept _, ?_⟩
      · simp only [StressTransfer.step, program, looked, Option.bind_eq_bind, Option.bind_some,
          receivedInto, List.length_nil, unset]
        rfl
      · simp only [StressTransfer.afterRecv, Connection.afterRecv, Transfer.withConnection,
          unread, List.append_nil]
        exact .unset late
  | takes looks enough after =>
      have four : (held.take (4 : UInt32).toNat).length = 4 := taken_length enough
      refine ⟨_, length_taken program looked four, kept _, ?_⟩
      simp only [StressTransfer.afterRecv, Connection.afterRecv, Transfer.withConnection,
        unread, List.nil_append]
      exact .length _ false four

theorem receives_file_step {fileLen : Int32} {sleeping : Bool}
    (program : stress.server = .receivesFile fileLen sleeping) :
    ∃ after, stress.step memory .server = some after ∧ after.Underway memory content := by
  obtain ⟨phase, reads⟩ := underway
  obtain ⟨held, buffer, front⟩ := phase_prefix phase
  obtain ⟨turn, looked, received⟩ := recv_from_received buffer sleeping fileLen.toUInt32
  have kept := phase_received phase indexable bounded buffer front looked received
  have refuse (refused : turn = .returns (-1) [] stress.table) :
      stress.step memory .server = some (stress.afterRecv (.returns (-1) [] stress.table)
        (.saves fileLen (memory.block.take fileLen.toUInt32.toNat))) := by
    rw [refused] at looked
    simp only [StressTransfer.step, program, looked, Option.bind_eq_bind, Option.bind_some]
    rfl
  rcases reads_file (program ▸ reads) with ⟨four, known⟩ | ⟨late, fresh, unread, unset⟩
  · cases received with
    | waits looks short =>
        refine ⟨stress.afterRecv .sleeps (.receivesFile fileLen true), ?_, kept _,
          known ▸ .length _ true four⟩
        simp only [StressTransfer.step, program, looked, Option.bind_eq_bind, Option.bind_some]
        rfl
    | refused fresh late =>
        refine ⟨_, refuse rfl, kept _, ?_⟩
        simp only [StressTransfer.afterRecv, Connection.afterRecv, Transfer.withConnection,
          List.append_nil]
        exact known ▸ .lateFile late _ four
    | takes looks enough after =>
        refine ⟨_, file_taken program looked (taken_length enough), kept _, ?_⟩
        simp only [StressTransfer.afterRecv, Connection.afterRecv, Transfer.withConnection]
        exact known ▸ .file _ _ four (known ▸ taken_length enough)
  · rw [fresh] at received
    have refused := late_refused late received
    have kept := kept (.saves fileLen (memory.block.take fileLen.toUInt32.toNat))
    rw [refused] at kept
    refine ⟨_, refuse refused, kept, ?_⟩
    simp only [StressTransfer.afterRecv, Connection.afterRecv, Transfer.withConnection,
      List.append_nil, unread, unset]
    exact .unsetFile late

theorem server_step :
    ∃ after, stress.step memory .server = some after ∧ after.Underway memory content := by
  cases program : stress.server with
  | saves fileLen buf =>
      refine ⟨stress, ?_, underway⟩
      rw [StressTransfer.step, program]
  | receivesLength sleeping => exact receives_length_step underway indexable bounded program
  | receivesFile fileLen sleeping => exact receives_file_step underway indexable bounded program

end ServerStep

theorem fin_step (transferring : stress.transfer.Underway [stressCalls content]) :
    ∃ effects, serverSeghandler stress.table
        stress.transfer.connection.client.tcb.clientNodeID.toInt32 stress.fin =
      some ({ stress.table with state := .closewait }, effects) := by
  obtain ⟨_, _, represents, _⟩ := transferring.represents
  have peers := represents.peers
  have connected : stress.table.state = .connected := peers.serverState
  have here : stress.table.clientPortNum = stress.fin.header.srcPort ∧
      stress.table.clientNodeID =
        stress.transfer.connection.client.tcb.clientNodeID.toInt32.toUInt32 := by
    rw [UInt32.toUInt32_toInt32]
    exact ⟨peers.clientPortNum, peers.clientNodeID⟩
  have isFin : stress.fin.header.type = SegType.fin := rfl
  have notSyn : SegType.fin ≠ SegType.syn := by decide
  have notData : SegType.fin ≠ SegType.data := by decide
  simp only [serverSeghandler, connected, if_pos here, isFin, if_neg notSyn, if_neg notData,
    segmentRecv, if_true]
  exact ⟨_, rfl⟩

/-- A segment that `seghandler` gets behind the data phase. -/
theorem segment_step (underway : stress.Underway memory content) {seg : Seg}
    (enabled : (StressEvent.segment seg).Enabled stress) :
    ∃ after, stress.step memory (.segment seg) = some after ∧ after.Underway memory content := by
  obtain ⟨phase, reads⟩ := underway
  obtain ⟨finSent, sends⟩ := enabled
  rcases phase with transferring | ended
  · have connected := open_connected transferring
    rcases sends with rfl | ⟨late, _⟩
    · obtain ⟨effects, handled⟩ := fin_step transferring
      obtain ⟨held, buffer, front⟩ := open_prefix transferring
      refine ⟨stress.withTable { stress.table with state := .closewait }, ?_, .inr ?_, ?_⟩
      · rw [StressTransfer.step, handled]
        rfl
      · have waiting : (stress.withTable
            { stress.table with state := .closewait }).table.state = .closewait := rfl
        refine ⟨finSent, by rw [waiting]; decide, by rw [waiting]; decide, held, ?_, front⟩
        exact ⟨buffer.block, buffer.used, buffer.room, buffer.bytes⟩
      · exact reads_late reads fun late => absurd connected late
    · exact absurd connected late
  · have same : ∃ effects, serverSeghandler stress.table
        stress.transfer.connection.client.tcb.clientNodeID.toInt32 seg =
          some (stress.table, effects) := by
      cases state : stress.table.state with
      | connected => exact absurd state ended.state
      | listening => exact absurd state ended.listening
      | closewait => exact ⟨_, closewait_step stress.table _ seg state⟩
      | closed => exact ⟨_, closed_step stress.table _ seg state⟩
    obtain ⟨effects, handled⟩ := same
    refine ⟨stress.withTable stress.table, ?_, .inr ?_, reads⟩
    · rw [StressTransfer.step, handled]
      rfl
    · exact ⟨ended.finSent, ended.state, ended.listening, ended.buffer⟩

/-- The thread of `closewait` empties the buffer. -/
theorem closewait_ends (underway : stress.Underway memory content)
    (waiting : stress.table.state = .closewait) :
    (stress.withTable (closewait stress.table)).Underway memory content := by
  obtain ⟨phase, reads⟩ := underway
  have late : stress.table.state ≠ .connected := by
    rw [waiting]
    decide
  rcases phase with transferring | ended
  · exact absurd (open_connected transferring) late
  · obtain ⟨held, buffer, front⟩ := ended.buffer
    have closed : (stress.withTable (closewait stress.table)).table.state = .closed := rfl
    have isLate : (stress.withTable (closewait stress.table)).table.state ≠ .connected := by
      rw [closed]
      decide
    refine ⟨.inr ⟨ended.finSent, isLate, by rw [closed]; decide, [], ?_, ?_⟩, ?_⟩
    · exact ⟨buffer.block, rfl, by decide, rfl⟩
    · rw [List.append_nil]
      exact (List.prefix_append _ _).trans front
    · exact reads_late reads fun _ => isLate

theorem stress_step (underway : stress.Underway memory content)
    (indexable : ∀ calls ∈ [stressCalls content], ∀ data ∈ calls, Indexable data)
    (bounded : maxSegLen * ([stressCalls content].map segmentCount).sum < 2 ^ 32)
    {event : StressEvent} (enabled : event.Enabled stress) :
    ∃ after, stress.step memory event = some after ∧ after.Underway memory content := by
  have opened (connected : stress.table.state = .connected) :
      stress.transfer.Underway [stressCalls content] := by
    rcases underway.phase with transferring | ended
    · exact transferring
    · exact absurd connected ended.state
  cases event with
  | server => exact server_step underway indexable bounded
  | segment seg => exact segment_step underway enabled
  | closewait => exact ⟨_, rfl, closewait_ends underway enabled⟩
  | disconnect =>
      refine ⟨{ stress with finSent := true }, rfl, ?_, underway.reads⟩
      rcases underway.phase with transferring | ended
      · exact .inl transferring
      · exact .inr ⟨rfl, ended.state, ended.listening, ended.buffer⟩
  | client now =>
      obtain ⟨sends, unsent⟩ := enabled
      have transferring : stress.transfer.Underway [stressCalls content] := by
        rcases underway.phase with transferring | ended
        · exact transferring
        · cases unsent.symm.trans ended.finSent
      obtain ⟨after, stepped, kept⟩ := step_underway transferring bounded indexable sends
      refine ⟨{ stress with transfer := after }, ?_, .inl kept, ?_⟩
      · rw [StressTransfer.step, stepped]
        rfl
      · have reads := underway.reads
        rw [← delivered_client stepped] at reads
        exact reads_late reads fun late => absurd (open_connected transferring) late
  | other event =>
      obtain ⟨delivers, unread, connected, _⟩ := enabled
      obtain ⟨after, stepped, kept⟩ := step_underway (opened connected) bounded indexable delivers
      refine ⟨{ stress with transfer := after }, ?_, .inl kept, ?_⟩
      · rw [StressTransfer.step, stepped]
        rfl
      · obtain ⟨connection, moved, same⟩ := Option.bind_eq_some_iff.mp stepped
        cases same
        have reads := underway.reads
        rw [← delivered_unread unread moved] at reads
        exact reads_late reads fun late => absurd connected late

end Underway

theorem stress_indexable {content : List Byte} (fits : content.length ≤ intMax) :
    ∀ calls ∈ [stressCalls content], ∀ data ∈ calls, Indexable data := by
  intro calls member data inCalls index early
  have short : data.length ≤ intMax := by
    rw [List.mem_singleton.mp member, stressCalls] at inCalls
    rcases List.mem_pair.mp inCalls with rfl | rfl
    · have width : (int32Codec.encode (Int32.ofNat content.length)).length = 4 :=
        int32Codec.encode_length _
      rw [width]
      decide
    · exact fits
  calc
    index * maxSegLen ≤ data.length / maxSegLen * maxSegLen :=
      Nat.mul_le_mul_right _ (Nat.le_of_lt early)
    _ ≤ data.length := Nat.div_mul_le_self _ _
    _ ≤ intMax := short

theorem stress_segments (content : List Byte) :
    ([stressCalls content].map segmentCount).sum = content.length / maxSegLen := by
  have width : (int32Codec.encode (Int32.ofNat content.length)).length = 4 :=
    int32Codec.encode_length _
  have none : 4 / maxSegLen = 0 := rfl
  simp [stressCalls, segmentCount, width, none]

theorem stress_bounded {content : List Byte} (fits : content.length ≤ intMax) :
    maxSegLen * ([stressCalls content].map segmentCount).sum < 2 ^ 32 := by
  have whole := Nat.mul_div_le content.length maxSegLen
  rw [stress_segments]
  simp only [intMax] at fits
  omega

theorem taken_of_front {front content : List Byte} (first : front <+: wholePart content) :
    front = content.take front.length ∧ front.length ≤ content.length ∧
      (content.length < maxSegLen → front = []) := by
  have short := first.length_le
  rw [wholePart, List.length_take] at short
  have same := List.prefix_iff_eq_take.mp first
  rw [wholePart, List.take_take, Nat.min_eq_left (Nat.le_trans short (Nat.min_le_left _ _))] at same
  refine ⟨same, Nat.le_trans short (Nat.min_le_right _ _), fun small => ?_⟩
  rw [Nat.div_eq_of_lt small, Nat.zero_mul, Nat.zero_min] at short
  exact List.eq_nil_of_length_eq_zero (Nat.le_zero.mp short)

def TakenFrom (content : List Byte) (fileLen : Int32) : Prop :=
  maxSegLen ≤ content.length ∧ fileLen = int32Codec.decode (content.take 4)

theorem taken_from_read {bytes content : List Byte} (four : bytes.length = 4)
    (first : bytes <+: wholePart content) : TakenFrom content (int32Codec.decode bytes) := by
  obtain ⟨front, _, nothing⟩ := taken_of_front first
  rw [four] at front
  refine ⟨?_, congrArg int32Codec.decode front⟩
  by_contra small
  rw [nothing (Nat.lt_of_not_le small)] at four
  cases four

theorem saves_file {memory : StressMemory} {late : Prop} {fileLen : Int32}
    {buf delivered content : List Byte}
    (reads : (StressServer.saves fileLen buf).Reads memory late delivered)
    (first : delivered <+: wholePart content) :
    TakenFrom content fileLen ∧ buf = (content.drop 4).take fileLen.toUInt32.toNat ∧
        buf ≠ content ∨
      late ∧ (TakenFrom content fileLen ∨ fileLen = memory.fileLen) ∧
        buf = memory.block.take fileLen.toUInt32.toNat := by
  cases reads with
  | file bytes buf four whole =>
      have taken := taken_from_read four ((List.prefix_append bytes buf).trans first)
      obtain ⟨front, inside, _⟩ := taken_of_front first
      rw [List.length_append, four] at front inside
      have head : (content.take 4).length = bytes.length := by
        rw [List.length_take, four]
        omega
      rw [List.take_add] at front
      obtain ⟨_, sameRest⟩ := List.append_inj front head.symm
      refine .inl ⟨taken, ?_, ?_⟩
      · rw [← whole]
        exact sameRest
      · rintro rfl
        omega
  | unsetFile isLate => exact .inr ⟨isLate, .inr rfl, rfl⟩
  | lateFile isLate _ four => exact .inr ⟨isLate, .inl (taken_from_read four first), rfl⟩

def WholeData (seg : Seg) : Prop :=
  seg.header.type = SegType.data → seg.header.length.toNat = maxSegLen

/-- A turn of `mrt_client_send` reads nothing and has only whole segments on the network. -/
theorem send_keeps {transfer after : Transfer} {index : Nat} {now : Nat → Timeval}
    (cells : transfer.connection.client.Keeps WholeData)
    (flying : ∀ arg ∈ transfer.connection.toServer, WholeData arg.seg)
    (stepped : transfer.step (.send index now) = some after) :
    after.connection.client.Keeps WholeData ∧
      (∀ arg ∈ after.connection.toServer, WholeData arg.seg) ∧
      after.connection.server = transfer.connection.server := by
  obtain ⟨thread, _, turned⟩ := Option.bind_eq_some_iff.mp stepped
  unfold Transfer.sendTurn at turned
  cases calls : thread.calls with
  | nil =>
      rw [calls] at turned
      cases turned
  | cons data calls' =>
      simp only [calls] at turned
      by_cases refused : thread.turn = 0 ∧ transfer.connection.client.tcb.state ≠ .connected
      · rw [if_pos refused] at turned
        cases turned
        exact ⟨cells, flying, rfl⟩
      by_cases looping : thread.turn < data.length / maxSegLen + 1
      · rw [if_neg refused, if_pos looping] at turned
        obtain ⟨client, queued, same⟩ := Option.bind_eq_some_iff.mp turned
        cases same
        refine ⟨?_, flying, rfl⟩
        unfold mrtClientSendTurn at queued
        split_ifs at queued
        · cases queued
          have dropped : (0 : UInt16) ≠ SegType.data := by decide
          exact everywhere_alloc cells _ fun isData => absurd isData dropped
        · obtain ⟨chunk, _, appended⟩ := Option.bind_eq_some_iff.mp queued
          exact (queue_kept (fun _ _ whole => whole) cells (fun _ => rfl) appended).cells
      · rw [if_neg refused, if_neg looping] at turned
        obtain ⟨connection, sent, same⟩ := Option.bind_eq_some_iff.mp turned
        cases same
        obtain ⟨result, sending, same⟩ := Option.bind_eq_some_iff.mp sent
        cases same
        have kept := sending_kept now cells sending
        refine ⟨kept.cells, fun arg member => ?_, rfl⟩
        exact (List.mem_append.mp member).elim (flying arg) (kept.sends arg)

structure StressTransfer.Sending (content : List Byte) (stress : StressTransfer) : Prop where
  transferring : stress.transfer.Underway [stressCalls content]
  cells : stress.transfer.connection.client.Keeps WholeData
  flying : ∀ arg ∈ stress.transfer.connection.toServer, WholeData arg.seg
  buffer : RecvBuffer stress.table []
  unread : stress.transfer.connection.delivered = []
  program : stress.server = .receivesLength false
  unsent : stress.finSent = false

def StressTransfer.work (stress : StressTransfer) : Nat :=
  (stress.transfer.threads.map SendThread.work).sum

theorem client_turn (memory : StressMemory) {content : List Byte}
    (fits : content.length ≤ intMax) (stress : StressTransfer) (sending : stress.Sending content)
    (more : stress.work ≠ 0) :
    ∃ event after, StressEvent.Enabled stress event ∧ stress.step memory event = some after ∧
      after.Sending content ∧ after.work < stress.work := by
  obtain ⟨work, listed, positive⟩ := List.sum_pos_iff_exists_pos_nat.mp (Nat.pos_of_ne_zero more)
  obtain ⟨⟨calls, turn⟩, member, rfl⟩ := List.mem_map.mp listed
  obtain ⟨index, found⟩ := List.mem_iff_getElem?.mp member
  have first : index = 0 := by
    have inside := (List.getElem?_eq_some_iff.mp found).1
    rw [sending.transferring.length] at inside
    exact Nat.lt_one_iff.mp inside
  subst first
  cases calls with
  | nil => exact absurd positive (Nat.lt_irrefl 0)
  | cons data rest =>
      obtain ⟨finished, own, _⟩ := sending.transferring.own 0 _ found
      have indexable := stress_indexable fits _ (List.mem_of_getElem? own) data (by simp)
      obtain ⟨after, stepped, next, less⟩ := send_underway sending.transferring
        (stress_bounded fits) (fun _ => ⟨0, 0⟩) found indexable
      obtain ⟨cells, flying, server⟩ := send_keeps sending.cells sending.flying stepped
      have shorter : (after.threads.map SendThread.work).sum < stress.work := by
        rw [StressTransfer.work]
        omega
      refine ⟨.client fun _ => ⟨0, 0⟩, { stress with transfer := after },
        ⟨⟨_, found, List.cons_ne_nil _ _⟩, sending.unsent⟩, ?_,
        ⟨next, cells, flying, ?_, ?_, sending.program, sending.unsent⟩, shorter⟩
      · rw [StressTransfer.step, stepped]
        rfl
      · rw [StressTransfer.table, server]
        exact sending.buffer
      · exact (delivered_client stepped).trans sending.unread

theorem client_returns (memory : StressMemory) {content : List Byte}
    (fits : content.length ≤ intMax) {stress : StressTransfer} (sending : stress.Sending content) :
    ∃ events last, stress.Runs memory events last ∧ last.Sending content ∧
      ∀ thread ∈ last.transfer.threads, thread.calls = [] ∧ thread.turn = 0 := by
  obtain ⟨events, last, _, runs, kept, done⟩ := guarded_drains StressTransfer.work
    (StressTransfer.Sending content) (client_turn memory fits) sending
  refine ⟨events, last, runs, kept, ?_⟩
  intro thread member
  apply work_zero _ (kept.transferring.turns thread member)
  have each := List.sum_eq_zero_iff_forall_eq_nat.mp done
  exact each _ (List.mem_map_of_mem member)

theorem all_queued {content : List Byte} {transfer : Transfer}
    (transferring : transfer.Underway [stressCalls content])
    (done : ∀ thread ∈ transfer.threads, thread.calls = [] ∧ thread.turn = 0) :
    transfer.connection.queued = wholePart content := by
  have first : [stressCalls content][0]? = some (stressCalls content) := rfl
  obtain ⟨thread, here⟩ := thread_of_calls transferring first
  obtain ⟨finished, split, begun⟩ := transferring.own 0 thread here
  have none := (done thread (List.mem_of_getElem? here)).1
  rw [first, none, List.append_nil] at split
  cases split
  have nothing : thread.begun = [] := by rw [SendThread.begun, none]
  have all : chunksOf 0 transfer.chunks = transfer.chunks.map Prod.snd := by
    rw [chunksOf, ← List.filterMap_eq_map]
    refine List.filterMap_congr fun chunk member => ?_
    exact if_pos (Nat.lt_one_iff.mp (transferring.within chunk member))
  rw [transferring.queued, ← all, begun, nothing, List.append_nil, length_not_queued,
    whole_chunks_flatten]

theorem payload_within {history : List Seg} {first : Seg} (member : first ∈ history) :
    first.payload.length ≤ (history.flatMap Seg.payload).length := by
  obtain ⟨front, back, rfl⟩ := List.append_of_mem member
  rw [List.flatMap_append, List.flatMap_cons, List.length_append, List.length_append]
  omega

theorem whole_part_long {content : List Byte} (whole : maxSegLen ≤ content.length) :
    maxSegLen ≤ (wholePart content).length := by
  have one : 1 ≤ content.length / maxSegLen := (Nat.le_div_iff_mul_le (by decide)).mpr (by omega)
  have below : content.length / maxSegLen * maxSegLen ≤ content.length := Nat.div_mul_le_self _ _
  rw [wholePart, List.length_take, Nat.min_eq_left below]
  exact Nat.le_mul_of_pos_left _ one

theorem whole_part_small {content : List Byte} (fits : content.length ≤ intMax) :
    (wholePart content).length < 2 ^ 32 := by
  have small : content.length < 2 ^ 32 := Nat.lt_of_le_of_lt fits (by decide)
  rw [wholePart, List.length_take]
  omega

/-- Nothing was accepted yet, so nothing can be acknowledged. -/
theorem first_unacked {connection : Connection} {history : List Seg} {window : Window}
    (represents : Represents connection history window) (ordered : Ordered window)
    (unused : connection.server.usedBufLen.toNat = 0) (unread : connection.delivered = [])
    (queued : connection.queued ≠ []) :
    ∃ first rest, history.drop window.acked = first :: rest := by
  apply List.exists_cons_of_ne_nil
  intro none
  obtain ⟨held, buffer, split⟩ := represents.received
  have empty : held = [] := List.eq_nil_of_length_eq_zero (buffer.used.symm.trans unused)
  have inside := Nat.le_trans (List.drop_eq_nil_iff.mp none) ordered.acked
  have accepted := represents.accepted
  rw [← split, empty, unread, List.take_of_length_le inside, ← represents.queued] at accepted
  exact queued accepted.symm

theorem first_held {connection : Connection} {history rest : List Seg} {window : Window}
    {first : Seg} (represents : Represents connection history window)
    (unread : connection.delivered = []) (segs : history.drop window.acked = first :: rest)
    (newer : window.acked < window.received) :
    ∃ held, RecvBuffer connection.server held ∧ held <+: connection.queued ∧
      first.payload.length ≤ held.length := by
  obtain ⟨held, buffer, split⟩ := represents.received
  rw [unread, List.nil_append, represents.accepted] at split
  refine ⟨held, buffer, ?_, ?_⟩
  · rw [split, represents.queued]
    refine ⟨(history.drop window.received).flatMap Seg.payload, ?_⟩
    rw [← List.flatMap_append, List.take_append_drop]
  · rw [split]
    apply payload_within
    apply List.mem_of_getElem? (i := window.acked)
    rw [List.getElem?_take_of_lt newer]
    exact found_of_drop segs

theorem first_arrives {content : List Byte} (whole : maxSegLen ≤ content.length)
    (fits : content.length ≤ intMax) {stress : StressTransfer} (sending : stress.Sending content)
    (done : ∀ thread ∈ stress.transfer.threads, thread.calls = [] ∧ thread.turn = 0) :
    ∃ nodeID first middle last, stress.transfer.connection.Runs [.timeout fun _ => ⟨0, 0⟩] middle ∧
      middle.Runs [.data ⟨nodeID, first⟩] last ∧ middle.server.state = .connected ∧
      last.server.state = .connected ∧ ∃ held, RecvBuffer last.server held ∧
        last.delivered = [] ∧ held <+: wholePart content ∧
        maxSegLen ≤ held.length := by
  have queued := all_queued sending.transferring done
  obtain ⟨history, window, represents, ordered⟩ := sending.transferring.represents
  have refilled : Refilled stress.transfer.connection.client := by
    rcases sending.transferring.refilled with refilled | ⟨thread, member, busy⟩
    · exact refilled
    · exact absurd (done thread member).2 busy
  have filled : stress.transfer.connection.queued ≠ [] := by
    rw [queued]
    intro none
    have long := whole_part_long whole
    rw [none] at long
    exact absurd long (by decide)
  obtain ⟨first, rest, segs⟩ :=
    first_unacked represents ordered sending.buffer.used sending.unread filled
  obtain ⟨middle, nodeID, _, _, resends, mid, inFlight⟩ := first_resent (fun _ => ⟨0, 0⟩)
    ⟨represents, ordered, rfl, segs, sending.buffer⟩ refilled
  obtain ⟨last, history', window', answers, lastRepresents, _, sameQueued, segs', newer, _⟩ :=
    first_answered mid (queued ▸ whole_part_small fits) inFlight
  have resent : stress.transfer.connection.step (.timeout fun _ => ⟨0, 0⟩) = some middle := by
    simpa using resends.1
  have answered : middle.step (.data ⟨nodeID, first⟩) = some last := by
    simpa using answers.1
  have unread : last.delivered = [] := by
    rw [delivered_unread (by simp) answered, delivered_unread (by simp) resent]
    exact sending.unread
  obtain ⟨result, timeout, same⟩ := Option.bind_eq_some_iff.mp resent
  cases same
  have flying := (List.mem_append.mp inFlight).elim (sending.flying _)
    ((timeout_kept _ sending.cells timeout).sends _)
  have queueable := lastRepresents.wellFormed.queueable first
    (List.mem_of_getElem? (found_of_drop segs'))
  have size := payload_length first queueable.fits
  obtain ⟨held, buffer, front, long⟩ := first_held lastRepresents unread segs' newer
  refine ⟨nodeID, first, _, last, resends, answers, mid.represents.peers.serverState,
    lastRepresents.peers.serverState, held, buffer, unread, ?_, ?_⟩
  · rw [← queued, ← sameQueued]
    exact front
  · rw [← flying queueable.type, ← size]
    exact long

/-- A file of one segment and four bytes, of which the first four are the number one. -/
def oneFile : List Byte := int32Codec.encode 1 ++ List.replicate maxSegLen 7

theorem one_file_length : oneFile.length = maxSegLen + 4 := by
  rw [oneFile, List.length_append, int32Codec.encode_length, List.length_replicate]
  rfl

theorem start_sending : (StressTransfer.start idleConnection oneFile).Sending oneFile where
  transferring := start_underway idle_established _
  cells := everywhere_nil _
  flying _ member := absurd member List.not_mem_nil
  buffer := ⟨List.length_replicate, rfl, by decide, rfl⟩
  unread := rfl
  program := rfl
  unsent := rfl

theorem recv_enough {table : ServerTcb} {held : List Byte} {length : UInt32}
    (buffer : RecvBuffer table held) (connected : table.state = .connected)
    (enough : length.toNat ≤ held.length) :
    recvFrom table false length =
        some (.returns 1 (held.take length.toNat) (table.taken length)) ∧
      RecvBuffer (table.taken length) (held.drop length.toNat) := by
  obtain ⟨turn, looked, received⟩ := recv_from_received buffer false length
  cases received with
  | waits looks short => omega
  | takes looks enough after => exact ⟨looked, after⟩
  | refused fresh late => exact absurd connected late

theorem one_file_front {held : List Byte} (front : held <+: wholePart oneFile)
    (long : maxSegLen ≤ held.length) :
    held.take 4 = int32Codec.encode 1 ∧ (held.drop 4).take 1 = [7] := by
  obtain ⟨same, _, _⟩ := taken_of_front front
  have four : (int32Codec.encode 1).length = 4 := int32Codec.encode_length _
  have inside : 5 ≤ held.length := Nat.le_trans (by decide) long
  have head : oneFile.take 5 = int32Codec.encode 1 ++ [7] := rfl
  have five : held.take 5 = int32Codec.encode 1 ++ [7] := by
    rw [same, List.take_take, Nat.min_eq_left inside, head]
  constructor
  · have first := congrArg (List.take 4) five
    rw [List.take_take] at first
    exact first.trans (List.take_left' four)
  · have rest := congrArg (List.drop 4) five
    rw [List.drop_take] at rest
    exact rest.trans (List.drop_left' four)

theorem two_reads (memory : StressMemory) {stress : StressTransfer} {held : List Byte}
    (program : stress.server = .receivesLength false) (buffer : RecvBuffer stress.table held)
    (connected : stress.table.state = .connected) (front : held <+: wholePart oneFile)
    (long : maxSegLen ≤ held.length) :
    ∃ after, stress.Runs memory [.server, .server] after ∧ after.server = .saves 1 [7] ∧
      after.table.state = .connected := by
  obtain ⟨head, byte⟩ := one_file_front front long
  have four : (held.take 4).length = 4 := head ▸ int32Codec.encode_length _
  have number : int32Codec.decode (held.take 4) = 1 := head ▸ int32Codec.decode_encode _
  obtain ⟨takesLength, rest⟩ := recv_enough buffer connected
    (Nat.le_trans (by decide) long : (4 : UInt32).toNat ≤ held.length)
  have more : (1 : Int32).toUInt32.toNat ≤ (held.drop 4).length := by
    rw [List.length_drop]
    exact Nat.le_trans (by decide) (Nat.sub_le_sub_right long 4)
  obtain ⟨takesByte, _⟩ := recv_enough rest connected more
  have lengthStep : stress.step memory .server = some (stress.afterRecv
      (.returns 1 (held.take 4) (stress.table.taken 4)) (.receivesFile 1 false)) := by
    rw [← number]
    exact length_taken program takesLength four
  have byteStep : StressTransfer.step memory (stress.afterRecv
      (.returns 1 (held.take 4) (stress.table.taken 4)) (.receivesFile 1 false)) .server =
        some _ :=
    file_taken rfl takesByte (List.length_take.trans (Nat.min_eq_left more))
  refine ⟨_, guarded_cons trivial lengthStep (guarded_cons trivial byteStep (guarded_nil _)), ?_,
    connected⟩
  exact congrArg (StressServer.saves 1) byte

theorem one_byte_saved (memory : StressMemory) : ∃ events stress,
    (StressTransfer.start idleConnection oneFile).Runs memory events stress ∧
      stress.server = .saves 1 [7] ∧ stress.table.state = .connected := by
  have fits : oneFile.length ≤ intMax := by
    rw [one_file_length]
    decide
  have whole : maxSegLen ≤ oneFile.length := by
    rw [one_file_length]
    exact Nat.le_add_right _ _
  obtain ⟨sends, sent, sendRuns, sending, done⟩ := client_returns memory fits start_sending
  obtain ⟨nodeID, first, middle, last, resends, answers, middleState, lastState, held, buffer, _,
    front, long⟩ := first_arrives whole fits sending done
  have resent : sent.transfer.connection.step (.timeout fun _ => ⟨0, 0⟩) = some middle := by
    simpa using resends.1
  have answered : middle.step (.data ⟨nodeID, first⟩) = some last := by
    simpa using answers.1
  let resending : StressTransfer := { sent with transfer := sent.transfer.withConnection middle }
  let arrived : StressTransfer := { sent with transfer := sent.transfer.withConnection last }
  have timeoutStep : sent.step memory (.other (.timeout fun _ => ⟨0, 0⟩)) = some resending := by
    rw [StressTransfer.step, Transfer.step, resent]
    rfl
  have dataStep : resending.step memory (.other (.data ⟨nodeID, first⟩)) = some arrived := by
    have moved : resending.transfer.connection.step (.data ⟨nodeID, first⟩) = some last := answered
    rw [StressTransfer.step, Transfer.step, moved]
    rfl
  have timeoutEvent : StressEvent.Enabled sent (.other (.timeout fun _ => ⟨0, 0⟩)) :=
    ⟨⟨trivial, trivial⟩, by simp, open_connected sending.transferring, by simp [sending.unsent]⟩
  have dataEvent : StressEvent.Enabled resending (.other (.data ⟨nodeID, first⟩)) :=
    ⟨⟨trivial, answers.2.1⟩, by simp, middleState, fun _ => ⟨_, rfl⟩⟩
  have program : arrived.server = .receivesLength false := sending.program
  obtain ⟨after, reads, saved, connected⟩ :=
    two_reads memory program buffer lastState front long
  exact ⟨_, after, guarded_append sendRuns (guarded_cons timeoutEvent timeoutStep
    (guarded_cons dataEvent dataStep reads)), saved, connected⟩

end MiniOverlay
