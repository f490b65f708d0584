import MiniOverlay.DataCompletion
import MiniOverlay.SendBufferTimer
import Mathlib.Algebra.GroupWithZero.Nat

/-!
# From `mrt_client_send` to `mrt_server_recv`

Any number of threads call `mrt_client_send` on one connected socket, each of them turn by
turn of its loop, while segments and acknowledgements arrive, timeouts happen and the
server reads. What is read is cut from the segments of all threads in the order in which
they were queued, and all of it can be read once the calls have returned.
-/

namespace MiniOverlay

open LinkedHeap FixedByteCodec CumulativeAckWindow PartialRuns

set_option autoImplicit false

/-- The data of the calls that a thread still makes, the current one first, and the turns
of its loop that were made. -/
structure SendThread where
  calls : List (List Byte)
  turn : Nat

def segmentChunk (data : List Byte) (index : Nat) : List Byte :=
  (data.drop (index * maxSegLen)).take maxSegLen

def wholeChunks (data : List Byte) : List (List Byte) :=
  (List.range (data.length / maxSegLen)).map (segmentChunk data)

/-- `chunks` records what was queued, with the threads that did it. -/
structure Transfer where
  connection : Connection
  threads : List SendThread
  chunks : List (Nat × List Byte)

inductive TransferEvent where
  | send (thread : Nat) (now : Nat → Timeval)
  | other (event : ConnectionEvent)

/-- A turn of the loop of `mrt_client_send`, or its end behind the loop. -/
def Transfer.sendTurn (transfer : Transfer) (index : Nat) (now : Nat → Timeval)
    (thread : SendThread) : Option Transfer :=
  match thread.calls with
  | [] => none
  | data :: calls =>
      let segmentNumber := data.length / maxSegLen + 1
      if thread.turn = 0 ∧ transfer.connection.client.tcb.state ≠ .connected then
        some { transfer with threads := transfer.threads.set index ⟨calls, 0⟩ }
      else if thread.turn < segmentNumber then do
        let client ←
          mrtClientSendTurn data segmentNumber transfer.connection.client thread.turn
        let queued :=
          if thread.turn = segmentNumber - 1 then [] else [segmentChunk data thread.turn]
        return {
          connection := { transfer.connection with
            client := client
            queued := transfer.connection.queued ++ queued.flatten }
          threads := transfer.threads.set index { thread with turn := thread.turn + 1 }
          chunks := transfer.chunks ++ queued.map (Prod.mk index) }
      else do
        let connection ← transfer.connection.step (.sending now)
        return { transfer with
          connection := connection
          threads := transfer.threads.set index ⟨calls, 0⟩ }

def Transfer.step (transfer : Transfer) : TransferEvent → Option Transfer
  | .send index now => do
      let thread ← transfer.threads[index]?
      transfer.sendTurn index now thread
  | .other event => do
      let connection ← transfer.connection.step event
      return { transfer with connection := connection }

def TransferEvent.Enabled (transfer : Transfer) : TransferEvent → Prop
  | .send index _ => ∃ thread, transfer.threads[index]? = some thread ∧ thread.calls ≠ []
  | .other event => event.Background ∧ event.Enabled transfer.connection

abbrev Transfer.Runs : Transfer → List TransferEvent → Transfer → Prop :=
  Guarded Transfer.step fun transfer event => event.Enabled transfer

def Transfer.start (connection : Connection) (calls : List (List (List Byte))) : Transfer :=
  ⟨connection, calls.map fun own => ⟨own, 0⟩, []⟩

def chunksOf (index : Nat) (chunks : List (Nat × List Byte)) : List (List Byte) :=
  chunks.filterMap fun chunk => if chunk.1 = index then some chunk.2 else none

def segmentCount (calls : List (List Byte)) : Nat :=
  (calls.map fun data => data.length / maxSegLen).sum

def SendThread.left (thread : SendThread) : Nat :=
  match thread.calls with
  | [] => 0
  | data :: calls => data.length / maxSegLen - thread.turn + segmentCount calls

/-- The turns that a thread still makes, its calls behind the loop included. -/
def SendThread.work (thread : SendThread) : Nat :=
  match thread.calls with
  | [] => 0
  | data :: calls =>
      data.length / maxSegLen + 2 - thread.turn +
        (calls.map fun data => data.length / maxSegLen + 2).sum

def SendThread.begun (thread : SendThread) : List (List Byte) :=
  match thread.calls with
  | [] => []
  | data :: _ => (wholeChunks data).take thread.turn

theorem sum_set (values : List Nat) (index value old : Nat) (found : values[index]? = some old) :
    (values.set index value).sum + old = values.sum + value := by
  induction values generalizing index with
  | nil => cases found
  | cons first values ih =>
      cases index with
      | zero =>
          cases found
          simp only [List.set_cons_zero, List.sum_cons]
          omega
      | succ index =>
          have rest := ih index found
          simp only [List.set_cons_succ, List.sum_cons]
          omega

theorem total_set (measure : SendThread → Nat) {threads : List SendThread} {index : Nat}
    {thread : SendThread} (found : threads[index]? = some thread) (next : SendThread) :
    ((threads.set index next).map measure).sum + measure thread =
      (threads.map measure).sum + measure next := by
  rw [List.map_set]
  exact sum_set (threads.map measure) index (measure next) (measure thread)
    (by rw [List.getElem?_map, found]; rfl)

theorem chunks_of_append (index : Nat) (left right : List (Nat × List Byte)) :
    chunksOf index (left ++ right) = chunksOf index left ++ chunksOf index right :=
  List.filterMap_append

theorem whole_chunks_succ {data : List Byte} {turn : Nat} (early : turn < data.length / maxSegLen) :
    (wholeChunks data).take (turn + 1) =
      (wholeChunks data).take turn ++ [segmentChunk data turn] := by
  rw [List.take_add_one, wholeChunks, List.getElem?_map, List.getElem?_range early]
  rfl

theorem whole_chunks_all {data : List Byte} {turn : Nat} (late : data.length / maxSegLen ≤ turn) :
    (wholeChunks data).take turn = wholeChunks data := by
  apply List.take_of_length_le
  rw [wholeChunks, List.length_map, List.length_range]
  exact late

theorem segment_chunk_length {data : List Byte} {index : Nat}
    (early : index < data.length / maxSegLen) : (segmentChunk data index).length = maxSegLen := by
  have inside : (index + 1) * maxSegLen ≤ data.length :=
    Nat.le_trans (Nat.mul_le_mul_right _ early) (Nat.div_mul_le_self _ _)
  rw [Nat.succ_mul] at inside
  rw [segmentChunk, List.length_take, List.length_drop]
  omega

/-- Each thread has queued the segments of the calls that returned and of the current one up
to its turn. -/
def OwnChunks (initial : List (List (List Byte))) (threads : List SendThread)
    (chunks : List (Nat × List Byte)) : Prop :=
  ∀ index thread, threads[index]? = some thread →
    ∃ finished, initial[index]? = some (finished ++ thread.calls) ∧
      chunksOf index chunks = finished.flatMap wholeChunks ++ thread.begun

structure Transfer.Underway (initial : List (List (List Byte))) (transfer : Transfer) : Prop where
  represents : ∃ history window, Represents transfer.connection history window ∧ Ordered window
  queued : transfer.connection.queued = (transfer.chunks.map Prod.snd).flatten
  whole : ∀ chunk ∈ transfer.chunks, chunk.2.length = maxSegLen
  within : ∀ chunk ∈ transfer.chunks, chunk.1 < initial.length
  count : transfer.chunks.length + (transfer.threads.map SendThread.left).sum =
    (initial.map segmentCount).sum
  length : transfer.threads.length = initial.length
  own : OwnChunks initial transfer.threads transfer.chunks
  turns : ∀ thread ∈ transfer.threads, thread.turn ≠ 0 → ∃ data calls,
    thread.calls = data :: calls ∧ thread.turn ≤ data.length / maxSegLen + 1
  refilled : Refilled transfer.connection.client ∨ ∃ thread ∈ transfer.threads, thread.turn ≠ 0

theorem chunks_of_own (index : Nat) (added : List (List Byte)) :
    chunksOf index (added.map (Prod.mk index)) = added := by
  induction added with
  | nil => rfl
  | cons chunk added ih =>
      rw [List.map_cons, chunksOf, List.filterMap_cons, if_pos rfl]
      exact congrArg (List.cons chunk) ih

theorem chunks_of_other {index other : Nat} (apart : other ≠ index) (added : List (List Byte)) :
    chunksOf other (added.map (Prod.mk index)) = [] := by
  rw [chunksOf, List.filterMap_eq_nil_iff]
  intro chunk member
  obtain ⟨bytes, _, rfl⟩ := List.mem_map.mp member
  exact if_neg (Ne.symm apart)

theorem own_set {initial : List (List (List Byte))} {threads : List SendThread}
    {chunks : List (Nat × List Byte)} {index : Nat} {thread next : SendThread}
    (own : OwnChunks initial threads chunks) (found : threads[index]? = some thread)
    (added : List (List Byte))
    (mine : ∀ finished, ∃ more, finished ++ thread.calls = finished ++ more ++ next.calls ∧
      thread.begun ++ added = more.flatMap wholeChunks ++ next.begun) :
    OwnChunks initial (threads.set index next) (chunks ++ added.map (Prod.mk index)) := by
  intro other current held
  by_cases same : other = index
  · rw [same, List.getElem?_set_self (List.getElem?_eq_some_iff.mp found).1] at held
    cases held
    obtain ⟨finished, calls, queued⟩ := own index thread found
    obtain ⟨more, split, begun⟩ := mine finished
    refine ⟨finished ++ more, ?_, ?_⟩
    · rw [same, calls, split]
    · rw [same, chunks_of_append, chunks_of_own, queued, List.append_assoc, begun,
        List.flatMap_append, List.append_assoc]
  · rw [List.getElem?_set_ne (Ne.symm same)] at held
    obtain ⟨finished, calls, queued⟩ := own other current held
    exact ⟨finished, calls, by rw [chunks_of_append, chunks_of_other same, List.append_nil, queued]⟩

theorem set_mem {threads : List SendThread} {index : Nat} {next other : SendThread}
    (member : other ∈ threads.set index next) : other = next ∨ other ∈ threads := by
  obtain ⟨place, found⟩ := List.mem_iff_getElem?.mp member
  by_cases same : place = index
  · rw [same, List.getElem?_set] at found
    simp only [if_true] at found
    split_ifs at found
    exact Or.inl (Option.some.inj found).symm
  · rw [List.getElem?_set_ne (Ne.symm same)] at found
    exact Or.inr (List.mem_of_getElem? found)

theorem underway_total {initial : List (List (List Byte))} {transfer : Transfer}
    (underway : transfer.Underway initial) :
    transfer.connection.queued.length +
        maxSegLen * (transfer.threads.map SendThread.left).sum =
      maxSegLen * (initial.map segmentCount).sum := by
  have lengths : transfer.chunks.map (List.length ∘ Prod.snd) =
      transfer.chunks.map fun _ => maxSegLen := List.map_congr_left underway.whole
  have queued : transfer.connection.queued.length = maxSegLen * transfer.chunks.length := by
    rw [underway.queued, List.length_flatten, List.map_map, lengths, List.map_const',
      List.sum_replicate_nat, Nat.mul_comm]
  rw [queued, ← Nat.mul_add, underway.count]

theorem alloc_represents {connection : Connection} {history : List Seg} {window : Window}
    (represents : Represents connection history window) (cell : Cell SegBuf) :
    Represents { connection with
      client := ⟨(alloc connection.client.heap cell).1, connection.client.tcb⟩ }
        history window where
  peers := represents.peers
  wellFormed := represents.wellFormed
  count := represents.count
  queued := represents.queued
  buffer := holds_alloc represents.buffer cell
  next := represents.next
  data := represents.data
  acks := represents.acks
  expect := represents.expect
  accepted := represents.accepted
  received := represents.received

theorem whole_turn {connection : Connection} {history : List Seg} {window : Window}
    (represents : Represents connection history window) (ordered : Ordered window)
    {data : List Byte} {turn : Nat} (indexable : Indexable data)
    (early : turn < data.length / maxSegLen)
    (bounded : connection.queued.length + maxSegLen < 2 ^ 32) :
    ∃ client history' window',
      mrtClientSendTurn data (data.length / maxSegLen + 1) connection.client turn =
        some client ∧
      Represents { connection with
        client := client
        queued := connection.queued ++ segmentChunk data turn } history' window' ∧
      Ordered window' := by
  have inside : (turn + 1) * maxSegLen ≤ data.length :=
    Nat.le_trans (Nat.mul_le_mul_right _ early) (Nat.div_mul_le_self _ _)
  have length := segment_chunk_length early
  have copied : copyChunk data turn = some (segmentChunk data turn) :=
    if_pos ⟨indexable turn early, inside⟩
  let seg := connection.client.tcb.newSeg SegType.data (UInt16.ofNat maxSegLen)
    (segmentChunk data turn)
  have payload : seg.payload = segmentChunk data turn :=
    new_seg_payload connection.client.tcb SegType.data seg.header.seqNum _ length
  have queueable : Queueable seg := full_queueable ⟨rfl, rfl⟩
  obtain ⟨after, stepped, history', window', steps, afterRepresents⟩ :=
    queue_simulates connection history window seg represents ordered queueable
      (by rw [payload, length]; exact bounded)
  obtain ⟨client, run, result⟩ := Option.bind_eq_some_iff.mp stepped
  cases result
  rw [payload] at afterRepresents
  refine ⟨client, history', window', ?_, afterRepresents, ordered_steps ordered steps⟩
  rw [send_turn_full data _ connection.client turn early, copied, Option.bind_some]
  exact run

section SendTurn

variable {initial : List (List (List Byte))} {transfer : Transfer} {index : Nat}
  {data : List Byte} {calls : List (List Byte)} {turn : Nat}

theorem turn_late (underway : transfer.Underway initial)
    (found : transfer.threads[index]? = some ⟨data :: calls, turn⟩) :
    turn ≤ data.length / maxSegLen + 1 := by
  by_cases zero : turn = 0
  · rw [zero]
    exact Nat.zero_le _
  · obtain ⟨_, _, same, bound⟩ := underway.turns _ (List.mem_of_getElem? found) zero
    cases same
    exact bound

theorem turn_entered (underway : transfer.Underway initial) :
    ¬ (turn = 0 ∧ transfer.connection.client.tcb.state ≠ .connected) := by
  obtain ⟨history, window, represents, _⟩ := underway.represents
  exact fun both => both.2 represents.peers.clientState

theorem next_turns (underway : transfer.Underway initial)
    (looping : turn < data.length / maxSegLen + 1) :
    ∀ thread ∈ transfer.threads.set index ⟨data :: calls, turn + 1⟩,
      thread.turn ≠ 0 → ∃ data calls, thread.calls = data :: calls ∧
        thread.turn ≤ data.length / maxSegLen + 1 := by
  intro thread inThreads busy
  rcases set_mem inThreads with rfl | old
  · exact ⟨data, calls, rfl, looping⟩
  · exact underway.turns thread old busy

theorem next_busy (found : transfer.threads[index]? = some ⟨data :: calls, turn⟩) :
    ∃ thread ∈ transfer.threads.set index ⟨data :: calls, turn + 1⟩, thread.turn ≠ 0 := by
  have here := List.getElem?_set_self (a := SendThread.mk (data :: calls) (turn + 1))
    (List.getElem?_eq_some_iff.mp found).1
  exact ⟨_, List.mem_of_getElem? here, Nat.succ_ne_zero turn⟩

theorem whole_turn_underway (underway : transfer.Underway initial)
    (bounded : maxSegLen * (initial.map segmentCount).sum < 2 ^ 32) (now : Nat → Timeval)
    (found : transfer.threads[index]? = some ⟨data :: calls, turn⟩) (indexable : Indexable data)
    (early : turn < data.length / maxSegLen) :
    ∃ after, transfer.sendTurn index now ⟨data :: calls, turn⟩ = some after ∧
      after.Underway initial ∧ (after.threads.map SendThread.work).sum + 1 =
        (transfer.threads.map SendThread.work).sum := by
  obtain ⟨history, window, represents, ordered⟩ := underway.represents
  have total := underway_total underway
  have looping : turn < data.length / maxSegLen + 1 := Nat.lt_succ_of_lt early
  have lefts := total_set SendThread.left found ⟨data :: calls, turn + 1⟩
  have works := total_set SendThread.work found ⟨data :: calls, turn + 1⟩
  simp only [SendThread.left, SendThread.work] at lefts works
  have room : transfer.connection.queued.length + maxSegLen < 2 ^ 32 := by
    have some : 1 ≤ (transfer.threads.map SendThread.left).sum := by omega
    have least := Nat.mul_le_mul_left maxSegLen some
    omega
  obtain ⟨client, history', window', run, afterRepresents, afterOrdered⟩ :=
    whole_turn represents ordered indexable early room
  have other : turn ≠ data.length / maxSegLen + 1 - 1 := by omega
  rw [Transfer.sendTurn]
  simp only [if_neg (turn_entered underway), if_pos looping, run, if_neg other,
    Option.bind_eq_bind, Option.bind_some]
  refine ⟨_, rfl, ⟨⟨history', window', ?_, afterOrdered⟩, ?_, ?_, ?_, ?_,
    List.length_set.trans underway.length, ?_, next_turns underway looping,
    Or.inr (next_busy found)⟩, ?_⟩
  · simpa using afterRepresents
  · simp [underway.queued]
  · intro chunk inChunks
    rcases List.mem_append.mp inChunks with old | new
    · exact underway.whole chunk old
    · rw [List.mem_singleton.mp new]
      exact segment_chunk_length early
  · intro chunk inChunks
    rcases List.mem_append.mp inChunks with old | new
    · exact underway.within chunk old
    · rw [List.mem_singleton.mp new]
      obtain ⟨finished, own, _⟩ := underway.own index _ found
      exact (List.getElem?_eq_some_iff.mp own).1
  · have count := underway.count
    simp only [List.length_append, List.map_cons, List.map_nil, List.length_singleton]
    omega
  · apply own_set underway.own found [segmentChunk data turn]
    intro finished
    exact ⟨[], by simp, by simp [SendThread.begun, whole_chunks_succ early]⟩
  · dsimp only
    omega

/-- The last turn of the loop allocates a segment and drops it. -/
theorem last_turn_underway (underway : transfer.Underway initial) (now : Nat → Timeval)
    (found : transfer.threads[index]? = some ⟨data :: calls, data.length / maxSegLen⟩) :
    ∃ after,
      transfer.sendTurn index now ⟨data :: calls, data.length / maxSegLen⟩ = some after ∧
      after.Underway initial ∧ (after.threads.map SendThread.work).sum + 1 =
        (transfer.threads.map SendThread.work).sum := by
  obtain ⟨history, window, represents, ordered⟩ := underway.represents
  have looping := Nat.lt_succ_self (data.length / maxSegLen)
  have lefts := total_set SendThread.left found ⟨data :: calls, data.length / maxSegLen + 1⟩
  have works := total_set SendThread.work found ⟨data :: calls, data.length / maxSegLen + 1⟩
  simp only [SendThread.left, SendThread.work] at lefts works
  rw [Transfer.sendTurn]
  simp only [if_neg (turn_entered underway), if_pos looping, send_turn_last,
    Nat.add_sub_cancel, if_true, Option.bind_eq_bind, Option.bind_some]
  refine ⟨_, rfl, ⟨⟨history, window, ?_, ordered⟩, ?_, ?_, ?_, ?_,
    List.length_set.trans underway.length, ?_, next_turns underway looping,
    Or.inr (next_busy found)⟩, ?_⟩
  · simpa using alloc_represents represents _
  · simpa using underway.queued
  · simpa using underway.whole
  · simpa using underway.within
  · have count := underway.count
    simp only [List.map_nil, List.append_nil]
    omega
  · apply own_set underway.own found []
    intro finished
    refine ⟨[], by simp, ?_⟩
    simp [SendThread.begun, whole_chunks_all (Nat.le_refl _),
      whole_chunks_all (Nat.le_succ _)]
  · dsimp only
    omega

/-- Behind its loop a call sends what the window allows and returns. -/
theorem call_ends_underway (underway : transfer.Underway initial) (now : Nat → Timeval)
    (found : transfer.threads[index]? = some ⟨data :: calls, data.length / maxSegLen + 1⟩) :
    ∃ after,
      transfer.sendTurn index now ⟨data :: calls, data.length / maxSegLen + 1⟩ = some after ∧
      after.Underway initial ∧ (after.threads.map SendThread.work).sum + 1 =
        (transfer.threads.map SendThread.work).sum := by
  obtain ⟨history, window, represents, ordered⟩ := underway.represents
  obtain ⟨client, effects, moved, rest, run, _⟩ :=
    sending_holds now transfer.connection.client _ _ represents.buffer
  obtain ⟨sending, sends, history', window', steps, afterRepresents⟩ :=
    sending_simulates transfer.connection history window now represents ordered
  have isSending : sending = { transfer.connection with
      client := client, toServer := transfer.connection.toServer ++ sentSegs effects } := by
    simp only [Connection.step, run] at sends
    exact (Option.some.inj sends).symm
  subst isSending
  have lefts := total_set SendThread.left found ⟨calls, 0⟩
  have works := total_set SendThread.work found ⟨calls, 0⟩
  rw [Transfer.sendTurn]
  simp only [if_neg (turn_entered underway), if_neg (Nat.lt_irrefl _), sends,
    Option.bind_eq_bind, Option.bind_some]
  refine ⟨_, rfl, ⟨⟨history', window', afterRepresents, ordered_steps ordered steps⟩,
    underway.queued, underway.whole, underway.within, ?_,
    List.length_set.trans underway.length, ?_, ?_, Or.inl (sending_refills run)⟩, ?_⟩
  · have count := underway.count
    have same : SendThread.left ⟨calls, 0⟩ =
        SendThread.left ⟨data :: calls, data.length / maxSegLen + 1⟩ := by
      cases calls <;> simp [SendThread.left, segmentCount]
    dsimp only
    omega
  · have own : OwnChunks initial (transfer.threads.set index ⟨calls, 0⟩)
        (transfer.chunks ++ ([] : List (List Byte)).map (Prod.mk index)) := by
      apply own_set underway.own found []
      intro finished
      refine ⟨[data], by simp, ?_⟩
      cases calls <;> simp [SendThread.begun, whole_chunks_all (Nat.le_succ _)]
    simpa using own
  · intro thread inThreads busy
    rcases set_mem inThreads with rfl | old
    · exact absurd rfl busy
    · exact underway.turns thread old busy
  · have same : SendThread.work ⟨data :: calls, data.length / maxSegLen + 1⟩ =
        SendThread.work ⟨calls, 0⟩ + 1 := by
      cases calls <;> (simp [SendThread.work]; try omega)
    dsimp only
    omega

theorem send_underway (underway : transfer.Underway initial)
    (bounded : maxSegLen * (initial.map segmentCount).sum < 2 ^ 32) (now : Nat → Timeval)
    (found : transfer.threads[index]? = some ⟨data :: calls, turn⟩) (indexable : Indexable data) :
    ∃ after, transfer.step (.send index now) = some after ∧ after.Underway initial ∧
      (after.threads.map SendThread.work).sum + 1 =
        (transfer.threads.map SendThread.work).sum := by
  have stepped : transfer.step (.send index now) =
      transfer.sendTurn index now ⟨data :: calls, turn⟩ := by
    rw [Transfer.step, found]
    rfl
  have late := turn_late underway found
  rw [stepped]
  by_cases early : turn < data.length / maxSegLen
  · exact whole_turn_underway underway bounded now found indexable early
  · rcases Nat.le_succ_iff.mp late with inside | rfl
    · cases Nat.le_antisymm inside (Nat.le_of_not_lt early)
      exact last_turn_underway underway now found
    · exact call_ends_underway underway now found

end SendTurn

theorem background_keeps {connection after : Connection} {history : List Seg} {window : Window}
    {event : ConnectionEvent} (represents : Represents connection history window)
    (background : event.Background) (enabled : event.Enabled connection)
    (stepped : connection.step event = some after) :
    after.queued = connection.queued ∧ (Refilled connection.client → Refilled after.client) := by
  cases event with
  | queue seg => exact absurd background id
  | sending now => exact absurd background id
  | timeout now =>
      obtain ⟨client, effects, run, _, _, same⟩ :=
        timeout_holds now connection.client _ _ represents.buffer
      simp only [Connection.step, run] at stepped
      cases stepped
      exact ⟨rfl, fun refilled => by rwa [Refilled, same]⟩
  | data arg =>
      obtain ⟨_, _, result⟩ := Option.bind_eq_some_iff.mp stepped
      cases result
      exact ⟨rfl, id⟩
  | ack now arg =>
      simp only [Connection.step] at stepped
      split_ifs at stepped
      · obtain ⟨⟨client, effects⟩, handled, result⟩ := Option.bind_eq_some_iff.mp stepped
        cases result
        refine ⟨rfl, fun refilled => ?_⟩
        rcases dataack_cases now _ arg.seg enabled.2 handled with ⟨rfl, _⟩ | ⟨_, _, _, sending⟩
        · exact refilled
        · exact sending_refills sending
      · cases stepped
        exact ⟨rfl, id⟩
  | recv length =>
      obtain ⟨turn, _, result⟩ := Option.bind_eq_some_iff.mp stepped
      cases turn <;> cases result <;> exact ⟨rfl, id⟩

theorem other_underway {initial : List (List (List Byte))} {transfer : Transfer}
    (underway : transfer.Underway initial)
    (bounded : maxSegLen * (initial.map segmentCount).sum < 2 ^ 32) {event : ConnectionEvent}
    (background : event.Background) (enabled : event.Enabled transfer.connection) :
    ∃ connection, transfer.connection.step event = some connection ∧
      Transfer.Underway initial { transfer with connection := connection } := by
  obtain ⟨history, window, represents, ordered⟩ := underway.represents
  have total := underway_total underway
  have none : event.bytes = 0 := by
    cases event <;> first | rfl | exact absurd background id
  obtain ⟨connection, stepped, history', window', steps, afterRepresents⟩ :=
    step_simulates transfer.connection history window event represents ordered enabled (by omega)
  obtain ⟨queued, refilled⟩ := background_keeps represents background enabled stepped
  exact ⟨connection, stepped, ⟨history', window', afterRepresents, ordered_steps ordered steps⟩,
    queued.trans underway.queued, underway.whole, underway.within, underway.count,
    underway.length, underway.own, underway.turns, underway.refilled.imp_left refilled⟩

theorem start_underway {connection : Connection} (established : Established connection)
    (calls : List (List (List Byte))) : (Transfer.start connection calls).Underway calls where
  represents := ⟨[], Window.initial, represents_established established, ordered_initial⟩
  queued := established.queued
  whole _ member := absurd member List.not_mem_nil
  within _ member := absurd member List.not_mem_nil
  count := by
    have left : (SendThread.left ∘ fun own => ⟨own, 0⟩) = segmentCount := by
      funext own
      cases own <;> simp [SendThread.left, segmentCount]
    rw [Transfer.start, List.map_map, left]
    exact Nat.zero_add _
  length := List.length_map _
  own := by
    intro index thread found
    rw [Transfer.start, List.getElem?_map] at found
    obtain ⟨own, held, rfl⟩ := Option.map_eq_some_iff.mp found
    refine ⟨[], held, ?_⟩
    cases own <;> simp [Transfer.start, chunksOf, SendThread.begun]
  turns := by
    intro thread member busy
    obtain ⟨own, _, rfl⟩ := List.mem_map.mp member
    exact absurd rfl busy
  refilled := Or.inl (Or.inr established.unSent)

section Calls

variable {initial : List (List (List Byte))} {transfer : Transfer}

theorem step_underway (underway : transfer.Underway initial)
    (bounded : maxSegLen * (initial.map segmentCount).sum < 2 ^ 32)
    (indexable : ∀ calls ∈ initial, ∀ data ∈ calls, Indexable data) {event : TransferEvent}
    (enabled : event.Enabled transfer) :
    ∃ after, transfer.step event = some after ∧ after.Underway initial := by
  cases event with
  | send index now =>
      obtain ⟨⟨calls, turn⟩, found, some⟩ := enabled
      obtain ⟨finished, own, _⟩ := underway.own index _ found
      obtain ⟨data, rest, rfl⟩ := List.exists_cons_of_ne_nil some
      have fits := indexable _ (List.mem_of_getElem? own) data (by simp)
      obtain ⟨after, stepped, kept, _⟩ := send_underway underway bounded now found fits
      exact ⟨after, stepped, kept⟩
  | other event =>
      obtain ⟨connection, stepped, kept⟩ :=
        other_underway underway bounded enabled.1 enabled.2
      refine ⟨_, ?_, kept⟩
      rw [Transfer.step, stepped]
      rfl

theorem work_zero {thread : SendThread} (done : thread.work = 0)
    (turns : thread.turn ≠ 0 → ∃ data calls, thread.calls = data :: calls ∧
      thread.turn ≤ data.length / maxSegLen + 1) : thread.calls = [] ∧ thread.turn = 0 := by
  obtain ⟨calls, turn⟩ := thread
  cases calls with
  | nil =>
      refine ⟨rfl, ?_⟩
      by_contra busy
      obtain ⟨data, calls, filled, _⟩ := turns busy
      cases filled
  | cons data calls =>
      have late : turn ≤ data.length / maxSegLen + 1 := by
        by_cases zero : turn = 0
        · rw [zero]
          exact Nat.zero_le _
        · obtain ⟨_, _, same, bound⟩ := turns zero
          cases same
          exact bound
      simp only [SendThread.work] at done
      omega

theorem calls_return (underway : transfer.Underway initial)
    (bounded : maxSegLen * (initial.map segmentCount).sum < 2 ^ 32)
    (indexable : ∀ calls ∈ initial, ∀ data ∈ calls, Indexable data) (now : Nat → Timeval) :
    ∃ events last, transfer.Runs events last ∧ last.Underway initial ∧
      ∀ thread ∈ last.threads, thread.calls = [] ∧ thread.turn = 0 := by
  obtain ⟨events, last, _, runs, kept, done⟩ := guarded_drains
    (fun state => (state.threads.map SendThread.work).sum) (Transfer.Underway initial) (by
      intro state kept more
      obtain ⟨work, listed, positive⟩ :=
        List.sum_pos_iff_exists_pos_nat.mp (Nat.pos_of_ne_zero more)
      obtain ⟨⟨calls, turn⟩, member, rfl⟩ := List.mem_map.mp listed
      obtain ⟨index, found⟩ := List.mem_iff_getElem?.mp member
      cases calls with
      | nil => exact absurd positive (Nat.lt_irrefl 0)
      | cons data rest =>
          obtain ⟨finished, own, _⟩ := kept.own index _ found
          have fits := indexable _ (List.mem_of_getElem? own) data (by simp)
          obtain ⟨after, stepped, next, less⟩ := send_underway kept bounded now found fits
          have enabled : (TransferEvent.send index now).Enabled state :=
            ⟨_, found, List.cons_ne_nil _ _⟩
          exact ⟨_, after, enabled, stepped, next, by omega⟩)
    underway
  refine ⟨events, last, runs, kept, ?_⟩
  intro thread member
  apply work_zero _ (kept.turns thread member)
  have each := List.sum_eq_zero_iff_forall_eq_nat.mp done
  exact each _ (List.mem_map_of_mem member)

theorem background_runs {connection after : Connection} {events : List ConnectionEvent}
    (background : ∀ event ∈ events, event.Background) (runs : connection.Runs events after)
    (threads : List SendThread) (chunks : List (Nat × List Byte)) :
    Transfer.Runs ⟨connection, threads, chunks⟩ (events.map .other) ⟨after, threads, chunks⟩ := by
  induction events generalizing connection with
  | nil =>
      cases runs.1
      exact guarded_nil _
  | cons event events ih =>
      obtain ⟨run, enabled, rest⟩ := runs
      rw [List.foldlM_cons] at run
      obtain ⟨middle, first, later⟩ := Option.bind_eq_some_iff.mp run
      have tail := ih (fun other member => background other (by simp [member]))
        ⟨later, rest middle first⟩
      refine guarded_cons ⟨background event (by simp), enabled⟩ ?_ tail
      rw [Transfer.step, first]
      rfl

theorem represents_prefix {connection : Connection} {history : List Seg} {window : Window}
    (represents : Represents connection history window) :
    ∃ held rest, RecvBuffer connection.server held ∧
      connection.delivered ++ held ++ rest = connection.queued := by
  obtain ⟨held, buffer, delivered⟩ := represents.received
  refine ⟨held, (history.drop window.received).flatMap Seg.payload, buffer, ?_⟩
  rw [delivered, represents.accepted, represents.queued, ← List.flatMap_append,
    List.take_append_drop]

theorem long_read_waits (underway : transfer.Underway initial) (length : UInt32)
    (more : maxSegLen * (initial.map segmentCount).sum <
      transfer.connection.delivered.length + length.toNat) :
    mrtServerRecv transfer.connection.server length = some .sleeps := by
  obtain ⟨history, window, represents, _⟩ := underway.represents
  obtain ⟨held, rest, buffer, queued⟩ := represents_prefix represents
  have total := underway_total underway
  have lengths := congrArg List.length queued
  rw [List.length_append, List.length_append] at lengths
  have waits : length > transfer.connection.server.usedBufLen := by
    rw [gt_iff_lt, UInt32.lt_iff_toNat_lt, buffer.used]
    omega
  rw [mrtServerRecv, represents.peers.serverState]
  exact if_pos waits

theorem thread_of_calls (underway : transfer.Underway initial) {index : Nat}
    {own : List (List Byte)} (found : initial[index]? = some own) :
    ∃ thread, transfer.threads[index]? = some thread := by
  have inside := (List.getElem?_eq_some_iff.mp found).1
  rw [← underway.length] at inside
  exact ⟨_, List.getElem?_eq_getElem inside⟩

theorem begun_in_order (thread : SendThread) :
    thread.begun <+: thread.calls.flatMap wholeChunks := by
  obtain ⟨calls, turn⟩ := thread
  cases calls with
  | nil => exact List.nil_prefix
  | cons data calls =>
      rw [List.flatMap_cons]
      exact (List.take_prefix _ _).trans (List.prefix_append _ _)

end Calls

/-- Two threads that each send one segment and a byte, of which the byte is not sent. -/
def twoSenders : List (List (List Byte)) :=
  [[List.replicate (maxSegLen + 1) 7], [List.replicate (maxSegLen + 1) 9]]

end MiniOverlay
