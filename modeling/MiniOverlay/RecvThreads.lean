import MiniOverlay.ReceiveQueue

/-!
# Threads that share a server socket

`mrt_server_recv` compares `length` with `usedBufLen` before it locks `bufMutex`
and does not look again behind the lock, and so does `saveTobuffer` with the room
that is left. Other threads may have been in the mutex in between.
-/

namespace MiniOverlay

open AscendingCopy FixedByteCodec PartialRuns

set_option autoImplicit false

variable {Thread : Type} [DecidableEq Thread]

/-- The buffer, the calls of `mrt_server_recv` that are past their test and the segment with
which `saveTobuffer` is. -/
structure RecvThreads (Thread : Type) where
  run : BufferRun
  waiting : List (Thread × UInt32)
  saving : Option Seg

inductive RecvThreadEvent (Thread : Type) where
  | tests (thread : Thread) (length : UInt32)
  | takes (thread : Thread) (length : UInt32)
  | saveTests (segmentBuffer : Seg)
  | saveCopies

/-- `mrt_server_recv` inside the mutex. The second `memcpy` takes an `unsigned int`. -/
def BufferRun.takes (run : BufferRun) (length : UInt32) : Option BufferRun :=
  let table := run.table
  if length.toNat + (table.usedBufLen - length).toNat ≤ table.recvBuf.length then
    some { run with
      table := { table with
        recvBuf := copyAscending table.recvBuf 0 length.toNat (table.usedBufLen - length).toNat
        usedBufLen := table.usedBufLen - length }
      returned := run.returned ++ table.recvBuf.take length.toNat }
  else none

def BufferRun.copies (run : BufferRun) (segmentBuffer : Seg) : Option BufferRun :=
  let table := run.table
  if segmentBuffer.header.length.toNat ≤ maxSegLen then do
    let recvBuf ← copyTo table.recvBuf table.usedBufLen.toNat segmentBuffer.payload
    return { run with
      table := table.saved segmentBuffer recvBuf
      accepted := run.accepted ++ segmentBuffer.payload }
  else none

def hasRoom (table : ServerTcb) (segmentBuffer : Seg) : Prop :=
  (segmentBuffer.header.length.toUInt32 + table.usedBufLen).toNat < receiveBufSize

instance (table : ServerTcb) (segmentBuffer : Seg) : Decidable (hasRoom table segmentBuffer) :=
  inferInstanceAs (Decidable (_ < _))

/-- A call whose test fails sleeps and tests again. There is one `seghandler`. -/
def RecvThreads.step (state : RecvThreads Thread) :
    RecvThreadEvent Thread → Option (RecvThreads Thread)
  | .tests thread length =>
      if thread ∈ state.waiting.map Prod.fst then none
      else if length > state.run.table.usedBufLen then some state
      else some { state with waiting := state.waiting ++ [(thread, length)] }
  | .takes thread length =>
      if (thread, length) ∈ state.waiting then
        (state.run.takes length).map fun run =>
          { state with run := run, waiting := state.waiting.erase (thread, length) }
      else none
  | .saveTests segmentBuffer =>
      match state.saving with
      | some _ => none
      | none =>
          if hasRoom state.run.table segmentBuffer then
            some { state with saving := some segmentBuffer }
          else some state
  | .saveCopies =>
      match state.saving with
      | none => none
      | some segmentBuffer =>
          (state.run.copies segmentBuffer).map fun run =>
            { state with run := run, saving := none }

def claimed : List (Thread × UInt32) → Nat
  | [] => 0
  | (_, length) :: waiting => length.toNat + claimed waiting

omit [DecidableEq Thread] in
theorem claimed_perm {waiting others : List (Thread × UInt32)} (perm : waiting.Perm others) :
    claimed waiting = claimed others := by
  induction perm with
  | nil => rfl
  | cons call _ ih => rw [claimed, claimed, ih]
  | swap first second rest =>
      rw [claimed, claimed, claimed, claimed]
      omega
  | trans _ _ left right => exact left.trans right

theorem takes_fits {run : BufferRun} {held : List Byte} (buffer : RecvBuffer run.table held)
    (total : run.returned ++ held = run.accepted) {length : UInt32}
    (enough : length.toNat ≤ held.length) :
    ∃ next, run.takes length = some next ∧
      RecvBuffer next.table (held.drop length.toNat) ∧
      next.returned ++ held.drop length.toNat = next.accepted := by
  have used := buffer.used
  have inside : run.table.usedBufLen.toNat ≤ run.table.recvBuf.length := by
    rw [used, buffer.block]
    exact buffer.room.le
  have below : length ≤ run.table.usedBufLen := UInt32.le_iff_toNat_le.mpr (used ▸ enough)
  have fits : length.toNat + (run.table.usedBufLen - length).toNat ≤
      run.table.recvBuf.length := by
    rw [UInt32.toNat_sub_of_le _ _ below]
    omega
  have turn := recv_copy_turn run.table length
  rw [mrtServerRecvCopyTurn, if_neg (UInt32.not_lt.mpr below), if_pos inside] at turn
  rcases recv_turn_cases run.table held length buffer with sleeps | ⟨returns, after⟩
  · cases turn.trans sleeps
  · injection Option.some.inj (turn.trans returns) with _ bytes moved
    refine ⟨_, if_pos fits, ?_, ?_⟩
    · rw [moved]
      exact after
    · show run.returned ++ run.table.recvBuf.take length.toNat ++ held.drop length.toNat = _
      rw [bytes, List.append_assoc, List.take_append_drop, total]

/-- Without enough bytes the second `memcpy` runs over the end of the buffer. -/
theorem takes_overruns {run : BufferRun} {held : List Byte} (buffer : RecvBuffer run.table held)
    {length : UInt32} (few : held.length < length.toNat) : run.takes length = none := by
  have used := buffer.used
  have bound := length.toNat_lt
  apply if_neg
  rw [buffer.block, UInt32.toNat_sub]
  simp only [receiveBufSize]
  omega

theorem room_iff {table : ServerTcb} {held : List Byte} (buffer : RecvBuffer table held)
    (seg : Seg) : hasRoom table seg ↔ held.length + seg.header.length.toNat < receiveBufSize := by
  rw [hasRoom, used_after buffer seg]

theorem copies_eq {run : BufferRun} {seg : Seg} (room : hasRoom run.table seg) :
    run.copies seg = (saveTobuffer run.table seg).map fun saved =>
      { run with table := saved.2, accepted := run.accepted ++ seg.payload } := by
  rw [hasRoom] at room
  unfold BufferRun.copies saveTobuffer
  rw [if_pos room]
  by_cases short : seg.header.length.toNat ≤ maxSegLen
  · rw [if_pos short, if_pos short]
    cases copyTo run.table.recvBuf run.table.usedBufLen.toNat seg.payload with
    | none => rfl
    | some recvBuf => rfl
  · rw [if_neg short, if_neg short]
    rfl

theorem copies_fits {run next : BufferRun} {held : List Byte} (buffer : RecvBuffer run.table held)
    (total : run.returned ++ held = run.accepted) {seg : Seg}
    (room : held.length + seg.header.length.toNat < receiveBufSize)
    (copied : run.copies seg = some next) :
    RecvBuffer next.table (held ++ seg.payload) ∧
      next.returned ++ (held ++ seg.payload) = next.accepted := by
  by_cases short : seg.header.length.toNat ≤ maxSegLen
  · obtain ⟨recvBuf, saved, after⟩ := save_fits run.table held seg buffer short room
    rw [copies_eq ((room_iff buffer seg).mpr room), saved] at copied
    cases copied
    refine ⟨after, ?_⟩
    rw [← List.append_assoc, total]
  · unfold BufferRun.copies at copied
    rw [if_neg short] at copied
    cases copied

/-- The buffer holds what was accepted and not returned, and a segment past its test fits. -/
structure SharedQueue (state : RecvThreads Thread) (held : List Byte) : Prop where
  buffer : RecvBuffer state.run.table held
  total : state.run.returned ++ held = state.run.accepted
  room : ∀ seg ∈ state.saving, held.length + seg.header.length.toNat < receiveBufSize

theorem shared_step {state next : RecvThreads Thread} {event : RecvThreadEvent Thread}
    {held : List Byte} (shared : SharedQueue state held) (stepped : state.step event = some next) :
    ∃ after, SharedQueue next after := by
  cases event with
  | tests thread length =>
      simp only [RecvThreads.step] at stepped
      split_ifs at stepped with again waits
      · cases stepped
        exact ⟨held, shared⟩
      · cases stepped
        exact ⟨held, shared.buffer, shared.total, shared.room⟩
  | takes thread length =>
      simp only [RecvThreads.step] at stepped
      split_ifs at stepped with waiting
      obtain ⟨run, taken, rfl⟩ := Option.map_eq_some_iff.mp stepped
      have enough : length.toNat ≤ held.length := by
        by_contra few
        rw [takes_overruns shared.buffer (Nat.lt_of_not_le few)] at taken
        cases taken
      obtain ⟨other, same, buffer, total⟩ := takes_fits shared.buffer shared.total enough
      obtain rfl := Option.some.inj (taken.symm.trans same)
      refine ⟨held.drop length.toNat, buffer, total, fun seg member => ?_⟩
      have room := shared.room seg member
      rw [List.length_drop]
      omega
  | saveTests seg =>
      simp only [RecvThreads.step] at stepped
      split at stepped
      case h_1 => cases stepped
      case h_2 =>
        split_ifs at stepped with room
        · cases stepped
          refine ⟨held, shared.buffer, shared.total, fun other member => ?_⟩
          obtain rfl := Option.some.inj (Option.mem_def.mp member)
          exact (room_iff shared.buffer seg).mp room
        · cases stepped
          exact ⟨held, shared⟩
  | saveCopies =>
      simp only [RecvThreads.step] at stepped
      split at stepped
      case h_1 => cases stepped
      case h_2 seg saving =>
        obtain ⟨run, copied, rfl⟩ := Option.map_eq_some_iff.mp stepped
        have ⟨buffer, total⟩ := copies_fits shared.buffer shared.total
          (shared.room seg saving) copied
        exact ⟨held ++ seg.payload, buffer, total, nofun⟩

def takeAll (state : RecvThreads Thread) (order : List (Thread × UInt32)) :
    Option (RecvThreads Thread) :=
  (order.map fun call => RecvThreadEvent.takes call.1 call.2).foldlM RecvThreads.step state

theorem take_all_iff {state : RecvThreads Thread} {held : List Byte}
    (shared : SharedQueue state held) {order : List (Thread × UInt32)}
    (perm : order.Perm state.waiting) :
    (takeAll state order).isSome ↔ claimed state.waiting ≤ held.length := by
  induction order generalizing state held with
  | nil =>
      rw [List.nil_perm.mp perm]
      exact iff_of_true rfl (Nat.zero_le _)
  | cons call order ih =>
      obtain ⟨thread, length⟩ := call
      have member : (thread, length) ∈ state.waiting := perm.subset (List.mem_cons_self ..)
      have rest : order.Perm (state.waiting.erase (thread, length)) :=
        (List.cons_perm_iff_perm_erase.mp perm).2
      have sum : claimed state.waiting =
          length.toNat + claimed (state.waiting.erase (thread, length)) :=
        claimed_perm (List.perm_cons_erase member)
      have first : takeAll state ((thread, length) :: order) =
          ((state.run.takes length).map fun run => { state with
            run := run, waiting := state.waiting.erase (thread, length) }).bind
              (takeAll · order) := by
        rw [takeAll, List.map_cons, List.foldlM_cons, RecvThreads.step, if_pos member]
        rfl
      rw [first]
      by_cases enough : length.toNat ≤ held.length
      · obtain ⟨run, taken, buffer, total⟩ := takes_fits shared.buffer shared.total enough
        rw [taken, Option.map_some, Option.bind_some]
        have room : ∀ seg ∈ state.saving,
            (held.drop length.toNat).length + seg.header.length.toNat < receiveBufSize := by
          intro seg member
          have before := shared.room seg member
          rw [List.length_drop]
          omega
        have later : SharedQueue { state with
            run := run, waiting := state.waiting.erase (thread, length) }
              (held.drop length.toNat) := ⟨buffer, total, room⟩
        rw [ih later rest, List.length_drop, sum]
        dsimp only
        omega
      · rw [takes_overruns shared.buffer (Nat.lt_of_not_le enough), Option.map_none,
          Option.bind_none, sum]
        refine iff_of_false Bool.false_ne_true ?_
        omega

/-- A test is made only when no other call is past its test. -/
def OneAtATime (state : RecvThreads Thread) : RecvThreadEvent Thread → Prop
  | .tests _ _ => state.waiting = []
  | _ => True

/-- At most one call is past its test, and it gets what it asks for. -/
structure Unhurried (state : RecvThreads Thread) : Prop where
  one : state.waiting.length ≤ 1
  enough : claimed state.waiting ≤ state.run.table.usedBufLen.toNat

theorem unhurried_step {state next : RecvThreads Thread} {event : RecvThreadEvent Thread}
    {held : List Byte} (shared : SharedQueue state held) (unhurried : Unhurried state)
    (oneAtATime : OneAtATime state event) (stepped : state.step event = some next) :
    Unhurried next := by
  cases event with
  | tests thread length =>
      have nobody : state.waiting = [] := oneAtATime
      simp only [RecvThreads.step] at stepped
      split_ifs at stepped with again waits
      · cases stepped
        exact unhurried
      · cases stepped
        rw [nobody]
        exact ⟨Nat.le_refl 1, UInt32.le_iff_toNat_le.mp (UInt32.not_lt.mp waits)⟩
  | takes thread length =>
      simp only [RecvThreads.step] at stepped
      split_ifs at stepped with waiting
      obtain ⟨run, taken, rfl⟩ := Option.map_eq_some_iff.mp stepped
      have gone : state.waiting.erase (thread, length) = [] := by
        have fewer := List.length_erase_of_mem waiting
        have one := unhurried.one
        apply List.eq_nil_of_length_eq_zero
        omega
      rw [gone]
      exact ⟨Nat.zero_le 1, Nat.zero_le _⟩
  | saveTests seg =>
      simp only [RecvThreads.step] at stepped
      split at stepped
      case h_1 => cases stepped
      case h_2 =>
        split_ifs at stepped with room
        · cases stepped
          exact ⟨unhurried.one, unhurried.enough⟩
        · cases stepped
          exact unhurried
  | saveCopies =>
      simp only [RecvThreads.step] at stepped
      split at stepped
      case h_1 => cases stepped
      case h_2 seg saving =>
        obtain ⟨run, copied, rfl⟩ := Option.map_eq_some_iff.mp stepped
        have buffer := (copies_fits shared.buffer shared.total (shared.room seg saving) copied).1
        refine ⟨unhurried.one, unhurried.enough.trans ?_⟩
        rw [shared.buffer.used, buffer.used, List.length_append]
        exact Nat.le_add_right ..

/-- Whatever order the threads come in, the bytes that the calls on one socket hand out are those
that were accepted, in the order of their turns in the mutex. The calls past their test can all
be finished in any order when there are bytes for them together, and else in no order does the
last of them stay inside the buffer. With one call at a time there always are. -/
theorem recv_threads_share (table : ServerTcb) (block : table.recvBuf.length = receiveBufSize)
    (empty : table.usedBufLen = 0) {events : List (RecvThreadEvent Thread)}
    {last : RecvThreads Thread}
    (run : events.foldlM RecvThreads.step ⟨⟨table, [], []⟩, [], none⟩ = some last) :
    last.run.returned ++ last.run.table.held = last.run.accepted ∧
      (∀ order, order.Perm last.waiting → ((takeAll last order).isSome ↔
        claimed last.waiting ≤ last.run.table.usedBufLen.toNat)) ∧
      (Throughout RecvThreads.step OneAtATime ⟨⟨table, [], []⟩, [], none⟩ events →
        claimed last.waiting ≤ last.run.table.usedBufLen.toNat) := by
  have begins : SharedQueue (⟨⟨table, [], []⟩, [], none⟩ : RecvThreads Thread) [] := by
    refine ⟨⟨block, ?_, by decide, rfl⟩, rfl, nofun⟩
    rw [empty]
    rfl
  obtain ⟨held, shared⟩ := fold_keeps RecvThreads.step (fun state => ∃ held, SharedQueue state held)
    events (fun _ _ _ _ before stepped => before.elim fun _ shared => shared_step shared stepped)
    ⟨[], begins⟩ run
  refine ⟨?_, fun order perm => ?_, fun along => ?_⟩
  · rw [held_eq shared.buffer]
    exact shared.total
  · rw [take_all_iff shared perm, shared.buffer.used]
  · have both := guarded_keeps
      (fun state : RecvThreads Thread => (∃ held, SharedQueue state held) ∧ Unhurried state)
      (fun _ _ _ kept oneAtATime stepped => kept.1.elim fun _ shared =>
        ⟨shared_step shared stepped, unhurried_step shared kept.2 oneAtATime stepped⟩)
      ⟨⟨[], begins⟩, ⟨Nat.zero_le 1, Nat.zero_le _⟩⟩ ⟨run, along⟩
    exact both.2.enough

def twoReceivers : List (RecvThreadEvent Bool) :=
  [.saveTests threeByteSegment, .saveCopies, .tests true 2, .tests false 2]

theorem two_receivers_run {table : ServerTcb} (buffer : RecvBuffer table []) :
    ∃ last : RecvThreads Bool,
      twoReceivers.foldlM RecvThreads.step ⟨⟨table, [], []⟩, [], none⟩ = some last ∧
        last.waiting = [(true, 2), (false, 2)] ∧ last.run.table.usedBufLen = 3 := by
  have empty : table.usedBufLen = 0 := UInt32.toNat_inj.mp buffer.used
  have room : ([] : List Byte).length + threeByteSegment.header.length.toNat < receiveBufSize :=
    Nat.le_of_ble_eq_true rfl
  have fits : hasRoom table threeByteSegment := (room_iff buffer _).mpr room
  obtain ⟨recvBuf, saved, _⟩ :=
    save_fits table [] threeByteSegment buffer (Nat.le_of_ble_eq_true rfl) room
  have copied := @copies_eq ⟨table, [], []⟩ threeByteSegment fits
  rw [saved, Option.map_some] at copied
  have used : (table.saved threeByteSegment recvBuf).usedBufLen = 3 := by
    rw [ServerTcb.saved, empty]
    rfl
  have enough : ¬(2 : UInt32) > (table.saved threeByteSegment recvBuf).usedBufLen := by
    rw [used]
    decide
  refine ⟨⟨⟨table.saved threeByteSegment recvBuf, [] ++ threeByteSegment.payload, []⟩,
    [(true, 2), (false, 2)], none⟩, ?_, rfl, used⟩
  simp only [twoReceivers, List.foldlM_cons, List.foldlM_nil, RecvThreads.step, if_pos fits,
    Option.bind_eq_bind, Option.bind_some, copied, Option.map_some, if_neg enough, List.map_nil,
    List.not_mem_nil, if_false, List.nil_append, List.map_cons, List.mem_singleton,
    Bool.false_eq_true, List.cons_append]
  rfl

theorem two_receivers_overrun : ∃ last : RecvThreads Bool,
    twoReceivers.foldlM RecvThreads.step ⟨⟨emptyQueueTable, [], []⟩, [], none⟩ = some last ∧
      ∀ order : List (Bool × UInt32), order.Perm last.waiting → takeAll last order = none := by
  have buffer : RecvBuffer emptyQueueTable [] :=
    ⟨List.length_replicate, rfl, Nat.succ_pos _, rfl⟩
  obtain ⟨last, run, waiting, used⟩ := two_receivers_run buffer
  refine ⟨last, run, fun order perm => ?_⟩
  have defined := (recv_threads_share emptyQueueTable List.length_replicate rfl run).2.1 order perm
  rw [waiting, used] at defined
  apply Option.not_isSome_iff_eq_none.mp
  rw [defined]
  decide

end MiniOverlay
