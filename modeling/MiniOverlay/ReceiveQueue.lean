import MiniOverlay.AscendingCopy
import MiniOverlay.MrtServerSocket
import MiniOverlay.PartialRuns

/-!
# The receive buffer as a queue

`saveTobuffer` appends to the bytes held and `mrt_server_recv` takes from their
front, in any order and with any lengths. `memcpy` is taken to copy from the first
byte to the last, so the copy inside `recvBuf` moves the bytes as they were.
-/

namespace MiniOverlay

open AscendingCopy FixedByteCodec

set_option autoImplicit false

/-- One turn of the loop of `mrt_server_recv`. -/
def mrtServerRecvCopyTurn (table : ServerTcb) (length : UInt32) : Option RecvTurn :=
  if length > table.usedBufLen then some .sleeps
  else if table.usedBufLen.toNat ≤ table.recvBuf.length then
    some (.returns 1 (table.recvBuf.take length.toNat)
      { table with
        recvBuf := copyAscending table.recvBuf 0 length.toNat (table.usedBufLen - length).toNat
        usedBufLen := table.usedBufLen - length })
  else none

/-- The bytes move as `memmove` does it. -/
theorem recv_copy_turn (table : ServerTcb) (length : UInt32) :
    mrtServerRecvCopyTurn table length = mrtServerRecvTurn table length := by
  unfold mrtServerRecvCopyTurn mrtServerRecvTurn
  by_cases waits : length > table.usedBufLen
  · rw [if_pos waits, if_pos waits]
  · rw [if_neg waits, if_neg waits]
    by_cases inside : table.usedBufLen.toNat ≤ table.recvBuf.length
    · have enough : length ≤ table.usedBufLen := UInt32.not_lt.mp waits
      have below : length.toNat ≤ table.usedBufLen.toNat := UInt32.le_iff_toNat_le.mp enough
      have moved := copy_to_front table.recvBuf length.toNat
        (table.usedBufLen.toNat - length.toNat) (by omega)
      rw [if_pos inside, if_pos inside, UInt32.toNat_sub_of_le _ _ enough, moved]
      rfl
    · rw [if_neg inside, if_neg inside]

/-- `mrt_server_recv` up to its first `sleep`; a call that sleeps begins anew, as no call
on the buffer changes the state. -/
def mrtServerRecvCopy (table : ServerTcb) (length : UInt32) : Option RecvTurn :=
  match table.state with
  | .connected => mrtServerRecvCopyTurn table length
  | .closewait => some (.returns (-1) [] table)
  | .listening => some (.returns (-1) [] table)
  | .closed => some (.returns (-1) [] table)

theorem recv_copy_eq (table : ServerTcb) (length : UInt32) :
    mrtServerRecvCopy table length = mrtServerRecv table length := by
  unfold mrtServerRecvCopy mrtServerRecv
  cases table.state with
  | connected => exact recv_copy_turn table length
  | closewait => rfl
  | listening => rfl
  | closed => rfl

/-- A segment that `saveTobuffer` is called with, or a look of `mrt_server_recv` at
the buffer; a call that waits looks again later. -/
inductive BufferCall where
  | save (segmentBuffer : Seg)
  | recv (length : UInt32)

/-- The TCB, the data of the segments that were accepted and the bytes returned. -/
structure BufferRun where
  table : ServerTcb
  accepted : List Byte
  returned : List Byte

def BufferRun.call (run : BufferRun) : BufferCall → Option BufferRun
  | .save segmentBuffer => do
      let saved ← saveTobuffer run.table segmentBuffer
      if saved.1 < 0 then return { run with table := saved.2 }
      else return { run with
        table := saved.2
        accepted := run.accepted ++ segmentBuffer.payload }
  | .recv length => do
      match ← mrtServerRecvCopy run.table length with
      | .sleeps => return run
      | .returns _ buf table => return { run with table := table, returned := run.returned ++ buf }

def BufferCall.Short : BufferCall → Prop
  | .save segmentBuffer => segmentBuffer.header.length.toNat ≤ maxSegLen
  | .recv _ => True

def ServerTcb.held (table : ServerTcb) : List Byte := table.recvBuf.take table.usedBufLen.toNat

/-- What the next call can do to `usedBufLen` and to the other fields. -/
structure NextCall (table : ServerTcb) : Prop where
  refused : ∀ seg after, saveTobuffer table seg = some (-1, after) → after = table
  grows : ∀ seg after, saveTobuffer table seg = some (1, after) →
    after.usedBufLen.toNat = table.usedBufLen.toNat + seg.header.length.toNat
  waits : ∀ length, mrtServerRecvCopy table length = some .sleeps ↔
    table.state = .connected ∧ table.usedBufLen.toNat < length.toNat
  shrinks : ∀ length buf after, mrtServerRecvCopy table length = some (.returns 1 buf after) →
    buf.length = length.toNat ∧
      after.usedBufLen.toNat + length.toNat = table.usedBufLen.toNat

def QueueHolds (run : BufferRun) : Prop :=
  ∃ held, RecvBuffer run.table held ∧ run.returned ++ held = run.accepted

theorem held_eq {table : ServerTcb} {held : List Byte} (buffer : RecvBuffer table held) :
    table.held = held := by
  rw [ServerTcb.held, buffer.used, buffer.bytes]

theorem save_holds {run : BufferRun} (holds : QueueHolds run) (seg : Seg)
    (short : seg.header.length.toNat ≤ maxSegLen) :
    ∃ next, run.call (.save seg) = some next ∧ QueueHolds next := by
  obtain ⟨held, buffer, total⟩ := holds
  by_cases room : held.length + seg.header.length.toNat < receiveBufSize
  · obtain ⟨recvBuf, saved, after⟩ := save_fits run.table held seg buffer short room
    refine ⟨⟨run.table.saved seg recvBuf, run.accepted ++ seg.payload, run.returned⟩, ?_,
      held ++ seg.payload, after, ?_⟩
    · rw [BufferRun.call, saved]
      rfl
    · change run.returned ++ (held ++ seg.payload) = run.accepted ++ seg.payload
      rw [← List.append_assoc, total]
  · have refused := save_full run.table held seg buffer room
    refine ⟨run, ?_, held, buffer, total⟩
    rw [BufferRun.call, refused]
    rfl

theorem recv_cases (table : ServerTcb) (held : List Byte) (length : UInt32)
    (buffer : RecvBuffer table held) :
    mrtServerRecvCopy table length = some .sleeps ∨
      table.state ≠ .connected ∧
        mrtServerRecvCopy table length = some (.returns (-1) [] table) ∨
      length.toNat ≤ held.length ∧
        mrtServerRecvCopy table length =
            some (.returns 1 (held.take length.toNat) (table.taken length)) ∧
          RecvBuffer (table.taken length) (held.drop length.toNat) := by
  rw [recv_copy_eq, mrtServerRecv]
  cases table.state with
  | connected =>
      by_cases waits : length > table.usedBufLen
      · exact Or.inl (if_pos waits)
      · have enough := UInt32.le_iff_toNat_le.mp (UInt32.not_lt.mp waits)
        rw [buffer.used] at enough
        rcases recv_turn_cases table held length buffer with sleeps | returns
        · exact Or.inl sleeps
        · exact Or.inr (Or.inr ⟨enough, returns⟩)
  | closewait => exact Or.inr (Or.inl ⟨by simp, rfl⟩)
  | listening => exact Or.inr (Or.inl ⟨by simp, rfl⟩)
  | closed => exact Or.inr (Or.inl ⟨by simp, rfl⟩)

theorem recv_holds {run : BufferRun} (holds : QueueHolds run) (length : UInt32) :
    ∃ next, run.call (.recv length) = some next ∧ QueueHolds next := by
  obtain ⟨held, buffer, total⟩ := holds
  rw [BufferRun.call]
  rcases recv_cases run.table held length buffer with sleeps | ⟨_, fails⟩ | ⟨_, returns, after⟩
  · rw [sleeps]
    exact ⟨run, rfl, held, buffer, total⟩
  · rw [fails]
    refine ⟨_, rfl, held, buffer, ?_⟩
    change run.returned ++ [] ++ held = run.accepted
    rw [List.append_nil, total]
  · rw [returns]
    refine ⟨_, rfl, held.drop length.toNat, after, ?_⟩
    change run.returned ++ held.take length.toNat ++ held.drop length.toNat = run.accepted
    rw [List.append_assoc, List.take_append_drop, total]

theorem call_holds {run : BufferRun} (holds : QueueHolds run) (call : BufferCall)
    (short : call.Short) : ∃ next, run.call call = some next ∧ QueueHolds next := by
  cases call with
  | save seg => exact save_holds holds seg short
  | recv length => exact recv_holds holds length

theorem save_grows {table : ServerTcb} {held : List Byte} (buffer : RecvBuffer table held)
    (seg : Seg) {after : ServerTcb} (saved : saveTobuffer table seg = some (1, after)) :
    after.usedBufLen.toNat = table.usedBufLen.toNat + seg.header.length.toNat := by
  rcases save_cases table seg with undefined | refused | ⟨_, recvBuf, stored⟩
  · rw [undefined] at saved
    cases saved
  · rw [refused] at saved
    cases saved
  · rw [stored] at saved
    cases saved
    rw [buffer.used, ← used_after buffer seg, UInt32.add_comm]
    rfl

theorem save_refused {table after : ServerTcb} {seg : Seg}
    (saved : saveTobuffer table seg = some (-1, after)) : after = table := by
  rcases save_cases table seg with undefined | refused | ⟨_, recvBuf, stored⟩
  · rw [undefined] at saved
    cases saved
  · rw [refused] at saved
    cases saved
    rfl
  · rw [stored] at saved
    cases saved

theorem next_call {table : ServerTcb} {held : List Byte} (buffer : RecvBuffer table held) :
    NextCall table := by
  refine ⟨fun seg after => save_refused, fun seg after => save_grows buffer seg, ?_, ?_⟩
  · intro length
    rw [← UInt32.lt_iff_toNat_lt, mrtServerRecvCopy]
    cases state : table.state with
    | connected =>
        simp only [mrtServerRecvCopyTurn]
        split_ifs with waits inside
        · exact iff_of_true rfl ⟨trivial, waits⟩
        · exact iff_of_false (by simp) fun both => waits both.2
        · exact iff_of_false (by simp) fun both => waits both.2
    | closewait => simp
    | listening => simp
    | closed => simp
  · intro length buf after returns
    rcases recv_cases table held length buffer with sleeps | ⟨_, fails⟩ | ⟨enough, taken, shrunk⟩
    · rw [sleeps] at returns
      cases returns
    · rw [fails] at returns
      cases returns
    · rw [taken] at returns
      cases returns
      rw [shrunk.used, buffer.used, List.length_take, List.length_drop]
      omega

/-- In any order of saving and receiving, the bytes returned followed by the bytes held
are the data accepted, and `usedBufLen` counts the bytes held. -/
theorem receive_buffer_fifo (table : ServerTcb) (block : table.recvBuf.length = receiveBufSize)
    (empty : table.usedBufLen = 0) (calls : List BufferCall)
    (short : ∀ call ∈ calls, call.Short) :
    ∃ last, calls.foldlM BufferRun.call ⟨table, [], []⟩ = some last ∧
      last.returned ++ last.table.held = last.accepted ∧
      last.table.usedBufLen.toNat < receiveBufSize ∧
      last.table.held.length = last.table.usedBufLen.toNat ∧ NextCall last.table := by
  have start : QueueHolds ⟨table, [], []⟩ := by
    refine ⟨[], ⟨block, ?_, by decide, rfl⟩, rfl⟩
    rw [empty]
    rfl
  obtain ⟨last, run, held, buffer, total⟩ := PartialRuns.fold_runs BufferRun.call QueueHolds calls
    (fun call member run holds => call_holds holds call (short call member)) start
  refine ⟨last, run, ?_, ?_, ?_, next_call buffer⟩
  · rw [held_eq buffer, total]
  · rw [buffer.used]
    exact buffer.room
  · rw [held_eq buffer, buffer.used]

/-- A connected TCB with an empty buffer of `RECEIVE_BUF_SIZE` bytes. -/
def emptyQueueTable : ServerTcb :=
  { mrtServerSock 1 200 2 100 0 ⟨#[0, 0, 0, 0], rfl⟩ with
    state := .connected
    recvBuf := List.replicate receiveBufSize 0 }

def threeByteSegment : Seg :=
  { Seg.cleared with header := { MrtHdr.cleared with type := SegType.data, length := 3 } }

theorem three_bytes_fifo :
    ∃ last, [.save threeByteSegment, .recv 2, .recv 2].foldlM BufferRun.call
        ⟨emptyQueueTable, [], []⟩ = some last ∧
      last.returned ++ last.table.held = last.accepted ∧
      last.table.usedBufLen.toNat < receiveBufSize ∧
      last.table.held.length = last.table.usedBufLen.toNat ∧ NextCall last.table := by
  apply receive_buffer_fifo emptyQueueTable List.length_replicate rfl
  intro call member
  cases call with
  | save seg =>
      obtain rfl : seg = threeByteSegment := by simpa using member
      exact Nat.le_of_ble_eq_true rfl
  | recv length => exact trivial

end MiniOverlay
