import MiniOverlay.SegmentFormat
import MiniOverlay.Constants
import Mathlib.Tactic.SplitIfs

/-!
# The server socket

The functions of `server/mrt_server.c` on one TCB. `recvBuf` is the block that
was allocated; a copy past its end has no result. Every function runs to its end
before another starts.
-/

namespace MiniOverlay

open FixedByteCodec

set_option autoImplicit false

inductive ServerState where
  | closed
  | listening
  | connected
  | closewait
  deriving DecidableEq

structure ServerTcb where
  svrNodeID : UInt32
  svrPortNum : UInt32
  clientNodeID : UInt32
  clientPortNum : UInt32
  state : ServerState
  expectSeqNum : UInt32
  recvBuf : List Byte
  usedBufLen : UInt32
  deriving DecidableEq

inductive ServerEffect where
  | mnpSendseg (destNodeID : Int32) (seg : Seg)
  | startClosewait
  deriving DecidableEq

def ServerEffect.sent? : ServerEffect → Option SendsegArg
  | .mnpSendseg destNodeID seg => some ⟨destNodeID, seg⟩
  | .startClosewait => none

def ServerTcb.newSeg (table : ServerTcb) (type : UInt16) (ackNum : UInt32) : Seg :=
  { Seg.cleared with
    header := { MrtHdr.cleared with
      type := type
      destPort := table.clientPortNum
      srcPort := table.svrPortNum
      length := 0
      ackNum := ackNum } }

def ServerTcb.reply (table : ServerTcb) (type : UInt16) (ackNum : UInt32) : ServerEffect :=
  .mnpSendseg table.clientNodeID.toInt32 (table.newSeg type ackNum)

/-- `memcpy(&block[offset], bytes, ..)`. -/
def copyTo (block : List Byte) (offset : Nat) (bytes : List Byte) : Option (List Byte) :=
  if offset + bytes.length ≤ block.length then
    some (block.take offset ++ bytes ++ block.drop (offset + bytes.length))
  else none

/-- The return value and the TCB. The sum in the test is an `unsigned int`. -/
def saveTobuffer (table : ServerTcb) (segmentBuffer : Seg) : Option (Int × ServerTcb) :=
  if (segmentBuffer.header.length.toUInt32 + table.usedBufLen).toNat < receiveBufSize then
    if segmentBuffer.header.length.toNat ≤ maxSegLen then do
      let recvBuf ← copyTo table.recvBuf table.usedBufLen.toNat segmentBuffer.payload
      return (1, { table with
        recvBuf := recvBuf
        usedBufLen := table.usedBufLen + segmentBuffer.header.length.toUInt32
        expectSeqNum := segmentBuffer.header.length.toUInt32 + segmentBuffer.header.seqNum })
    else none
  else some (-1, table)

def dataReceived (table : ServerTcb) (dataIn : Seg) : Option (ServerTcb × List ServerEffect) :=
  if dataIn.header.seqNum = table.expectSeqNum then do
    let saved ← saveTobuffer table dataIn
    if saved.1 < 0 then return (table, [])
    else return (saved.2, [saved.2.reply SegType.dataack saved.2.expectSeqNum])
  else some (table, [table.reply SegType.dataack table.expectSeqNum])

def segmentRecv (table : ServerTcb) (segmentBuffer : Seg) : ServerTcb × List ServerEffect :=
  if segmentBuffer.header.type = SegType.syn then
    ({ table with expectSeqNum := segmentBuffer.header.seqNum }, [table.reply SegType.synack 0])
  else if segmentBuffer.header.type = SegType.fin then
    (table, [table.reply SegType.finack 0])
  else (table, [])

def serverSeghandler (table : ServerTcb) (sourceNodeID : Int32) (segmentBuffer : Seg) :
    Option (ServerTcb × List ServerEffect) :=
  match table.state with
  | .listening =>
      let accepted := segmentRecv { table with
        clientNodeID := sourceNodeID.toUInt32
        clientPortNum := segmentBuffer.header.srcPort } segmentBuffer
      some ({ accepted.1 with state := .connected }, accepted.2)
  | .connected =>
      if table.clientPortNum = segmentBuffer.header.srcPort ∧
          table.clientNodeID = sourceNodeID.toUInt32 then
        if segmentBuffer.header.type = SegType.syn then some (segmentRecv table segmentBuffer)
        else if segmentBuffer.header.type = SegType.data then dataReceived table segmentBuffer
        else if segmentBuffer.header.type = SegType.fin then
          let finished := segmentRecv { table with state := .closewait } segmentBuffer
          some (finished.1, .startClosewait :: finished.2)
        else some (table, [])
      else some (table, [])
  | .closewait =>
      if segmentBuffer.header.type = SegType.fin then some (segmentRecv table segmentBuffer)
      else some (table, [])
  | .closed => some (table, [])

/-- The thread that `closewait` starts, after its sleep. -/
def closewait (table : ServerTcb) : ServerTcb :=
  { table with usedBufLen := 0, state := .closed }

/-- `mrt_server_accept` up to its wait; `none` is the return value `-1`. -/
def mrtServerAccept (table : ServerTcb) : Option ServerTcb :=
  match table.state with
  | .closed => some { table with state := .listening }
  | .connected => none
  | .listening => none
  | .closewait => none

/-- What one look of `mrt_server_recv` at the buffer does. -/
inductive RecvTurn where
  | sleeps
  | returns (value : Int) (buf : List Byte) (table : ServerTcb)

/-- The TCB after `length` bytes were taken from the front of the buffer: the
bytes behind them move to the front of the block, as `memmove` does it. -/
def ServerTcb.taken (table : ServerTcb) (length : UInt32) : ServerTcb :=
  { table with
    recvBuf :=
      (table.recvBuf.drop length.toNat).take (table.usedBufLen.toNat - length.toNat) ++
        table.recvBuf.drop (table.usedBufLen.toNat - length.toNat)
    usedBufLen := table.usedBufLen - length }

/-- One turn of the loop of `mrt_server_recv`. -/
def mrtServerRecvTurn (table : ServerTcb) (length : UInt32) : Option RecvTurn :=
  if length > table.usedBufLen then some .sleeps
  else if table.usedBufLen.toNat ≤ table.recvBuf.length then
    some (.returns 1 (table.recvBuf.take length.toNat) (table.taken length))
  else none

/-- `mrt_server_recv` up to its first `sleep`; only the later turns run without
the test of the state. -/
def mrtServerRecv (table : ServerTcb) (length : UInt32) : Option RecvTurn :=
  match table.state with
  | .connected => mrtServerRecvTurn table length
  | .closewait => some (.returns (-1) [] table)
  | .listening => some (.returns (-1) [] table)
  | .closed => some (.returns (-1) [] table)

/-- The TCB of `mrt_server_sock`. The receive buffer has `sizeof(RECEIVE_BUF_SIZE)`
bytes, and the client and the expected sequence number are not initialised. -/
def mrtServerSock (myNodeID : Int32) (port clientNodeID clientPortNum expectSeqNum : UInt32)
    (recvBuf : Vector Byte 4) : ServerTcb where
  svrNodeID := myNodeID.toUInt32
  svrPortNum := port
  clientNodeID := clientNodeID
  clientPortNum := clientPortNum
  state := .closed
  expectSeqNum := expectSeqNum
  recvBuf := recvBuf.toList
  usedBufLen := 0

/-- The bytes `saveTobuffer` stores for a segment: its data when the segment is
the expected one and the return value is `1`. -/
def savedBytes (table : ServerTcb) (dataIn : Seg) : List Byte :=
  if dataIn.header.seqNum = table.expectSeqNum then
    match saveTobuffer table dataIn with
    | some (1, _) => dataIn.payload
    | _ => []
  else []

/-- A block of `RECEIVE_BUF_SIZE` bytes that begins with the bytes held. -/
structure RecvBuffer (table : ServerTcb) (held : List Byte) : Prop where
  block : table.recvBuf.length = receiveBufSize
  used : table.usedBufLen.toNat = held.length
  room : held.length < receiveBufSize
  bytes : table.recvBuf.take held.length = held

def ServerTcb.saved (table : ServerTcb) (seg : Seg) (recvBuf : List Byte) : ServerTcb :=
  { table with
    recvBuf := recvBuf
    usedBufLen := table.usedBufLen + seg.header.length.toUInt32
    expectSeqNum := seg.header.length.toUInt32 + seg.header.seqNum }

theorem save_cases (table : ServerTcb) (seg : Seg) :
    saveTobuffer table seg = none ∨ saveTobuffer table seg = some (-1, table) ∨
      seg.header.length.toNat ≤ maxSegLen ∧
        ∃ recvBuf, saveTobuffer table seg = some (1, table.saved seg recvBuf) := by
  unfold saveTobuffer
  split_ifs with room short
  · cases copied : copyTo table.recvBuf table.usedBufLen.toNat seg.payload with
    | none => exact Or.inl rfl
    | some recvBuf => exact Or.inr (Or.inr ⟨short, recvBuf, rfl⟩)
  · exact Or.inl rfl
  · exact Or.inr (Or.inl rfl)

/-- What `data_received` can have done when it has a result. -/
inductive DataReceives (table : ServerTcb) (dataIn : Seg) (after : ServerTcb)
    (effects : List ServerEffect) : Prop where
  | repeated (unexpected : dataIn.header.seqNum ≠ table.expectSeqNum)
      (nothing : savedBytes table dataIn = []) (same : after = table)
      (again : effects = [table.reply SegType.dataack table.expectSeqNum])
  | refused (expected : dataIn.header.seqNum = table.expectSeqNum)
      (nothing : savedBytes table dataIn = []) (same : after = table) (quiet : effects = [])
  | stored (expected : dataIn.header.seqNum = table.expectSeqNum)
      (short : dataIn.header.length.toNat ≤ maxSegLen)
      (saved : savedBytes table dataIn = dataIn.payload) (recvBuf : List Byte)
      (call : saveTobuffer table dataIn = some (1, table.saved dataIn recvBuf))
      (moved : after = table.saved dataIn recvBuf)
      (acknowledged : effects = [table.reply SegType.dataack
        (dataIn.header.length.toUInt32 + dataIn.header.seqNum)])

theorem data_receives {table after : ServerTcb} {dataIn : Seg} {effects : List ServerEffect}
    (received : dataReceived table dataIn = some (after, effects)) :
    DataReceives table dataIn after effects := by
  have saves : savedBytes table dataIn = if dataIn.header.seqNum = table.expectSeqNum then
      match saveTobuffer table dataIn with
      | some (1, _) => dataIn.payload
      | _ => []
    else [] := rfl
  unfold dataReceived at received
  by_cases expected : dataIn.header.seqNum = table.expectSeqNum
  · rw [if_pos expected] at received saves
    rcases save_cases table dataIn with undefined | refused | ⟨short, recvBuf, stored⟩
    · rw [undefined] at received
      cases received
    · rw [refused] at received saves
      cases received
      exact .refused expected saves rfl rfl
    · rw [stored] at received saves
      cases received
      exact .stored expected short saves recvBuf stored rfl rfl
  · rw [if_neg expected] at received saves
    cases received
    exact .repeated expected saves rfl rfl

theorem used_after {table : ServerTcb} {held : List Byte} (buffer : RecvBuffer table held)
    (seg : Seg) : (seg.header.length.toUInt32 + table.usedBufLen).toNat =
      held.length + seg.header.length.toNat := by
  have bounded := seg.header.length.toNat_lt
  have room := buffer.room
  simp only [receiveBufSize] at room
  rw [UInt32.toNat_add, buffer.used, UInt16.toNat_toUInt32]
  omega

theorem copy_to_prefix (block held bytes : List Byte) (starts : block.take held.length = held)
    (fits : held.length + bytes.length ≤ block.length) :
    ∃ after, copyTo block held.length bytes = some after ∧ after.length = block.length ∧
      after.take (held ++ bytes).length = held ++ bytes := by
  refine ⟨_, if_pos fits, ?_, ?_⟩
  · rw [starts, List.length_append, List.length_append, List.length_drop]
    omega
  · rw [starts, List.take_left]

theorem save_fits (table : ServerTcb) (held : List Byte) (seg : Seg)
    (buffer : RecvBuffer table held) (short : seg.header.length.toNat ≤ maxSegLen)
    (room : held.length + seg.header.length.toNat < receiveBufSize) :
    ∃ recvBuf, saveTobuffer table seg = some (1, table.saved seg recvBuf) ∧
      RecvBuffer (table.saved seg recvBuf) (held ++ seg.payload) := by
  have total := used_after buffer seg
  have size := payload_length seg short
  have block := buffer.block
  obtain ⟨recvBuf, copied, length, bytes⟩ := copy_to_prefix table.recvBuf held seg.payload
    buffer.bytes (by omega)
  refine ⟨recvBuf, ?_, length.trans block, ?_, ?_, bytes⟩
  · rw [saveTobuffer, if_pos (total ▸ room), if_pos short, buffer.used, copied]
    rfl
  · rw [List.length_append, size, ← total, UInt32.add_comm]
    rfl
  · rw [List.length_append, size]
    exact room

theorem save_full (table : ServerTcb) (held : List Byte) (seg : Seg)
    (buffer : RecvBuffer table held)
    (full : ¬ held.length + seg.header.length.toNat < receiveBufSize) :
    saveTobuffer table seg = some (-1, table) := by
  rw [saveTobuffer, used_after buffer seg, if_neg full]

/-- What `data_received` can do with a segment: acknowledge again, drop it
without an acknowledgement because the buffer is full, or store it. -/
theorem data_received_cases (table : ServerTcb) (held : List Byte) (seg : Seg)
    (buffer : RecvBuffer table held) (short : seg.header.length.toNat ≤ maxSegLen) :
    (seg.header.seqNum ≠ table.expectSeqNum ∧ savedBytes table seg = [] ∧
      dataReceived table seg =
        some (table, [table.reply SegType.dataack table.expectSeqNum])) ∨
    (seg.header.seqNum = table.expectSeqNum ∧ savedBytes table seg = [] ∧
      dataReceived table seg = some (table, [])) ∨
    (seg.header.seqNum = table.expectSeqNum ∧ savedBytes table seg = seg.payload ∧
      ∃ recvBuf, RecvBuffer (table.saved seg recvBuf) (held ++ seg.payload) ∧
        dataReceived table seg = some (table.saved seg recvBuf,
          [table.reply SegType.dataack (seg.header.length.toUInt32 + seg.header.seqNum)])) := by
  by_cases expected : seg.header.seqNum = table.expectSeqNum
  · apply Or.inr
    by_cases room : held.length + seg.header.length.toNat < receiveBufSize
    · obtain ⟨recvBuf, saved, after⟩ := save_fits table held seg buffer short room
      refine Or.inr ⟨expected, ?_, recvBuf, after, ?_⟩
      · rw [savedBytes, if_pos expected, saved]
        rfl
      · rw [dataReceived, if_pos expected, saved]
        rfl
    · have saved := save_full table held seg buffer room
      refine Or.inl ⟨expected, ?_, ?_⟩
      · rw [savedBytes, if_pos expected, saved]
        rfl
      · rw [dataReceived, if_pos expected, saved]
        rfl
  · refine Or.inl ⟨expected, ?_, ?_⟩
    · rw [savedBytes, if_neg expected]
    · rw [dataReceived, if_neg expected]

theorem taken_buffer (table : ServerTcb) (held : List Byte) (length : UInt32)
    (buffer : RecvBuffer table held) (enough : length.toNat ≤ held.length) :
    RecvBuffer (table.taken length) (held.drop length.toNat) := by
  have used := buffer.used
  have block := buffer.block
  have room := buffer.room
  have front : (table.recvBuf.drop length.toNat).take (held.length - length.toNat) =
      held.drop length.toNat := by
    rw [← List.drop_take, buffer.bytes]
  have unfolded : (table.taken length).recvBuf =
      held.drop length.toNat ++ table.recvBuf.drop (held.length - length.toNat) := by
    rw [ServerTcb.taken, used, front]
  constructor
  · rw [unfolded, List.length_append, List.length_drop, List.length_drop]
    omega
  · have below : length ≤ table.usedBufLen := by
      rw [UInt32.le_iff_toNat_le, used]
      exact enough
    rw [ServerTcb.taken, UInt32.toNat_sub_of_le _ _ below, used, List.length_drop]
  · rw [List.length_drop]
    omega
  · rw [unfolded, List.take_left]

theorem recv_turn_result {table : ServerTcb} {length : UInt32} {turn : RecvTurn}
    (turned : mrtServerRecvTurn table length = some turn) :
    turn = .sleeps ∨ length ≤ table.usedBufLen ∧
      turn = .returns 1 (table.recvBuf.take length.toNat) (table.taken length) := by
  unfold mrtServerRecvTurn at turned
  split_ifs at turned with waits inside
  · cases turned
    exact Or.inl rfl
  · cases turned
    exact Or.inr ⟨UInt32.not_lt.mp waits, rfl⟩

theorem recv_result {table : ServerTcb} {length : UInt32} {turn : RecvTurn}
    (turned : mrtServerRecv table length = some turn) :
    mrtServerRecvTurn table length = some turn ∨ turn = .returns (-1) [] table := by
  unfold mrtServerRecv at turned
  cases state : table.state <;> rw [state] at turned
  case connected => exact Or.inl turned
  all_goals
    cases turned
    exact Or.inr rfl

theorem recv_turn_cases (table : ServerTcb) (held : List Byte) (length : UInt32)
    (buffer : RecvBuffer table held) :
    mrtServerRecvTurn table length = some .sleeps ∨
      mrtServerRecvTurn table length =
          some (.returns 1 (held.take length.toNat) (table.taken length)) ∧
        RecvBuffer (table.taken length) (held.drop length.toNat) := by
  by_cases waits : length > table.usedBufLen
  · exact Or.inl (if_pos waits)
  · apply Or.inr
    have used := buffer.used
    have block := buffer.block
    have room := buffer.room
    have enough : length.toNat ≤ held.length := by
      rw [gt_iff_lt, UInt32.lt_iff_toNat_lt, used] at waits
      omega
    have inside : table.usedBufLen.toNat ≤ table.recvBuf.length := by omega
    have returned : table.recvBuf.take length.toNat = held.take length.toNat :=
      calc
        table.recvBuf.take length.toNat =
            (table.recvBuf.take held.length).take length.toNat := by
          rw [List.take_take, Nat.min_eq_left enough]
        _ = held.take length.toNat := by rw [buffer.bytes]
    refine ⟨?_, taken_buffer table held length buffer enough⟩
    rw [mrtServerRecvTurn, if_neg waits, if_pos inside, returned]

end MiniOverlay
