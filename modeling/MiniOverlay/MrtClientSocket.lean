import MiniOverlay.MrtClientSendBuffer

/-!
# The client socket

The calls of `client/mrt_client.c` on one TCB and its segment handler. A call
that waits in `select` is split there, with its local variables as arguments of
the part after the wait; every part runs to its end before another starts. The
last segment of `mrt_client_send` is allocated and never queued.
-/

namespace MiniOverlay

open LinkedHeap FixedByteCodec

set_option autoImplicit false

def finMaxRetry : Nat := 5

/-- The largest `int`. -/
def intMax : Nat := 2147483647

def ClientTcb.newSeg (table : ClientTcb) (type length : UInt16) (data : List Byte) : Seg :=
  { header := { MrtHdr.cleared with
      srcPort := table.clientPortNum
      destPort := table.svrPortNum
      length := length
      type := type }
    data := padVector maxSegLen data }

/-- `memcpy` of one whole segment from `&send_data[i * MAX_SEG_LEN]`. The index
is an `int`, and the bytes have to lie inside the caller's data. -/
def copyChunk (data : List Byte) (index : Nat) : Option (List Byte) :=
  if index * maxSegLen ≤ intMax ∧ (index + 1) * maxSegLen ≤ data.length then
    some ((data.drop (index * maxSegLen)).take maxSegLen)
  else none

def mrtClientSendTurn (data : List Byte) (segmentNumber : Nat) (client : Client)
    (index : Nat) : Option Client :=
  if index = segmentNumber - 1 then
    -- filled in up to its length and then dropped
    let seg := client.tcb.newSeg 0 (UInt16.ofNat (data.length % maxSegLen)) []
    some ⟨(alloc client.heap ⟨⟨seg, 0⟩, none⟩).1, client.tcb⟩
  else do
    let chunk ← copyChunk data index
    queueSegment client (client.tcb.newSeg SegType.data (UInt16.ofNat maxSegLen) chunk)

/-- The return value, the client and the effects; `none` is undefined behaviour. -/
def mrtClientSend (now : Nat → Timeval) (client : Client) (data : List Byte) :
    Option (Int × Client × List ClientEffect) :=
  match client.tcb.state with
  | .connected => do
      let segmentNumber := data.length / maxSegLen + 1
      let queued ← (List.range segmentNumber).foldlM (mrtClientSendTurn data segmentNumber) client
      let sent ← sendBufferSending now queued
      return (1, sent)
  | .closed => some (-1, client, [])
  | .synsent => some (-1, client, [])
  | .finwait => some (-1, client, [])

/-- The TCB of `mrt_client_sock`; `svr_portNum` is not initialised. -/
def mrtClientSock (myNodeID : Int32) (clientPort svrPortNum : UInt32) : Client where
  heap := []
  tcb :=
    { svrNodeID := -1
      svrPortNum := svrPortNum
      clientNodeID := myNodeID.toUInt32
      clientPortNum := clientPort
      state := .closed
      nextSeqNum := 0
      sendBufHead := none
      sendBufunSent := none
      sendBufTail := none
      unAckSegNum := 0 }

def establishedClient : Client :=
  let client := mrtClientSock 1 100 200
  ⟨client.heap, { client.tcb with svrNodeID := 2, state := .connected }⟩

def oneByteSegment : Seg :=
  { Seg.cleared with header := { MrtHdr.cleared with type := SegType.data, length := 1 } }

def sentClient : Client :=
  ⟨[some ⟨⟨oneByteSegment, 0⟩, none⟩], { establishedClient.tcb with
    nextSeqNum := 1
    sendBufHead := some 0
    sendBufTail := some 0
    unAckSegNum := 1 }⟩

def oneByteDataack : Seg :=
  { Seg.cleared with
    header := { MrtHdr.cleared with
      type := SegType.dataack, srcPort := 200, destPort := 100, ackNum := 1 } }

def stoppedClock : Nat → Timeval := fun _ => ⟨0, 0⟩

/-- `mrt_client_connect` up to its wait, with `client_syn`; `none` is the return
value `-1`. -/
def mrtClientConnect (client : Client) (nodeID : Int32) (serverPort : UInt32) :
    Option (Client × Seg × List ClientEffect) :=
  match client.tcb.state with
  | .closed =>
      let table := { client.tcb with svrNodeID := nodeID.toUInt32, svrPortNum := serverPort }
      let clientSyn := table.newSeg SegType.syn 0 []
      some (⟨client.heap, { table with state := .synsent }⟩, clientSyn,
        [.mnpSendseg table.svrNodeID.toInt32 clientSyn])
  | .connected => none
  | .synsent => none
  | .finwait => none

/-- `mrt_client_connect` after its wait: the `break` behind the three branches
leaves the loop, so there is one wait only. -/
def mrtClientConnectWake (client : Client) (clientSyn : Seg) : Int × List ClientEffect :=
  if client.tcb.state ≠ .connected then
    (-1, [.mnpSendseg client.tcb.svrNodeID.toInt32 clientSyn])
  else (1, [])

/-- `mrt_client_disconnect` up to its first wait, with `finished`; `none` is the
return value `-1`. -/
def mrtClientDisconnect (client : Client) : Option (Client × Seg × List ClientEffect) :=
  match client.tcb.state with
  | .connected =>
      let finished := client.tcb.newSeg SegType.fin 0 []
      some (⟨client.heap, { client.tcb with state := .finwait }⟩, finished,
        [.mnpSendseg client.tcb.svrNodeID.toInt32 finished])
  | .closed => none
  | .synsent => none
  | .finwait => none

/-- Where `mrt_client_disconnect` is after one of its waits. -/
inductive DisconnectTurn where
  | waits (retry : Nat)
  | returns (value : Int)
  deriving DecidableEq

/-- One turn of the loop of `mrt_client_disconnect` after its wait. -/
def mrtClientDisconnectWake (client : Client) (finished : Seg) (retry : Nat) :
    Option (Client × DisconnectTurn × List ClientEffect) :=
  if client.tcb.state = .closed then do
    let after ← sendBufferDestroy ⟨client.heap, { client.tcb with
      nextSeqNum := 0
      svrNodeID := -1
      svrPortNum := 0 }⟩
    return (after, .returns 1, [])
  else
    let again := [ClientEffect.mnpSendseg client.tcb.svrNodeID.toInt32 finished]
    if retry + 1 < finMaxRetry then some (client, .waits (retry + 1), again)
    else some (⟨client.heap, { client.tcb with state := .closed }⟩, .returns (-1), again)

/-- What a turn of the loop can have done when it has a result. -/
inductive DisconnectWakes (client : Client) (finished : Seg) (retry : Nat) :
    Client × DisconnectTurn × List ClientEffect → Prop where
  | empties (after : Client) (closed : client.tcb.state = .closed)
      (destroyed : sendBufferDestroy ⟨client.heap, { client.tcb with
        nextSeqNum := 0
        svrNodeID := -1
        svrPortNum := 0 }⟩ = some after) :
      DisconnectWakes client finished retry (after, .returns 1, [])
  | waits (notClosed : client.tcb.state ≠ .closed) (more : retry + 1 < finMaxRetry) :
      DisconnectWakes client finished retry (client, .waits (retry + 1),
        [.mnpSendseg client.tcb.svrNodeID.toInt32 finished])
  | givesUp (notClosed : client.tcb.state ≠ .closed) (last : finMaxRetry ≤ retry + 1) :
      DisconnectWakes client finished retry (⟨client.heap, { client.tcb with state := .closed }⟩,
        .returns (-1), [.mnpSendseg client.tcb.svrNodeID.toInt32 finished])

theorem disconnect_wakes {client : Client} {finished : Seg} {retry : Nat}
    {result : Client × DisconnectTurn × List ClientEffect}
    (turned : mrtClientDisconnectWake client finished retry = some result) :
    DisconnectWakes client finished retry result := by
  unfold mrtClientDisconnectWake at turned
  by_cases closed : client.tcb.state = .closed
  · rw [if_pos closed] at turned
    obtain ⟨after, destroyed, turned⟩ := Option.bind_eq_some_iff.mp turned
    cases turned
    exact .empties after closed destroyed
  · rw [if_neg closed] at turned
    by_cases more : retry + 1 < finMaxRetry
    · simp only [if_pos more] at turned
      cases turned
      exact .waits closed more
    · simp only [if_neg more] at turned
      cases turned
      exact .givesUp closed (Nat.le_of_not_lt more)

/-- `seghandler` on a segment for this TCB. Reading the sequence number at
`sendBufHead` for the message of the last branch fails on an empty buffer. -/
def clientSeghandler (now : Nat → Timeval) (client : Client) (sourceNodeID : Int32)
    (segmentBuffer : Seg) : Option (Client × List ClientEffect) :=
  let table := client.tcb
  match table.state with
  | .connected =>
      if table.svrNodeID = sourceNodeID.toUInt32 ∧
          table.svrPortNum = segmentBuffer.header.srcPort ∧
          segmentBuffer.header.type = SegType.dataack then
        if table.sendBufHead = none then some (client, [])
        else do
          let cell ← read client.heap table.sendBufHead
          if segmentBuffer.header.ackNum ≥ cell.val.seg.header.seqNum then
            let acknowledged ← sendBufferRecvAck client segmentBuffer.header.ackNum
            sendBufferSending now acknowledged
          else some (client, [])
      else do
        let _ ← read client.heap table.sendBufHead
        return (client, [])
  | .synsent =>
      if segmentBuffer.header.type = SegType.synack ∧
          table.svrPortNum = segmentBuffer.header.srcPort ∧
          table.svrNodeID = sourceNodeID.toUInt32 then
        some (⟨client.heap, { table with state := .connected }⟩, [])
      else some (client, [])
  | .finwait =>
      if segmentBuffer.header.type = SegType.finack ∧
          table.svrPortNum = sourceNodeID.toUInt32 ∧
          table.svrPortNum = segmentBuffer.header.srcPort then
        some (⟨client.heap, { table with state := .closed }⟩, [])
      else some (client, [])
  | .closed => some (client, [])

inductive ClientHandles (now : Nat → Timeval) (client : Client) (sourceNodeID : Int32) (seg : Seg)
    (after : Client) (effects : List ClientEffect) : Prop where
  | nothing (same : after = client) (quiet : effects = [])
  | acknowledges (middle : Client) (cell : Cell SegBuf)
      (connected : client.tcb.state = .connected)
      (server : client.tcb.svrNodeID = sourceNodeID.toUInt32 ∧
        client.tcb.svrPortNum = seg.header.srcPort)
      (dataack : seg.header.type = SegType.dataack)
      (held : read client.heap client.tcb.sendBufHead = some cell)
      (reached : cell.val.seg.header.seqNum ≤ seg.header.ackNum)
      (acknowledged : sendBufferRecvAck client seg.header.ackNum = some middle)
      (sent : sendBufferSending now middle = some (after, effects))
  | connects (synsent : client.tcb.state = .synsent) (synack : seg.header.type = SegType.synack)
      (moved : after = ⟨client.heap, { client.tcb with state := .connected }⟩)
      (quiet : effects = [])
  | closes (finwait : client.tcb.state = .finwait) (finack : seg.header.type = SegType.finack)
      (moved : after = ⟨client.heap, { client.tcb with state := .closed }⟩)
      (quiet : effects = [])

theorem client_handles {now : Nat → Timeval} {client after : Client} {sourceNodeID : Int32}
    {seg : Seg} {effects : List ClientEffect}
    (handled : clientSeghandler now client sourceNodeID seg = some (after, effects)) :
    ClientHandles now client sourceNodeID seg after effects := by
  unfold clientSeghandler at handled
  cases state : client.tcb.state with
  | connected =>
      simp only [state, Option.bind_eq_bind] at handled
      split_ifs at handled with answers empty
      · cases handled
        exact .nothing rfl rfl
      · obtain ⟨cell, held, handled⟩ := Option.bind_eq_some_iff.mp handled
        split_ifs at handled with reached
        · obtain ⟨middle, acknowledged, sent⟩ := Option.bind_eq_some_iff.mp handled
          exact .acknowledges middle cell state ⟨answers.1, answers.2.1⟩ answers.2.2 held reached
            acknowledged sent
        · cases handled
          exact .nothing rfl rfl
      · obtain ⟨cell, _, handled⟩ := Option.bind_eq_some_iff.mp handled
        cases handled
        exact .nothing rfl rfl
  | synsent =>
      simp only [state] at handled
      split_ifs at handled with answered
      · cases handled
        exact .connects state answered.1 rfl rfl
      · cases handled
        exact .nothing rfl rfl
  | finwait =>
      simp only [state] at handled
      split_ifs at handled with answered
      · cases handled
        exact .closes state answered.1 rfl rfl
      · cases handled
        exact .nothing rfl rfl
  | closed =>
      simp only [state] at handled
      cases handled
      exact .nothing rfl rfl

/-- A segment that `mnp_recvseg` returns, with the clock of its handling. -/
structure Incoming where
  now : Nat → Timeval
  sourceNodeID : Int32
  segmentBuffer : Seg

/-- The TCB after a turn of `seghandler`. -/
def Client.handle (client : Client) (incoming : Incoming) : Option Client :=
  (clientSeghandler incoming.now client incoming.sourceNodeID incoming.segmentBuffer).map Prod.fst

end MiniOverlay
