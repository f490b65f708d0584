import MiniOverlay.Lab2ServerSocket
import MiniOverlay.MrtClientSendBuffer

/-!
# The client socket of lab 2

The functions of `lab2/client/mrt_client.c` on one TCB. The two loops that free
cells are those of lab 4. `mrt_client_send` never shortens what is left to send, so
its loop is split into turns. `buffer_timer` reads the TCB from its own variable,
which has no value, and is left out.
-/

namespace MiniOverlay.Lab2

open LinkedHeap FixedByteCodec

set_option autoImplicit false

inductive ClientEffect where
  | mnpSendseg (seg : Seg)
  | startTimer
  deriving DecidableEq

def ClientEffect.sent? : ClientEffect → Option Seg
  | .mnpSendseg seg => some seg
  | .startTimer => none

inductive Caller where
  | returned
  | sending (buffer : Ptr) (data : List Byte) (length : UInt32)

/-- A TCB with the cells behind it and its mutex. The mutex stays locked only when the
segment handler waits for itself. -/
structure ClientSocket where
  client : Client
  bufMutex : Mutex
  caller : Caller

/-- The loop of `send_buff` with the number of turns that `i` still allows. -/
def sendBuffLoop (now : Nat → UInt32) : Nat → Client → Option (Client × List ClientEffect)
  | 0, client => some (client, [])
  | turns + 1, client =>
      let table := client.tcb
      if table.sendBufunSent = none then some (client, [])
      else do
        let cell ← read client.heap table.sendBufunSent
        let heap ← write client.heap table.sendBufunSent ⟨⟨cell.val.seg, now turns⟩, cell.next⟩
        let timer :=
          if table.sendBufunSent = table.sendBufHead then [ClientEffect.startTimer] else []
        let later ← sendBuffLoop now turns ⟨heap, { table with sendBufunSent := cell.next }⟩
        return (later.1, .mnpSendseg cell.val.seg :: (timer ++ later.2))

/-- `i` is an `int` that gets the difference of `unsigned` numbers. -/
def sendBuffTurns (table : ClientTcb) : Nat :=
  (UInt32.ofNat gbnWindow - table.unAckSegNum).toInt32.toInt.toNat

def sendBuff (now : Nat → UInt32) (client : Client) : Option (Client × List ClientEffect) :=
  sendBuffLoop now (sendBuffTurns client.tcb) client

def copyData (seg : Seg) (bytes : List Byte) : Seg :=
  { seg with data := Vector.ofFn fun index => bytes[index]?.getD seg.data[index] }

/-- The segment in the buffer after the first half of a turn, and `next_seqNum`. -/
def fillBuffer (table : ClientTcb) (seg : Seg) (data : List Byte) (length : UInt32) :
    Seg × UInt32 :=
  let addressed := { seg with
    header := { seg.header with
      type := SegType.data
      seqNum := table.nextSeqNum
      srcPort := table.clientPortNum
      destPort := table.svrPortNum } }
  if length.toNat < maxSegLen then
    let filled := copyData addressed (data.take length.toNat)
    ({ filled with header := { filled.header with length := length.toUInt16 } },
      table.nextSeqNum + length)
  else (addressed, table.nextSeqNum)

def linkBuffer (client : Client) (buffer : Ptr) : Option Client :=
  let table :=
    if client.tcb.sendBufHead = none then
      { client.tcb with sendBufHead := buffer, sendBufTail := buffer, sendBufunSent := buffer }
    else client.tcb
  if table.sendBufunSent = none then do
    let last ← read client.heap table.sendBufTail
    let heap ← write client.heap table.sendBufTail ⟨last.val, buffer⟩
    return ⟨heap, { table with sendBufunSent := buffer, sendBufTail := buffer }⟩
  else some ⟨client.heap, table⟩

/-- One turn of the loop of `mrt_client_send`. -/
def mrtClientSendTurn (now : Nat → UInt32) (client : Client) (buffer : Ptr) (data : List Byte)
    (length : UInt32) : Option (Client × List ClientEffect) := do
  let cell ← read client.heap buffer
  let filled := fillBuffer client.tcb cell.val.seg data length
  let heap ← write client.heap buffer ⟨⟨filled.1, 0⟩, none⟩
  let linked ← linkBuffer ⟨heap, { client.tcb with nextSeqNum := filled.2 }⟩ buffer
  let sent ← sendBuff now linked
  return (⟨sent.1.heap, { sent.1.tcb with unAckSegNum := sent.1.tcb.unAckSegNum + 1 }⟩, sent.2)

def mrtClientDisconnect (client : Client) : Option Client := do
  let heap ← sendBufferDestroyLoop none (client.heap.length + 1) client.heap
    client.tcb.sendBufHead
  return ⟨heap, { client.tcb with
    state := .closed
    unAckSegNum := 0
    sendBufHead := none
    sendBufTail := none
    sendBufunSent := none }⟩

/-- DATAACK of the server, with `bufMutex` locked. `send_buff` locks it again, so the
handler stops there. -/
def handleDataack (client : Client) (segment : Seg) : Option (Client × Mutex) := do
  let tail ← read client.heap client.tcb.sendBufTail
  if segment.header.seqNum > tail.val.seg.header.seqNum then
    let client ← sendBufferRecvAckLoop segment.header.seqNum (client.heap.length + 1) client
    return (client, .locked)
  else return (client, .free)

/-- One turn of the loop of `seghandler`; a segment for another port is skipped. -/
def clientSeghandler (client : Client) (segment : Seg) : Option (Client × Mutex) :=
  let table := client.tcb
  let fromServer := table.svrPortNum = segment.header.srcPort
  if table.clientPortNum = segment.header.destPort then
    match table.state with
    | .closed => some (client, .free)
    | .synsent =>
        if segment.header.type = SegType.synack ∧ fromServer then
          some (⟨client.heap, { table with state := .connected }⟩, .free)
        else some (client, .free)
    | .connected =>
        if segment.header.type = SegType.dataack ∧ fromServer then handleDataack client segment
        else some (client, .free)
    | .finwait =>
        if segment.header.type = SegType.finack ∧ fromServer then
          some (⟨client.heap, { table with state := .closed }⟩, .free)
        else some (client, .free)
  else some (client, .free)

inductive ClientEvent where
  | send (data : List Byte) (memory : SegBuf)
  | sendTurn (now : Nat → UInt32)
  | disconnect
  | segment (received : Seg)

/-- A call is made when the one before has returned, and `mrt_client_send` waits for
CONNECTED; `memory` is what `malloc` found. -/
def ClientSocket.step (socket : ClientSocket) :
    ClientEvent → Option (ClientSocket × List ClientEffect)
  | .send data memory =>
      match socket.caller, socket.client.tcb.state with
      | .returned, .connected =>
          let buffer := alloc socket.client.heap ⟨memory, none⟩
          some ({ socket with
            client := ⟨buffer.1, socket.client.tcb⟩
            caller := .sending buffer.2 data (UInt32.ofNat data.length) }, [])
      | _, _ => none
  | .sendTurn now =>
      match socket.caller with
      | .returned => none
      | .sending buffer data length =>
          if length = 0 then some ({ socket with caller := .returned }, [])
          else match socket.bufMutex with
            | .locked => none
            | .free => do
                let sent ← mrtClientSendTurn now socket.client buffer data length
                return ({ socket with client := sent.1 }, sent.2)
  | .disconnect =>
      match socket.caller with
      | .returned => do
          let after ← mrtClientDisconnect socket.client
          return ({ socket with client := after }, [])
      | .sending _ _ _ => none
  | .segment received =>
      match socket.bufMutex with
      | .locked => none
      | .free => do
          let handled ← clientSeghandler socket.client received
          return ({ socket with client := handled.1, bufMutex := handled.2 }, [])

/-- A segment is handled while the mutex is free. -/
theorem segment_step {socket next : ClientSocket} {received : Seg} {effects : List ClientEffect}
    (stepped : socket.step (.segment received) = some (next, effects)) :
    socket.bufMutex = .free ∧ ∃ handled, clientSeghandler socket.client received = some handled ∧
      next = { socket with client := handled.1, bufMutex := handled.2 } := by
  simp only [ClientSocket.step] at stepped
  cases mutex : socket.bufMutex with
  | locked =>
      rw [mutex] at stepped
      cases stepped
  | free =>
      rw [mutex] at stepped
      obtain ⟨handled, taken, stepped⟩ := Option.bind_eq_some_iff.mp stepped
      cases stepped
      exact ⟨rfl, handled, taken, rfl⟩

end MiniOverlay.Lab2
