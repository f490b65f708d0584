import MiniOverlay.MrtServerSocket
import MiniOverlay.SlotTable

/-!
# The server sockets of lab 2

The functions of `lab2/server/mrt_server.c`. Segments carry no node IDs. A locked
`bufMutex` that is locked again has no result, and `mrt_server_recv` returns before
its unlock. `mrt_server_close` is left out, which frees a TCB and leaves the slot.
-/

namespace MiniOverlay.Lab2

open FixedByteCodec SlotTable

set_option autoImplicit false

inductive ServerEffect where
  | mnpSendseg (seg : Seg)
  | closeWaitTimeout
  deriving DecidableEq

inductive Mutex where
  | free
  | locked
  deriving DecidableEq

/-- A TCB with its mutex and the threads of `close_wait_timeout` that sleep on it. -/
structure ServerSocket where
  tcb : ServerTcb
  bufMutex : Mutex
  sleeping : Nat

abbrev ServerSocket.svrPortNum (socket : ServerSocket) : UInt32 := socket.tcb.svrPortNum

/-- `mrt_server_sock`; the other arguments are what `malloc` left in memory. -/
def mrtServerSock (port svrNodeID clientNodeID clientPortNum expectSeqNum : UInt32)
    (recvBuf : Vector Byte receiveBufSize) : ServerSocket where
  tcb :=
    { svrNodeID := svrNodeID
      svrPortNum := port
      clientNodeID := clientNodeID
      clientPortNum := clientPortNum
      state := .closed
      expectSeqNum := expectSeqNum
      recvBuf := recvBuf.toList
      usedBufLen := 0 }
  bufMutex := .free
  sleeping := 0

/-- The second loop of `mrt_server_recv`, with what its index variable held. -/
def moveFront (recvBuf : List Byte) (usedBufLen l : Nat) : List Byte :=
  (List.range usedBufLen).foldl (fun block i => block.set (l + i) (block.getD i 0)) recvBuf

def mrtServerRecv (socket : ServerSocket) (length : UInt32) (l : Nat) :
    Option (List Byte × ServerSocket) :=
  let block := socket.tcb.recvBuf
  let used := socket.tcb.usedBufLen.toNat
  match socket.bufMutex with
  | .locked => none
  | .free =>
      if length.toNat ≤ block.length ∧ used ≤ block.length ∧
          (used = 0 ∨ l + used ≤ block.length) then
        some (block.take length.toNat,
          { socket with
            tcb := { socket.tcb with
              recvBuf := moveFront block used l
              usedBufLen := socket.tcb.usedBufLen - length }
            bufMutex := .locked })
      else none

def timerHandler (socket : ServerSocket) : Option ServerSocket :=
  match socket.bufMutex with
  | .locked => none
  | .free => some { socket with
      tcb := { socket.tcb with state := .closed, usedBufLen := 0 }
      sleeping := socket.sleeping - 1 }

/-- The TCB, the two variables of the loop and what was done. -/
structure Turn where
  tcb : ServerTcb
  segment : Seg
  segmentSend : Seg
  effects : List ServerEffect

/-- The header of a FINACK, written over what the variable held. -/
def finackOf (table : ServerTcb) (segmentSend : Seg) : Seg :=
  { segmentSend with
    header := { segmentSend.header with
      type := SegType.finack
      ackNum := table.expectSeqNum
      length := 0
      srcPort := table.svrPortNum
      destPort := table.clientPortNum } }

def dataackOf (table : ServerTcb) : Seg :=
  { Seg.cleared with
    header := { MrtHdr.cleared with
      type := SegType.dataack
      srcPort := table.svrPortNum
      destPort := table.clientPortNum
      ackNum := table.expectSeqNum
      length := 0 } }

def turnListening (table : ServerTcb) (segment segmentSend : Seg) : Turn :=
  if segment.header.type = SegType.syn then
    let synack : Seg := { Seg.cleared with
      header := { MrtHdr.cleared with
        length := 0
        destPort := segment.header.srcPort
        srcPort := table.svrPortNum
        type := SegType.synack } }
    ⟨{ table with
        expectSeqNum := segment.header.seqNum
        clientPortNum := segment.header.srcPort
        state := .connected },
      segment, synack, [.mnpSendseg synack]⟩
  else ⟨table, segment, segmentSend, []⟩

/-- A SYN of the client again. The ports go into `segment`, not into `segment_send`. -/
def turnSyn (table : ServerTcb) (segment : Seg) : Turn :=
  let synack : Seg := { Seg.cleared with
    header := { MrtHdr.cleared with
      type := SegType.synack
      seqNum := table.expectSeqNum
      length := 0 } }
  ⟨table,
    { segment with
      header := { segment.header with
        srcPort := table.svrPortNum
        destPort := table.clientPortNum } },
    synack, [.mnpSendseg synack]⟩

/-- The sum in the test is an `unsigned int`. -/
def Fits (table : ServerTcb) (segment : Seg) : Prop :=
  (segment.header.length.toUInt32 + table.usedBufLen).toNat < receiveBufSize

instance (table : ServerTcb) (segment : Seg) : Decidable (Fits table segment) :=
  inferInstanceAs (Decidable (_ < _))

def turnData (table : ServerTcb) (segment segmentSend : Seg) : Option Turn :=
  if segment.header.seqNum = table.expectSeqNum then
    if Fits table segment then
      if segment.header.length.toNat ≤ maxSegLen then do
        let recvBuf ← copyTo table.recvBuf table.usedBufLen.toNat segment.payload
        return ⟨{ table with
            recvBuf := recvBuf
            usedBufLen := table.usedBufLen + segment.header.length.toUInt32
            expectSeqNum := segment.header.seqNum + segment.header.length.toUInt32 },
          segment, segmentSend, []⟩
      else none
    else some ⟨table, segment, segmentSend, []⟩
  else some ⟨table, segment, dataackOf table, [.mnpSendseg (dataackOf table)]⟩

/-- The switch in the loop of `seghandler`. -/
def seghandlerSwitch (table : ServerTcb) (segment segmentSend : Seg) : Option Turn :=
  match table.state with
  | .closed => some ⟨table, segment, segmentSend, []⟩
  | .listening => some (turnListening table segment segmentSend)
  | .connected =>
      if segment.header.type = SegType.syn ∧ table.clientPortNum = segment.header.srcPort then
        some (turnSyn table segment)
      else if segment.header.type = SegType.data ∧
          table.clientPortNum = segment.header.srcPort then
        turnData table segment segmentSend
      else if segment.header.type = SegType.fin ∧
          table.clientPortNum = segment.header.srcPort then
        let finack := finackOf table segmentSend
        some ⟨{ table with state := .closewait }, segment, finack,
          [.mnpSendseg finack, .closeWaitTimeout]⟩
      else some ⟨table, segment, segmentSend, []⟩
  | .closewait =>
      if segment.header.type = SegType.fin ∧ table.clientPortNum = segment.header.srcPort then
        let finack := finackOf table segmentSend
        some ⟨table, segment, finack, [.mnpSendseg finack]⟩
      else some ⟨table, segment, segmentSend, []⟩

/-- The TCB table and the two variables of `seghandler`. -/
structure Server where
  tables : Table ServerSocket maxTransportConnections
  segment : Seg
  segmentSend : Seg

/-- `fetch_TCB` as the loop calls it: with the port in the variable, before
`mnp_recvseg` fills it. -/
def Server.fetchTCB (server : Server) : Option (Fin maxTransportConnections) :=
  fetch ServerSocket.svrPortNum server.tables server.segment.header.destPort

/-- One turn of the loop of `seghandler`, with the segment that `mnp_recvseg` gives. -/
def Server.seghandlerTurn (server : Server) (received : Seg) :
    Option (Server × List ServerEffect) :=
  match server.fetchTCB with
  | none => some ({ server with segment := received }, [])
  | some index => do
      let socket ← server.tables index
      let turn ← seghandlerSwitch socket.tcb received server.segmentSend
      let sleeping := socket.sleeping + turn.effects.count .closeWaitTimeout
      return (⟨Function.update server.tables index
          (some { socket with tcb := turn.tcb, sleeping := sleeping }),
        turn.segment, turn.segmentSend⟩, turn.effects)

/-- A call on a socket, up to its wait, or the thread of `close_wait_timeout`. -/
inductive ServerCall where
  | accept
  | recv (length : UInt32) (l : Nat)
  | timer

def ServerSocket.call (socket : ServerSocket) : ServerCall → Option ServerSocket
  | .accept => some { socket with tcb := (mrtServerAccept socket.tcb).getD socket.tcb }
  | .recv length l => (mrtServerRecv socket length l).map Prod.snd
  | .timer => if 0 < socket.sleeping then timerHandler socket else none

def Server.call (server : Server) (index : Fin maxTransportConnections) (call : ServerCall) :
    Option Server := do
  let socket ← server.tables index
  let after ← socket.call call
  return { server with tables := Function.update server.tables index (some after) }

inductive ServerEvent where
  | call (index : Fin maxTransportConnections) (call : ServerCall)
  | segment (received : Seg)

def Server.step (server : Server) : ServerEvent → Option (Server × List ServerEffect)
  | .call index call => (server.call index call).map fun after => (after, [])
  | .segment received => server.seghandlerTurn received

end MiniOverlay.Lab2
