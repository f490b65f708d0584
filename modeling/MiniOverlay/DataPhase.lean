import Mathlib.Logic.Relation
import MiniOverlay.MrtClientSocket
import MiniOverlay.MrtServerSocket

/-!
# The data phase of one connection

One connected client, its connected server and a network that keeps every
segment it was ever given: delivering any of them, again or not at all, covers
loss, duplication and reordering. The second half is about the list of segments
queued so far and the position of each in the stream.
-/

namespace MiniOverlay

open LinkedHeap FixedByteCodec

set_option autoImplicit false

/-- `toServer` and `toClient` are all segments ever sent. The last three fields
only record: the bytes queued, the bytes stored by `saveTobuffer`, and the bytes
returned by `mrt_server_recv`. -/
structure Connection where
  client : Client
  server : ServerTcb
  toServer : List SendsegArg
  toClient : List SendsegArg
  queued : List Byte
  accepted : List Byte
  delivered : List Byte

inductive ConnectionEvent where
  | queue (seg : Seg)
  | sending (now : Nat → Timeval)
  | timeout (now : Nat → Timeval)
  | data (arg : SendsegArg)
  | ack (now : Nat → Timeval) (arg : SendsegArg)
  | recv (length : UInt32)

/-- A segment that `mrt_client_send` may queue. -/
structure Queueable (seg : Seg) : Prop where
  type : seg.header.type = SegType.data
  nonempty : 1 ≤ seg.header.length.toNat
  fits : seg.header.length.toNat ≤ maxSegLen

def ConnectionEvent.Enabled (connection : Connection) : ConnectionEvent → Prop
  | .queue seg => Queueable seg
  | .sending _ => True
  | .timeout _ => True
  | .data arg => arg ∈ connection.toServer ∧ arg.seg.header.type = SegType.data
  | .ack _ arg => arg ∈ connection.toClient ∧ arg.seg.header.type = SegType.dataack
  | .recv _ => True

/-- One event; `none` is undefined behaviour of the program that runs. -/
def Connection.step (connection : Connection) : ConnectionEvent → Option Connection
  | .queue seg => do
      let client ← queueSegment connection.client seg
      return { connection with
        client := client
        queued := connection.queued ++ seg.payload }
  | .sending now => do
      let result ← sendBufferSending now connection.client
      return { connection with
        client := result.1
        toServer := connection.toServer ++ sentSegs result.2 }
  | .timeout now => do
      let result ← sendBufferTimeout now connection.client
      return { connection with
        client := result.1
        toServer := connection.toServer ++ sentSegs result.2 }
  | .data arg => do
      let result ← dataReceived connection.server arg.seg
      return { connection with
        server := result.1
        toClient := connection.toClient ++ result.2.filterMap ServerEffect.sent?
        accepted := connection.accepted ++ savedBytes connection.server arg.seg }
  | .ack now arg =>
      -- `fetch_client_TCB` looks the connection up by its port
      if arg.seg.header.destPort = connection.client.tcb.clientPortNum then do
        let result ← clientSeghandler now connection.client
          connection.server.svrNodeID.toInt32 arg.seg
        return { connection with
          client := result.1
          toServer := connection.toServer ++ sentSegs result.2 }
      else some connection
  | .recv length => do
      match ← mrtServerRecv connection.server length with
      | .sleeps => return connection
      | .returns _ buf server =>
          return { connection with
            server := server
            delivered := connection.delivered ++ buf }

def Connection.Step (before after : Connection) : Prop :=
  ∃ event : ConnectionEvent, event.Enabled before ∧ before.step event = some after

abbrev Connection.Reaches : Connection → Connection → Prop := Relation.ReflTransGen Connection.Step

structure Peers (client : ClientTcb) (server : ServerTcb) : Prop where
  clientState : client.state = .connected
  serverState : server.state = .connected
  svrNodeID : client.svrNodeID = server.svrNodeID
  svrPortNum : client.svrPortNum = server.svrPortNum
  clientNodeID : server.clientNodeID = client.clientNodeID
  clientPortNum : server.clientPortNum = client.clientPortNum

structure Established (connection : Connection) : Prop where
  peers : Peers connection.client.tcb connection.server
  next : connection.client.tcb.nextSeqNum = 0
  expect : connection.server.expectSeqNum = 0
  head : connection.client.tcb.sendBufHead = none
  unSent : connection.client.tcb.sendBufunSent = none
  tail : connection.client.tcb.sendBufTail = none
  unAck : connection.client.tcb.unAckSegNum = 0
  used : connection.server.usedBufLen = 0
  block : connection.server.recvBuf.length = receiveBufSize
  toServer : connection.toServer = []
  toClient : connection.toClient = []
  queued : connection.queued = []
  accepted : connection.accepted = []
  delivered : connection.delivered = []

def byteLength : List Seg → Nat
  | [] => 0
  | seg :: segs => seg.header.length.toNat + byteLength segs

def offset (history : List Seg) (index : Nat) : Nat := byteLength (history.take index)

/-- Segments in the order of their queueing, numbered by their positions. -/
structure History (history : List Seg) : Prop where
  queueable : ∀ seg ∈ history, Queueable seg
  numbered : ∀ index seg, history[index]? = some seg →
    seg.header.seqNum.toNat = offset history index

theorem byte_length_append (segs more : List Seg) :
    byteLength (segs ++ more) = byteLength segs + byteLength more := by
  induction segs with
  | nil => simp [byteLength]
  | cons seg segs ih =>
      simp only [List.cons_append, byteLength, ih]
      omega

theorem payload_byte_length (segs : List Seg) (queueable : ∀ seg ∈ segs, Queueable seg) :
    (segs.flatMap Seg.payload).length = byteLength segs := by
  induction segs with
  | nil => rfl
  | cons seg segs ih =>
      rw [List.flatMap_cons, List.length_append, ih fun item member =>
        queueable item (by simp [member]), payload_length seg (queueable seg (by simp)).fits]
      rfl

theorem offset_succ {history : List Seg} {index : Nat} {seg : Seg}
    (found : history[index]? = some seg) :
    offset history (index + 1) = offset history index + seg.header.length.toNat := by
  rw [offset, List.take_add_one, found, byte_length_append]
  simp [offset, byteLength]

theorem offset_le_total (history : List Seg) (index : Nat) :
    offset history index ≤ byteLength history := by
  have split := byte_length_append (history.take index) (history.drop index)
  rw [List.take_append_drop] at split
  rw [offset]
  omega

theorem offset_mono (history : List Seg) {left right : Nat} (ordered : left ≤ right) :
    offset history left ≤ offset history right := by
  have inner := offset_le_total (history.take right) left
  rwa [offset, List.take_take, Nat.min_eq_left ordered] at inner

theorem offset_lt {history : List Seg} (wellFormed : History history) {left right : Nat}
    (ordered : left < right) (inside : left < history.length) :
    offset history left < offset history right := by
  have found := List.getElem?_eq_getElem inside
  have size := (wellFormed.queueable _ (List.getElem_mem inside)).nonempty
  have step := offset_succ found
  have next : left + 1 ≤ right := ordered
  have rest := offset_mono history next
  omega

theorem le_of_offset_le {history : List Seg} (wellFormed : History history) {left right : Nat}
    (inside : left < history.length) (ordered : offset history left ≤ offset history right) :
    left ≤ right := by
  by_contra older
  have less := offset_lt wellFormed (Nat.lt_of_not_le older) (by omega)
  omega

theorem history_snoc {history : List Seg} (wellFormed : History history) (seg : Seg)
    (queueable : Queueable seg) (numbered : seg.header.seqNum.toNat = byteLength history) :
    History (history ++ [seg]) := by
  constructor
  · intro item member
    rcases List.mem_append.mp member with old | new
    · exact wellFormed.queueable item old
    · rwa [List.mem_singleton.mp new]
  · intro index item found
    by_cases inside : index < history.length
    · rw [List.getElem?_append_left inside] at found
      rw [offset, List.take_append_of_le_length (Nat.le_of_lt inside)]
      exact wellFormed.numbered index item found
    · rw [List.getElem?_append_right (Nat.le_of_not_lt inside)] at found
      obtain ⟨first, rfl⟩ := List.getElem?_eq_some_iff.mp found
      have last : index = history.length := by
        rw [List.length_singleton] at first
        omega
      subst last
      rw [offset, List.take_left]
      simpa using numbered

theorem seq_before_offset {history : List Seg} (wellFormed : History history) {count : Nat}
    {bound : UInt32} (position : bound.toNat = offset history count) :
    ∀ seg ∈ history.take count, seg.header.seqNum < bound := by
  intro seg member
  obtain ⟨index, found⟩ := List.mem_iff_getElem?.mp member
  have inside := (List.getElem?_eq_some_iff.mp found).1
  rw [List.length_take] at inside
  have below : index < count := by omega
  rw [List.getElem?_take_of_lt below] at found
  have number := wellFormed.numbered index seg found
  have less := offset_lt wellFormed below (by omega)
  rw [UInt32.lt_iff_toNat_lt]
  omega

theorem seq_behind_offset {history : List Seg} (wellFormed : History history) {count : Nat}
    {bound : UInt32} (position : bound.toNat = offset history count) :
    ∀ seg ∈ history.drop count, bound ≤ seg.header.seqNum := by
  intro seg member
  obtain ⟨index, found⟩ := List.mem_iff_getElem?.mp member
  rw [List.getElem?_drop] at found
  have number := wellFormed.numbered _ seg found
  have order := offset_mono history (Nat.le_add_right count index)
  rw [UInt32.le_iff_toNat_le]
  omega

theorem filter_from_offset {history : List Seg} (wellFormed : History history)
    {acked received : Nat}
    (ordered : acked ≤ received) (inside : received ≤ history.length) (bound : UInt32)
    (position : bound.toNat = offset history received) :
    (history.drop acked).filter (fun seg => bound ≤ seg.header.seqNum) =
      history.drop received := by
  have split : history.drop acked =
      (history.take received).drop acked ++ history.drop received := by
    conv => lhs; rw [← List.take_append_drop received history]
    rw [List.drop_append_of_le_length]
    rw [List.length_take]
    omega
  rw [split, List.filter_append]
  have before : ((history.take received).drop acked).filter
      (fun seg => decide (bound ≤ seg.header.seqNum)) = [] := by
    rw [List.filter_eq_nil_iff]
    intro seg member
    have less := seq_before_offset wellFormed position seg (List.mem_of_mem_drop member)
    rw [decide_eq_true_eq]
    exact UInt32.not_le.mpr less
  have behind : (history.drop received).filter
      (fun seg => decide (bound ≤ seg.header.seqNum)) = history.drop received := by
    rw [List.filter_eq_self]
    intro seg member
    rw [decide_eq_true_eq]
    exact seq_behind_offset wellFormed position seg member
  rw [before, behind, List.nil_append]

end MiniOverlay
