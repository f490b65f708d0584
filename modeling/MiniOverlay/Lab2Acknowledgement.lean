import MiniOverlay.Lab2ClientSocket
import MiniOverlay.Lab2Dispatch
import MiniOverlay.PartialRuns

/-!
# Acknowledgements in lab 2

A client socket and a server on one TCP connection, which keeps segments whole and in
order; `mnp_recvseg` loses some of them. The server answers DATA only when it is not the
expected one, and then puts the acknowledgement into a field that the client does
not read, so nothing that it sends takes a segment out of the send buffer.
-/

namespace MiniOverlay.Lab2

open LinkedHeap FixedByteCodec PartialRuns

set_option autoImplicit false

structure Connection where
  client : ClientSocket
  server : Server
  toServer : List Seg
  toClient : List Seg

def ServerEffect.sent? : ServerEffect → Option Seg
  | .mnpSendseg seg => some seg
  | .closeWaitTimeout => none

def sentByServer (effects : List ServerEffect) : List Seg :=
  effects.filterMap ServerEffect.sent?

def sentByClient (effects : List ClientEffect) : List Seg :=
  effects.filterMap ClientEffect.sent?

/-- What the two applications and the two segment handlers do, and the losses. -/
inductive ConnectionEvent where
  | send (data : List Byte) (memory : SegBuf)
  | sendTurn (now : Nat → UInt32)
  | disconnect
  | serverCall (index : Fin maxTransportConnections) (call : ServerCall)
  | serverReceives
  | serverLoses
  | clientReceives
  | clientLoses

def Connection.onClient (conn : Connection) (event : ClientEvent) :
    Option (Connection × List Seg) := do
  let stepped ← conn.client.step event
  return ({ conn with
    client := stepped.1
    toServer := conn.toServer ++ sentByClient stepped.2 }, [])

def Connection.onServer (conn : Connection) (event : ServerEvent) :
    Option (Connection × List Seg) := do
  let stepped ← conn.server.step event
  let sent := sentByServer stepped.2
  return ({ conn with server := stepped.1, toClient := conn.toClient ++ sent }, sent)

def Connection.step (conn : Connection) : ConnectionEvent → Option (Connection × List Seg)
  | .send data memory => conn.onClient (.send data memory)
  | .sendTurn now => conn.onClient (.sendTurn now)
  | .disconnect => conn.onClient .disconnect
  | .serverCall index call => conn.onServer (.call index call)
  | .serverReceives =>
      match conn.toServer with
      | [] => none
      | seg :: segs => ({ conn with toServer := segs }).onServer (.segment seg)
  | .serverLoses =>
      match conn.toServer with
      | [] => none
      | _ :: segs => some ({ conn with toServer := segs }, [])
  | .clientReceives =>
      match conn.toClient with
      | [] => none
      | seg :: segs => ({ conn with toClient := segs }).onClient (.segment seg)
  | .clientLoses =>
      match conn.toClient with
      | [] => none
      | _ :: segs => some ({ conn with toClient := segs }, [])

theorem server_receives {conn : Connection} {result : Connection × List Seg}
    (stepped : conn.step .serverReceives = some result) :
    ∃ seg segs, conn.toServer = seg :: segs ∧
      Connection.onServer { conn with toServer := segs } (.segment seg) = some result := by
  rw [Connection.step] at stepped
  cases waiting : conn.toServer with
  | nil =>
      rw [waiting] at stepped
      cases stepped
  | cons seg segs =>
      rw [waiting] at stepped
      exact ⟨seg, segs, rfl, stepped⟩

theorem client_receives {conn : Connection} {result : Connection × List Seg}
    (stepped : conn.step .clientReceives = some result) :
    ∃ seg segs, conn.toClient = seg :: segs ∧
      Connection.onClient { conn with toClient := segs } (.segment seg) = some result := by
  rw [Connection.step] at stepped
  cases waiting : conn.toClient with
  | nil =>
      rw [waiting] at stepped
      cases stepped
  | cons seg segs =>
      rw [waiting] at stepped
      exact ⟨seg, segs, rfl, stepped⟩

def TakesData (table : ServerTcb) (seg : Seg) : Prop :=
  table.state = .connected ∧ seg.header.type = SegType.data ∧
    table.clientPortNum = seg.header.srcPort ∧ seg.header.seqNum = table.expectSeqNum ∧
    Fits table seg

instance (table : ServerTcb) (seg : Seg) : Decidable (TakesData table seg) :=
  inferInstanceAs (Decidable (_ ∧ _))

/-- The sequence number that the server expects after accepting `seg`, if it accepts it. -/
def Server.accepted? (server : Server) (seg : Seg) : Option UInt32 := do
  let index ← server.fetchTCB
  let socket ← server.tables index
  if TakesData socket.tcb seg then some (seg.header.seqNum + seg.header.length.toUInt32)
  else none

def Connection.accepted? (conn : Connection) : ConnectionEvent → Option UInt32
  | .serverReceives => conn.toServer.head?.bind conn.server.accepted?
  | _ => none

def Connection.handled? (conn : Connection) : ConnectionEvent → Option Seg
  | .clientReceives => conn.toClient.head?
  | _ => none

/-- Exactly the segments from `expect` on are left in the send buffer, and the others
are no longer counted. -/
def KeepsFrom (expect : UInt32) (before after : Client) : Prop :=
  ∃ segs, sendBufferSegs before = some segs ∧
    sendBufferSegs after = some (segs.filter fun seg => expect ≤ seg.header.seqNum) ∧
    after.tcb.unAckSegNum = before.tcb.unAckSegNum -
      UInt32.ofNat (segs.countP fun seg => seg.header.seqNum < expect)

/-- The DATAACKs that the server sent on accepting a segment, with what it then expects. -/
def newAcks (accepted : Option UInt32) (sent : List Seg) : List (Seg × UInt32) :=
  match accepted with
  | none => []
  | some expect =>
      (sent.filter fun seg => seg.header.type = SegType.dataack).map fun ack => (ack, expect)

/-- In every step of the run the server answers the DATA that it accepts with a DATAACK,
and a DATAACK sent so leaves the right segments in the client's buffer. -/
def AcksAgree : Connection → List (Seg × UInt32) → List ConnectionEvent → Prop
  | _, _, [] => True
  | conn, acks, event :: events => ∀ next sent, conn.step event = some (next, sent) →
      (∀ expect, conn.accepted? event = some expect →
        ∃ ack ∈ sent, ack.header.type = SegType.dataack) ∧
      (∀ ack expect, (ack, expect) ∈ acks → conn.handled? event = some ack →
        KeepsFrom expect conn.client.client next.client.client) ∧
      AcksAgree next (acks ++ newAcks (conn.accepted? event) sent) events

def AcceptsNothing : Connection → List ConnectionEvent → Prop
  | _, [] => True
  | conn, event :: events => ∀ next sent, conn.step event = some (next, sent) →
      conn.accepted? event = none ∧ AcceptsNothing next events

theorem takes_data_switch {table : ServerTcb} {seg : Seg} (segmentSend : Seg)
    (takes : TakesData table seg) :
    seghandlerSwitch table seg segmentSend = turnData table seg segmentSend := by
  obtain ⟨connected, data, source, _⟩ := takes
  have other : ¬ (seg.header.type = SegType.syn ∧ table.clientPortNum = seg.header.srcPort) := by
    rw [data]
    exact fun both => absurd both.1 (by decide)
  rw [seghandlerSwitch, connected]
  simp only [if_neg other, if_pos (And.intro data source)]

theorem takes_data_silent {table : ServerTcb} {seg segmentSend : Seg} {turn : Turn}
    (takes : TakesData table seg) (handled : seghandlerSwitch table seg segmentSend = some turn) :
    turn.tcb.expectSeqNum = seg.header.seqNum + seg.header.length.toUInt32 ∧
      turn.effects = [] := by
  rw [takes_data_switch segmentSend takes, turnData, if_pos takes.2.2.2.1,
    if_pos takes.2.2.2.2] at handled
  split_ifs at handled
  obtain ⟨recvBuf, _, handled⟩ := Option.bind_eq_some_iff.mp handled
  cases handled
  exact ⟨rfl, rfl⟩

theorem accepted_silent {server next : Server} {seg : Seg} {expect : UInt32}
    {effects : List ServerEffect} (accepted : server.accepted? seg = some expect)
    (stepped : server.seghandlerTurn seg = some (next, effects)) : effects = [] := by
  obtain ⟨index, found, accepted⟩ := Option.bind_eq_some_iff.mp accepted
  obtain ⟨socket, held, accepted⟩ := Option.bind_eq_some_iff.mp accepted
  rw [Server.seghandlerTurn, found] at stepped
  obtain ⟨socket', held', stepped⟩ := Option.bind_eq_some_iff.mp stepped
  obtain ⟨turn, handled, stepped⟩ := Option.bind_eq_some_iff.mp stepped
  cases held.symm.trans held'
  cases stepped
  split_ifs at accepted with takes
  exact (takes_data_silent takes handled).2

theorem accepting_step_silent {conn next : Connection} {event : ConnectionEvent} {expect : UInt32}
    {sent : List Seg} (accepted : conn.accepted? event = some expect)
    (stepped : conn.step event = some (next, sent)) : sent = [] := by
  cases event with
  | serverReceives =>
      obtain ⟨seg, segs, waiting, stepped⟩ := server_receives stepped
      rw [Connection.accepted?, waiting] at accepted
      obtain ⟨turn, handled, stepped⟩ := Option.bind_eq_some_iff.mp stepped
      cases stepped
      rw [accepted_silent accepted handled]
      rfl
  | send data memory => cases accepted
  | sendTurn now => cases accepted
  | disconnect => cases accepted
  | serverCall index call => cases accepted
  | serverLoses => cases accepted
  | clientReceives => cases accepted
  | clientLoses => cases accepted

/-- The two ends agree about the acknowledgements of a run exactly when the server
accepts no DATA in it. -/
theorem acks_agree_iff (conn : Connection) (events : List ConnectionEvent) :
    AcksAgree conn [] events ↔ AcceptsNothing conn events := by
  induction events generalizing conn with
  | nil => exact Iff.rfl
  | cons event events ih =>
      refine forall₃_congr fun next sent stepped => ?_
      cases accepted : conn.accepted? event with
      | none =>
          rw [newAcks, List.append_nil, ih next]
          constructor
          · rintro ⟨_, _, later⟩
            exact ⟨rfl, later⟩
          · rintro ⟨_, later⟩
            refine ⟨fun expect wrong => ?_, fun ack expect member => ?_, later⟩
            · cases wrong
            · cases member
      | some expect =>
          have silent := accepting_step_silent accepted stepped
          constructor
          · rintro ⟨answered, _⟩
            obtain ⟨ack, member, _⟩ := answered expect rfl
            rw [silent] at member
            cases member
          · rintro ⟨wrong, _⟩
            cases wrong

theorem takes_data_runs {table : ServerTcb} {seg : Seg} (segmentSend : Seg)
    (takes : TakesData table seg) (short : seg.header.length.toNat ≤ maxSegLen)
    (room : table.usedBufLen.toNat + seg.header.length.toNat ≤ table.recvBuf.length) :
    ∃ turn, seghandlerSwitch table seg segmentSend = some turn := by
  have copied : table.usedBufLen.toNat + seg.payload.length ≤ table.recvBuf.length := by
    rw [payload_length seg short]
    exact room
  rw [takes_data_switch segmentSend takes, turnData, if_pos takes.2.2.2.1, if_pos takes.2.2.2.2,
    if_pos short, copyTo, if_pos copied]
  exact ⟨_, rfl⟩

theorem accepting_turn_runs {server : Server} {seg : Seg} {index : Fin maxTransportConnections}
    {socket : ServerSocket} (found : server.fetchTCB = some index)
    (held : server.tables index = some socket) (takes : TakesData socket.tcb seg)
    (short : seg.header.length.toNat ≤ maxSegLen)
    (room : socket.tcb.usedBufLen.toNat + seg.header.length.toNat ≤ socket.tcb.recvBuf.length) :
    ∃ next effects, server.seghandlerTurn seg = some (next, effects) := by
  obtain ⟨turn, handled⟩ := takes_data_runs server.segmentSend takes short room
  rw [Server.seghandlerTurn, found]
  simp only [held, Option.bind_eq_bind, Option.bind_some, handled]
  exact ⟨_, _, rfl⟩

theorem accepting_disagrees {conn : Connection} (acks : List (Seg × UInt32))
    (events : List ConnectionEvent) (index : Fin maxTransportConnections) {seg : Seg}
    {segs : List Seg} {socket : ServerSocket} (waiting : conn.toServer = seg :: segs)
    (found : conn.server.fetchTCB = some index) (held : conn.server.tables index = some socket)
    (takes : TakesData socket.tcb seg) (short : seg.header.length.toNat ≤ maxSegLen)
    (room : socket.tcb.usedBufLen.toNat + seg.header.length.toNat ≤ socket.tcb.recvBuf.length) :
    ¬ AcksAgree conn acks (.serverReceives :: events) := by
  intro agree
  obtain ⟨next, effects, handled⟩ := accepting_turn_runs found held takes short room
  have accepted : conn.server.accepted? seg =
      some (seg.header.seqNum + seg.header.length.toUInt32) := by
    simp only [Server.accepted?, found, held, Option.bind_eq_bind, Option.bind_some, if_pos takes]
  have stepped : conn.step .serverReceives =
      some (⟨conn.client, next, segs, conn.toClient ++ sentByServer effects⟩,
        sentByServer effects) := by
    simp only [Connection.step, waiting, Connection.onServer, Server.step, handled]
    rfl
  have taken : conn.accepted? .serverReceives =
      some (seg.header.seqNum + seg.header.length.toUInt32) := by
    rw [Connection.accepted?, waiting]
    exact accepted
  obtain ⟨ack, member, _⟩ := (agree _ _ stepped).1 _ taken
  rw [accepted_silent accepted handled] at member
  cases member

/-- The TCBs of ports 8880 and 8881 after the handshake; the server's variable holds the
SYN. -/
def establishedConnection : Connection where
  client :=
    { client :=
        { heap := []
          tcb :=
            { svrNodeID := 0
              svrPortNum := 8881
              clientNodeID := 0
              clientPortNum := 8880
              state := .connected
              nextSeqNum := 0
              sendBufHead := none
              sendBufunSent := none
              sendBufTail := none
              unAckSegNum := 0 } }
      bufMutex := .free
      caller := .returned }
  server :=
    { tables := Function.update (fun _ => none) firstSlot
        (some { mrtServerSock 8881 0 0 8880 0 (Vector.replicate receiveBufSize 0) with
          tcb := { (mrtServerSock 8881 0 0 8880 0 (Vector.replicate receiveBufSize 0)).tcb with
            state := .connected } })
      segment := synOf 8880 8881
      segmentSend := Seg.cleared }
  toServer := []
  toClient := []

/-- One byte is sent and accepted. -/
theorem accepted_byte_unacknowledged :
    ¬ AcksAgree establishedConnection []
      [.send [97] ⟨Seg.cleared, 0⟩, .sendTurn fun _ => 0, .serverReceives] := by
  intro agree
  have called := (agree _ _ rfl).2.2
  have sent := (called _ _ rfl).2.2
  refine accepting_disagrees _ [] firstSlot rfl rfl rfl (by decide) (by decide) ?_ sent
  change 0 + 1 ≤ (Vector.replicate receiveBufSize (0 : Byte)).toList.length
  rw [Vector.length_toList]
  decide

/-- No DATAACK has a number in the field that the client compares. -/
def Unread (segs : List Seg) : Prop :=
  ∀ seg ∈ segs, seg.header.type = SegType.dataack → seg.header.seqNum = 0

theorem unread_append {segs more : List Seg} (first : Unread segs) (second : Unread more) :
    Unread (segs ++ more) := by
  intro seg member
  rcases List.mem_append.mp member with here | there
  · exact first seg here
  · exact second seg there

theorem unread_other {seg : Seg} (type : UInt16) (same : seg.header.type = type)
    (other : type ≠ SegType.dataack) : Unread [seg] := by
  intro ack member dataack
  rw [List.mem_singleton.mp member, same] at dataack
  exact absurd dataack other

theorem unread_nil : Unread [] := by
  intro seg member
  cases member

theorem turn_listening_unread (table : ServerTcb) (seg segmentSend : Seg) :
    Unread (sentByServer (turnListening table seg segmentSend).effects) := by
  rw [turnListening]
  split_ifs
  · exact unread_other SegType.synack rfl (by decide)
  · exact unread_nil

theorem turn_data_unread {table : ServerTcb} {seg segmentSend : Seg} {turn : Turn}
    (handled : turnData table seg segmentSend = some turn) :
    Unread (sentByServer turn.effects) := by
  rw [turnData] at handled
  split_ifs at handled
  · obtain ⟨recvBuf, _, handled⟩ := Option.bind_eq_some_iff.mp handled
    cases handled
    exact unread_nil
  · cases handled
    exact unread_nil
  · cases handled
    intro ack member _
    rw [List.mem_singleton.mp member]
    rfl

theorem finack_unread (table : ServerTcb) (segmentSend : Seg) {timers : List ServerEffect}
    (unsent : ∀ effect ∈ timers, effect = .closeWaitTimeout) :
    Unread (sentByServer (.mnpSendseg (finackOf table segmentSend) :: timers)) := by
  have nothing : sentByServer timers = [] := by
    rw [sentByServer, List.filterMap_eq_nil_iff]
    intro effect member
    rw [unsent effect member]
    rfl
  have sent : sentByServer (.mnpSendseg (finackOf table segmentSend) :: timers) =
      [finackOf table segmentSend] := congrArg (_ :: ·) nothing
  rw [sent]
  exact unread_other SegType.finack rfl (by decide)

theorem switch_unread {table : ServerTcb} {seg segmentSend : Seg} {turn : Turn}
    (handled : seghandlerSwitch table seg segmentSend = some turn) :
    Unread (sentByServer turn.effects) := by
  cases switch_cases handled with
  | ignored _ => exact unread_nil
  | listens _ => exact turn_listening_unread table seg segmentSend
  | repeats _ => exact unread_other SegType.synack rfl (by decide)
  | data _ taken => exact turn_data_unread taken
  | finishes _ state timers unsent => exact finack_unread table segmentSend unsent

theorem server_step_unread {server next : Server} {event : ServerEvent}
    {effects : List ServerEffect} (stepped : server.step event = some (next, effects)) :
    Unread (sentByServer effects) := by
  cases event with
  | call index call =>
      obtain ⟨after, _, stepped⟩ := Option.map_eq_some_iff.mp stepped
      cases stepped
      exact unread_nil
  | segment received =>
      rw [Server.step, Server.seghandlerTurn] at stepped
      cases found : server.fetchTCB with
      | none =>
          rw [found] at stepped
          cases stepped
          exact unread_nil
      | some index =>
          rw [found] at stepped
          obtain ⟨socket, _, stepped⟩ := Option.bind_eq_some_iff.mp stepped
          obtain ⟨turn, handled, stepped⟩ := Option.bind_eq_some_iff.mp stepped
          cases stepped
          exact switch_unread handled

theorem on_server_unread {conn next : Connection} {event : ServerEvent} {sent : List Seg}
    (unread : Unread conn.toClient) (stepped : conn.onServer event = some (next, sent)) :
    Unread next.toClient := by
  obtain ⟨turn, handled, stepped⟩ := Option.bind_eq_some_iff.mp stepped
  cases stepped
  exact unread_append unread (server_step_unread handled)

theorem on_client_queue {conn next : Connection} {event : ClientEvent} {sent : List Seg}
    (stepped : conn.onClient event = some (next, sent)) : next.toClient = conn.toClient := by
  obtain ⟨turn, _, stepped⟩ := Option.bind_eq_some_iff.mp stepped
  cases stepped
  rfl

theorem step_unread {conn next : Connection} {event : ConnectionEvent} {sent : List Seg}
    (unread : Unread conn.toClient) (stepped : conn.step event = some (next, sent)) :
    Unread next.toClient := by
  cases event with
  | send data memory =>
      rw [on_client_queue stepped]
      exact unread
  | sendTurn now =>
      rw [on_client_queue stepped]
      exact unread
  | disconnect =>
      rw [on_client_queue stepped]
      exact unread
  | serverCall index call => exact on_server_unread unread stepped
  | serverReceives =>
      obtain ⟨seg, segs, _, stepped⟩ := server_receives stepped
      have before : Unread { conn with toServer := segs }.toClient := unread
      exact on_server_unread before stepped
  | serverLoses =>
      rw [Connection.step] at stepped
      cases waiting : conn.toServer with
      | nil =>
          rw [waiting] at stepped
          cases stepped
      | cons seg segs =>
          rw [waiting] at stepped
          cases stepped
          exact unread
  | clientReceives =>
      obtain ⟨seg, segs, waiting, stepped⟩ := client_receives stepped
      rw [on_client_queue stepped]
      rw [waiting] at unread
      exact fun ack member => unread ack (List.mem_cons_of_mem seg member)
  | clientLoses =>
      rw [Connection.step] at stepped
      cases waiting : conn.toClient with
      | nil =>
          rw [waiting] at stepped
          cases stepped
      | cons seg segs =>
          rw [waiting] at stepped unread
          cases stepped
          exact fun ack member => unread ack (List.mem_cons_of_mem seg member)

theorem handle_unread {client after : Client} {ack : Seg} {mutex : Mutex}
    (unread : ack.header.seqNum = 0) (handled : handleDataack client ack = some (after, mutex)) :
    after = client ∧ mutex = .free := by
  obtain ⟨tail, _, handled⟩ := Option.bind_eq_some_iff.mp handled
  rw [unread, if_neg (by simp)] at handled
  cases handled
  exact ⟨rfl, rfl⟩

theorem unread_ack_ignored {client after : Client} {ack : Seg} {mutex : Mutex}
    (dataack : ack.header.type = SegType.dataack) (unread : ack.header.seqNum = 0)
    (handled : clientSeghandler client ack = some (after, mutex)) :
    after = client ∧ mutex = .free := by
  have other (type : UInt16) (different : SegType.dataack ≠ type) :
      ¬ (ack.header.type = type ∧ client.tcb.svrPortNum = ack.header.srcPort) := by
    rw [dataack]
    exact fun both => different both.1
  simp only [clientSeghandler, if_neg (other SegType.synack (by decide)),
    if_neg (other SegType.finack (by decide))] at handled
  by_cases port : client.tcb.clientPortNum = ack.header.destPort
  · rw [if_pos port] at handled
    cases state : client.tcb.state with
    | connected =>
        rw [state] at handled
        simp only at handled
        split_ifs at handled
        · exact handle_unread unread handled
        · cases handled
          exact ⟨rfl, rfl⟩
    | closed =>
        rw [state] at handled
        cases handled
        exact ⟨rfl, rfl⟩
    | synsent =>
        rw [state] at handled
        cases handled
        exact ⟨rfl, rfl⟩
    | finwait =>
        rw [state] at handled
        cases handled
        exact ⟨rfl, rfl⟩
  · rw [if_neg port] at handled
    cases handled
    exact ⟨rfl, rfl⟩

def Connection.run (conn : Connection) (events : List ConnectionEvent) : Option Connection :=
  events.foldlM (fun conn event => (conn.step event).map Prod.fst) conn

/-- In no run a DATAACK of the server takes a segment out of the client's buffer. -/
theorem acks_remove_nothing {conn last next : Connection} {events : List ConnectionEvent}
    {ack : Seg} {sent : List Seg} (empty : conn.toClient = []) (run : conn.run events = some last)
    (handles : last.handled? .clientReceives = some ack)
    (dataack : ack.header.type = SegType.dataack)
    (stepped : last.step .clientReceives = some (next, sent)) :
    next.client = last.client := by
  have begins : Unread conn.toClient := by
    rw [empty]
    exact unread_nil
  have unread : Unread last.toClient := by
    apply fold_keeps _ (fun conn => Unread conn.toClient) events _ begins run
    intro event _ before after kept result
    obtain ⟨⟨reached, _⟩, step, same⟩ := Option.map_eq_some_iff.mp result
    cases same
    exact step_unread kept step
  obtain ⟨seg, segs, waiting, stepped⟩ := client_receives stepped
  rw [Connection.handled?, waiting] at handles
  cases handles
  have zero := unread ack (by rw [waiting]; exact List.mem_cons_self) dataack
  obtain ⟨⟨socket, effects⟩, received, stepped⟩ := Option.bind_eq_some_iff.mp stepped
  cases stepped
  obtain ⟨free, ⟨after, held⟩, handled, rfl⟩ := segment_step received
  obtain ⟨rfl, rfl⟩ := unread_ack_ignored dataack zero handled
  rw [← free]

/-- A byte that is lost, and one behind it that the server does not expect. -/
def lostByte : List ConnectionEvent :=
  [.send [97] ⟨Seg.cleared, 0⟩, .sendTurn fun _ => 0, .serverLoses, .sendTurn fun _ => 0,
    .serverReceives]

/-- The DATAACK comes in while the second byte is in the buffer. -/
theorem lost_byte_unacknowledged :
    ∃ last next ack sent, establishedConnection.run lostByte = some last ∧
      last.handled? .clientReceives = some ack ∧ ack.header.type = SegType.dataack ∧
      last.step .clientReceives = some (next, sent) ∧
      last.client.client.tcb.sendBufHead ≠ none ∧ next.client = last.client := by
  have run : establishedConnection.run lostByte = some _ := rfl
  refine ⟨_, _, _, _, run, rfl, rfl, rfl, ?_, acks_remove_nothing rfl run rfl rfl rfl⟩
  exact Option.some_ne_none _

end MiniOverlay.Lab2
