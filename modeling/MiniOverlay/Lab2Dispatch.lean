import MiniOverlay.Lab2ServerSocket
import MiniOverlay.ServerSockets
import Mathlib.Tactic.SplitIfs

/-!
# Which TCB a segment of lab 2 is handled under

The loop of `seghandler` looks the TCB up before it receives the segment, so it finds
the port that the turn before left in the variable. Over all orders in which the
segments of several connections arrive, they reach their own TCB exactly when that
is the port they are for.
-/

namespace MiniOverlay.Lab2

open FixedByteCodec SlotTable

set_option autoImplicit false

def Server.portAt (server : Server) (index : Fin maxTransportConnections) : Option UInt32 :=
  (server.tables index).map ServerSocket.svrPortNum

/-- The received segment is handled under the TCB of its `dest_port`, if there is one. -/
def Server.Dispatches (server : Server) : ServerEvent → Prop
  | .segment received => ∀ index,
      server.fetchTCB = some index ↔ server.portAt index = some received.header.destPort
  | .call _ _ => True

def EachDispatched : Server → List ServerEvent → Prop
  | _, [] => True
  | server, event :: events => server.Dispatches event ∧
      ∀ next effects, server.step event = some (next, effects) → EachDispatched next events

def RepeatsSyn (table : ServerTcb) (received : Seg) : Prop :=
  table.state = .connected ∧ received.header.type = SegType.syn ∧
    table.clientPortNum = received.header.srcPort

instance (table : ServerTcb) (received : Seg) : Decidable (RepeatsSyn table received) :=
  inferInstanceAs (Decidable (_ ∧ _))

/-- The port in the variable after the turn: that of the segment, unless the handler
writes the client's port over it when it answers a repeated SYN. -/
def Server.portLeft (server : Server) (received : Seg) : UInt32 :=
  match server.fetchTCB.bind server.tables with
  | none => received.header.destPort
  | some socket =>
      if RepeatsSyn socket.tcb received then socket.tcb.clientPortNum
      else received.header.destPort

def Server.PortFits (server : Server) (left : UInt32) (received : Seg) : Prop :=
  left = received.header.destPort ∨ ∀ index,
    server.portAt index ≠ some left ∧ server.portAt index ≠ some received.header.destPort

/-- Every segment of a run finds its own port, with `left` in the variable before the
first one. -/
def PortsRepeat : Server → UInt32 → List ServerEvent → Prop
  | _, _, [] => True
  | server, left, .segment received :: events => server.PortFits left received ∧
      ∀ next effects, server.step (.segment received) = some (next, effects) →
        PortsRepeat next (server.portLeft received) events
  | server, left, .call index call :: events =>
      ∀ next effects, server.step (.call index call) = some (next, effects) →
        PortsRepeat next left events

/-- The ways through the switch of `seghandler`. -/
inductive SwitchCase (table : ServerTcb) (received segmentSend : Seg) : Turn → Prop where
  | ignored (other : ¬ RepeatsSyn table received) :
      SwitchCase table received segmentSend ⟨table, received, segmentSend, []⟩
  | listens (listening : table.state = .listening) :
      SwitchCase table received segmentSend (turnListening table received segmentSend)
  | repeats (repeated : RepeatsSyn table received) :
      SwitchCase table received segmentSend (turnSyn table received)
  | data {turn : Turn} (data : received.header.type = SegType.data)
      (taken : turnData table received segmentSend = some turn) :
      SwitchCase table received segmentSend turn
  | finishes (fin : received.header.type = SegType.fin) (state : ServerState)
      (timers : List ServerEffect) (unsent : ∀ effect ∈ timers, effect = .closeWaitTimeout) :
      SwitchCase table received segmentSend
        ⟨{ table with state := state }, received, finackOf table segmentSend,
          .mnpSendseg (finackOf table segmentSend) :: timers⟩

theorem switch_cases {table : ServerTcb} {received segmentSend : Seg} {turn : Turn}
    (handled : seghandlerSwitch table received segmentSend = some turn) :
    SwitchCase table received segmentSend turn := by
  have quiet (other : table.state ≠ .connected) : ¬ RepeatsSyn table received :=
    fun repeated => other repeated.1
  rw [seghandlerSwitch] at handled
  cases state : table.state with
  | closed =>
      rw [state] at handled
      cases handled
      exact .ignored (quiet (by simp [state]))
  | listening =>
      rw [state] at handled
      cases handled
      exact .listens state
  | connected =>
      rw [state] at handled
      simp only at handled
      split_ifs at handled with syn data fin
      · cases handled
        exact .repeats ⟨state, syn⟩
      · exact .data data.1 handled
      · cases handled
        exact .finishes fin.1 .closewait [.closeWaitTimeout] (by simp)
      · cases handled
        exact .ignored fun repeated => syn repeated.2
  | closewait =>
      rw [state] at handled
      simp only at handled
      split_ifs at handled with fin
      · cases handled
        exact .finishes fin.1 table.state [] (by simp)
      · cases handled
        exact .ignored (quiet (by simp [state]))

/-- No function changes the port of a TCB, and only the answer to a repeated SYN
changes the port of the segment. -/
structure SwitchKeeps (table : ServerTcb) (received : Seg) (turn : Turn) : Prop where
  svrPortNum : turn.tcb.svrPortNum = table.svrPortNum
  destPort : turn.segment.header.destPort =
    if RepeatsSyn table received then table.clientPortNum else received.header.destPort

theorem keeps_quiet {table : ServerTcb} {received : Seg} {turn : Turn}
    (quiet : ¬ RepeatsSyn table received) (port : turn.tcb.svrPortNum = table.svrPortNum)
    (same : turn.segment = received) : SwitchKeeps table received turn := by
  refine ⟨port, ?_⟩
  rw [if_neg quiet, same]

theorem not_repeated {table : ServerTcb} {received : Seg} {type : UInt16}
    (same : received.header.type = type) (other : type ≠ SegType.syn) :
    ¬ RepeatsSyn table received := by
  rintro ⟨_, syn, _⟩
  exact other (same.symm.trans syn)

theorem turn_data_keeps {table : ServerTcb} {received segmentSend : Seg} {turn : Turn}
    (handled : turnData table received segmentSend = some turn) :
    turn.tcb.svrPortNum = table.svrPortNum ∧ turn.segment = received := by
  rw [turnData] at handled
  split_ifs at handled
  · obtain ⟨recvBuf, _, handled⟩ := Option.bind_eq_some_iff.mp handled
    cases handled
    exact ⟨rfl, rfl⟩
  · cases handled
    exact ⟨rfl, rfl⟩
  · cases handled
    exact ⟨rfl, rfl⟩

theorem switch_keeps {table : ServerTcb} {received segmentSend : Seg} {turn : Turn}
    (handled : seghandlerSwitch table received segmentSend = some turn) :
    SwitchKeeps table received turn := by
  cases switch_cases handled with
  | ignored other => exact keeps_quiet other rfl rfl
  | listens listening =>
      have quiet : ¬ RepeatsSyn table received := by
        rintro ⟨connected, _⟩
        rw [listening] at connected
        cases connected
      rw [turnListening]
      split_ifs
      · exact keeps_quiet quiet rfl rfl
      · exact keeps_quiet quiet rfl rfl
  | repeats repeated =>
      refine ⟨rfl, ?_⟩
      rw [if_pos repeated]
      rfl
  | data data taken =>
      obtain ⟨port, same⟩ := turn_data_keeps taken
      exact keeps_quiet (not_repeated data (by decide)) port same
  | finishes fin state timers _ => exact keeps_quiet (not_repeated fin (by decide)) rfl rfl

theorem accept_port (table : ServerTcb) :
    ((mrtServerAccept table).getD table).svrPortNum = table.svrPortNum := by
  rw [mrtServerAccept]
  cases table.state <;> rfl

theorem recv_port {socket after : ServerSocket} {length : UInt32} {l : Nat}
    (called : (mrtServerRecv socket length l).map Prod.snd = some after) :
    after.svrPortNum = socket.svrPortNum := by
  obtain ⟨result, received, same⟩ := Option.map_eq_some_iff.mp called
  rw [mrtServerRecv] at received
  cases mutex : socket.bufMutex with
  | locked =>
      rw [mutex] at received
      cases received
  | free =>
      rw [mutex] at received
      simp only at received
      split_ifs at received
      cases received
      rw [← same]

theorem timer_port {socket after : ServerSocket} (called : timerHandler socket = some after) :
    after.svrPortNum = socket.svrPortNum := by
  rw [timerHandler] at called
  cases mutex : socket.bufMutex with
  | locked =>
      rw [mutex] at called
      cases called
  | free =>
      rw [mutex] at called
      cases called
      rfl

theorem call_ports {server next : Server} {index : Fin maxTransportConnections}
    {call : ServerCall} (called : server.call index call = some next) :
    next.portAt = server.portAt ∧ next.segment = server.segment := by
  obtain ⟨socket, held, called⟩ := Option.bind_eq_some_iff.mp called
  obtain ⟨after, result, called⟩ := Option.bind_eq_some_iff.mp called
  cases called
  have port : after.svrPortNum = socket.svrPortNum := by
    cases call with
    | accept =>
        cases result
        exact accept_port socket.tcb
    | recv length l => exact recv_port result
    | timer =>
        rw [ServerSocket.call] at result
        split_ifs at result
        exact timer_port result
  exact ⟨funext (map_key_update server.tables index held port), rfl⟩

theorem turn_ports {server next : Server} {received : Seg} {effects : List ServerEffect}
    (stepped : server.seghandlerTurn received = some (next, effects)) :
    next.portAt = server.portAt ∧
      next.segment.header.destPort = server.portLeft received := by
  rw [Server.seghandlerTurn] at stepped
  rw [Server.portLeft]
  cases found : server.fetchTCB with
  | none =>
      rw [found] at stepped
      cases stepped
      exact ⟨rfl, rfl⟩
  | some index =>
      rw [found] at stepped
      obtain ⟨socket, held, stepped⟩ := Option.bind_eq_some_iff.mp stepped
      obtain ⟨turn, handled, stepped⟩ := Option.bind_eq_some_iff.mp stepped
      cases stepped
      have keeps := switch_keeps handled
      rw [Option.bind_some, held]
      exact ⟨funext (map_key_update server.tables index held keeps.svrPortNum), keeps.destPort⟩

theorem dispatches_iff {server : Server}
    (distinct : DistinctKeys ServerSocket.svrPortNum server.tables) (received : Seg) :
    server.Dispatches (.segment received) ↔
      server.PortFits server.segment.header.destPort received :=
  fetch_agrees_iff distinct _ _

theorem distinct_of_ports {server next : Server} (same : next.portAt = server.portAt)
    (distinct : DistinctKeys ServerSocket.svrPortNum server.tables) :
    DistinctKeys ServerSocket.svrPortNum next.tables := by
  intro index other wanted first second
  apply distinct index other wanted
  · exact (congrFun same index).symm.trans first
  · exact (congrFun same other).symm.trans second

/-- With the ports in the table pairwise different, every segment of a run is handled
under the TCB of its own `dest_port` exactly when the variable held that port before. -/
theorem each_dispatched_iff (server : Server) (events : List ServerEvent)
    (distinct : DistinctKeys ServerSocket.svrPortNum server.tables) :
    EachDispatched server events ↔
      PortsRepeat server server.segment.header.destPort events := by
  induction events generalizing server with
  | nil => exact Iff.rfl
  | cons event events ih =>
      cases event with
      | call index call =>
          refine (iff_of_eq (true_and _)).trans ?_
          refine forall₃_congr fun next effects stepped => ?_
          obtain ⟨after, called, same⟩ := Option.map_eq_some_iff.mp stepped
          cases same
          obtain ⟨ports, kept⟩ := call_ports called
          rw [ih next (distinct_of_ports ports distinct), kept]
      | segment received =>
          refine and_congr (dispatches_iff distinct received) ?_
          refine forall₃_congr fun next effects stepped => ?_
          obtain ⟨ports, left⟩ := turn_ports stepped
          rw [ih next (distinct_of_ports ports distinct), left]

def synOf (clientPort serverPort : UInt32) : Seg :=
  { Seg.cleared with
    header := { MrtHdr.cleared with
      type := SegType.syn
      srcPort := clientPort
      destPort := serverPort } }

/-- The two sockets of `app_simple_server.c`, as `mrt_server_sock` leaves them. -/
def simpleServerSockets : Table ServerSocket maxTransportConnections :=
  pair firstSlot secondSlot
    (mrtServerSock 8881 0 0 0 0 (Vector.replicate receiveBufSize 0))
    (mrtServerSock 8883 0 0 0 0 (Vector.replicate receiveBufSize 0))

theorem simple_server_distinct :
    DistinctKeys ServerSocket.svrPortNum simpleServerSockets :=
  pair_distinct ServerSocket.svrPortNum firstSlot secondSlot (by decide)

/-- The SYN of the first client connects it, and the SYN of the second client is handled
under the first TCB. -/
theorem second_client_misdispatched :
    let server : Server := ⟨simpleServerSockets, synOf 0 8881, Seg.cleared⟩
    DistinctKeys ServerSocket.svrPortNum server.tables ∧
      ¬ EachDispatched server [.call firstSlot .accept, .segment (synOf 8880 8881),
        .call secondSlot .accept, .segment (synOf 8882 8883)] := by
  refine ⟨simple_server_distinct, fun each => ?_⟩
  have connected := (each.2 _ _ rfl).2 _ _ rfl
  have accepting := connected.2 _ _ rfl
  have dispatched := (accepting.1 firstSlot).mp (by decide)
  revert dispatched
  decide

/-- The first client sends its SYN twice before the second client sends one. -/
theorem two_clients_dispatched_iff :
    let server : Server := ⟨simpleServerSockets, synOf 0 8881, Seg.cleared⟩
    let events : List ServerEvent := [.call firstSlot .accept, .segment (synOf 8880 8881),
      .segment (synOf 8880 8881), .call secondSlot .accept, .segment (synOf 8882 8883)]
    EachDispatched server events ↔ PortsRepeat server 8881 events :=
  each_dispatched_iff _ _ simple_server_distinct

end MiniOverlay.Lab2
