import MiniOverlay.NeighborTraffic

/-!
# The MRT processes of a node

`waitTransport` accepts the MRT processes of its node one after the other and closes the
connection to one before it accepts the next. In between `transport_connection` is -1, and
what `pkthandler` forwards then is lost. The traffic is that of all threads; only `accept`
is a step of its own, since segments may be forwarded before the process has sent one.
-/

namespace MiniOverlay

open PartialRuns

set_option autoImplicit false

section Transport

variable {Connection : Type}

/-- `transport_connection` when `accept` returns: there is an MRT process that connects, and
`waitTransport` has closed the connection to the one before. -/
def acceptConnection (transport : WaitState) (opened : Connection)
    (connection : Option Connection) : Option (Option Connection) :=
  match transport with
  | .accepting _ (_ :: _) => if connection.isNone then some (some opened) else none
  | .accepting _ [] => none
  | .sending _ _ _ _ => none
  | .aborted => none

/-- `transport_connection` after the rest of a turn of `waitTransport`. -/
def connectionAfter (events : List WaitEvent) (connection : Option Connection) :
    Option (Option Connection) :=
  if .accept ∈ events ∧ connection.isNone then none
  else some (if .close ∈ events then none else connection)

end Transport

inductive ServedEvent where
  | accept (nodeID : Int32)
  | turn (event : TrafficEvent)

/-- `transportConnection` tells how many segments had been forwarded in the overlay when
`waitTransport` accepted the present MRT process of a node; it is `none` while
`transport_connection` is -1. -/
structure ServedState where
  traffic : TrafficState
  transportConnection : Int32 → Option Nat

def ConnectedOverlay.createServed (overlay : ConnectedOverlay) (memory : TrafficMemory) :
    ServedState where
  traffic := overlay.create memory
  transportConnection _ := none

/-- Only `waitTransport` stores in `transport_connection`. -/
def ServedState.connectionsAfter (state : ServedState) :
    TrafficEvent → Option (Int32 → Option Nat)
  | .waitTransport nodeID => do
      let turn ← waitTurn nodeID (state.traffic.tables nodeID).routingTable
        (state.traffic.transport nodeID)
      let connection ← connectionAfter turn.1 (state.transportConnection nodeID)
      return Function.update state.transportConnection nodeID connection
  | .routeupdateDaemon _ _ _ => some state.transportConnection
  | .waitNetwork _ => some state.transportConnection
  | .listenToNeighbor _ _ => some state.transportConnection
  | .pkthandler _ _ _ => some state.transportConnection

def ConnectedOverlay.servedStep (overlay : ConnectedOverlay) (state : ServedState) :
    ServedEvent → Option ServedState
  | .accept nodeID => do
      let connection ← acceptConnection (state.traffic.transport nodeID)
        state.traffic.overlay.calls.length (state.transportConnection nodeID)
      return { state with
        transportConnection := Function.update state.transportConnection nodeID connection }
  | .turn event => do
      let connections ← state.connectionsAfter event
      let next ← overlay.step state.traffic event
      return ⟨next, connections⟩

def ConnectedOverlay.servedRun (overlay : ConnectedOverlay) (state : ServedState)
    (events : List ServedEvent) : Option ServedState :=
  events.foldlM overlay.servedStep state

def ForwardsegCall.arg (call : ForwardsegCall) : SendsegArg := ⟨call.srcNodeID, call.segment⟩

def argsAt (nodeID : Int32) (calls : List ForwardsegCall) : List SendsegArg :=
  calls.filterMap fun call => if call.nodeID = nodeID then some call.arg else none

/-- What was forwarded to the MRT process that was accepted after `before` calls. -/
def forwardedTo (calls : List ForwardsegCall) (nodeID : Int32) (before : Nat) :
    List SendsegArg :=
  argsAt nodeID (calls.drop before)

theorem args_at_append (nodeID : Int32) (first later : List ForwardsegCall) :
    argsAt nodeID (first ++ later) = argsAt nodeID first ++ argsAt nodeID later :=
  List.filterMap_append

def Marked (calls : List ForwardsegCall) (connections : Int32 → Option Nat) : Prop :=
  ∀ nodeID, ∀ before ∈ connections nodeID, before ≤ calls.length

section Served

variable {overlay : ConnectedOverlay} {memory : TrafficMemory}

theorem network_step_calls {net : Network} {state next : OverlayState} {event : ForwardEvent}
    (stepped : net.step state event = some next) : state.calls <+: next.calls := by
  cases event with
  | waitNetwork nodeID =>
      obtain ⟨node, _, turned⟩ := Option.bind_eq_some_iff.mp stepped
      split at turned
      · cases turned
      · obtain ⟨sent, _, ended⟩ := Option.bind_eq_some_iff.mp turned
        cases ended
        exact List.prefix_rfl
  | listenToNeighbor nodeID nbrID =>
      obtain ⟨node, _, turned⟩ := Option.bind_eq_some_iff.mp stepped
      split at turned
      · cases turned
      · obtain ⟨pkt, _, ended⟩ := Option.bind_eq_some_iff.mp turned
        cases ended
        exact List.prefix_rfl
  | pkthandler nodeID =>
      obtain ⟨node, _, turned⟩ := Option.bind_eq_some_iff.mp stepped
      split at turned
      · cases turned
      · obtain ⟨handled, _, ended⟩ := Option.bind_eq_some_iff.mp turned
        cases ended
        exact List.prefix_append _ _

/-- No thread takes a call of `forwardsegToMRT` back. -/
theorem step_calls {state next : TrafficState} {event : TrafficEvent}
    (stepped : overlay.step state event = some next) :
    state.overlay.calls <+: next.overlay.calls := by
  cases event with
  | waitTransport nodeID =>
      obtain ⟨turn, _, ended⟩ := Option.bind_eq_some_iff.mp stepped
      cases ended
      exact List.prefix_rfl
  | routeupdateDaemon nodeID beyond packet =>
      obtain ⟨pkt, _, ended⟩ := Option.bind_eq_some_iff.mp stepped
      cases ended
      exact List.prefix_rfl
  | waitNetwork nodeID =>
      obtain ⟨moved, network, ended⟩ := Option.bind_eq_some_iff.mp stepped
      cases ended
      exact network_step_calls network
  | listenToNeighbor nodeID nbrID =>
      obtain ⟨moved, network, ended⟩ := Option.bind_eq_some_iff.mp stepped
      cases ended
      exact network_step_calls network
  | pkthandler nodeID pktUpdate fresh =>
      obtain ⟨packet, _, arrived⟩ := Option.bind_eq_some_iff.mp stepped
      obtain ⟨node, _, handled⟩ := Option.bind_eq_some_iff.mp arrived
      obtain ⟨moved, network, ended⟩ := Option.bind_eq_some_iff.mp handled
      cases ended
      exact network_step_calls network

theorem marked_longer {calls longer : List ForwardsegCall} {connections : Int32 → Option Nat}
    (marked : Marked calls connections) (more : calls <+: longer) : Marked longer connections :=
  fun nodeID before accepted => (marked nodeID before accepted).trans more.length_le

theorem marked_update {calls : List ForwardsegCall} {connections : Int32 → Option Nat}
    (marked : Marked calls connections) (nodeID : Int32) {connection : Option Nat}
    (inside : ∀ before ∈ connection, before ≤ calls.length) :
    Marked calls (Function.update connections nodeID connection) := by
  intro other before accepted
  by_cases same : other = nodeID
  · rw [same, Function.update_self] at accepted
    exact inside before accepted
  · rw [Function.update_of_ne same] at accepted
    exact marked other before accepted

theorem connection_after_kept {events : List WaitEvent} {connection after : Option Nat}
    (turned : connectionAfter events connection = some after) : ∀ before ∈ after,
      before ∈ connection := by
  unfold connectionAfter at turned
  split_ifs at turned
  · cases turned
    exact fun before member => absurd member (Option.not_mem_none before)
  · cases turned
    exact fun before member => member

theorem accept_connection_marks {transport : WaitState} {calls : Nat}
    {connection accepted : Option Nat}
    (accepts : acceptConnection transport calls connection = some accepted) :
    accepted = some calls := by
  unfold acceptConnection at accepts
  split at accepts
  · exact (of_guard accepts).2
  · cases accepts
  · cases accepts
  · cases accepts

theorem connections_after_marked {state : ServedState} {event : TrafficEvent}
    {connections : Int32 → Option Nat}
    (marked : Marked state.traffic.overlay.calls state.transportConnection)
    (turned : state.connectionsAfter event = some connections) :
    Marked state.traffic.overlay.calls connections := by
  cases event with
  | waitTransport nodeID =>
      obtain ⟨turn, _, rest⟩ := Option.bind_eq_some_iff.mp turned
      obtain ⟨connection, after, ended⟩ := Option.bind_eq_some_iff.mp rest
      cases ended
      apply marked_update marked nodeID
      intro before kept
      exact marked nodeID before (connection_after_kept after before kept)
  | routeupdateDaemon nodeID beyond packet =>
      cases turned
      exact marked
  | waitNetwork nodeID =>
      cases turned
      exact marked
  | listenToNeighbor nodeID nbrID =>
      cases turned
      exact marked
  | pkthandler nodeID pktUpdate fresh =>
      cases turned
      exact marked

structure ConnectedOverlay.Served (overlay : ConnectedOverlay) (memory : TrafficMemory)
    (state : ServedState) : Prop where
  neighborly : overlay.Neighborly memory state.traffic
  marked : Marked state.traffic.overlay.calls state.transportConnection

theorem create_served : overlay.Served memory (overlay.createServed memory) where
  neighborly := create_neighborly
  marked _ _ accepted := absurd accepted (Option.not_mem_none _)

theorem served_step {state next : ServedState} {event : ServedEvent}
    (served : overlay.Served memory state) (stepped : overlay.servedStep state event = some next) :
    overlay.Served memory next := by
  cases event with
  | accept nodeID =>
      obtain ⟨connection, accepts, ended⟩ := Option.bind_eq_some_iff.mp stepped
      cases ended
      refine ⟨served.neighborly, marked_update served.marked nodeID fun before accepted => ?_⟩
      rw [accept_connection_marks accepts] at accepted
      cases accepted
      exact Nat.le_refl _
  | turn event =>
      obtain ⟨connections, after, rest⟩ := Option.bind_eq_some_iff.mp stepped
      obtain ⟨moved, turned, ended⟩ := Option.bind_eq_some_iff.mp rest
      cases ended
      exact ⟨step_neighborly served.neighborly turned,
        marked_longer (connections_after_marked served.marked after) (step_calls turned)⟩

theorem served_run {events : List ServedEvent} {state : ServedState}
    (run : overlay.servedRun (overlay.createServed memory) events = some state) :
    overlay.Served memory state :=
  fold_keeps overlay.servedStep (overlay.Served memory) events
    (fun _ _ _ _ served stepped => served_step served stepped) create_served run

end Served

end MiniOverlay
