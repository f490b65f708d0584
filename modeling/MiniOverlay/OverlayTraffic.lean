import MiniOverlay.HopByHop
import MiniOverlay.RouteConvergence
import MiniOverlay.WaitTransport

/-!
# The traffic of a whole overlay

The threads of all nodes at once, after the connections were made: `waitTransport`,
`routeupdate_daemon` and `pkthandler` of the MNP processes, `waitNetwork` and
`listen_to_neighbor` of the ON processes. Route updates and MNP packets share the
connections, and an update may change the tables that the next packet is routed with.
The connections keep whole packets and their order, so the three writes of a call of
`overlay_sendpkt` come together. What the nodes read behind a block that `malloc` returned
is arbitrary, and what they store there hits nothing.
-/

namespace MiniOverlay

open FixedByteCodec PartialRuns

set_option autoImplicit false

/-- The neighbor tables of all nodes, with the neighbours that the topology file names. -/
structure ConnectedOverlay where
  topology : Topology
  nt : Int32 → NbrTable
  nbrs : ∀ nodeID,
    (nt nodeID).entries.map NbrEntry.nodeID = topologyGetNbrArray topology.lines nodeID

def ConnectedOverlay.network (overlay : ConnectedOverlay) (tables : Int32 → MnpNode) : Network where
  nodes nodeID := some ⟨overlay.nt nodeID, (tables nodeID).routingTable⟩
  inside _ _ _ _ _ := rfl

/-- The thread of `waitTransport` and the tables of every node, and what is between the
processes. `sent` has the packets that `waitTransport` gave to `overlay_sendpkt`. -/
structure TrafficState where
  transport : Int32 → WaitState
  sent : Int32 → List MnpPkt
  tables : Int32 → MnpNode
  overlay : OverlayState

/-- A turn of the loop of one of the five threads. `beyond`, `packet`, `pktUpdate` and
`fresh` are what the turn finds in memory that was not written before. -/
inductive TrafficEvent where
  | waitTransport (nodeID : Int32)
  | routeupdateDaemon (nodeID : Int32) (beyond : Nat → Int32) (packet : MnpPkt)
  | waitNetwork (nodeID : Int32)
  | listenToNeighbor (nodeID nbrID : Int32)
  | pkthandler (nodeID : Int32) (pktUpdate : PktRouteupdate) (fresh : Nat → Int32)

def OverlayState.queue (state : OverlayState) (nodeID : Int32) (args : List SendpktArg) :
    OverlayState :=
  { state with
    toOverlay := Function.update state.toOverlay nodeID (state.toOverlay nodeID ++ args) }

def sendpktArgs (events : List WaitEvent) : List SendpktArg :=
  events.filterMap fun
    | .overlaySendpkt nextNodeID pkt => some ⟨nextNodeID, pkt⟩
    | .accept => none
    | .close => none

/-- A turn of `waitTransport`; `none` when `getsegToSend` writes behind its buffer, or fails
its assertion and ends the whole MNP process. -/
def waitTurn (myNodeID : Int32) (rt : Routingtable) (state : WaitState) :
    Option (List WaitEvent × WaitState) :=
  match (waitStep myNodeID rt state).2 with
  | .accepting _ _ => some (waitStep myNodeID rt state)
  | .sending _ _ _ _ => some (waitStep myNodeID rt state)
  | .aborted => none

/-- What `pkthandler` does to the tables with a packet. -/
def pkthandlerTables (lines : List TopologyLine) (myNodeID : Int32) (pktUpdate : PktRouteupdate)
    (fresh : Nat → Int32) (node : MnpNode) (packet : MnpPkt) : Option MnpNode :=
  if packet.header.type = PktType.routeUpdate then
    pkthandlerRouteUpdate lines myNodeID pktUpdate fresh node packet
  else some node

/-- `none` is undefined behaviour, the end of a process, or a thread with nothing on its
connection. -/
def ConnectedOverlay.step (overlay : ConnectedOverlay) (state : TrafficState) :
    TrafficEvent → Option TrafficState
  | .waitTransport nodeID => do
      let turn ← waitTurn nodeID (state.tables nodeID).routingTable (state.transport nodeID)
      let args := sendpktArgs turn.1
      return { state with
        transport := Function.update state.transport nodeID turn.2
        sent := Function.update state.sent nodeID
          (state.sent nodeID ++ args.map SendpktArg.pkt)
        overlay := state.overlay.queue nodeID args }
  | .routeupdateDaemon nodeID beyond packet => do
      let pkt ← routeupdateDaemon overlay.topology.lines nodeID beyond packet (state.tables nodeID)
      return { state with overlay := state.overlay.queue nodeID [⟨broadcastNodeID, pkt⟩] }
  | .waitNetwork nodeID => do
      let next ← (overlay.network state.tables).step state.overlay (.waitNetwork nodeID)
      return { state with overlay := next }
  | .listenToNeighbor nodeID nbrID => do
      let next ← (overlay.network state.tables).step state.overlay (.listenToNeighbor nodeID nbrID)
      return { state with overlay := next }
  | .pkthandler nodeID pktUpdate fresh => do
      let packet ← (state.overlay.toNetwork nodeID).head?
      let node ← pkthandlerTables overlay.topology.lines nodeID pktUpdate fresh
        (state.tables nodeID) packet
      let next ← (overlay.network state.tables).step state.overlay (.pkthandler nodeID)
      return { state with tables := Function.update state.tables nodeID node, overlay := next }

section Steps

variable {overlay : ConnectedOverlay} {state : TrafficState} {next : OverlayState}

theorem traffic_wait_transport {nodeID : Int32} {turn : List WaitEvent × WaitState}
    (turned : waitTurn nodeID (state.tables nodeID).routingTable (state.transport nodeID) =
      some turn) :
    overlay.step state (.waitTransport nodeID) = some { state with
      transport := Function.update state.transport nodeID turn.2
      sent := Function.update state.sent nodeID
        (state.sent nodeID ++ (sendpktArgs turn.1).map SendpktArg.pkt)
      overlay := state.overlay.queue nodeID (sendpktArgs turn.1) } := by
  rw [ConnectedOverlay.step, turned]
  rfl

theorem traffic_wait_network {nodeID : Int32}
    (stepped : (overlay.network state.tables).step state.overlay (.waitNetwork nodeID) =
      some next) :
    overlay.step state (.waitNetwork nodeID) = some { state with overlay := next } := by
  rw [ConnectedOverlay.step, stepped]
  rfl

theorem traffic_listen {nodeID nbrID : Int32}
    (stepped : (overlay.network state.tables).step state.overlay (.listenToNeighbor nodeID nbrID) =
      some next) :
    overlay.step state (.listenToNeighbor nodeID nbrID) = some { state with overlay := next } := by
  rw [ConnectedOverlay.step, stepped]
  rfl

theorem traffic_pkthandler {nodeID : Int32} {packet : MnpPkt} {packets : List MnpPkt}
    {node : MnpNode} {pktUpdate : PktRouteupdate} {fresh : Nat → Int32}
    (arrived : state.overlay.toNetwork nodeID = packet :: packets)
    (tables : pkthandlerTables overlay.topology.lines nodeID pktUpdate fresh (state.tables nodeID)
      packet = some node)
    (stepped : (overlay.network state.tables).step state.overlay (.pkthandler nodeID) =
      some next) :
    overlay.step state (.pkthandler nodeID pktUpdate fresh) =
      some { state with
        tables := Function.update state.tables nodeID node
        overlay := next } := by
  simp only [ConnectedOverlay.step, arrived, List.head?_cons, Option.bind_eq_bind,
    Option.bind_some, tables, stepped]
  rfl

end Steps

/-- What the memory of the processes holds before the first packet, and the bytes that the
MRT processes of every node will write. -/
structure TrafficMemory where
  beyond : Int32 → Nat → Nat → Int32
  fresh : Int32 → Nat → Int32
  packet : Int32 → MnpPkt
  received : Int32 → Int32 → MnpPkt
  segment : Int32 → Seg
  backlog : Int32 → List (List Byte)

def ConnectedOverlay.create (overlay : ConnectedOverlay) (memory : TrafficMemory) :
    TrafficState where
  transport nodeID := .accepting (memory.packet nodeID) (memory.backlog nodeID)
  sent _ := []
  tables nodeID := MnpNode.create overlay.topology.lines nodeID (memory.beyond nodeID)
    (memory.fresh nodeID)
  overlay :=
    { toOverlay := fun _ => []
      links := fun _ _ => []
      received := memory.received
      toNetwork := fun _ => []
      segment := memory.segment
      calls := [] }

def ConnectedOverlay.run (overlay : ConnectedOverlay) (state : TrafficState)
    (events : List TrafficEvent) : Option TrafficState :=
  events.foldlM overlay.step state

def TrafficState.Waits (state : TrafficState) : TrafficEvent → Prop
  | .waitTransport _ => False
  | .routeupdateDaemon _ _ _ => False
  | .waitNetwork nodeID => state.overlay.toOverlay nodeID = []
  | .listenToNeighbor nodeID nbrID => state.overlay.links nbrID nodeID = []
  | .pkthandler nodeID _ _ => state.overlay.toNetwork nodeID = []

/-- The thread reads bytes of an MRT process that `getsegToSend` cannot take. -/
def TrafficState.Aborts (state : TrafficState) : TrafficEvent → Prop
  | .waitTransport nodeID =>
      (waitStep nodeID (state.tables nodeID).routingTable (state.transport nodeID)).2 = .aborted
  | .routeupdateDaemon _ _ _ => False
  | .waitNetwork _ => False
  | .listenToNeighbor _ _ => False
  | .pkthandler _ _ _ => False

theorem wait_turn_goes {myNodeID : Int32} {rt : Routingtable} {state : WaitState}
    (goes : (waitStep myNodeID rt state).2 ≠ .aborted) :
    waitTurn myNodeID rt state = some (waitStep myNodeID rt state) := by
  unfold waitTurn
  split
  · rfl
  · rfl
  · rename_i aborted
    exact absurd aborted goes

theorem wait_turn_aborts {myNodeID : Int32} {rt : Routingtable} {state : WaitState}
    (aborts : (waitStep myNodeID rt state).2 = .aborted) : waitTurn myNodeID rt state = none := by
  unfold waitTurn
  rw [aborts]

/-- The first segment that `waitTransport` reads from the MRT processes of its node. -/
def firstSegment : List (List Byte) → Option SendsegArg
  | [] => none
  | transportConnection :: backlog =>
      match getsegToSend transportConnection with
      | .got arg _ => some arg
      | .ended => firstSegment backlog
      | .assertionFailed => none
      | .overrun => none

/-- The thread has sent copies of the first segment only; `backlog` is what it began with. -/
def WaitState.Repeats (nodeID : Int32) (backlog : List (List Byte)) (sent : List MnpPkt) :
    WaitState → Prop
  | .accepting _ later => sent = [] ∧ firstSegment later = firstSegment backlog
  | .sending segmentStatus packet _ later =>
      if 0 < segmentStatus then
        ∃ arg, firstSegment backlog = some arg ∧ packet = transportPacket nodeID arg ∧
          ∀ pkt ∈ sent, pkt = packet
      else sent = [] ∧ firstSegment later = firstSegment backlog
  | .aborted => sent = [] ∧ firstSegment backlog = none

theorem repeats_sent {nodeID : Int32} {backlog : List (List Byte)} {sent : List MnpPkt}
    {state : WaitState} (repeats : state.Repeats nodeID backlog sent) {pkt : MnpPkt}
    (member : pkt ∈ sent) :
    ∃ arg, firstSegment backlog = some arg ∧ pkt = transportPacket nodeID arg := by
  cases state with
  | accepting packet later =>
      rw [repeats.1] at member
      cases member
  | sending segmentStatus packet connection later =>
      by_cases positive : 0 < segmentStatus
      · simp only [WaitState.Repeats, if_pos positive] at repeats
        obtain ⟨arg, first, rfl, copies⟩ := repeats
        exact ⟨arg, first, copies pkt member⟩
      · simp only [WaitState.Repeats, if_neg positive] at repeats
        rw [repeats.1] at member
        cases member
  | aborted =>
      rw [repeats.1] at member
      cases member

/-- What a turn of `waitTransport` sends, and that it goes on with the same segment. -/
theorem wait_step_repeats {nodeID : Int32} {backlog : List (List Byte)} {sent : List MnpPkt}
    {state : WaitState} (repeats : state.Repeats nodeID backlog sent) (rt : Routingtable) :
    (waitStep nodeID rt state).2.Repeats nodeID backlog
        (sent ++ (sendpktArgs (waitStep nodeID rt state).1).map SendpktArg.pkt) ∧
      ∀ sentArg ∈ sendpktArgs (waitStep nodeID rt state).1,
        ∃ arg, firstSegment backlog = some arg ∧
          sentArg = ⟨routingtableGetnextnode rt arg.nodeID, transportPacket nodeID arg⟩ := by
  cases state with
  | accepting packet later =>
      obtain ⟨rfl, first⟩ := repeats
      cases later with
      | nil => exact ⟨⟨rfl, first⟩, by simp [waitStep, sendpktArgs]⟩
      | cons connection later =>
          rw [firstSegment] at first
          cases read : getsegToSend connection with
          | got arg rest =>
              simp only [read] at first
              simp only [waitStep, read, sendpktArgs]
              refine ⟨?_, by simp⟩
              exact ⟨arg, first.symm, prepared_with_segment packet nodeID arg, by simp⟩
          | ended =>
              simp only [read] at first
              simp only [waitStep, read, sendpktArgs]
              exact ⟨⟨by simp, first⟩, by simp⟩
          | assertionFailed =>
              simp only [read] at first
              simp only [waitStep, read, sendpktArgs]
              exact ⟨⟨by simp, first.symm⟩, by simp⟩
          | overrun =>
              simp only [read] at first
              simp only [waitStep, read, sendpktArgs]
              exact ⟨⟨by simp, first.symm⟩, by simp⟩
  | sending segmentStatus packet connection later =>
      by_cases positive : 0 < segmentStatus
      · simp only [WaitState.Repeats, if_pos positive] at repeats
        obtain ⟨arg, first, rfl, copies⟩ := repeats
        simp only [waitStep, if_pos positive, sendpktArgs, WaitState.Repeats]
        refine ⟨⟨arg, first, rfl, ?_⟩, ?_⟩
        · intro pkt member
          rcases List.mem_append.mp member with old | new
          · exact copies pkt old
          · simpa using new
        · intro sentArg member
          have only := List.mem_singleton.mp member
          exact ⟨arg, first, only⟩
      · simp only [WaitState.Repeats, if_neg positive] at repeats
        simp only [waitStep, if_neg positive, sendpktArgs, WaitState.Repeats]
        exact ⟨by simpa using repeats, by simp⟩
  | aborted =>
      simp only [waitStep, sendpktArgs]
      exact ⟨by simpa [WaitState.Repeats] using repeats, by simp⟩

end MiniOverlay
