import MiniOverlay.MnpSendInterleaving
import MiniOverlay.SegmentReceivers
import MiniOverlay.TransportConnections

/-!
# The bytes of the traffic

The same five threads on connections that carry bytes: each turn reads with `recvpkt`,
`getpktToSend` or `overlay_recvpkt` and writes with the senders of `common/`. While no
record on a connection has an end marker inside, these bytes are the delimited records of
the packets, one after the other, and every thread does on them what it does on packets.

The three calls of `send` in one `overlay_sendpkt` or `forwardsegToMRT` are one write here,
so nothing of another thread comes between them. `waitTransport` takes the MRT processes of
its node one after the other, and what `pkthandler` forwards goes to the present one: it is
lost while `transport_connection` is -1.
-/

namespace MiniOverlay

open DelimitedFrames FixedByteCodec PartialRuns

set_option autoImplicit false

/-- What is on the connections, with the variables of `listen_to_neighbor` and
`pkthandler`. `toTransport` is what was written on the present `transport_connection` of a
node; it is `none` while that is -1. -/
structure OverlayBytes where
  toOverlay : Int32 → List Byte
  links : Int32 → Int32 → List Byte
  received : Int32 → Int32 → MnpPkt
  toNetwork : Int32 → List Byte
  segment : Int32 → Seg
  toTransport : Int32 → Option (List Byte)

structure ByteTraffic where
  transport : Int32 → WaitState
  tables : Int32 → MnpNode
  bytes : OverlayBytes

def OverlayBytes.queue (bytes : OverlayBytes) (nodeID : Int32) (args : List SendpktArg) :
    OverlayBytes :=
  { bytes with
    toOverlay := Function.update bytes.toOverlay nodeID
      (bytes.toOverlay nodeID ++ args.flatMap fun arg => arg.blocks.flatten) }

/-- What `waitNetwork` writes for one packet, with the neighbours it is written to. -/
def waitNetworkWrites (nt : List NbrEntry) (arg : SendpktArg) :
    Option (List (Int32 × List Byte)) :=
  (waitNetworkEntries nt arg.nextNodeID).mapM fun entry =>
    (sendpkt arg.pkt).map fun blocks => (entry.nodeID, blocks.flatten)

def effectsToOverlay (effects : List HandlerEffect) : List Byte :=
  effects.flatMap fun
    | .overlaySendpkt nextNodeID pkt => (overlaySendpkt nextNodeID pkt).flatten
    | .forwardsegToMRT _ _ => []

def effectsToTransport (effects : List HandlerEffect) : List Byte :=
  effects.flatMap fun
    | .overlaySendpkt _ _ => []
    | .forwardsegToMRT srcNodeID segment => (forwardsegToMRT srcNodeID segment).flatten

def ConnectedOverlay.byteTurn (overlay : ConnectedOverlay) (state : ByteTraffic) :
    TrafficEvent → Option ByteTraffic
  | .waitTransport nodeID => do
      let turn ← waitTurn nodeID (state.tables nodeID).routingTable (state.transport nodeID)
      let connection ← connectionAfter turn.1 (state.bytes.toTransport nodeID)
      let bytes := state.bytes.queue nodeID (sendpktArgs turn.1)
      return { state with
        transport := Function.update state.transport nodeID turn.2
        bytes := { bytes with
          toTransport := Function.update bytes.toTransport nodeID connection } }
  | .routeupdateDaemon nodeID beyond packet => do
      let pkt ← routeupdateDaemon overlay.topology.lines nodeID beyond packet (state.tables nodeID)
      return { state with bytes := state.bytes.queue nodeID [⟨broadcastNodeID, pkt⟩] }
  | .waitNetwork nodeID =>
      match getpktToSend (state.bytes.toOverlay nodeID) with
      | .got arg rest => do
          let writes ← waitNetworkWrites (overlay.nt nodeID).entries arg
          return { state with
            bytes := { state.bytes with
              toOverlay := Function.update state.bytes.toOverlay nodeID rest
              links := Function.update state.bytes.links nodeID fun nbrID =>
                state.bytes.links nodeID nbrID ++ (blocksTo nbrID writes).flatten } }
      | .ended => none
      | .assertionFailed => none
      | .overrun => none
  | .listenToNeighbor nodeID nbrID => do
      let (status, pkt, rest) ←
        recvpkt (state.bytes.received nodeID nbrID) (state.bytes.links nbrID nodeID)
      if status = 1 then
        return { state with
          bytes := { state.bytes with
            links := Function.update state.bytes.links nbrID
              (Function.update (state.bytes.links nbrID) nodeID rest)
            received := Function.update state.bytes.received nodeID
              (Function.update (state.bytes.received nodeID) nbrID pkt)
            toNetwork := Function.update state.bytes.toNetwork nodeID
              (state.bytes.toNetwork nodeID ++ (forwardpktToMNP pkt).flatten) } }
      else none
  | .pkthandler nodeID pktUpdate fresh =>
      match overlayRecvpkt (state.bytes.toNetwork nodeID) with
      | .got packet rest => do
          let node ← pkthandlerTables overlay.topology.lines nodeID pktUpdate fresh
            (state.tables nodeID) packet
          let handled ← pkthandlerTurn nodeID (state.tables nodeID).routingTable
            (state.bytes.segment nodeID) packet
          return { state with
            tables := Function.update state.tables nodeID node
            bytes := { state.bytes with
              toNetwork := Function.update state.bytes.toNetwork nodeID rest
              segment := Function.update state.bytes.segment nodeID handled.1
              toOverlay := Function.update state.bytes.toOverlay nodeID
                (state.bytes.toOverlay nodeID ++ effectsToOverlay handled.2)
              toTransport := Function.update state.bytes.toTransport nodeID
                ((state.bytes.toTransport nodeID).map
                  (· ++ effectsToTransport handled.2)) } }
      | .ended => none
      | .assertionFailed => none
      | .overrun => none

def ConnectedOverlay.byteStep (overlay : ConnectedOverlay) (state : ByteTraffic) :
    ServedEvent → Option ByteTraffic
  | .accept nodeID => do
      let connection ← acceptConnection (state.transport nodeID) []
        (state.bytes.toTransport nodeID)
      return { state with
        bytes := { state.bytes with
          toTransport := Function.update state.bytes.toTransport nodeID connection } }
  | .turn event => overlay.byteTurn state event

def ConnectedOverlay.byteRun (overlay : ConnectedOverlay) (state : ByteTraffic)
    (events : List ServedEvent) : Option ByteTraffic :=
  events.foldlM overlay.byteStep state

def OverlayState.bytes (state : OverlayState) (connections : Int32 → Option Nat) :
    OverlayBytes where
  toOverlay nodeID := (state.toOverlay nodeID).flatMap (recordFrame sendpktArgCodec)
  links nodeID nbrID := (state.links nodeID nbrID).flatMap (frameOf markers)
  received := state.received
  toNetwork nodeID := (state.toNetwork nodeID).flatMap (recordFrame mnpPktCodec)
  segment := state.segment
  toTransport nodeID := (connections nodeID).map fun before =>
    (forwardedTo state.calls nodeID before).flatMap (recordFrame sendsegArgCodec)

def TrafficState.bytes (state : TrafficState) (connections : Int32 → Option Nat) :
    ByteTraffic where
  transport := state.transport
  tables := state.tables
  bytes := state.overlay.bytes connections

def ServedState.bytes (state : ServedState) : ByteTraffic :=
  state.traffic.bytes state.transportConnection

structure OverlayState.Clean (state : OverlayState) : Prop where
  args : ∀ nodeID, ∀ arg ∈ state.toOverlay nodeID, DelimitedFrames.Clean markers arg.image
  blocks : ∀ nodeID nbrID, ∀ block ∈ state.links nodeID nbrID,
    DelimitedFrames.Clean markers block
  pkts : ∀ nodeID, ∀ pkt ∈ state.toNetwork nodeID, DelimitedFrames.Clean markers pkt.image

structure ServedState.Clean (state : ServedState) : Prop extends
    state.traffic.overlay.Clean where
  forwarded : ∀ nodeID, ∀ before ∈ state.transportConnection nodeID,
    ∀ arg ∈ forwardedTo state.traffic.overlay.calls nodeID before,
      DelimitedFrames.Clean markers (sendsegArgCodec.encode arg)

theorem flat_update {Item : Type} (encode : Item → List Byte) (queues : Int32 → List Item)
    (nodeID : Int32) (items : List Item) :
    (fun other => (Function.update queues nodeID items other).flatMap encode) =
      Function.update (fun other => (queues other).flatMap encode) nodeID
        (items.flatMap encode) :=
  Function.comp_update (List.flatMap encode) queues nodeID items

theorem sendpkt_records (args : List SendpktArg) :
    (args.flatMap fun arg => arg.blocks.flatten) = args.flatMap (recordFrame sendpktArgCodec) :=
  congrArg (args.flatMap ·) (funext sendpkt_blocks_flatten)

theorem bytes_queue (state : OverlayState) (connections : Int32 → Option Nat) (nodeID : Int32)
    (args : List SendpktArg) :
    (state.queue nodeID args).bytes connections =
      (state.bytes connections).queue nodeID args := by
  simp only [OverlayState.queue, OverlayState.bytes, OverlayBytes.queue, sendpkt_records,
    flat_update, List.flatMap_append]

theorem map_mapM {Item First Second : Type} (turn : Item → Option First)
    (convert : First → Second) (items : List Item) :
    (items.mapM fun item => (turn item).map convert) =
      (items.mapM turn).map (List.map convert) := by
  induction items with
  | nil => rfl
  | cons item items ih =>
      rw [List.mapM_cons, List.mapM_cons, ih]
      cases turn item with
      | none => rfl
      | some first => cases items.mapM turn <;> rfl

theorem wait_network_writes (nt : List NbrEntry) (arg : SendpktArg) :
    waitNetworkWrites nt arg =
      (waitNetworkTurn nt arg).map (List.map fun block => (block.1, frameOf markers block.2)) := by
  rw [waitNetworkWrites, waitNetworkTurn, ← map_mapM]
  refine congrArg (List.mapM · _) (funext fun entry => ?_)
  rw [sendpkt_block]
  cases sendpktBlock arg.pkt with
  | none => rfl
  | some block => exact congrArg (some <| Prod.mk entry.nodeID ·) (send_delimited_flatten block)

theorem blocks_to_frames (nbrID : Int32) (sent : List (Int32 × List Byte)) :
    (blocksTo nbrID (sent.map fun block => (block.1, frameOf markers block.2))).flatten =
      (blocksTo nbrID sent).flatMap (frameOf markers) := by
  induction sent with
  | nil => rfl
  | cons block sent ih =>
      simp only [blocksTo, List.map_cons, List.filterMap_cons] at ih ⊢
      split_ifs
      · rw [List.flatten_cons, List.flatMap_cons, ih]
      · exact ih

theorem effects_to_overlay (effects : List HandlerEffect) :
    effectsToOverlay effects = (argsOf effects).flatMap (recordFrame sendpktArgCodec) := by
  induction effects with
  | nil => rfl
  | cons effect effects ih =>
      rw [effectsToOverlay, List.flatMap_cons, ← effectsToOverlay, ih]
      cases effect with
      | overlaySendpkt nextNodeID pkt =>
          have listed : argsOf (.overlaySendpkt nextNodeID pkt :: effects) =
              ⟨nextNodeID, pkt⟩ :: argsOf effects := rfl
          rw [listed, List.flatMap_cons]
          exact congrArg (· ++ _) (sendpkt_blocks_flatten ⟨nextNodeID, pkt⟩)
      | forwardsegToMRT srcNodeID segment => rfl

theorem effects_to_transport (nodeID : Int32) (effects : List HandlerEffect) :
    effectsToTransport effects =
      (argsAt nodeID (callsOf nodeID effects)).flatMap (recordFrame sendsegArgCodec) := by
  induction effects with
  | nil => rfl
  | cons effect effects ih =>
      rw [effectsToTransport, List.flatMap_cons, ← effectsToTransport, ih]
      cases effect with
      | overlaySendpkt nextNodeID pkt => rfl
      | forwardsegToMRT srcNodeID segment =>
          have called : callsOf nodeID (.forwardsegToMRT srcNodeID segment :: effects) =
              ⟨nodeID, srcNodeID, segment⟩ :: callsOf nodeID effects := rfl
          have listed (calls : List ForwardsegCall) :
              argsAt nodeID (⟨nodeID, srcNodeID, segment⟩ :: calls) =
                ⟨srcNodeID, segment⟩ :: argsAt nodeID calls := by
            rw [argsAt, List.filterMap_cons, if_pos rfl]
            rfl
          rw [called, listed, List.flatMap_cons]
          exact congrArg (· ++ _) (send_delimited_flatten _)

theorem args_at_other {other nodeID : Int32} (apart : other ≠ nodeID)
    (effects : List HandlerEffect) : argsAt other (callsOf nodeID effects) = [] := by
  refine List.filterMap_eq_nil_iff.mpr fun call member => ?_
  obtain ⟨effect, _, made⟩ := List.mem_filterMap.mp member
  cases effect with
  | overlaySendpkt nextNodeID pkt => cases made
  | forwardsegToMRT srcNodeID segment =>
      cases made
      exact if_neg (Ne.symm apart)

theorem transport_update {calls : List ForwardsegCall} {connections : Int32 → Option Nat}
    (marked : Marked calls connections) (nodeID : Int32) (effects : List HandlerEffect) :
    (fun other => (connections other).map fun before =>
        (forwardedTo (calls ++ callsOf nodeID effects) other before).flatMap
          (recordFrame sendsegArgCodec)) =
      Function.update
        (fun other => (connections other).map fun before =>
          (forwardedTo calls other before).flatMap (recordFrame sendsegArgCodec))
        nodeID
        (((connections nodeID).map fun before =>
          (forwardedTo calls nodeID before).flatMap (recordFrame sendsegArgCodec)).map
            (· ++ effectsToTransport effects)) := by
  funext other
  have longer {node : Int32} {before : Nat} (accepted : before ∈ connections node) :
      (forwardedTo (calls ++ callsOf nodeID effects) node before).flatMap
          (recordFrame sendsegArgCodec) =
        (forwardedTo calls node before).flatMap (recordFrame sendsegArgCodec) ++
          (argsAt node (callsOf nodeID effects)).flatMap (recordFrame sendsegArgCodec) := by
    rw [forwardedTo, List.drop_append_of_le_length (marked node before accepted),
      args_at_append, List.flatMap_append, ← forwardedTo]
  by_cases same : other = nodeID
  · rw [same, Function.update_self, Option.map_map]
    refine Option.map_congr fun before accepted => ?_
    rw [longer accepted, ← effects_to_transport nodeID]
    rfl
  · rw [Function.update_of_ne same]
    refine Option.map_congr fun before accepted => ?_
    rw [longer accepted, args_at_other same, List.flatMap_nil, List.append_nil]

theorem recvpkt_frame (pkt : MnpPkt) (block rest : List Byte) (clean : Clean markers block) :
    recvpkt pkt (frameOf markers block ++ rest) =
      (recvpktBlock pkt block).map fun received => (1, received, rest) := by
  by_cases fits : block.length ≤ sizeofMnpPkt
  · rw [recvpktBlock, if_pos fits]
    exact recvpkt_clean pkt block rest clean fits
  · have overruns := scan_long_frame (sizeofMnpPkt + 2) block rest clean (by omega)
    rw [recvpktBlock, if_neg fits, recvpkt, overruns]
    rfl

section Queues

variable (state : OverlayState) (connections : Int32 → Option Nat) (nodeID : Int32)

theorem bytes_wait_network (args : List SendpktArg) (sent : List (Int32 × List Byte)) :
    OverlayState.bytes { state with
      toOverlay := Function.update state.toOverlay nodeID args
      links := Function.update state.links nodeID fun nbrID =>
        state.links nodeID nbrID ++ blocksTo nbrID sent } connections =
    { state.bytes connections with
      toOverlay := Function.update (state.bytes connections).toOverlay nodeID
        (args.flatMap (recordFrame sendpktArgCodec))
      links := Function.update (state.bytes connections).links nodeID fun nbrID =>
        (state.bytes connections).links nodeID nbrID ++
          (blocksTo nbrID sent).flatMap (frameOf markers) } := by
  simp only [OverlayState.bytes, flat_update, OverlayBytes.mk.injEq, true_and, and_true]
  funext other
  by_cases same : other = nodeID
  · subst same
    simp only [Function.update_self, List.flatMap_append]
  · simp only [Function.update_of_ne same]

theorem bytes_listen (nbrID : Int32) (blocks : List (List Byte)) (pkt : MnpPkt) :
    OverlayState.bytes { state with
      links := Function.update state.links nbrID
        (Function.update (state.links nbrID) nodeID blocks)
      received := Function.update state.received nodeID
        (Function.update (state.received nodeID) nbrID pkt)
      toNetwork := Function.update state.toNetwork nodeID
        (state.toNetwork nodeID ++ [pkt]) } connections =
    { state.bytes connections with
      links := Function.update (state.bytes connections).links nbrID
        (Function.update ((state.bytes connections).links nbrID) nodeID
          (blocks.flatMap (frameOf markers)))
      received := Function.update state.received nodeID
        (Function.update (state.received nodeID) nbrID pkt)
      toNetwork := Function.update (state.bytes connections).toNetwork nodeID
        ((state.bytes connections).toNetwork nodeID ++ (forwardpktToMNP pkt).flatten) } := by
  have record : [pkt].flatMap (recordFrame mnpPktCodec) = (forwardpktToMNP pkt).flatten := by
    rw [List.flatMap_singleton, forwardpktToMNP, send_delimited_flatten]
    rfl
  simp only [OverlayState.bytes, flat_update, List.flatMap_append, record,
    OverlayBytes.mk.injEq, true_and, and_true]
  funext other
  by_cases same : other = nbrID
  · subst same
    simp only [Function.update_self, flat_update]
  · simp only [Function.update_of_ne same]

theorem bytes_pkthandler (marked : Marked state.calls connections) (packets : List MnpPkt)
    (segment : Seg) (effects : List HandlerEffect) :
    OverlayState.bytes { state with
      toNetwork := Function.update state.toNetwork nodeID packets
      segment := Function.update state.segment nodeID segment
      toOverlay := Function.update state.toOverlay nodeID
        (state.toOverlay nodeID ++ argsOf effects)
      calls := state.calls ++ callsOf nodeID effects } connections =
    { state.bytes connections with
      toNetwork := Function.update (state.bytes connections).toNetwork nodeID
        (packets.flatMap (recordFrame mnpPktCodec))
      segment := Function.update state.segment nodeID segment
      toOverlay := Function.update (state.bytes connections).toOverlay nodeID
        ((state.bytes connections).toOverlay nodeID ++ effectsToOverlay effects)
      toTransport := Function.update (state.bytes connections).toTransport nodeID
        (((state.bytes connections).toTransport nodeID).map
          (· ++ effectsToTransport effects)) } := by
  simp only [OverlayState.bytes, flat_update, List.flatMap_append, effects_to_overlay,
    transport_update marked]

end Queues

section Steps

variable {overlay : ConnectedOverlay} {state : TrafficState} (connections : Int32 → Option Nat)

theorem byte_wait_network (clean : state.overlay.Clean) (nodeID : Int32) :
    overlay.byteTurn (state.bytes connections) (.waitNetwork nodeID) =
      (overlay.step state (.waitNetwork nodeID)).map (TrafficState.bytes · connections) := by
  have stream : (state.bytes connections).bytes.toOverlay nodeID =
      (state.overlay.toOverlay nodeID).flatMap (recordFrame sendpktArgCodec) := rfl
  cases waiting : state.overlay.toOverlay nodeID with
  | nil =>
      have stopped : (overlay.network state.tables).step state.overlay (.waitNetwork nodeID) =
          none := by
        simp [Network.step, ConnectedOverlay.network, waiting]
      rw [ConnectedOverlay.step, stopped, ConnectedOverlay.byteTurn, stream, waiting]
      rfl
  | cons arg args =>
      have read : getpktToSend ((state.bytes connections).bytes.toOverlay nodeID) =
          .got arg (args.flatMap (recordFrame sendpktArgCodec)) := by
        rw [stream, waiting, List.flatMap_cons]
        exact recv_record_clean sendpktArgCodec arg
          (clean.args nodeID arg (waiting ▸ List.mem_cons_self)) _
      simp only [ConnectedOverlay.byteTurn, read, wait_network_writes]
      cases turn : waitNetworkTurn (overlay.nt nodeID).entries arg with
      | none =>
          have stopped : (overlay.network state.tables).step state.overlay
              (.waitNetwork nodeID) = none := by
            simp [Network.step, ConnectedOverlay.network, waiting, turn]
          rw [ConnectedOverlay.step, stopped]
          rfl
      | some sent =>
          rw [traffic_wait_network (step_wait_network rfl waiting turn)]
          simp only [Option.map_some, Option.bind_eq_bind, Option.bind_some, blocks_to_frames]
          exact congrArg (fun bytes => some (ByteTraffic.mk state.transport state.tables bytes))
            (bytes_wait_network state.overlay connections nodeID args sent).symm

theorem byte_listen (clean : state.overlay.Clean) (nodeID nbrID : Int32) :
    overlay.byteTurn (state.bytes connections) (.listenToNeighbor nodeID nbrID) =
      (overlay.step state (.listenToNeighbor nodeID nbrID)).map
        (TrafficState.bytes · connections) := by
  have stream : (state.bytes connections).bytes.links nbrID nodeID =
      (state.overlay.links nbrID nodeID).flatMap (frameOf markers) := rfl
  have slot : (state.bytes connections).bytes.received nodeID nbrID =
      state.overlay.received nodeID nbrID := rfl
  cases crossing : state.overlay.links nbrID nodeID with
  | nil =>
      have stopped : (overlay.network state.tables).step state.overlay
          (.listenToNeighbor nodeID nbrID) = none := by
        simp [Network.step, ConnectedOverlay.network, crossing]
      rw [ConnectedOverlay.step, stopped, ConnectedOverlay.byteTurn, stream, crossing,
        List.flatMap_nil, recvpkt_closed]
      rfl
  | cons block blocks =>
      have read := recvpkt_frame (state.overlay.received nodeID nbrID) block
        (blocks.flatMap (frameOf markers))
        (clean.blocks nbrID nodeID block (crossing ▸ List.mem_cons_self))
      rw [ConnectedOverlay.byteTurn, stream, crossing, List.flatMap_cons, slot, read]
      cases got : recvpktBlock (state.overlay.received nodeID nbrID) block with
      | none =>
          have stopped : (overlay.network state.tables).step state.overlay
              (.listenToNeighbor nodeID nbrID) = none := by
            simp [Network.step, ConnectedOverlay.network, crossing, got]
          rw [ConnectedOverlay.step, stopped]
          rfl
      | some pkt =>
          rw [traffic_listen (step_listen rfl crossing got)]
          exact congrArg (fun bytes => some (ByteTraffic.mk state.transport state.tables bytes))
            (bytes_listen state.overlay connections nodeID nbrID blocks pkt).symm

theorem byte_pkthandler {connections : Int32 → Option Nat} (clean : state.overlay.Clean)
    (marked : Marked state.overlay.calls connections) (nodeID : Int32)
    (pktUpdate : PktRouteupdate) (fresh : Nat → Int32) :
    overlay.byteTurn (state.bytes connections) (.pkthandler nodeID pktUpdate fresh) =
      (overlay.step state (.pkthandler nodeID pktUpdate fresh)).map
        (TrafficState.bytes · connections) := by
  have stream : (state.bytes connections).bytes.toNetwork nodeID =
      (state.overlay.toNetwork nodeID).flatMap (recordFrame mnpPktCodec) := rfl
  cases arrived : state.overlay.toNetwork nodeID with
  | nil =>
      rw [ConnectedOverlay.step, arrived, ConnectedOverlay.byteTurn, stream, arrived]
      rfl
  | cons packet packets =>
      have read : overlayRecvpkt ((state.bytes connections).bytes.toNetwork nodeID) =
          .got packet (packets.flatMap (recordFrame mnpPktCodec)) := by
        rw [stream, arrived, List.flatMap_cons]
        exact recv_record_clean mnpPktCodec packet
          (clean.pkts nodeID packet (arrived ▸ List.mem_cons_self)) _
      have memory : (state.bytes connections).bytes.segment nodeID =
          state.overlay.segment nodeID := rfl
      have same : (state.bytes connections).tables = state.tables := rfl
      simp only [ConnectedOverlay.byteTurn, read, memory, same]
      cases tables : pkthandlerTables overlay.topology.lines nodeID pktUpdate fresh
          (state.tables nodeID) packet with
      | none =>
          simp only [ConnectedOverlay.step, arrived, List.head?_cons, Option.bind_eq_bind,
            Option.bind_some, tables, Option.bind_none, Option.map_none]
      | some node =>
          cases turn : pkthandlerTurn nodeID (state.tables nodeID).routingTable
              (state.overlay.segment nodeID) packet with
          | none =>
              have stopped : (overlay.network state.tables).step state.overlay
                  (.pkthandler nodeID) = none := by
                simp [Network.step, ConnectedOverlay.network, arrived, turn]
              simp only [ConnectedOverlay.step, arrived, List.head?_cons, Option.bind_eq_bind,
                Option.bind_some, tables, stopped, Option.bind_none, Option.map_none]
          | some handled =>
              rw [traffic_pkthandler arrived tables (step_pkthandler rfl arrived turn)]
              exact congrArg
                (fun bytes => some (ByteTraffic.mk state.transport
                  (Function.update state.tables nodeID node) bytes))
                (bytes_pkthandler state.overlay connections nodeID marked packets handled.1
                  handled.2).symm

theorem byte_daemon (nodeID : Int32) (beyond : Nat → Int32) (packet : MnpPkt) :
    overlay.byteTurn (state.bytes connections) (.routeupdateDaemon nodeID beyond packet) =
      (overlay.step state (.routeupdateDaemon nodeID beyond packet)).map
        (TrafficState.bytes · connections) := by
  have same : (state.bytes connections).tables = state.tables := rfl
  rw [ConnectedOverlay.byteTurn, ConnectedOverlay.step, same]
  cases routeupdateDaemon overlay.topology.lines nodeID beyond packet (state.tables nodeID) with
  | none => rfl
  | some pkt =>
      exact congrArg (fun bytes => some (ByteTraffic.mk state.transport state.tables bytes))
        (bytes_queue state.overlay connections nodeID _).symm

end Steps

section Connections

variable {First Second : Type} (convert : First → Second)

theorem accept_connection_map (transport : WaitState) (opened : First)
    (connection : Option First) :
    acceptConnection transport (convert opened) (connection.map convert) =
      (acceptConnection transport opened connection).map (Option.map convert) := by
  cases transport with
  | accepting packet backlog =>
      cases backlog with
      | nil => rfl
      | cons process backlog => cases connection <;> rfl
  | sending segmentStatus packet transportConnection backlog => rfl
  | aborted => rfl

theorem connection_after_map (events : List WaitEvent) (connection : Option First) :
    connectionAfter events (connection.map convert) =
      (connectionAfter events connection).map (Option.map convert) := by
  rw [connectionAfter, connectionAfter, Option.isNone_map]
  split_ifs <;> rfl

end Connections

theorem bytes_reconnect (state : OverlayState) (connections : Int32 → Option Nat)
    (nodeID : Int32) (connection : Option Nat) :
    state.bytes (Function.update connections nodeID connection) =
      { state.bytes connections with
        toTransport := Function.update (state.bytes connections).toTransport nodeID
          (connection.map fun before =>
            (forwardedTo state.calls nodeID before).flatMap (recordFrame sendsegArgCodec)) } := by
  simp only [OverlayState.bytes, OverlayBytes.mk.injEq, true_and]
  funext other
  by_cases same : other = nodeID
  · rw [same, Function.update_self, Function.update_self]
  · rw [Function.update_of_ne same, Function.update_of_ne same]

section Served

variable {overlay : ConnectedOverlay} {state : ServedState}

theorem byte_accept (nodeID : Int32) :
    overlay.byteStep state.bytes (.accept nodeID) =
      (overlay.servedStep state (.accept nodeID)).map ServedState.bytes := by
  have none_yet : [] = (forwardedTo state.traffic.overlay.calls nodeID
      state.traffic.overlay.calls.length).flatMap (recordFrame sendsegArgCodec) := by
    rw [forwardedTo, List.drop_length]
    rfl
  have accepts := accept_connection_map
    (fun before => (forwardedTo state.traffic.overlay.calls nodeID before).flatMap
      (recordFrame sendsegArgCodec))
    (state.traffic.transport nodeID) state.traffic.overlay.calls.length
    (state.transportConnection nodeID)
  rw [← none_yet] at accepts
  rw [ConnectedOverlay.byteStep, ConnectedOverlay.servedStep]
  rw [show acceptConnection (state.bytes.transport nodeID) [] (state.bytes.bytes.toTransport nodeID)
    = _ from accepts]
  cases acceptConnection (state.traffic.transport nodeID) state.traffic.overlay.calls.length
    (state.transportConnection nodeID) with
  | none => rfl
  | some connection =>
      exact congrArg
        (fun bytes => some (ByteTraffic.mk state.traffic.transport state.traffic.tables bytes))
        (bytes_reconnect state.traffic.overlay state.transportConnection nodeID connection).symm

theorem byte_wait_transport (nodeID : Int32) :
    overlay.byteTurn state.bytes (.waitTransport nodeID) =
      (overlay.servedStep state (.turn (.waitTransport nodeID))).map ServedState.bytes := by
  have same : waitTurn nodeID (state.bytes.tables nodeID).routingTable
      (state.bytes.transport nodeID) = waitTurn nodeID (state.traffic.tables nodeID).routingTable
        (state.traffic.transport nodeID) := rfl
  rw [ConnectedOverlay.byteTurn, ConnectedOverlay.servedStep, ServedState.connectionsAfter, same]
  cases turned : waitTurn nodeID (state.traffic.tables nodeID).routingTable
      (state.traffic.transport nodeID) with
  | none => rfl
  | some turn =>
      have after := connection_after_map
        (fun before => (forwardedTo state.traffic.overlay.calls nodeID before).flatMap
          (recordFrame sendsegArgCodec)) turn.1 (state.transportConnection nodeID)
      have image : connectionAfter turn.1 (state.bytes.bytes.toTransport nodeID) = _ := after
      rw [traffic_wait_transport turned]
      simp only [Option.bind_eq_bind, Option.bind_some, image]
      cases connectionAfter turn.1 (state.transportConnection nodeID) with
      | none => rfl
      | some connection =>
          have reconnected := bytes_reconnect
            (state.traffic.overlay.queue nodeID (sendpktArgs turn.1)) state.transportConnection
            nodeID connection
          rw [bytes_queue state.traffic.overlay state.transportConnection] at reconnected
          exact congrArg (fun bytes => some (ByteTraffic.mk
            (Function.update state.traffic.transport nodeID turn.2) state.traffic.tables bytes))
            reconnected.symm

theorem byte_step (marked : Marked state.traffic.overlay.calls state.transportConnection)
    (clean : state.traffic.overlay.Clean) (event : ServedEvent) :
    overlay.byteStep state.bytes event =
      (overlay.servedStep state event).map ServedState.bytes := by
  have kept (next : Option TrafficState) :
      next.map (TrafficState.bytes · state.transportConnection) =
        (next.bind fun next => some (ServedState.mk next state.transportConnection)).map
          ServedState.bytes := by
    cases next <;> rfl
  cases event with
  | accept nodeID => exact byte_accept nodeID
  | turn event =>
      cases event with
      | waitTransport nodeID => exact byte_wait_transport nodeID
      | routeupdateDaemon nodeID beyond packet =>
          exact (byte_daemon state.transportConnection nodeID beyond packet).trans (kept _)
      | waitNetwork nodeID =>
          exact (byte_wait_network state.transportConnection clean nodeID).trans (kept _)
      | listenToNeighbor nodeID nbrID =>
          exact (byte_listen state.transportConnection clean nodeID nbrID).trans (kept _)
      | pkthandler nodeID pktUpdate fresh =>
          exact (byte_pkthandler clean marked nodeID pktUpdate fresh).trans (kept _)

end Served

/-- The run as long as no record on the connections has an end marker inside. -/
def ConnectedOverlay.CleanAlong (overlay : ConnectedOverlay) :
    ServedState → List ServedEvent → Prop :=
  Throughout overlay.servedStep fun state _ => state.traffic.overlay.Clean

theorem byte_run {overlay : ConnectedOverlay} {memory : TrafficMemory} {state : ServedState}
    (served : overlay.Served memory state) (events : List ServedEvent)
    (along : overlay.CleanAlong state events) :
    overlay.byteRun state.bytes events =
      (overlay.servedRun state events).map ServedState.bytes := by
  have kept := throughout_kept overlay.servedStep (overlay.Served memory)
    (fun _ _ _ served stepped => served_step served stepped) served along
  exact fold_simulates overlay.servedStep overlay.byteStep ServedState.bytes
    (fun state => overlay.Served memory state ∧ state.traffic.overlay.Clean)
    (fun _ event good => byte_step good.1.marked good.2 event) state events kept

def segsFrom (srcNodeID : Int32) (args : List SendsegArg) : List Seg :=
  args.filterMap fun arg => if arg.nodeID = srcNodeID then some arg.seg else none

theorem calls_between_args (srcNodeID nodeID : Int32) (calls : List ForwardsegCall) :
    callsBetween srcNodeID nodeID calls = segsFrom srcNodeID (argsAt nodeID calls) := by
  rw [segsFrom, argsAt, List.filterMap_filterMap, callsBetween]
  refine congrArg (List.filterMap · calls) (funext fun call => ?_)
  by_cases here : call.nodeID = nodeID
  · simp [here, ForwardsegCall.arg]
  · simp [here]

/-- `mnp_recvseg` reads whole records whatever their node IDs. -/
theorem recvseg_record (arg : SendsegArg) (clean : Clean markers (sendsegArgCodec.encode arg))
    (rest : List Byte) :
    mnpRecvseg neverLost (recordFrame sendsegArgCodec arg ++ rest) = .got arg rest := by
  have opened : afterOpening markers (recordFrame sendsegArgCodec arg ++ rest) =
      some (sendsegArgCodec.encode arg ++ bufEnd ++ rest) := by
    have apart : markers.escape ≠ markers.opening := by decide
    simp [recordFrame, frameOf, bufEnd, afterOpening, apart]
  rw [mnp_recvseg_eq, opened]
  exact (read_whole _ rest clean (sendsegArgCodec.encode_length arg)).trans
    (congrArg (Read.got · rest) (sendsegArgCodec.decode_encode arg))

theorem recvseg_calls (args : List SendsegArg)
    (clean : ∀ arg ∈ args, Clean markers (sendsegArgCodec.encode arg)) :
    calls (mnpRecvseg neverLost) (args.length + 1) (args.flatMap (recordFrame sendsegArgCodec)) =
      gotAll (recordFrame sendsegArgCodec) [] args ++ [.ended] := by
  have read := calls_of_round_trip
    (fun arg member => recvseg_record arg (clean arg member)) 1 []
  simpa [calls, mnpRecvseg, mnpRecvsegFrom] using read

theorem forwarded_call {calls : List ForwardsegCall} {nodeID : Int32} {before : Nat}
    {arg : SendsegArg} (member : arg ∈ forwardedTo calls nodeID before) :
    ∃ call ∈ calls, call.nodeID = nodeID ∧ call.arg = arg := by
  obtain ⟨call, listed, taken⟩ := List.mem_filterMap.mp member
  split_ifs at taken with here
  exact ⟨call, List.mem_of_mem_drop listed, here, Option.some.inj taken⟩

section Clean

variable {state : OverlayState} (clean : state.Clean) (nodeID : Int32)
include clean

theorem queue_clean {args : List SendpktArg} (cleanArgs : ∀ arg ∈ args, Clean markers arg.image) :
    (state.queue nodeID args).Clean := by
  refine ⟨fun other arg member => ?_, clean.blocks, clean.pkts⟩
  by_cases same : other = nodeID
  · simp only [OverlayState.queue, same, Function.update_self, List.mem_append] at member
    exact member.elim (clean.args nodeID arg) (cleanArgs arg)
  · simp only [OverlayState.queue, Function.update_of_ne same] at member
    exact clean.args other arg member

theorem wait_network_clean {args : List SendpktArg} {sent : List (Int32 × List Byte)}
    (fewer : ∀ arg ∈ args, arg ∈ state.toOverlay nodeID)
    (cleanBlocks : ∀ block ∈ sent, Clean markers block.2) :
    OverlayState.Clean { state with
      toOverlay := Function.update state.toOverlay nodeID args
      links := Function.update state.links nodeID fun nbrID =>
        state.links nodeID nbrID ++ blocksTo nbrID sent } := by
  refine ⟨fun other arg member => ?_, fun other nbrID block member => ?_, clean.pkts⟩
  · by_cases same : other = nodeID
    · simp only [same, Function.update_self] at member
      exact clean.args nodeID arg (fewer arg member)
    · simp only [Function.update_of_ne same] at member
      exact clean.args other arg member
  · by_cases same : other = nodeID
    · simp only [same, Function.update_self, List.mem_append] at member
      apply member.elim (clean.blocks nodeID nbrID block)
      intro written
      obtain ⟨pair, listed, taken⟩ := List.mem_filterMap.mp written
      split_ifs at taken
      cases taken
      exact cleanBlocks pair listed
    · simp only [Function.update_of_ne same] at member
      exact clean.blocks other nbrID block member

theorem listen_clean {nbrID : Int32} {blocks : List (List Byte)} {pkt : MnpPkt}
    (fewer : ∀ block ∈ blocks, block ∈ state.links nbrID nodeID)
    (cleanPkt : Clean markers pkt.image) :
    OverlayState.Clean { state with
      links := Function.update state.links nbrID
        (Function.update (state.links nbrID) nodeID blocks)
      received := Function.update state.received nodeID
        (Function.update (state.received nodeID) nbrID pkt)
      toNetwork := Function.update state.toNetwork nodeID
        (state.toNetwork nodeID ++ [pkt]) } := by
  refine ⟨clean.args, fun sender receiver block member => ?_, fun other received member => ?_⟩
  · by_cases sends : sender = nbrID
    · by_cases receives : receiver = nodeID
      · simp only [sends, receives, Function.update_self] at member
        exact clean.blocks nbrID nodeID block (fewer block member)
      · simp only [sends, Function.update_self, Function.update_of_ne receives] at member
        exact clean.blocks nbrID receiver block member
    · simp only [Function.update_of_ne sends] at member
      exact clean.blocks sender receiver block member
  · by_cases same : other = nodeID
    · simp only [same, Function.update_self, List.mem_append, List.mem_singleton] at member
      exact member.elim (clean.pkts nodeID received) fun last => last ▸ cleanPkt
    · simp only [Function.update_of_ne same] at member
      exact clean.pkts other received member

end Clean

theorem connections_kept {state : ServedState} {nodeID : Int32}
    {turn : List WaitEvent × WaitState} {before : Nat}
    (turned : waitTurn nodeID (state.traffic.tables nodeID).routingTable
      (state.traffic.transport nodeID) = some turn)
    (accepted : state.transportConnection nodeID = some before) (stays : .close ∉ turn.1) :
    state.connectionsAfter (.waitTransport nodeID) = some state.transportConnection := by
  have after : connectionAfter turn.1 (state.transportConnection nodeID) = some (some before) := by
    rw [connectionAfter, accepted, if_neg (by simp), if_neg stays]
  have same : Function.update state.transportConnection nodeID (some before) =
      state.transportConnection := by
    rw [← accepted, Function.update_eq_self]
  simp only [ServedState.connectionsAfter, turned, after, same, Option.bind_eq_bind,
    Option.bind_some]
  rfl

theorem served_turn {overlay : ConnectedOverlay} {state : ServedState} {next : TrafficState}
    {event : TrafficEvent}
    (kept : state.connectionsAfter event = some state.transportConnection)
    (stepped : overlay.step state.traffic event = some next) :
    overlay.servedStep state (.turn event) = some ⟨next, state.transportConnection⟩ := by
  rw [ConnectedOverlay.servedStep, kept, stepped]
  rfl

theorem sendpkt_arg_image (arg : SendpktArg) :
    arg.image = int32Codec.encode arg.nextNodeID ++
      (mnpHdrCodec.encode arg.pkt.header ++ arg.pkt.data.toList) := rfl

def pairArg : SendpktArg := ⟨1, transportPacket 2 ⟨1, Seg.cleared⟩⟩

theorem pair_arg_no_escape : markers.escape ∉ pairArg.image := by
  have header : markers.escape ∉ int32Codec.encode 1 ++
      mnpHdrCodec.encode ⟨2, 1, UInt16.ofNat sizeofSeg, PktType.mnp⟩ := by
    decide +kernel
  rw [sendpkt_arg_image, ← List.append_assoc, List.mem_append]
  rintro (front | data)
  · exact header front
  · rw [pairArg, transport_packet_data, cleared_seg_image] at data
    exact absurd (List.eq_of_mem_replicate data) (by decide)

theorem pair_pkt_clean : Clean markers pairArg.pkt.image :=
  clean_of_no_escape fun stored => pair_arg_no_escape (List.mem_append_right _ stored)

theorem cleared_segment_clean {nodeID : Int32} (plain : markers.escape ∉ int32Codec.encode nodeID) :
    Clean markers (sendsegArgCodec.encode ⟨nodeID, Seg.cleared⟩) := by
  refine clean_of_no_escape fun stored => ?_
  rcases List.mem_append.mp stored with inNodeID | inSeg
  · exact plain inNodeID
  · rw [cleared_seg_image] at inSeg
    exact absurd (List.eq_of_mem_replicate inSeg) (by decide)

theorem pair_reads (rt : Routingtable) :
    waitTurn 2 rt (.accepting MnpPkt.cleared [transportStream [⟨1, Seg.cleared⟩]]) =
      some ([.accept], .sending 1 pairArg.pkt [] []) := by
  have read : getsegToSend (transportStream [⟨1, Seg.cleared⟩]) = .got ⟨1, Seg.cleared⟩ [] := by
    rw [transport_stream_eq, List.flatMap_cons]
    exact recv_record_clean sendsegArgCodec _ (cleared_segment_clean (by decide)) _
  have turn : waitStep 2 rt (.accepting MnpPkt.cleared [transportStream [⟨1, Seg.cleared⟩]]) =
      ([.accept], .sending 1 pairArg.pkt [] []) := by
    rw [waitStep, read]
    exact congrArg (fun pkt => ([WaitEvent.accept], WaitState.sending 1 pkt [] []))
      (prepared_with_segment MnpPkt.cleared 2 ⟨1, Seg.cleared⟩)
  rw [wait_turn_goes (by simp [turn]), turn]

theorem pair_sends {rt : Routingtable} (next : routingtableGetnextnode rt 1 = 1) :
    waitTurn 2 rt (.sending 1 pairArg.pkt [] []) =
      some ([.overlaySendpkt 1 pairArg.pkt], .sending 1 pairArg.pkt [] []) := by
  have turn : waitStep 2 rt (.sending 1 pairArg.pkt [] []) =
      ([.overlaySendpkt 1 pairArg.pkt], .sending 1 pairArg.pkt [] []) := by
    have sends (pkt : MnpPkt) : waitStep 2 rt (.sending 1 pkt [] []) =
        ([.overlaySendpkt (routingtableGetnextnode rt pkt.header.destNodeID) pkt],
          .sending 1 pkt [] []) := by
      rw [waitStep, if_pos (by decide)]
    rw [sends, pairArg, transport_header, next]
  rw [wait_turn_goes (by simp [turn]), turn]

def pairAccepted : ServedState where
  traffic := pairOverlay.create pairMemory
  transportConnection := Function.update (Function.update (fun _ => none) 2 (some 0)) 1 (some 0)

def pairEvents : List ServedEvent :=
  [.accept 2, .accept 1, .turn (.waitTransport 2), .turn (.waitTransport 2),
    .turn (.waitNetwork 2), .turn (.listenToNeighbor 1 2),
    .turn (.pkthandler 1 ⟨0, fun _ => ⟨0, 0⟩⟩ clearMemory)]

theorem pair_carries : CarriesSegment pairArg.pkt := transport_carries 2 ⟨1, Seg.cleared⟩

section PairSteps

variable {state : TrafficState} (clean : state.overlay.Clean)
  (calls : state.overlay.calls = [])
include clean calls

theorem pair_written (queue : state.overlay.toOverlay 2 = [pairArg])
    (link : state.overlay.links 2 1 = []) (arrived : state.overlay.toNetwork 1 = []) :
    ∃ next, pairOverlay.step state (.waitNetwork 2) = some next ∧ next.overlay.Clean ∧
      next.overlay.calls = [] ∧ next.overlay.links 2 1 = [pairArg.pkt.sentBytes] ∧
      next.overlay.toNetwork 1 = [] := by
  have sent : waitNetworkTurn (pairOverlay.nt 2).entries pairArg =
      some [(1, pairArg.pkt.sentBytes)] :=
    wait_network_neighbor (oneNeighbor 1 one_positive one_single) ⟨1, 3⟩
      (List.mem_singleton.mpr rfl) (carried_sent pair_carries)
  refine ⟨_, traffic_wait_network (step_wait_network rfl queue sent), ?_, calls, ?_, arrived⟩
  · apply wait_network_clean clean 2 (by simp)
    intro block member
    rw [List.mem_singleton.mp member, carried_bytes pair_carries]
    exact pair_pkt_clean
  · simp [link, blocksTo]

theorem pair_received (crossing : state.overlay.links 2 1 = [pairArg.pkt.sentBytes])
    (arriving : state.overlay.toNetwork 1 = []) :
    ∃ next, pairOverlay.step state (.listenToNeighbor 1 2) = some next ∧ next.overlay.Clean ∧
      next.overlay.calls = [] ∧ next.overlay.toNetwork 1 = [pairArg.pkt] := by
  have got : recvpktBlock (state.overlay.received 1 2) pairArg.pkt.sentBytes =
      some pairArg.pkt := carried_received pair_carries _
  refine ⟨_, traffic_listen (step_listen rfl crossing got), ?_, calls, ?_⟩
  · exact listen_clean clean 1 (by simp) pair_pkt_clean
  · simp [arriving]

theorem pair_handled (waiting : state.overlay.toNetwork 1 = [pairArg.pkt]) :
    ∃ next, pairOverlay.step state (.pkthandler 1 ⟨0, fun _ => ⟨0, 0⟩⟩ clearMemory) = some next ∧
      next.overlay.Clean ∧ next.overlay.calls = [⟨1, 2, Seg.cleared⟩] := by
  have handled : pkthandlerTurn 1 (state.tables 1).routingTable (state.overlay.segment 1)
      pairArg.pkt = some (Seg.cleared, [.forwardsegToMRT 2 Seg.cleared]) := by
    have turn := pkthandler_here pair_carries (state.tables 1).routingTable
      (state.overlay.segment 1)
    rwa [show pairArg.pkt.seg = Seg.cleared from transport_seg 2 ⟨1, Seg.cleared⟩] at turn
  have tables : pkthandlerTables pairOverlay.topology.lines 1 ⟨0, fun _ => ⟨0, 0⟩⟩ clearMemory
      (state.tables 1) pairArg.pkt = some (state.tables 1) :=
    if_neg (Ne.symm route_update_not_mnp)
  refine ⟨_, traffic_pkthandler waiting tables (step_pkthandler rfl waiting handled), ?_, ?_⟩
  · refine ⟨fun other arg member => ?_, clean.blocks, fun other pkt member => ?_⟩
    · apply clean.args other arg
      by_cases same : other = 1
      · simpa [same, argsOf] using member
      · simpa only [Function.update_of_ne same] using member
    · by_cases same : other = 1
      · simp [same] at member
      · simp only [Function.update_of_ne same] at member
        exact clean.pkts other pkt member
  · rw [calls]
    rfl

end PairSteps

theorem pair_start_clean : (pairOverlay.create pairMemory).overlay.Clean :=
  ⟨fun _ _ member => absurd member List.not_mem_nil,
    fun _ _ _ member => absurd member List.not_mem_nil,
    fun _ _ member => absurd member List.not_mem_nil⟩

theorem pair_accepts : Guarded pairOverlay.servedStep
    (fun state _ => state.traffic.overlay.Clean) (pairOverlay.createServed pairMemory)
      [.accept 2, .accept 1] pairAccepted := by
  have accepts : pairOverlay.servedStep (pairOverlay.createServed pairMemory) (.accept 2) =
      some _ := rfl
  have acceptsNext : pairOverlay.servedStep
      { traffic := pairOverlay.create pairMemory
        transportConnection := Function.update (fun _ => none) 2 (some 0) } (.accept 1) =
      some pairAccepted := rfl
  apply guarded_cons pair_start_clean accepts
  apply guarded_cons pair_start_clean acceptsNext
  exact guarded_nil _

theorem pair_queues : ∃ after : TrafficState,
    Guarded pairOverlay.servedStep (fun state _ => state.traffic.overlay.Clean) pairAccepted
        [.turn (.waitTransport 2), .turn (.waitTransport 2)]
        ⟨after, pairAccepted.transportConnection⟩ ∧ after.overlay.Clean ∧
      after.overlay = (pairOverlay.create pairMemory).overlay.queue 2 [pairArg] := by
  have next : routingtableGetnextnode
      ((pairOverlay.create pairMemory).tables 2).routingTable 1 = 1 :=
    (uninformed_next_node (create_neighborly.tables 2) 1).elim And.right
      fun away => absurd pair_route away.1
  have reads := pair_reads ((pairOverlay.create pairMemory).tables 2).routingTable
  obtain ⟨one, first, held, tables, opened⟩ : ∃ after,
      pairOverlay.step (pairOverlay.create pairMemory) (.waitTransport 2) = some after ∧
        after.transport 2 = .sending 1 pairArg.pkt [] [] ∧
        after.tables = (pairOverlay.create pairMemory).tables ∧
        after.overlay = (pairOverlay.create pairMemory).overlay.queue 2 [] :=
    ⟨_, traffic_wait_transport reads,
      Function.update_self 2 _ (pairOverlay.create pairMemory).transport, rfl, rfl⟩
  have sends : waitTurn 2 (one.tables 2).routingTable (one.transport 2) =
      some ([.overlaySendpkt 1 pairArg.pkt], .sending 1 pairArg.pkt [] []) := by
    rw [held, tables]
    exact pair_sends next
  obtain ⟨two, second, filled⟩ : ∃ after,
      pairOverlay.step one (.waitTransport 2) = some after ∧
        after.overlay = one.overlay.queue 2 [pairArg] :=
    ⟨_, traffic_wait_transport sends, rfl⟩
  have cleanOne : one.overlay.Clean := opened ▸ queue_clean pair_start_clean 2 (by simp)
  have connected : pairAccepted.transportConnection 2 = some 0 := rfl
  have readKept : pairAccepted.connectionsAfter (.waitTransport 2) =
      some pairAccepted.transportConnection :=
    connections_kept reads connected (by simp)
  have sendKept : ServedState.connectionsAfter ⟨one, pairAccepted.transportConnection⟩
      (.waitTransport 2) = some pairAccepted.transportConnection :=
    connections_kept sends connected (by simp)
  refine ⟨two, ?_, ?_, ?_⟩
  · apply guarded_cons pair_start_clean (served_turn readKept first)
    apply guarded_cons cleanOne (served_turn sendKept second)
    exact guarded_nil _
  · rw [filled]
    refine queue_clean cleanOne 2 fun arg member => ?_
    rw [List.mem_singleton.mp member]
    exact clean_of_no_escape pair_arg_no_escape
  · rw [filled, opened]
    simp [OverlayState.queue]

theorem pair_served : ∃ state,
    Guarded pairOverlay.servedStep (fun state _ => state.traffic.overlay.Clean)
        (pairOverlay.createServed pairMemory) pairEvents state ∧
      state.traffic.overlay.Clean ∧ state.transportConnection = pairAccepted.transportConnection ∧
      state.traffic.overlay.calls = [⟨1, 2, Seg.cleared⟩] := by
  obtain ⟨queued, queues, clean, filled⟩ := pair_queues
  obtain ⟨written, writes, cleanWritten, uncalled, crossing, arriving⟩ :=
    pair_written clean (filled ▸ rfl) (filled ▸ rfl) (filled ▸ rfl) (filled ▸ rfl)
  obtain ⟨received, receives, cleanReceived, stillUncalled, waiting⟩ :=
    pair_received cleanWritten uncalled crossing arriving
  obtain ⟨handled, handles, cleanHandled, calls⟩ :=
    pair_handled cleanReceived stillUncalled waiting
  refine ⟨⟨handled, pairAccepted.transportConnection⟩, ?_, cleanHandled, rfl, calls⟩
  apply guarded_append pair_accepts
  apply guarded_append queues
  apply guarded_cons clean (served_turn rfl writes)
  apply guarded_cons cleanWritten (served_turn rfl receives)
  apply guarded_cons cleanReceived (served_turn rfl handles)
  exact guarded_nil _

end MiniOverlay
