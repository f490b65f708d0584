import MiniOverlay.OverlayTraffic

/-!
# What the traffic delivers

The updates of an overlay never change a route, whatever packets they are mixed with. So
an MRT process gets segments of neighbours only, and of each neighbour only copies of
the first segment that its MRT process sent.
-/

namespace MiniOverlay

open DelimitedFrames FixedByteCodec PartialRuns

set_option autoImplicit false

/-- A ROUTE_UPDATE packet of a node in which every cost is `INFINITE_COST`. -/
structure IsUpdate (nodeID : Int32) (pkt : MnpPkt) : Prop extends Unreachable nodeID pkt where
  type : pkt.header.type = PktType.routeUpdate

theorem transport_carries (nodeID : Int32) (arg : SendsegArg) :
    CarriesSegment (transportPacket nodeID arg) := ⟨rfl, rfl⟩

theorem transport_header (nodeID : Int32) (arg : SendsegArg) :
    (transportPacket nodeID arg).header =
      ⟨nodeID, arg.nodeID, UInt16.ofNat sizeofSeg, PktType.mnp⟩ := rfl

theorem transport_seg (nodeID : Int32) (arg : SendsegArg) :
    (transportPacket nodeID arg).seg = arg.seg := by
  rw [MnpPkt.seg, transport_packet_data, segCodec.decode_encode]

theorem route_update_not_mnp : PktType.routeUpdate ≠ PktType.mnp := by decide

theorem update_fits {nodeID : Int32} {pkt : MnpPkt} (update : IsUpdate nodeID pkt) :
    sizeofMnpHdr + pkt.header.length.toNat ≤ sizeofMnpPkt := by
  rw [update.length]
  decide

theorem update_sent {nodeID : Int32} {pkt : MnpPkt} (update : IsUpdate nodeID pkt) :
    sendpktBlock pkt = some pkt.sentBytes := by
  rw [sendpktBlock, if_pos (update_fits update)]

theorem update_bytes_fit {nodeID : Int32} {pkt : MnpPkt} (update : IsUpdate nodeID pkt) :
    pkt.sentBytes.length ≤ sizeofMnpPkt := by
  have fits := update_fits update
  rw [sizeof_mnp_pkt] at fits
  rw [sent_bytes_length pkt (Nat.le_of_add_le_add_left fits), sizeof_mnp_pkt]
  exact fits

theorem update_copied {nodeID : Int32} {pkt : MnpPkt} (update : IsUpdate nodeID pkt)
    (slot : MnpPkt) : IsUpdate nodeID (slot.copyInto pkt.sentBytes) := by
  obtain ⟨header, payload⟩ := header_payload_of_prefix pkt (slot.copyInto pkt.sentBytes) _
    (copy_into_image slot pkt.sentBytes (update_bytes_fit update))
  refine ⟨⟨?_, ?_, ?_⟩, ?_⟩
  · rw [header]
    exact update.src
  · rw [header]
    exact update.length
  · rw [payload]
    exact update.payload
  · rw [header]
    exact update.type

theorem update_received {nodeID : Int32} {pkt : MnpPkt} (update : IsUpdate nodeID pkt)
    (slot : MnpPkt) :
    recvpktBlock slot pkt.sentBytes = some (slot.copyInto pkt.sentBytes) := by
  rw [recvpktBlock, if_pos (update_bytes_fit update)]

/-- The packet that `recvpkt` would store in a cleared variable. -/
def blockPacket (block : List Byte) : MnpPkt := MnpPkt.cleared.copyInto block

theorem block_packet_carried {pkt : MnpPkt} (carries : CarriesSegment pkt) :
    blockPacket pkt.sentBytes = pkt := by
  have received := carried_received carries MnpPkt.cleared
  rw [recvpktBlock] at received
  split_ifs at received with fits
  exact Option.some.inj received

/-- The segments of the MNP packets from `srcNodeID` to `destNodeID`, in order. -/
def segsBetween (srcNodeID destNodeID : Int32) (pkts : List MnpPkt) : List Seg :=
  pkts.filterMap fun pkt =>
    if pkt.header.type = PktType.mnp ∧ pkt.header.srcNodeID = srcNodeID ∧
        pkt.header.destNodeID = destNodeID then some pkt.seg
    else none

/-- The segments of `srcNodeID` that `destNodeID` gave to its MRT process, in order. -/
def callsBetween (srcNodeID destNodeID : Int32) (calls : List ForwardsegCall) : List Seg :=
  calls.filterMap fun call =>
    if call.srcNodeID = srcNodeID ∧ call.nodeID = destNodeID then some call.segment else none

def OverlayState.flying (state : OverlayState) (srcNodeID destNodeID : Int32) : List Seg :=
  segsBetween srcNodeID destNodeID (state.toNetwork destNodeID) ++
    segsBetween srcNodeID destNodeID ((state.links srcNodeID destNodeID).map blockPacket) ++
      segsBetween srcNodeID destNodeID ((state.toOverlay srcNodeID).map SendpktArg.pkt)

theorem segs_between_append (srcNodeID destNodeID : Int32) (left right : List MnpPkt) :
    segsBetween srcNodeID destNodeID (left ++ right) =
      segsBetween srcNodeID destNodeID left ++ segsBetween srcNodeID destNodeID right :=
  List.filterMap_append

theorem segs_between_cons (srcNodeID destNodeID : Int32) (pkt : MnpPkt) (pkts : List MnpPkt) :
    segsBetween srcNodeID destNodeID (pkt :: pkts) =
      segsBetween srcNodeID destNodeID [pkt] ++ segsBetween srcNodeID destNodeID pkts :=
  segs_between_append srcNodeID destNodeID [pkt] pkts

theorem segs_between_update {srcNodeID destNodeID nodeID : Int32} {pkt : MnpPkt}
    (update : IsUpdate nodeID pkt) : segsBetween srcNodeID destNodeID [pkt] = [] := by
  have other : pkt.header.type ≠ PktType.mnp := update.type ▸ route_update_not_mnp
  simp [segsBetween, other]

theorem segs_between_transport (srcNodeID destNodeID nodeID : Int32) (arg : SendsegArg) :
    segsBetween srcNodeID destNodeID [transportPacket nodeID arg] =
      if nodeID = srcNodeID ∧ arg.nodeID = destNodeID then [arg.seg] else [] := by
  simp only [segsBetween, List.filterMap_cons, List.filterMap_nil, transport_seg,
    transport_header, true_and]
  split_ifs with between <;> rfl

theorem segs_between_none {srcNodeID destNodeID : Int32} {pkts : List MnpPkt}
    (each : ∀ pkt ∈ pkts, segsBetween srcNodeID destNodeID [pkt] = []) :
    segsBetween srcNodeID destNodeID pkts = [] := by
  induction pkts with
  | nil => rfl
  | cons pkt pkts ih =>
      rw [segs_between_cons, each pkt (by simp), List.nil_append]
      exact ih fun other member => each other (by simp [member])

section Keeps

variable (overlay : ConnectedOverlay) (memory : TrafficMemory)

abbrev ConnectedOverlay.Direct : Int32 → Int32 → Prop :=
  overlay.topology.DirectRoute memory.fresh

def ConnectedOverlay.Crosses (nodeID nbrID : Int32) (pkt : MnpPkt) : Prop :=
  Linked overlay.topology.lines nodeID nbrID ∧
    (IsUpdate nodeID pkt ∨
      overlay.Direct memory nodeID nbrID ∧ ∃ seg, pkt = transportPacket nodeID ⟨nbrID, seg⟩)

def ConnectedOverlay.Queued (nodeID : Int32) (arg : SendpktArg) : Prop :=
  arg.nextNodeID = broadcastNodeID ∧ IsUpdate nodeID arg.pkt ∨
    ∃ segArg, arg.pkt = transportPacket nodeID segArg ∧
      (overlay.Direct memory nodeID segArg.nodeID ∧ arg.nextNodeID = segArg.nodeID ∨
        ¬ overlay.Direct memory nodeID segArg.nodeID ∧ arg.nextNodeID = -1)

/-- No table was changed, every packet under way is an update or on a direct route, and
between two neighbours nothing is lost or added. -/
structure ConnectedOverlay.Neighborly (state : TrafficState) : Prop where
  tables : ∀ nodeID, Uninformed overlay.topology nodeID (memory.fresh nodeID) (state.tables nodeID)
  transport : ∀ nodeID,
    (state.transport nodeID).Repeats nodeID (memory.backlog nodeID) (state.sent nodeID)
  toOverlay : ∀ nodeID, ∀ arg ∈ state.overlay.toOverlay nodeID, overlay.Queued memory nodeID arg
  links : ∀ nodeID nbrID, ∀ block ∈ state.overlay.links nodeID nbrID,
    ∃ pkt, block = pkt.sentBytes ∧ overlay.Crosses memory nodeID nbrID pkt
  toNetwork : ∀ nodeID, ∀ pkt ∈ state.overlay.toNetwork nodeID,
    ∃ nbrID, overlay.Crosses memory nbrID nodeID pkt
  calls : ∀ call ∈ state.overlay.calls, overlay.Direct memory call.srcNodeID call.nodeID
  flow : ∀ srcNodeID destNodeID, overlay.Direct memory srcNodeID destNodeID →
    callsBetween srcNodeID destNodeID state.overlay.calls ++
        state.overlay.flying srcNodeID destNodeID =
      segsBetween srcNodeID destNodeID (state.sent srcNodeID)

variable {overlay memory}

theorem entry_linked {nodeID : Int32} {entry : NbrEntry}
    (member : entry ∈ (overlay.nt nodeID).entries) :
    Linked overlay.topology.lines nodeID entry.nodeID := by
  apply (overlay.topology.mem_nbr_array_iff nodeID entry.nodeID).mp
  rw [← overlay.nbrs nodeID]
  exact List.mem_map_of_mem member

theorem linked_entry {nodeID nbrID : Int32} (link : Linked overlay.topology.lines nodeID nbrID) :
    ∃ entry ∈ (overlay.nt nodeID).entries, entry.nodeID = nbrID := by
  have member := (overlay.topology.mem_nbr_array_iff nodeID nbrID).mpr link
  rw [← overlay.nbrs nodeID] at member
  exact List.mem_map.mp member

theorem uninformed_next_node {nodeID : Int32} {node : MnpNode}
    (uninformed : Uninformed overlay.topology nodeID (memory.fresh nodeID) node)
    (destNodeID : Int32) :
    overlay.Direct memory nodeID destNodeID ∧
        routingtableGetnextnode node.routingTable destNodeID = destNodeID ∨
      ¬ overlay.Direct memory nodeID destNodeID ∧
        routingtableGetnextnode node.routingTable destNodeID = -1 := by
  rw [uninformed.routingTable]
  by_cases positive : 0 < destNodeID
  · exact create_getnextnode (memory.fresh nodeID) _
      (fun nbr => overlay.topology.nbr_positive) destNodeID positive
  · refine Or.inr ⟨fun direct => positive ?_, ?_⟩
    · have link := direct_route_linked direct
      exact overlay.topology.node_positive (linked_nodes _ _ link).2
    · simp [routingtableGetnextnode, hashtableFind, positive]

theorem daemon_update {nodeID : Int32} {node : MnpNode}
    (uninformed : Uninformed overlay.topology nodeID (memory.fresh nodeID) node)
    (beyond : Nat → Int32) (packet : MnpPkt) :
    ∃ sent, routeupdateDaemon overlay.topology.lines nodeID beyond packet node = some sent ∧
      IsUpdate nodeID sent := by
  obtain ⟨sent, sends, unreachable⟩ :=
    daemon_unreachable overlay.topology uninformed beyond packet
  refine ⟨sent, sends, unreachable, ?_⟩
  rw [routeupdateDaemon, if_pos overlay.topology.few] at sends
  cases sends
  rfl

theorem update_broadcast {nodeID : Int32} {pkt : MnpPkt} (update : IsUpdate nodeID pkt) :
    ∃ sent, waitNetworkTurn (overlay.nt nodeID).entries ⟨broadcastNodeID, pkt⟩ = some sent ∧
      ∀ nbrID, ∀ block ∈ blocksTo nbrID sent,
        block = pkt.sentBytes ∧ Linked overlay.topology.lines nodeID nbrID := by
  let entries := (overlay.nt nodeID).entries.filter fun entry => 0 ≤ entry.conn
  refine ⟨entries.map fun entry => (entry.nodeID, pkt.sentBytes), ?_, ?_⟩
  · rw [waitNetworkTurn, waitNetworkEntries, if_pos rfl]
    simp only [update_sent update, Option.map_some]
    exact List.mapM_pure
  · intro nbrID block member
    obtain ⟨pair, listed, taken⟩ := List.mem_filterMap.mp member
    obtain ⟨entry, kept, rfl⟩ := List.mem_map.mp listed
    split_ifs at taken with same
    cases taken
    exact ⟨rfl, same ▸ entry_linked (List.mem_filter.mp kept).1⟩

theorem queued_sent {nodeID : Int32} {arg : SendpktArg}
    (queued : overlay.Queued memory nodeID arg) :
    ∃ sent, waitNetworkTurn (overlay.nt nodeID).entries arg = some sent ∧
      (∀ nbrID, ∀ block ∈ blocksTo nbrID sent,
        ∃ pkt, block = pkt.sentBytes ∧ overlay.Crosses memory nodeID nbrID pkt) ∧
      ∀ destNodeID, overlay.Direct memory nodeID destNodeID →
        segsBetween nodeID destNodeID ((blocksTo destNodeID sent).map blockPacket) =
          segsBetween nodeID destNodeID [arg.pkt] := by
  obtain ⟨nextNodeID, pkt⟩ := arg
  rcases queued with ⟨rfl, update⟩ | ⟨segArg, rfl, ⟨direct, rfl⟩ | ⟨missing, rfl⟩⟩
  · obtain ⟨sent, turn, blocks⟩ : ∃ sent, waitNetworkTurn (overlay.nt nodeID).entries
        ⟨broadcastNodeID, pkt⟩ = some sent ∧ _ := update_broadcast update
    refine ⟨sent, turn, ?_, ?_⟩
    · intro nbrID block member
      obtain ⟨same, link⟩ := blocks nbrID block member
      exact ⟨pkt, same, link, Or.inl update⟩
    · intro destNodeID _
      rw [segs_between_update update]
      apply segs_between_none
      intro got member
      obtain ⟨block, listed, rfl⟩ := List.mem_map.mp member
      rw [(blocks destNodeID block listed).1]
      exact segs_between_update (update_copied update MnpPkt.cleared)
  · have link := direct_route_linked direct
    obtain ⟨entry, member, named⟩ := linked_entry link
    have turn := wait_network_neighbor (overlay.nt nodeID) entry member
      (carried_sent (transport_carries nodeID segArg))
    rw [named] at turn
    refine ⟨_, turn, ?_, ?_⟩
    · intro nbrID block listed
      simp only [blocksTo, List.filterMap_cons, List.filterMap_nil] at listed
      split_ifs at listed with same
      · rw [← same]
        exact ⟨_, List.mem_singleton.mp listed, link, Or.inr ⟨direct, segArg.seg, rfl⟩⟩
      · cases listed
    · intro destNodeID _
      by_cases same : segArg.nodeID = destNodeID
      · simp [blocksTo, same, block_packet_carried (transport_carries nodeID segArg)]
      · have other : ¬ (nodeID = nodeID ∧ segArg.nodeID = destNodeID) := fun both => same both.2
        rw [segs_between_transport, if_neg other]
        simp [blocksTo, same, segsBetween]
  · have absent : ∀ entry ∈ (overlay.nt nodeID).entries, entry.nodeID ≠ -1 := by
      intro entry member same
      have positive := (overlay.nt nodeID).positive entry member
      rw [same] at positive
      exact absurd positive (by decide)
    have single : (-1 : Int32) ≠ broadcastNodeID := by decide
    have turn := wait_network_other (overlay.nt nodeID) ⟨-1, transportPacket nodeID segArg⟩ single
      absent
    refine ⟨_, turn, by simp [blocksTo], ?_⟩
    intro destNodeID direct
    have other : ¬ (nodeID = nodeID ∧ segArg.nodeID = destNodeID) :=
      fun both => missing (both.2 ▸ direct)
    rw [segs_between_transport, if_neg other]
    rfl

theorem crosses_segs_other {nbrID nodeID srcNodeID destNodeID : Int32} {pkt : MnpPkt}
    (crosses : overlay.Crosses memory nbrID nodeID pkt)
    (other : nbrID ≠ srcNodeID ∨ nodeID ≠ destNodeID) :
    segsBetween srcNodeID destNodeID [pkt] = [] := by
  obtain ⟨_, update | ⟨_, seg, rfl⟩⟩ := crosses
  · exact segs_between_update update
  · rw [segs_between_transport, if_neg fun both => other.elim (· both.1) (· both.2)]

theorem crosses_received {nbrID nodeID : Int32} {pkt : MnpPkt}
    (crosses : overlay.Crosses memory nbrID nodeID pkt) (slot : MnpPkt) :
    ∃ got, recvpktBlock slot pkt.sentBytes = some got ∧
      overlay.Crosses memory nbrID nodeID got ∧
      ∀ srcNodeID destNodeID, segsBetween srcNodeID destNodeID [got] =
        segsBetween srcNodeID destNodeID [blockPacket pkt.sentBytes] := by
  obtain ⟨link, update | ⟨direct, seg, rfl⟩⟩ := crosses
  · have copied := update_copied update slot
    refine ⟨_, update_received update slot, ⟨link, Or.inl copied⟩, ?_⟩
    intro srcNodeID destNodeID
    rw [segs_between_update copied, blockPacket,
      segs_between_update (update_copied update MnpPkt.cleared)]
  · have carries := transport_carries nbrID ⟨nodeID, seg⟩
    refine ⟨_, carried_received carries slot, ⟨link, Or.inr ⟨direct, seg, rfl⟩⟩, ?_⟩
    intro srcNodeID destNodeID
    rw [block_packet_carried carries]

/-- What `pkthandler` does with a packet of a neighbour: the routes stay, nothing is
forwarded, and a segment is given to the MRT process. -/
theorem crosses_handled {nbrID nodeID : Int32} {packet : MnpPkt} {node : MnpNode}
    (crosses : overlay.Crosses memory nbrID nodeID packet)
    (uninformed : Uninformed overlay.topology nodeID (memory.fresh nodeID) node)
    (pktUpdate : PktRouteupdate) (fresh : Nat → Int32) (segment : Seg) :
    ∃ after handled,
      pkthandlerTables overlay.topology.lines nodeID pktUpdate fresh node packet = some after ∧
      Uninformed overlay.topology nodeID (memory.fresh nodeID) after ∧
      pkthandlerTurn nodeID node.routingTable segment packet = some handled ∧
      argsOf handled.2 = [] ∧
      (∀ call ∈ callsOf nodeID handled.2, overlay.Direct memory call.srcNodeID call.nodeID) ∧
      ∀ srcNodeID destNodeID, callsBetween srcNodeID destNodeID (callsOf nodeID handled.2) =
        segsBetween srcNodeID destNodeID [packet] := by
  obtain ⟨link, update | ⟨direct, seg, rfl⟩⟩ := crosses
  · obtain ⟨after, handled, kept⟩ := update_uninformed overlay.topology uninformed pktUpdate fresh
      (linked_symm link) packet update.toUnreachable
    have turn : pkthandlerTurn nodeID node.routingTable segment packet = some (segment, []) := by
      rw [pkthandlerTurn, if_pos update.type]
    refine ⟨after, _, ?_, kept, turn, rfl, by simp [callsOf], ?_⟩
    · rw [pkthandlerTables, if_pos update.type]
      exact handled
    · intro srcNodeID destNodeID
      rw [segs_between_update update]
      rfl
  · have carries := transport_carries nbrID ⟨nodeID, seg⟩
    have other : ¬ (transportPacket nbrID ⟨nodeID, seg⟩).header.type = PktType.routeUpdate :=
      Ne.symm route_update_not_mnp
    have turn := pkthandler_here carries node.routingTable segment
    refine ⟨node, _, ?_, uninformed, turn, rfl, ?_, ?_⟩
    · rw [pkthandlerTables, if_neg other]
    · intro call member
      rw [List.mem_singleton.mp member]
      exact direct
    · intro srcNodeID destNodeID
      rw [segs_between_transport, transport_seg]
      simp only [callsBetween, callsOf, List.filterMap_cons, List.filterMap_nil,
        transport_header]
      split_ifs with between <;> rfl

theorem calls_between_append (srcNodeID destNodeID : Int32) (left right : List ForwardsegCall) :
    callsBetween srcNodeID destNodeID (left ++ right) =
      callsBetween srcNodeID destNodeID left ++ callsBetween srcNodeID destNodeID right :=
  List.filterMap_append

theorem flying_queue (state : OverlayState) (nodeID : Int32) (args : List SendpktArg)
    (srcNodeID destNodeID : Int32) :
    (state.queue nodeID args).flying srcNodeID destNodeID =
      state.flying srcNodeID destNodeID ++
        if srcNodeID = nodeID then segsBetween srcNodeID destNodeID (args.map SendpktArg.pkt)
        else [] := by
  simp only [OverlayState.flying, OverlayState.queue]
  by_cases same : srcNodeID = nodeID
  · rw [if_pos same, same, Function.update_self, List.map_append, segs_between_append]
    simp only [List.append_assoc]
  · rw [if_neg same, Function.update_of_ne same, List.append_nil]

theorem queued_of_queue {state : OverlayState} {nodeID : Int32} {args : List SendpktArg}
    (queued : ∀ other, ∀ arg ∈ state.toOverlay other, overlay.Queued memory other arg)
    (added : ∀ arg ∈ args, overlay.Queued memory nodeID arg) :
    ∀ other, ∀ arg ∈ (state.queue nodeID args).toOverlay other,
      overlay.Queued memory other arg := by
  intro other arg member
  rw [OverlayState.queue] at member
  by_cases same : other = nodeID
  · simp only [same, Function.update_self] at member
    rw [same]
    rcases List.mem_append.mp member with old | new
    · exact queued nodeID arg old
    · exact added arg new
  · simp only [Function.update_of_ne same] at member
    exact queued other arg member

theorem transport_turn {state : TrafficState} (neighborly : overlay.Neighborly memory state)
    (nodeID : Int32) (goes : ¬ state.Aborts (.waitTransport nodeID)) :
    ∃ next, overlay.step state (.waitTransport nodeID) = some next ∧
      overlay.Neighborly memory next ∧
      next.transport nodeID =
        (waitStep nodeID (state.tables nodeID).routingTable (state.transport nodeID)).2 ∧
      next.sent nodeID = state.sent nodeID ++ (sendpktArgs
        (waitStep nodeID (state.tables nodeID).routingTable (state.transport nodeID)).1).map
          SendpktArg.pkt := by
  obtain ⟨repeats, sends⟩ := wait_step_repeats (neighborly.transport nodeID)
    (state.tables nodeID).routingTable
  refine ⟨_, traffic_wait_transport (wait_turn_goes goes),
    ⟨neighborly.tables, ?_, ?_, neighborly.links, neighborly.toNetwork, neighborly.calls, ?_⟩,
    by simp, by simp⟩
  · intro other
    by_cases same : other = nodeID
    · rw [same]
      simpa only [Function.update_self] using repeats
    · simpa only [Function.update_of_ne same] using neighborly.transport other
  · apply queued_of_queue neighborly.toOverlay
    intro sentArg member
    obtain ⟨arg, _, rfl⟩ := sends sentArg member
    refine Or.inr ⟨arg, rfl, ?_⟩
    exact uninformed_next_node (neighborly.tables nodeID) arg.nodeID
  · intro srcNodeID destNodeID direct
    have before := neighborly.flow srcNodeID destNodeID direct
    dsimp only
    rw [flying_queue, ← List.append_assoc]
    change callsBetween srcNodeID destNodeID state.overlay.calls ++
      state.overlay.flying srcNodeID destNodeID ++ _ = _
    rw [before]
    by_cases same : srcNodeID = nodeID
    · rw [if_pos same, same, Function.update_self, segs_between_append]
    · rw [if_neg same, Function.update_of_ne same, List.append_nil]

theorem daemon_turn {state : TrafficState} (neighborly : overlay.Neighborly memory state)
    (nodeID : Int32) (beyond : Nat → Int32) (packet : MnpPkt) :
    ∃ next, overlay.step state (.routeupdateDaemon nodeID beyond packet) = some next ∧
      overlay.Neighborly memory next := by
  obtain ⟨sent, sends, update⟩ := daemon_update (neighborly.tables nodeID) beyond packet
  refine ⟨{ state with overlay := state.overlay.queue nodeID [⟨broadcastNodeID, sent⟩] }, ?_,
    neighborly.tables, neighborly.transport, ?_, neighborly.links, neighborly.toNetwork,
    neighborly.calls, ?_⟩
  · rw [ConnectedOverlay.step, sends]
    rfl
  · apply queued_of_queue neighborly.toOverlay
    intro arg member
    rw [List.mem_singleton.mp member]
    exact Or.inl ⟨rfl, update⟩
  · intro srcNodeID destNodeID direct
    have none : segsBetween srcNodeID destNodeID
        ([(⟨broadcastNodeID, sent⟩ : SendpktArg)].map SendpktArg.pkt) = [] :=
      segs_between_update update
    rw [flying_queue, none, ite_self, List.append_nil]
    exact neighborly.flow srcNodeID destNodeID direct

theorem wait_network_turn {state : TrafficState} (neighborly : overlay.Neighborly memory state)
    (nodeID : Int32) (waiting : state.overlay.toOverlay nodeID ≠ []) :
    ∃ next, overlay.step state (.waitNetwork nodeID) = some next ∧
      overlay.Neighborly memory next ∧ next.sent = state.sent ∧
      next.overlay.toOverlay nodeID = (state.overlay.toOverlay nodeID).tail := by
  obtain ⟨arg, args, queue⟩ := List.exists_cons_of_ne_nil waiting
  have queued := neighborly.toOverlay nodeID arg (by simp [queue])
  obtain ⟨sent, turn, blocks, same⟩ := queued_sent queued
  have stepped : (overlay.network state.tables).step state.overlay (.waitNetwork nodeID) =
      some _ :=
    step_wait_network rfl queue turn
  refine ⟨_, traffic_wait_network stepped, ⟨neighborly.tables, neighborly.transport, ?_, ?_,
    neighborly.toNetwork, neighborly.calls, ?_⟩, rfl, by simp [queue]⟩
  · intro other otherArg member
    by_cases here : other = nodeID
    · simp only [here, Function.update_self] at member
      rw [here]
      exact neighborly.toOverlay nodeID otherArg (by simp [queue, member])
    · simp only [Function.update_of_ne here] at member
      exact neighborly.toOverlay other otherArg member
  · intro sender nbrID block member
    by_cases here : sender = nodeID
    · simp only [here, Function.update_self] at member
      rw [here]
      rcases List.mem_append.mp member with old | new
      · exact neighborly.links nodeID nbrID block old
      · exact blocks nbrID block new
    · simp only [Function.update_of_ne here] at member
      exact neighborly.links sender nbrID block member
  · intro srcNodeID destNodeID direct
    rw [← neighborly.flow srcNodeID destNodeID direct]
    simp only [OverlayState.flying]
    by_cases here : srcNodeID = nodeID
    · rw [here] at direct ⊢
      rw [Function.update_self, Function.update_self, queue, List.map_append, List.map_cons,
        segs_between_append, segs_between_cons _ _ arg.pkt, same destNodeID direct]
      simp only [List.append_assoc]
    · rw [Function.update_of_ne here, Function.update_of_ne here]

theorem listen_turn {state : TrafficState} (neighborly : overlay.Neighborly memory state)
    (nodeID nbrID : Int32) (crossing : state.overlay.links nbrID nodeID ≠ []) :
    ∃ next, overlay.step state (.listenToNeighbor nodeID nbrID) = some next ∧
      overlay.Neighborly memory next ∧ next.sent = state.sent ∧
      next.overlay.toOverlay = state.overlay.toOverlay ∧
      next.overlay.links nbrID nodeID = (state.overlay.links nbrID nodeID).tail := by
  obtain ⟨block, blocks, queue⟩ := List.exists_cons_of_ne_nil crossing
  obtain ⟨pkt, rfl, crosses⟩ := neighborly.links nbrID nodeID block (by simp [queue])
  obtain ⟨got, received, arrives, same⟩ :=
    crosses_received crosses (state.overlay.received nodeID nbrID)
  have stepped : (overlay.network state.tables).step state.overlay
      (.listenToNeighbor nodeID nbrID) = some _ :=
    step_listen rfl queue received
  refine ⟨_, traffic_listen stepped, ⟨neighborly.tables, neighborly.transport,
    neighborly.toOverlay, ?_, ?_, neighborly.calls, ?_⟩, rfl, rfl, by simp [queue]⟩
  · intro sender receiver block member
    apply neighborly.links sender receiver block
    by_cases here : sender = nbrID
    · by_cases there : receiver = nodeID
      · simp only [here, there, Function.update_self] at member ⊢
        simp [queue, member]
      · simpa only [here, Function.update_self, Function.update_of_ne there] using member
    · simpa only [Function.update_of_ne here] using member
  · intro other packet member
    by_cases here : other = nodeID
    · simp only [here, Function.update_self] at member
      rw [here]
      rcases List.mem_append.mp member with old | new
      · exact neighborly.toNetwork nodeID packet old
      · rw [List.mem_singleton.mp new]
        exact ⟨nbrID, arrives⟩
    · simp only [Function.update_of_ne here] at member
      exact neighborly.toNetwork other packet member
  · intro srcNodeID destNodeID direct
    rw [← neighborly.flow srcNodeID destNodeID direct]
    simp only [OverlayState.flying]
    by_cases here : srcNodeID = nbrID
    · by_cases there : destNodeID = nodeID
      · rw [here, there, Function.update_self, Function.update_self, Function.update_self, queue,
          List.map_cons, segs_between_append, segs_between_cons _ _ (blockPacket pkt.sentBytes),
          same]
        simp only [List.append_assoc]
      · rw [here, Function.update_self, Function.update_of_ne there, Function.update_of_ne there]
    · rw [Function.update_of_ne here]
      by_cases there : destNodeID = nodeID
      · rw [there, Function.update_self, segs_between_append,
          crosses_segs_other arrives (Or.inl (Ne.symm here)), List.append_nil]
      · rw [Function.update_of_ne there]

theorem pkthandler_turn {state : TrafficState} (neighborly : overlay.Neighborly memory state)
    (nodeID : Int32) (pktUpdate : PktRouteupdate) (fresh : Nat → Int32)
    (arrived : state.overlay.toNetwork nodeID ≠ []) :
    ∃ next, overlay.step state (.pkthandler nodeID pktUpdate fresh) = some next ∧
      overlay.Neighborly memory next ∧ next.sent = state.sent ∧
      next.overlay.toOverlay = state.overlay.toOverlay ∧
      next.overlay.links = state.overlay.links ∧
      next.overlay.toNetwork nodeID = (state.overlay.toNetwork nodeID).tail := by
  obtain ⟨packet, packets, queue⟩ := List.exists_cons_of_ne_nil arrived
  obtain ⟨nbrID, crosses⟩ := neighborly.toNetwork nodeID packet (by simp [queue])
  obtain ⟨after, handled, tables, uninformed, turn, none, direct, same⟩ :=
    crosses_handled crosses (neighborly.tables nodeID) pktUpdate fresh
      (state.overlay.segment nodeID)
  have stepped : (overlay.network state.tables).step state.overlay (.pkthandler nodeID) =
      some _ :=
    step_pkthandler rfl queue turn
  rw [none] at stepped
  refine ⟨_, traffic_pkthandler queue tables stepped, ⟨?_, neighborly.transport, ?_,
    neighborly.links, ?_, ?_, ?_⟩, rfl, by simp, rfl, by simp [queue]⟩
  · intro other
    by_cases here : other = nodeID
    · rw [here]
      simpa only [Function.update_self] using uninformed
    · simpa only [Function.update_of_ne here] using neighborly.tables other
  · intro other arg member
    apply neighborly.toOverlay other arg
    by_cases here : other = nodeID
    · simpa only [here, Function.update_self, List.append_nil] using member
    · simpa only [Function.update_of_ne here] using member
  · intro other pkt member
    apply neighborly.toNetwork other pkt
    by_cases here : other = nodeID
    · simp only [here, Function.update_self] at member ⊢
      simp [queue, member]
    · simpa only [Function.update_of_ne here] using member
  · intro call member
    rcases List.mem_append.mp member with old | new
    · exact neighborly.calls call old
    · exact direct call new
  · intro srcNodeID destNodeID route
    rw [← neighborly.flow srcNodeID destNodeID route]
    simp only [OverlayState.flying, List.append_nil, Function.update_eq_self]
    rw [calls_between_append, same]
    by_cases here : destNodeID = nodeID
    · rw [here, Function.update_self, queue, segs_between_cons _ _ packet packets]
      simp only [List.append_assoc]
    · rw [Function.update_of_ne here, crosses_segs_other crosses (Or.inr (Ne.symm here)),
        List.append_nil]

theorem create_neighborly : overlay.Neighborly memory (overlay.create memory) where
  tables nodeID := create_uninformed overlay.topology nodeID (memory.beyond nodeID)
    (memory.fresh nodeID)
  transport _ := ⟨rfl, rfl⟩
  toOverlay _ _ member := absurd member List.not_mem_nil
  links _ _ _ member := absurd member List.not_mem_nil
  toNetwork _ _ member := absurd member List.not_mem_nil
  calls _ member := absurd member List.not_mem_nil
  flow _ _ _ := rfl

theorem turn_neighborly {state : TrafficState} (neighborly : overlay.Neighborly memory state)
    (event : TrafficEvent) (busy : ¬ state.Waits event) (goes : ¬ state.Aborts event) :
    ∃ next, overlay.step state event = some next ∧ overlay.Neighborly memory next := by
  cases event with
  | waitTransport nodeID =>
      obtain ⟨next, stepped, kept, _⟩ := transport_turn neighborly nodeID goes
      exact ⟨next, stepped, kept⟩
  | routeupdateDaemon nodeID beyond packet => exact daemon_turn neighborly nodeID beyond packet
  | waitNetwork nodeID =>
      obtain ⟨next, stepped, kept, _⟩ := wait_network_turn neighborly nodeID busy
      exact ⟨next, stepped, kept⟩
  | listenToNeighbor nodeID nbrID =>
      obtain ⟨next, stepped, kept, _⟩ := listen_turn neighborly nodeID nbrID busy
      exact ⟨next, stepped, kept⟩
  | pkthandler nodeID pktUpdate fresh =>
      obtain ⟨next, stepped, kept, _⟩ := pkthandler_turn neighborly nodeID pktUpdate fresh busy
      exact ⟨next, stepped, kept⟩

theorem waits_no_step {state : TrafficState} {event : TrafficEvent} (waits : state.Waits event) :
    overlay.step state event = none := by
  cases event with
  | waitTransport nodeID => exact absurd waits id
  | routeupdateDaemon nodeID beyond packet => exact absurd waits id
  | waitNetwork nodeID =>
      have empty : state.overlay.toOverlay nodeID = [] := waits
      simp [ConnectedOverlay.step, Network.step, ConnectedOverlay.network, empty]
  | listenToNeighbor nodeID nbrID =>
      have empty : state.overlay.links nbrID nodeID = [] := waits
      simp [ConnectedOverlay.step, Network.step, ConnectedOverlay.network, empty]
  | pkthandler nodeID pktUpdate fresh =>
      have empty : state.overlay.toNetwork nodeID = [] := waits
      simp [ConnectedOverlay.step, empty]

theorem aborts_no_step {state : TrafficState} {event : TrafficEvent}
    (aborts : state.Aborts event) : overlay.step state event = none := by
  cases event with
  | waitTransport nodeID =>
      rw [ConnectedOverlay.step, wait_turn_aborts aborts]
      rfl
  | routeupdateDaemon nodeID beyond packet => exact absurd aborts id
  | waitNetwork nodeID => exact absurd aborts id
  | listenToNeighbor nodeID nbrID => exact absurd aborts id
  | pkthandler nodeID pktUpdate fresh => exact absurd aborts id

theorem no_step_iff {state : TrafficState} (neighborly : overlay.Neighborly memory state)
    (event : TrafficEvent) :
    overlay.step state event = none ↔ state.Waits event ∨ state.Aborts event := by
  constructor
  · intro none
    by_contra goes
    obtain ⟨next, stepped, _⟩ := turn_neighborly neighborly event
      (fun waits => goes (.inl waits)) fun aborts => goes (.inr aborts)
    cases none.symm.trans stepped
  · intro stops
    rcases stops with waits | aborts
    · exact waits_no_step waits
    · exact aborts_no_step aborts

theorem step_neighborly {state next : TrafficState} {event : TrafficEvent}
    (neighborly : overlay.Neighborly memory state)
    (stepped : overlay.step state event = some next) :
    overlay.Neighborly memory next := by
  have goes : ¬ (state.Waits event ∨ state.Aborts event) := by
    intro stops
    cases ((no_step_iff neighborly event).mpr stops).symm.trans stepped
  obtain ⟨moved, turned, kept⟩ := turn_neighborly neighborly event
    (fun waits => goes (.inl waits)) fun aborts => goes (.inr aborts)
  cases turned.symm.trans stepped
  exact kept

theorem run_neighborly {events : List TrafficEvent} {state : TrafficState}
    (run : overlay.run (overlay.create memory) events = some state) :
    overlay.Neighborly memory state :=
  fold_keeps overlay.step (overlay.Neighborly memory) events
    (fun _ _ _ _ neighborly stepped => step_neighborly neighborly stepped) create_neighborly run

theorem overlay_empties {state : TrafficState} (neighborly : overlay.Neighborly memory state)
    (nodeID : Int32) :
    ∃ events last, overlay.run state events = some last ∧
      (overlay.Neighborly memory last ∧ last.sent = state.sent) ∧
      last.overlay.toOverlay nodeID = [] := by
  refine fold_empties overlay.step (fun other => other.overlay.toOverlay nodeID)
    (fun other => overlay.Neighborly memory other ∧ other.sent = state.sent) ?_ ⟨neighborly, rfl⟩
  rintro before ⟨kept, same⟩ waiting
  obtain ⟨next, stepped, after, sent, shorter⟩ := wait_network_turn kept nodeID waiting
  exact ⟨_, next, stepped, ⟨after, sent.trans same⟩, shorter⟩

theorem link_empties {state : TrafficState} (neighborly : overlay.Neighborly memory state)
    (nodeID nbrID : Int32) :
    ∃ events last, overlay.run state events = some last ∧
      (overlay.Neighborly memory last ∧ last.sent = state.sent ∧
        last.overlay.toOverlay = state.overlay.toOverlay) ∧
      last.overlay.links nbrID nodeID = [] := by
  refine fold_empties overlay.step (fun other => other.overlay.links nbrID nodeID)
    (fun other => overlay.Neighborly memory other ∧ other.sent = state.sent ∧
      other.overlay.toOverlay = state.overlay.toOverlay) ?_ ⟨neighborly, rfl, rfl⟩
  rintro before ⟨kept, same, queue⟩ crossing
  obtain ⟨next, stepped, after, sent, toOverlay, shorter⟩ :=
    listen_turn kept nodeID nbrID crossing
  exact ⟨_, next, stepped, ⟨after, sent.trans same, toOverlay.trans queue⟩, shorter⟩

theorem network_empties {state : TrafficState} (neighborly : overlay.Neighborly memory state)
    (nodeID : Int32) :
    ∃ events last, overlay.run state events = some last ∧
      (overlay.Neighborly memory last ∧ last.sent = state.sent ∧
        last.overlay.toOverlay = state.overlay.toOverlay ∧
        last.overlay.links = state.overlay.links) ∧
      last.overlay.toNetwork nodeID = [] := by
  refine fold_empties overlay.step (fun other => other.overlay.toNetwork nodeID)
    (fun other => overlay.Neighborly memory other ∧ other.sent = state.sent ∧
      other.overlay.toOverlay = state.overlay.toOverlay ∧
      other.overlay.links = state.overlay.links) ?_ ⟨neighborly, rfl, rfl, rfl⟩
  rintro before ⟨kept, same, queue, links⟩ arrived
  obtain ⟨next, stepped, after, sent, toOverlay, crossing, shorter⟩ :=
    pkthandler_turn kept nodeID clearUpdate clearMemory arrived
  exact ⟨_, next, stepped, ⟨after, sent.trans same, toOverlay.trans queue, crossing.trans links⟩,
    shorter⟩

theorem flying_lands {state : TrafficState} (neighborly : overlay.Neighborly memory state)
    {srcNodeID destNodeID : Int32} (direct : overlay.Direct memory srcNodeID destNodeID) :
    ∃ events last, overlay.run state events = some last ∧
      overlay.Neighborly memory last ∧ last.sent = state.sent ∧
      callsBetween srcNodeID destNodeID last.overlay.calls =
        segsBetween srcNodeID destNodeID (state.sent srcNodeID) := by
  obtain ⟨sending, first, sends, ⟨firstKept, firstSent⟩, noneQueued⟩ :=
    overlay_empties neighborly srcNodeID
  obtain ⟨crossing, second, crosses, ⟨secondKept, secondSent, secondQueue⟩, noneCrossing⟩ :=
    link_empties firstKept destNodeID srcNodeID
  obtain ⟨handling, last, handles, ⟨lastKept, lastSent, lastQueue, lastLinks⟩, noneArrived⟩ :=
    network_empties secondKept destNodeID
  have sent : last.sent = state.sent := lastSent.trans (secondSent.trans firstSent)
  have landed : last.overlay.flying srcNodeID destNodeID = [] := by
    rw [OverlayState.flying, noneArrived, lastLinks, noneCrossing, lastQueue, secondQueue,
      noneQueued]
    rfl
  have flow := lastKept.flow srcNodeID destNodeID direct
  rw [landed, List.append_nil, sent] at flow
  exact ⟨sending ++ (crossing ++ handling), last,
    fold_append overlay.step sends (fold_append overlay.step crosses handles), lastKept, sent,
    flow⟩

def WaitState.behind : WaitState → Nat
  | .accepting _ backlog => 2 * backlog.length + 1
  | .sending segmentStatus _ _ backlog => if 0 < segmentStatus then 0 else 2 * backlog.length + 2
  | .aborted => 0

theorem wait_step_behind {nodeID : Int32} {backlog : List (List Byte)} {sent : List MnpPkt}
    {state : WaitState} {arg : SendsegArg} (repeats : state.Repeats nodeID backlog sent)
    (first : firstSegment backlog = some arg) (rt : Routingtable) (behind : state.behind ≠ 0) :
    (waitStep nodeID rt state).2.behind < state.behind := by
  cases state with
  | accepting packet later =>
      cases later with
      | nil =>
          have none := repeats.2.trans first
          cases none
      | cons connection later =>
          simp only [waitStep, WaitState.behind, List.length_cons]
          cases getsegToSend connection <;> simp [Nat.mul_add]
  | sending segmentStatus packet connection later =>
      by_cases positive : 0 < segmentStatus
      · exact absurd (if_pos positive) behind
      · simp only [waitStep, WaitState.behind, if_neg positive]
        omega
  | aborted => exact absurd rfl behind

theorem wait_step_copy {nodeID : Int32} {backlog : List (List Byte)} {sent : List MnpPkt}
    {state : WaitState} {arg : SendsegArg} (repeats : state.Repeats nodeID backlog sent)
    (first : firstSegment backlog = some arg) (rt : Routingtable) (ready : state.behind = 0) :
    (waitStep nodeID rt state).2 = state ∧
      (sendpktArgs (waitStep nodeID rt state).1).map SendpktArg.pkt =
        [transportPacket nodeID arg] := by
  cases state with
  | accepting packet later => cases ready
  | sending segmentStatus packet connection later =>
      by_cases positive : 0 < segmentStatus
      · simp only [WaitState.Repeats, if_pos positive] at repeats
        obtain ⟨other, found, rfl, _⟩ := repeats
        cases found.symm.trans first
        rw [waitStep, if_pos positive]
        exact ⟨rfl, rfl⟩
      · simp [WaitState.behind, positive] at ready
  | aborted =>
      have none := repeats.2.symm.trans first
      cases none

theorem first_goes {state : TrafficState} (neighborly : overlay.Neighborly memory state)
    {nodeID : Int32} {arg : SendsegArg} (first : firstSegment (memory.backlog nodeID) = some arg) :
    ¬ state.Aborts (.waitTransport nodeID) := by
  intro aborts
  have repeats := (wait_step_repeats (neighborly.transport nodeID)
    (state.tables nodeID).routingTable).1
  rw [show (waitStep nodeID (state.tables nodeID).routingTable (state.transport nodeID)).2 =
    .aborted from aborts] at repeats
  cases repeats.2.symm.trans first

theorem transport_ready {state : TrafficState} (neighborly : overlay.Neighborly memory state)
    {nodeID : Int32} {arg : SendsegArg} (first : firstSegment (memory.backlog nodeID) = some arg) :
    ∃ events last, overlay.run state events = some last ∧ overlay.Neighborly memory last ∧
      (last.transport nodeID).behind = 0 := by
  obtain ⟨events, last, _, run, kept, ready⟩ := fold_drains overlay.step
    (fun other => (other.transport nodeID).behind) (overlay.Neighborly memory) (by
      intro before kept behind
      obtain ⟨next, stepped, after, moved, _⟩ :=
        transport_turn kept nodeID (first_goes kept first)
      refine ⟨_, next, stepped, after, ?_⟩
      rw [moved]
      exact wait_step_behind (kept.transport nodeID) first _ behind)
    neighborly
  exact ⟨events, last, run, kept, ready⟩

theorem copies_sent {state : TrafficState} (neighborly : overlay.Neighborly memory state)
    {nodeID : Int32} {arg : SendsegArg} (first : firstSegment (memory.backlog nodeID) = some arg)
    (ready : (state.transport nodeID).behind = 0) (copies : Nat) :
    ∃ events last, overlay.run state events = some last ∧ overlay.Neighborly memory last ∧
      last.sent nodeID =
        state.sent nodeID ++ List.replicate copies (transportPacket nodeID arg) := by
  induction copies generalizing state with
  | zero => exact ⟨[], state, rfl, neighborly, by simp⟩
  | succ copies ih =>
      obtain ⟨next, stepped, kept, moved, sent⟩ :=
        transport_turn neighborly nodeID (first_goes neighborly first)
      obtain ⟨same, copy⟩ := wait_step_copy (neighborly.transport nodeID) first
        (state.tables nodeID).routingTable ready
      have still : (next.transport nodeID).behind = 0 := by
        rw [moved, same]
        exact ready
      obtain ⟨events, last, run, lastKept, more⟩ := ih kept still
      refine ⟨.waitTransport nodeID :: events, last, ?_, lastKept, ?_⟩
      · rw [ConnectedOverlay.run, List.foldlM_cons, stepped]
        exact run
      · rw [more, sent, copy, List.append_assoc, List.replicate_succ]
        rfl

theorem segs_between_copies (srcNodeID : Int32) (arg : SendsegArg) (copies : Nat) :
    segsBetween srcNodeID arg.nodeID (List.replicate copies (transportPacket srcNodeID arg)) =
      List.replicate copies arg.seg := by
  induction copies with
  | zero => rfl
  | succ copies ih =>
      rw [List.replicate_succ, segs_between_cons, segs_between_transport, if_pos ⟨rfl, rfl⟩, ih]
      rfl

theorem copies_delivered {state : TrafficState} (neighborly : overlay.Neighborly memory state)
    {srcNodeID : Int32} {arg : SendsegArg}
    (first : firstSegment (memory.backlog srcNodeID) = some arg)
    (direct : overlay.Direct memory srcNodeID arg.nodeID) (copies : Nat) :
    ∃ events last, overlay.run state events = some last ∧ overlay.Neighborly memory last ∧
      copies ≤ (callsBetween srcNodeID arg.nodeID last.overlay.calls).length := by
  obtain ⟨reading, middle, reads, readKept, ready⟩ := transport_ready neighborly first
  obtain ⟨sending, full, sends, fullKept, sent⟩ := copies_sent readKept first ready copies
  obtain ⟨landing, last, lands, lastKept, _, landed⟩ := flying_lands fullKept direct
  refine ⟨reading ++ (sending ++ landing), last,
    fold_append overlay.step reads (fold_append overlay.step sends lands), lastKept, ?_⟩
  rw [landed, sent, segs_between_append, segs_between_copies, List.length_append,
    List.length_replicate]
  exact Nat.le_add_left copies _

theorem forwarded_is_first {state : TrafficState} (neighborly : overlay.Neighborly memory state)
    {call : ForwardsegCall} (member : call ∈ state.overlay.calls) :
    firstSegment (memory.backlog call.srcNodeID) = some ⟨call.nodeID, call.segment⟩ := by
  have flow := neighborly.flow call.srcNodeID call.nodeID (neighborly.calls call member)
  have listed : call.segment ∈ callsBetween call.srcNodeID call.nodeID state.overlay.calls :=
    List.mem_filterMap.mpr ⟨call, member, if_pos ⟨rfl, rfl⟩⟩
  have sent := flow ▸ List.mem_append_left (state.overlay.flying _ _) listed
  obtain ⟨pkt, packed, taken⟩ := List.mem_filterMap.mp sent
  obtain ⟨arg, first, rfl⟩ := repeats_sent (neighborly.transport call.srcNodeID) packed
  split_ifs at taken with between
  rw [first, ← Option.some.inj taken, transport_seg, ← between.2.2]
  rfl

end Keeps

def noNeighbor : NbrTable where
  entries := []
  distinct := List.nodup_nil
  positive _ member := absurd member List.not_mem_nil
  single _ member := absurd member List.not_mem_nil
  connected _ member := absurd member List.not_mem_nil

theorem one_positive : (0 : Int32) < 1 := by decide

theorem one_single : (1 : Int32) ≠ broadcastNodeID := by decide

theorem two_positive : (0 : Int32) < 2 := by decide

theorem two_single : (2 : Int32) ≠ broadcastNodeID := by decide

def pairOverlay : ConnectedOverlay where
  topology := pairTopology
  nt nodeID :=
    if nodeID = 1 then oneNeighbor 2 two_positive two_single
    else if nodeID = 2 then oneNeighbor 1 one_positive one_single
    else noNeighbor
  nbrs := by
    intro nodeID
    by_cases first : nodeID = 1
    · rw [if_pos first, first]
      rfl
    · by_cases second : nodeID = 2
      · rw [if_neg first, if_pos second, second]
        rfl
      · rw [if_neg first, if_neg second]
        simp [topologyGetNbrArray, pairTopology, pairLines, Ne.symm first, second,
          noNeighbor]

def pairMemory : TrafficMemory where
  beyond _ _ := clearMemory
  fresh _ := clearMemory
  packet _ := MnpPkt.cleared
  received _ _ := MnpPkt.cleared
  segment _ := Seg.cleared
  backlog _ := [transportStream [⟨1, Seg.cleared⟩]]

theorem pair_first_segment (nodeID : Int32) :
    firstSegment (pairMemory.backlog nodeID) = some ⟨1, Seg.cleared⟩ := by
  have clean : Clean markers (sendsegArgCodec.encode ⟨1, Seg.cleared⟩) :=
    clean_of_no_escape fun stored => (cleared_record_image _ stored).1 rfl
  have read : getsegToSend (transportStream [⟨1, Seg.cleared⟩]) = .got ⟨1, Seg.cleared⟩ [] := by
    rw [transport_stream_eq, List.flatMap_cons]
    exact recv_record_clean sendsegArgCodec _ clean _
  simp only [pairMemory, firstSegment, read]

theorem pair_route : pairOverlay.Direct pairMemory 2 1 :=
  ⟨0, rfl, Int32.le_refl 0⟩

end MiniOverlay
