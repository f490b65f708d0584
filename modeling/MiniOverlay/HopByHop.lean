import MiniOverlay.PacketForwarding
import MiniOverlay.RelayChain

/-!
# Delivery hop by hop

One packet with a whole segment is under way, from the node that it names as its
source. At every moment it is at one place only, and it moves along the next hops of
the routing tables. So it is handed over once, at its destination, when the next hops
lead there along neighbours, and not at all when they lead elsewhere.
-/

namespace MiniOverlay

open FixedByteCodec RelayChain

set_option autoImplicit false

def Network.nextHop (net : Network) (dest nodeID : Int32) : Int32 :=
  match net.nodes nodeID with
  | none => -1
  | some node => routingtableGetnextnode node.routingTable dest

def Network.IsNeighbor (net : Network) (nodeID nbrID : Int32) : Prop :=
  ∃ node, net.nodes nodeID = some node ∧ ∃ entry ∈ node.nt.entries, entry.nodeID = nbrID

theorem neighbor_inside {net : Network} {nodeID nbrID : Int32}
    (neighbor : net.IsNeighbor nodeID nbrID) : (net.nodes nbrID).isSome := by
  obtain ⟨node, held, entry, member, rfl⟩ := neighbor
  exact net.inside nodeID node held entry member

theorem neighbor_single {net : Network} {nodeID nbrID : Int32}
    (neighbor : net.IsNeighbor nodeID nbrID) : nbrID ≠ broadcastNodeID := by
  obtain ⟨node, _, entry, member, rfl⟩ := neighbor
  exact node.nt.single entry member

theorem filter_entry {entries : List NbrEntry} {entry : NbrEntry}
    (distinct : (entries.map NbrEntry.nodeID).Nodup) (connected : 0 ≤ entry.conn)
    (member : entry ∈ entries) :
    entries.filter (fun other => other.nodeID = entry.nodeID ∧ 0 ≤ other.conn) = [entry] := by
  induction entries with
  | nil => cases member
  | cons first entries ih =>
      rw [List.map_cons, List.nodup_cons] at distinct
      rcases List.mem_cons.mp member with rfl | later
      · have others : entries.filter (fun other =>
            other.nodeID = entry.nodeID ∧ 0 ≤ other.conn) = [] := by
          rw [List.filter_eq_nil_iff]
          intro other held
          have different : other.nodeID ≠ entry.nodeID := fun same =>
            distinct.1 (same ▸ List.mem_map_of_mem held)
          simp [different]
        rw [List.filter_cons_of_pos (by simp [connected]), others]
      · have different : first.nodeID ≠ entry.nodeID := fun same =>
          distinct.1 (same ▸ List.mem_map_of_mem later)
        rw [List.filter_cons_of_neg (by simp [different]), ih distinct.2 later]

theorem wait_network_neighbor (nt : NbrTable) (entry : NbrEntry) (member : entry ∈ nt.entries)
    {pkt : MnpPkt} {block : List Byte} (sent : sendpktBlock pkt = some block) :
    waitNetworkTurn nt.entries ⟨entry.nodeID, pkt⟩ = some [(entry.nodeID, block)] := by
  have only := filter_entry nt.distinct (nt.connected entry member) member
  rw [waitNetworkTurn, waitNetworkEntries, if_neg (nt.single entry member), only]
  simp [sent]

theorem wait_network_other (nt : NbrTable) (arg : SendpktArg)
    (single : arg.nextNodeID ≠ broadcastNodeID)
    (absent : ∀ entry ∈ nt.entries, entry.nodeID ≠ arg.nextNodeID) :
    waitNetworkTurn nt.entries arg = some [] := by
  have none : nt.entries.filter (fun entry =>
      entry.nodeID = arg.nextNodeID ∧ 0 ≤ entry.conn) = [] := by
    rw [List.filter_eq_nil_iff]
    intro entry member
    simp [absent entry member]
  rw [waitNetworkTurn, waitNetworkEntries, if_neg single, none]
  rfl

/-- An MNP packet with `header.length` equal to the size of a segment. -/
structure CarriesSegment (pkt : MnpPkt) : Prop where
  type : pkt.header.type = PktType.mnp
  length : pkt.header.length = UInt16.ofNat sizeofSeg

def MnpPkt.seg (pkt : MnpPkt) : Seg := segCodec.decode pkt.data.toList

theorem carried_length {pkt : MnpPkt} (carries : CarriesSegment pkt) :
    pkt.header.length.toNat = maxPktLen := by
  rw [carries.length]
  rfl

theorem carried_sent {pkt : MnpPkt} (carries : CarriesSegment pkt) :
    sendpktBlock pkt = some pkt.sentBytes := by
  rw [sendpktBlock, carried_length carries, if_pos (Nat.le_of_eq sizeof_mnp_pkt.symm)]

theorem carried_bytes {pkt : MnpPkt} (carries : CarriesSegment pkt) :
    pkt.sentBytes = pkt.image := by
  rw [MnpPkt.sentBytes, carried_length carries, ← sizeof_mnp_pkt]
  exact List.take_of_length_le (Nat.le_of_eq (mnp_pkt_image_length pkt))

theorem carried_received {pkt : MnpPkt} (carries : CarriesSegment pkt) (slot : MnpPkt) :
    recvpktBlock slot pkt.sentBytes = some pkt := by
  have lengths : slot.image.length ≤ pkt.image.length := by
    rw [mnp_pkt_image_length, mnp_pkt_image_length]
  rw [carried_bytes carries, recvpktBlock, if_pos (Nat.le_of_eq (mnp_pkt_image_length pkt)),
    MnpPkt.copyInto, List.drop_eq_nil_of_le lengths, List.append_nil]
  exact congrArg some (mnpPktCodec.decode_encode pkt)

theorem carried_segment {pkt : MnpPkt} (carries : CarriesSegment pkt) (segment : Seg) :
    segment.copyInto pkt.payload = pkt.seg := by
  have payload : pkt.payload = pkt.data.toList := by
    rw [MnpPkt.payload, carried_length carries]
    exact List.take_of_length_le (by simp)
  have lengths : (segCodec.encode segment).length ≤ pkt.data.toList.length := by
    rw [segCodec.encode_length, Vector.length_toList]
    exact Nat.le_of_eq rfl
  rw [payload, Seg.copyInto, List.drop_eq_nil_of_le lengths, List.append_nil, MnpPkt.seg]

def MnpPkt.delivery (pkt : MnpPkt) : ForwardsegCall :=
  ⟨pkt.header.destNodeID, pkt.header.srcNodeID, pkt.seg⟩

/-- The packet is at one place, nothing else is under way, and it was handed over if it
was delivered. -/
structure Network.Holds (net : Network) (pkt : MnpPkt) (place : Place Int32)
    (state : OverlayState) : Prop where
  toOverlay : ∀ nodeID, state.toOverlay nodeID =
    if place = .waiting nodeID then [⟨net.nextHop pkt.header.destNodeID nodeID, pkt⟩] else []
  links : ∀ nodeID nbrID, state.links nodeID nbrID =
    if place = .crossing nodeID nbrID then [pkt.sentBytes] else []
  toNetwork : ∀ nodeID, state.toNetwork nodeID = if place = .arrived nodeID then [pkt] else []
  calls : state.calls = if place = .delivered then [pkt.delivery] else []
  inside : ∀ nodeID, place.node? = some nodeID → (net.nodes nodeID).isSome

def taker : Place Int32 → Option ForwardEvent
  | .waiting nodeID => some (.waitNetwork nodeID)
  | .crossing nodeID nbrID => some (.listenToNeighbor nbrID nodeID)
  | .arrived nodeID => some (.pkthandler nodeID)
  | .delivered => none
  | .lost => none

theorem only_taker_steps {net : Network} {pkt : MnpPkt} {place : Place Int32}
    {state next : OverlayState} {event : ForwardEvent} (holds : net.Holds pkt place state)
    (stepped : net.step state event = some next) : taker place = some event := by
  cases event with
  | waitNetwork nodeID =>
      obtain ⟨node, _, stepped⟩ := Option.bind_eq_some_iff.mp stepped
      rw [holds.toOverlay] at stepped
      split_ifs at stepped with here
      rw [here, taker]
  | listenToNeighbor nodeID nbrID =>
      obtain ⟨node, _, stepped⟩ := Option.bind_eq_some_iff.mp stepped
      rw [holds.links] at stepped
      split_ifs at stepped with here
      rw [here, taker]
  | pkthandler nodeID =>
      obtain ⟨node, _, stepped⟩ := Option.bind_eq_some_iff.mp stepped
      rw [holds.toNetwork] at stepped
      split_ifs at stepped with here
      rw [here, taker]

/-- The places that the packet moves along in `net`. -/
abbrev Network.Moves (net : Network) (pkt : MnpPkt) : Place Int32 → Place Int32 → Prop :=
  Advances (net.nextHop pkt.header.destNodeID) net.IsNeighbor pkt.header.destNodeID

/-- What `waitNetwork` sends to one node crosses to this node. -/
theorem sent_crosses {net : Network} {pkt : MnpPkt} {nodeID nbrID : Int32} {state : OverlayState}
    {node : OverlayNode} (holds : net.Holds pkt (.waiting nodeID) state)
    (held : net.nodes nodeID = some node) (inside : (net.nodes nbrID).isSome)
    (sent : waitNetworkTurn node.nt.entries ⟨net.nextHop pkt.header.destNodeID nodeID, pkt⟩ =
      some [(nbrID, pkt.sentBytes)]) :
    ∃ next, net.step state (.waitNetwork nodeID) = some next ∧
      net.Holds pkt (.crossing nodeID nbrID) next := by
  have waiting : state.toOverlay nodeID = [⟨net.nextHop pkt.header.destNodeID nodeID, pkt⟩] := by
    rw [holds.toOverlay, if_pos rfl]
  refine ⟨_, step_wait_network held waiting sent, ?_⟩
  constructor
  · intro other
    by_cases here : other = nodeID
    · rw [here]
      simp
    · simp [holds.toOverlay, here, Ne.symm here]
  · intro sender receiver
    by_cases here : sender = nodeID
    · by_cases there : receiver = nbrID
      · simp [here, there, holds.links, blocksTo]
      · simp [here, Ne.symm there, holds.links, blocksTo]
    · simp [here, Ne.symm here, holds.links]
  · intro other
    simp [holds.toNetwork]
  · simp [holds.calls]
  · intro other same
    cases same
    exact inside

theorem unsent_lost {net : Network} {pkt : MnpPkt} {nodeID : Int32} {state : OverlayState}
    {node : OverlayNode} (holds : net.Holds pkt (.waiting nodeID) state)
    (held : net.nodes nodeID = some node)
    (sent : waitNetworkTurn node.nt.entries ⟨net.nextHop pkt.header.destNodeID nodeID, pkt⟩ =
      some []) :
    ∃ next, net.step state (.waitNetwork nodeID) = some next ∧ net.Holds pkt .lost next := by
  have waiting : state.toOverlay nodeID = [⟨net.nextHop pkt.header.destNodeID nodeID, pkt⟩] := by
    rw [holds.toOverlay, if_pos rfl]
  refine ⟨_, step_wait_network held waiting sent, ?_⟩
  constructor
  · intro other
    by_cases here : other = nodeID
    · rw [here]
      simp
    · simp [holds.toOverlay, here, Ne.symm here]
  · intro sender receiver
    by_cases here : sender = nodeID
    · simp [here, holds.links, blocksTo]
    · simp [here, holds.links]
  · intro other
    simp [holds.toNetwork]
  · simp [holds.calls]
  · intro other same
    cases same

theorem waiting_moves {net : Network} {pkt : MnpPkt} {nodeID : Int32} {state : OverlayState}
    (carries : CarriesSegment pkt) (holds : net.Holds pkt (.waiting nodeID) state)
    (single : net.nextHop pkt.header.destNodeID nodeID ≠ broadcastNodeID) :
    ∃ after next, net.step state (.waitNetwork nodeID) = some next ∧
      net.Moves pkt (.waiting nodeID) after ∧ net.Holds pkt after next := by
  by_cases neighbor : net.IsNeighbor nodeID (net.nextHop pkt.header.destNodeID nodeID)
  · obtain ⟨node, held, entry, member, named⟩ := id neighbor
    have sent := wait_network_neighbor node.nt entry member (carried_sent carries)
    rw [named] at sent
    obtain ⟨next, stepped, crossing⟩ := sent_crosses holds held (neighbor_inside neighbor) sent
    exact ⟨_, next, stepped, .sends rfl neighbor, crossing⟩
  · obtain ⟨node, held⟩ := Option.isSome_iff_exists.mp (holds.inside nodeID rfl)
    have absent : ∀ entry ∈ node.nt.entries,
        entry.nodeID ≠ net.nextHop pkt.header.destNodeID nodeID :=
      fun entry member same => neighbor ⟨node, held, entry, member, same⟩
    have sent := wait_network_other node.nt ⟨_, pkt⟩ single absent
    obtain ⟨next, stepped, lost⟩ := unsent_lost holds held sent
    exact ⟨.lost, next, stepped, .drops neighbor, lost⟩

theorem crossing_moves {net : Network} {pkt : MnpPkt} {nodeID nbrID : Int32}
    {state : OverlayState} (carries : CarriesSegment pkt)
    (holds : net.Holds pkt (.crossing nbrID nodeID) state) :
    ∃ next, net.step state (.listenToNeighbor nodeID nbrID) = some next ∧
      net.Holds pkt (.arrived nodeID) next := by
  have inside := holds.inside nodeID rfl
  have crossing : state.links nbrID nodeID = [pkt.sentBytes] := by
    rw [holds.links, if_pos rfl]
  have got := carried_received carries (state.received nodeID nbrID)
  refine ⟨_, step_listen inside crossing got, ?_⟩
  constructor
  · intro other
    simp [holds.toOverlay]
  · intro sender receiver
    by_cases here : sender = nbrID
    · by_cases there : receiver = nodeID
      · simp [here, there]
      · simp [here, there, Ne.symm there, holds.links]
    · simp [here, Ne.symm here, holds.links]
  · intro other
    by_cases here : other = nodeID
    · simp [here, holds.toNetwork]
    · simp [here, Ne.symm here, holds.toNetwork]
  · simp [holds.calls]
  · intro other same
    cases same
    exact inside

theorem pkthandler_here {pkt : MnpPkt} (carries : CarriesSegment pkt) (routingTable : Routingtable)
    (segment : Seg) :
    pkthandlerTurn pkt.header.destNodeID routingTable segment pkt =
      some (pkt.seg, [.forwardsegToMRT pkt.header.srcNodeID pkt.seg]) := by
  have other : ¬ pkt.header.type = PktType.routeUpdate := by
    rw [carries.type]
    decide
  have short : pkt.header.length.toNat ≤ sizeofSeg := by
    rw [carried_length carries]
    exact Nat.le_of_eq rfl
  rw [pkthandlerTurn, if_neg other, if_pos ⟨rfl, carries.type⟩, if_pos short,
    carried_segment carries]

theorem pkthandler_elsewhere {pkt : MnpPkt} {nodeID : Int32} (carries : CarriesSegment pkt)
    (elsewhere : nodeID ≠ pkt.header.destNodeID) (routingTable : Routingtable) (segment : Seg) :
    pkthandlerTurn nodeID routingTable segment pkt = some (segment,
      [.overlaySendpkt (routingtableGetnextnode routingTable pkt.header.destNodeID) pkt]) := by
  have other : ¬ pkt.header.type = PktType.routeUpdate := by
    rw [carries.type]
    decide
  rw [pkthandlerTurn, if_neg other, if_neg fun both => elsewhere both.1.symm,
    if_pos ⟨Ne.symm elsewhere, carries.type⟩]

theorem arrived_delivers {net : Network} {pkt : MnpPkt} {nodeID : Int32} {state : OverlayState}
    (carries : CarriesSegment pkt) (holds : net.Holds pkt (.arrived nodeID) state)
    (meets : nodeID = pkt.header.destNodeID) :
    ∃ next, net.step state (.pkthandler nodeID) = some next ∧ net.Holds pkt .delivered next := by
  obtain ⟨node, held⟩ := Option.isSome_iff_exists.mp (holds.inside nodeID rfl)
  have arrived : state.toNetwork nodeID = [pkt] := by
    rw [holds.toNetwork, if_pos rfl]
  have turn := pkthandler_here carries node.routingTable (state.segment nodeID)
  rw [← meets] at turn
  refine ⟨_, step_pkthandler held arrived turn, ?_⟩
  constructor
  · intro other
    by_cases here : other = nodeID
    · simp [here, holds.toOverlay, argsOf]
    · simp [here, holds.toOverlay]
  · intro sender receiver
    simp [holds.links]
  · intro other
    by_cases here : other = nodeID
    · simp [here]
    · simp [here, Ne.symm here, holds.toNetwork]
  · simp [holds.calls, callsOf, MnpPkt.delivery, meets]
  · intro other same
    cases same

theorem arrived_forwards {net : Network} {pkt : MnpPkt} {nodeID : Int32} {state : OverlayState}
    (carries : CarriesSegment pkt) (holds : net.Holds pkt (.arrived nodeID) state)
    (misses : nodeID ≠ pkt.header.destNodeID) :
    ∃ next, net.step state (.pkthandler nodeID) = some next ∧
      net.Holds pkt (.waiting nodeID) next := by
  obtain ⟨node, held⟩ := Option.isSome_iff_exists.mp (holds.inside nodeID rfl)
  have arrived : state.toNetwork nodeID = [pkt] := by
    rw [holds.toNetwork, if_pos rfl]
  have turn := pkthandler_elsewhere carries misses node.routingTable (state.segment nodeID)
  have named : routingtableGetnextnode node.routingTable pkt.header.destNodeID =
      net.nextHop pkt.header.destNodeID nodeID := by
    rw [Network.nextHop, held]
  refine ⟨_, step_pkthandler held arrived turn, ?_⟩
  constructor
  · intro other
    by_cases here : other = nodeID
    · simp [here, holds.toOverlay, argsOf, named]
    · simp [here, Ne.symm here, holds.toOverlay]
  · intro sender receiver
    simp [holds.links]
  · intro other
    by_cases here : other = nodeID
    · simp [here]
    · simp [here, Ne.symm here, holds.toNetwork]
  · simp [holds.calls, callsOf]
  · intro other same
    cases same
    exact holds.inside nodeID rfl

theorem packet_moves {net : Network} {pkt : MnpPkt} {place : Place Int32} {state : OverlayState}
    (carries : CarriesSegment pkt) (holds : net.Holds pkt place state)
    (single : ∀ nodeID, place = .waiting nodeID →
      net.nextHop pkt.header.destNodeID nodeID ≠ broadcastNodeID) {event : ForwardEvent}
    (takes : taker place = some event) :
    ∃ after next, net.step state event = some next ∧ net.Moves pkt place after ∧
      net.Holds pkt after next := by
  cases place with
  | waiting nodeID =>
      cases takes
      exact waiting_moves carries holds (single nodeID rfl)
  | crossing nbrID nodeID =>
      cases takes
      obtain ⟨next, stepped, arrived⟩ := crossing_moves carries holds
      exact ⟨.arrived nodeID, next, stepped, .receives, arrived⟩
  | arrived nodeID =>
      cases takes
      by_cases meets : nodeID = pkt.header.destNodeID
      · obtain ⟨next, stepped, delivered⟩ := arrived_delivers carries holds meets
        exact ⟨.delivered, next, stepped, .delivers meets, delivered⟩
      · obtain ⟨next, stepped, waiting⟩ := arrived_forwards carries holds meets
        exact ⟨.waiting nodeID, next, stepped, .forwards meets, waiting⟩
  | delivered => cases takes
  | lost => cases takes

section Routes

variable (net : Network) (pkt : MnpPkt)

/-- The node that the next hops lead to from the source, after `hops` of them. -/
abbrev Network.hop : Nat → Int32 :=
  RelayChain.hop (net.nextHop pkt.header.destNodeID) pkt.header.srcNodeID

abbrev Network.Trail : Nat → Place Int32 → Prop :=
  RelayChain.Trail (net.nextHop pkt.header.destNodeID) net.IsNeighbor pkt.header.srcNodeID
    pkt.header.destNodeID

abbrev Network.Way : Nat → Prop :=
  RelayChain.Way (net.nextHop pkt.header.destNodeID) net.IsNeighbor pkt.header.srcNodeID
    pkt.header.destNodeID

abbrev Network.Reaches : Nat → Prop :=
  RelayChain.Reaches (net.nextHop pkt.header.destNodeID) net.IsNeighbor pkt.header.srcNodeID
    pkt.header.destNodeID

/-- The next hops lead to `-1` or a node that is not a neighbour. -/
abbrev Network.Leaves : Nat → Prop :=
  RelayChain.Leaves (net.nextHop pkt.header.destNodeID) net.IsNeighbor pkt.header.srcNodeID
    pkt.header.destNodeID

/-- The next hops lead along neighbours for ever and not to the destination. -/
abbrev Network.Circles : Prop :=
  RelayChain.Circles (net.nextHop pkt.header.destNodeID) net.IsNeighbor pkt.header.srcNodeID
    pkt.header.destNodeID

def Network.Unicast : Prop :=
  ∀ hops, net.Way pkt hops → net.hop pkt (hops + 1) ≠ broadcastNodeID

end Routes

theorem trail_single {net : Network} {pkt : MnpPkt} {steps : Nat} {place : Place Int32}
    (unicast : net.Unicast pkt) (trail : net.Trail pkt steps place) :
    ∀ nodeID, place = .waiting nodeID →
      net.nextHop pkt.header.destNodeID nodeID ≠ broadcastNodeID := by
  rintro nodeID rfl
  cases trail with
  | waiting way =>
      rw [← hop_succ (net.nextHop pkt.header.destNodeID)]
      exact unicast _ way

theorem run_trail {net : Network} {pkt : MnpPkt} (carries : CarriesSegment pkt)
    (unicast : net.Unicast pkt) (events : List ForwardEvent) {steps : Nat} {place : Place Int32}
    {state last : OverlayState} (trail : net.Trail pkt steps place)
    (holds : net.Holds pkt place state) (run : net.run state events = some last) :
    ∃ after, net.Trail pkt (steps + events.length) after ∧ net.Holds pkt after last := by
  induction events generalizing steps place state with
  | nil =>
      cases run
      exact ⟨place, trail, holds⟩
  | cons event events ih =>
      obtain ⟨middle, stepped, run⟩ := Option.bind_eq_some_iff.mp run
      have takes := only_taker_steps holds stepped
      obtain ⟨after, next, moved, advances, held⟩ :=
        packet_moves carries holds (trail_single unicast trail) takes
      cases moved.symm.trans stepped
      obtain ⟨ending, ended, final⟩ := ih (trail_advances trail advances) held run
      refine ⟨ending, ?_, final⟩
      rw [List.length_cons, Nat.add_comm events.length, ← Nat.add_assoc]
      exact ended

theorem unicast_of_reaches {net : Network} {pkt : MnpPkt} {reached : Nat}
    (reaches : net.Reaches pkt reached) : net.Unicast pkt := by
  intro hops way
  exact neighbor_single (reaches.linked hops (way_before_reach way reaches))

theorem unicast_of_leaves {net : Network} {pkt : MnpPkt} {left : Nat}
    (leaves : net.Leaves pkt left) (single : net.hop pkt (left + 1) ≠ broadcastNodeID) :
    net.Unicast pkt := by
  intro hops way
  rcases Nat.lt_or_eq_of_le (way_before_leave way leaves) with before | rfl
  · exact neighbor_single (leaves.way.linked hops before)
  · exact single

theorem unicast_of_circles {net : Network} {pkt : MnpPkt} (circles : net.Circles pkt) :
    net.Unicast pkt :=
  fun hops _ => neighbor_single (circles hops).1

def Network.Quiet (net : Network) (state : OverlayState) : Prop :=
  ∀ event, net.step state event = none

/-- Every run ends within the number of steps, and then with the packet handed over once
and no other call before. -/
def Network.HandsOverOnce (net : Network) (pkt : MnpPkt) (state : OverlayState)
    (steps : Nat) : Prop :=
  ∀ events last, net.run state events = some last →
    events.length ≤ steps ∧ (last.calls = [] ∨ last.calls = [pkt.delivery]) ∧
      (net.Quiet last → last.calls = [pkt.delivery])

def Network.NeverHandsOver (net : Network) (state : OverlayState) : Prop :=
  ∀ events last, net.run state events = some last → last.calls = []

theorem reaches_hands_over {net : Network} {pkt : MnpPkt} {state : OverlayState} {hops : Nat}
    (carries : CarriesSegment pkt) (apart : pkt.header.srcNodeID ≠ pkt.header.destNodeID)
    (holds : net.Holds pkt (.waiting pkt.header.srcNodeID) state) (reaches : net.Reaches pkt hops) :
    net.HandsOverOnce pkt state (3 * hops) := by
  intro events last run
  have unicast := unicast_of_reaches reaches
  obtain ⟨place, trail, final⟩ :=
    run_trail carries unicast events (trail_start apart) holds run
  rw [Nat.zero_add] at trail
  obtain ⟨bound, kept⟩ := trail_reaches trail reaches
  refine ⟨bound, ?_, fun quiet => ?_⟩
  · rw [final.calls]
    split_ifs
    · exact Or.inr rfl
    · exact Or.inl rfl
  · cases takes : taker place with
    | some event =>
        obtain ⟨_, next, moved, _⟩ :=
          packet_moves carries final (trail_single unicast trail) takes
        rw [quiet event] at moved
        cases moved
    | none =>
        rw [final.calls]
        cases place with
        | delivered => rw [if_pos rfl]
        | lost => exact absurd rfl kept
        | waiting nodeID => cases takes
        | crossing nbrID nodeID => cases takes
        | arrived nodeID => cases takes

theorem never_hands_over {net : Network} {pkt : MnpPkt} {state : OverlayState}
    (carries : CarriesSegment pkt) (apart : pkt.header.srcNodeID ≠ pkt.header.destNodeID)
    (holds : net.Holds pkt (.waiting pkt.header.srcNodeID) state) (unicast : net.Unicast pkt)
    (undelivered : ∀ steps place, net.Trail pkt steps place → place ≠ .delivered) :
    net.NeverHandsOver state := by
  intro events last run
  obtain ⟨place, trail, final⟩ :=
    run_trail carries unicast events (trail_start apart) holds run
  rw [final.calls, if_neg (undelivered _ place trail)]

/-- A packet that its source gives to `overlay_sendpkt` is handed over once, at its
destination, when the next hops lead there along neighbours. It is never handed over when
they lead to a node that is not a neighbour and not the node ID for broadcasts, or along
neighbours for ever. -/
theorem delivered_hop_by_hop (net : Network) (pkt : MnpPkt) (state : OverlayState)
    (carries : CarriesSegment pkt) (apart : pkt.header.srcNodeID ≠ pkt.header.destNodeID)
    (holds : net.Holds pkt (.waiting pkt.header.srcNodeID) state) :
    (∀ hops, net.Reaches pkt hops → net.HandsOverOnce pkt state (3 * hops)) ∧
      ((∃ hops, net.Leaves pkt hops ∧ net.hop pkt (hops + 1) ≠ broadcastNodeID) ∨
          net.Circles pkt →
        net.NeverHandsOver state) := by
  refine ⟨fun hops reaches => reaches_hands_over carries apart holds reaches, ?_⟩
  rintro (⟨hops, leaves, single⟩ | circles)
  · exact never_hands_over carries apart holds (unicast_of_leaves leaves single)
      fun steps place trail => trail_leaves trail leaves
  · exact never_hands_over carries apart holds (unicast_of_circles circles)
      fun steps place trail => trail_circles trail circles

def oneNeighbor (nbrID : Int32) (positive : 0 < nbrID) (single : nbrID ≠ broadcastNodeID) :
    NbrTable where
  entries := [⟨nbrID, 3⟩]
  distinct := List.nodup_singleton nbrID
  positive := by
    intro entry member
    rw [List.mem_singleton.mp member]
    exact positive
  single := by
    intro entry member
    rw [List.mem_singleton.mp member]
    exact single
  connected := by
    intro entry member
    rw [List.mem_singleton.mp member]
    change (0 : Int32) ≤ 3
    decide

theorem wait_network_broadcast (nbrID : Int32) (positive : 0 < nbrID)
    (single : nbrID ≠ broadcastNodeID) {arg : SendpktArg} {block : List Byte}
    (named : arg.nextNodeID = broadcastNodeID) (sent : sendpktBlock arg.pkt = some block) :
    waitNetworkTurn (oneNeighbor nbrID positive single).entries arg = some [(nbrID, block)] := by
  have kept : (oneNeighbor nbrID positive single).entries.filter (fun entry => 0 ≤ entry.conn) =
      [⟨nbrID, 3⟩] := by
    apply List.filter_cons_of_pos
    change decide ((0 : Int32) ≤ 3) = true
    decide
  rw [waitNetworkTurn, waitNetworkEntries, if_pos named, kept]
  simp [sent]

/-- The nodes 1 and 2 next to each other; the table of node 1 has one next hop to node 2. -/
def twoNodes (nextNodeID : Int32) : Network where
  nodes nodeID :=
    if nodeID = 1 then
      some ⟨oneNeighbor 2 (by decide) (by decide),
        routingtableSetnextnode 0 Routingtable.empty 2 nextNodeID⟩
    else if nodeID = 2 then some ⟨oneNeighbor 1 (by decide) (by decide), Routingtable.empty⟩
    else none
  inside := by
    intro nodeID node held entry member
    split_ifs at held
    · cases held
      rw [List.mem_singleton.mp member]
      rfl
    · cases held
      rw [List.mem_singleton.mp member]
      rfl

def clearedSegmentPacket : MnpPkt :=
  ⟨⟨1, 2, UInt16.ofNat sizeofSeg, PktType.mnp⟩, padVector maxPktLen []⟩

def handedToOverlay (net : Network) (pkt : MnpPkt) : OverlayState where
  toOverlay nodeID :=
    if nodeID = pkt.header.srcNodeID then
      [⟨net.nextHop pkt.header.destNodeID nodeID, pkt⟩] else []
  links _ _ := []
  received _ _ := MnpPkt.cleared
  toNetwork _ := []
  segment _ := Seg.cleared
  calls := []

theorem handed_holds {net : Network} {pkt : MnpPkt}
    (inside : (net.nodes pkt.header.srcNodeID).isSome) :
    net.Holds pkt (.waiting pkt.header.srcNodeID) (handedToOverlay net pkt) := by
  constructor
  · intro nodeID
    by_cases here : nodeID = pkt.header.srcNodeID
    · simp [handedToOverlay, here]
    · simp [handedToOverlay, here, Ne.symm here]
  · intro nodeID nbrID
    simp [handedToOverlay]
  · intro nodeID
    simp [handedToOverlay]
  · simp [handedToOverlay]
  · intro nodeID same
    cases same
    exact inside

theorem cleared_carries : CarriesSegment clearedSegmentPacket := ⟨rfl, rfl⟩

theorem two_nodes_reach : (twoNodes 2).Reaches clearedSegmentPacket 1 := by
  have hop : (twoNodes 2).hop clearedSegmentPacket 1 = 2 := by decide
  constructor
  · exact hop
  · intro i inside
    rw [Nat.lt_one_iff.mp inside]
    change (twoNodes 2).IsNeighbor 1 ((twoNodes 2).hop clearedSegmentPacket 1)
    rw [hop]
    exact ⟨_, rfl, ⟨2, 3⟩, List.mem_singleton_self _, rfl⟩
  · intro i inside
    rw [Nat.lt_one_iff.mp inside]
    decide

/-- Node 1 has node 2 as its own next hop. -/
theorem two_nodes_delivered :
    (twoNodes 2).HandsOverOnce clearedSegmentPacket
      (handedToOverlay (twoNodes 2) clearedSegmentPacket) 3 :=
  (delivered_hop_by_hop (twoNodes 2) clearedSegmentPacket _ cleared_carries (by decide)
    (handed_holds rfl)).1 1 two_nodes_reach

/-- With the node ID for broadcasts as its next hop the packet leaves the neighbours and
still arrives. -/
theorem broadcast_hop_delivers :
    let net := twoNodes broadcastNodeID
    let pkt := clearedSegmentPacket
    let state := handedToOverlay net pkt
    CarriesSegment pkt ∧ net.Holds pkt (.waiting pkt.header.srcNodeID) state ∧
      ¬ ((∀ hops, net.Reaches pkt hops → net.HandsOverOnce pkt state (3 * hops)) ∧
        ((∃ hops, net.Leaves pkt hops) ∨ net.Circles pkt → net.NeverHandsOver state)) := by
  intro net pkt state
  have begins : net.Holds pkt (.waiting 1) state := handed_holds rfl
  refine ⟨cleared_carries, begins, fun both => ?_⟩
  have named : net.nextHop 2 1 = broadcastNodeID := by decide
  have leaves : net.Leaves pkt 0 := by
    constructor
    · constructor
      · intro i inside
        exact absurd inside (Nat.not_lt_zero i)
      · intro i inside
        rw [Nat.le_zero.mp inside]
        decide
    · have away : net.hop pkt (0 + 1) = broadcastNodeID :=
        (hop_succ (net.nextHop 2) 1 0).trans named
      exact fun neighbor => neighbor_single neighbor away
  have never := both.2 (Or.inl ⟨0, leaves⟩)
  have sent : waitNetworkTurn (oneNeighbor 2 (by decide) (by decide)).entries
      ⟨net.nextHop 2 1, pkt⟩ = some [(2, pkt.sentBytes)] :=
    wait_network_broadcast 2 _ _ named (carried_sent cleared_carries)
  obtain ⟨crossing, first, crosses⟩ := sent_crosses begins rfl rfl sent
  obtain ⟨arriving, second, arrives⟩ := crossing_moves cleared_carries crosses
  obtain ⟨last, third, final⟩ := arrived_delivers cleared_carries arrives rfl
  have run : net.run state [.waitNetwork 1, .listenToNeighbor 2 1, .pkthandler 2] = some last := by
    simp [Network.run, first, second, third]
  have none := never _ last run
  rw [final.calls] at none
  cases none

end MiniOverlay
