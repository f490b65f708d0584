import MiniOverlay.RouteUpdate

/-!
# Where the routes lead

The next hop of every node for every other one after any number of rounds,
against the least-cost paths of the topology. The updates carry `INFINITE_COST`
for every destination, so the routes are those to the neighbours that
`routingtable_create` put in.
-/

namespace MiniOverlay

open WeightedPaths

set_option autoImplicit false

abbrev Topology.LeastPath (topology : Topology) (source target : Int32) (path : List Int32) :
    Prop :=
  IsLeastPath (Linked topology.lines) (linkCost topology.lines) source target path

def MnpOverlay.nextHop (overlay : MnpOverlay) (source target : Int32) : Int32 :=
  routingtableGetnextnode (overlay.node source).routingTable target

def Topology.ForAllPairs (topology : Topology) (property : Int32 → Int32 → Prop) : Prop :=
  ∀ source ∈ topologyNodes topology.lines, ∀ target ∈ topologyNodes topology.lines,
    source ≠ target → property source target

def MnpOverlay.Converged (topology : Topology) (overlay : MnpOverlay) : Prop :=
  topology.ForAllPairs fun source target =>
    Linked topology.lines source (overlay.nextHop source target) ∧
      ∃ rest, topology.LeastPath source target (source :: overlay.nextHop source target :: rest)

def MnpOverlay.OnLeastPaths (topology : Topology) (overlay : MnpOverlay) : Prop :=
  topology.ForAllPairs fun source target =>
    Linked topology.lines source (overlay.nextHop source target) ∧
      ∃ path, topology.LeastPath source target path ∧ overlay.nextHop source target ∈ path

def Topology.DirectRoute (topology : Topology) (fresh : Int32 → Nat → Int32)
    (source target : Int32) : Prop :=
  Installed (fresh source) (topologyGetNbrArray topology.lines source) target

theorem direct_route_linked {topology : Topology} {fresh : Int32 → Nat → Int32}
    {source target : Int32} (route : topology.DirectRoute fresh source target) :
    Linked topology.lines source target := by
  obtain ⟨index, inArray, _⟩ := route
  exact (topology.mem_nbr_array_iff source target).mp (List.mem_of_getElem? inArray)

/-- The next hop after any run: the target itself, or `-1`. -/
theorem silent_next_hop {topology : Topology} {fresh : Int32 → Nat → Int32}
    {overlay : MnpOverlay} (silent : overlay.Silent topology fresh) (source : Int32)
    {target : Int32} (node : target ∈ topologyNodes topology.lines) :
    topology.DirectRoute fresh source target ∧ overlay.nextHop source target = target ∨
      ¬ topology.DirectRoute fresh source target ∧ overlay.nextHop source target = -1 := by
  rw [MnpOverlay.nextHop, (silent.node source).routingTable]
  exact create_getnextnode (fresh source) _ (fun nbr => topology.nbr_positive) target
    (topology.node_positive node)

theorem not_linked_minus_one (topology : Topology) (source : Int32) :
    ¬ Linked topology.lines source (-1) := by
  intro link
  have positive := topology.nbr_positive ((topology.mem_nbr_array_iff source (-1)).mpr link)
  exact absurd positive (by decide)

theorem silent_converged_pair {topology : Topology} {fresh : Int32 → Nat → Int32}
    {overlay : MnpOverlay} (silent : overlay.Silent topology fresh) (source : Int32)
    {target : Int32} (node : target ∈ topologyNodes topology.lines) :
    (Linked topology.lines source (overlay.nextHop source target) ∧
        ∃ rest, topology.LeastPath source target
          (source :: overlay.nextHop source target :: rest)) ↔
      topology.DirectRoute fresh source target ∧
        topology.LeastPath source target [source, target] := by
  rcases silent_next_hop silent source node with ⟨route, hop⟩ | ⟨missing, hop⟩
  · rw [hop, target_first_hop_iff]
    constructor
    · rintro ⟨_, least⟩
      exact ⟨route, least⟩
    · rintro ⟨_, least⟩
      exact ⟨direct_route_linked route, least⟩
  · rw [hop]
    constructor
    · rintro ⟨link, _⟩
      exact absurd link (not_linked_minus_one topology source)
    · rintro ⟨route, _⟩
      exact absurd route missing

theorem silent_on_least_pair {topology : Topology} {fresh : Int32 → Nat → Int32}
    {overlay : MnpOverlay} (silent : overlay.Silent topology fresh) (source : Int32)
    {target : Int32} (node : target ∈ topologyNodes topology.lines) :
    (Linked topology.lines source (overlay.nextHop source target) ∧
        ∃ path, topology.LeastPath source target path ∧ overlay.nextHop source target ∈ path) ↔
      topology.DirectRoute fresh source target := by
  rcases silent_next_hop silent source node with ⟨route, hop⟩ | ⟨missing, hop⟩
  · rw [hop]
    have link := direct_route_linked route
    obtain ⟨path, least⟩ := exists_least_path (linkCost topology.lines)
      (direct_path link (topology.linked_apart link))
    exact ⟨fun _ => route, fun _ => ⟨link, path, least, target_mem least.isPath⟩⟩
  · rw [hop]
    constructor
    · rintro ⟨link, _⟩
      exact absurd link (not_linked_minus_one topology source)
    · intro route
      exact absurd route missing

theorem for_all_pairs_congr (topology : Topology) {left right : Int32 → Int32 → Prop}
    (same : ∀ source, ∀ target ∈ topologyNodes topology.lines,
      left source target ↔ right source target) :
    topology.ForAllPairs left ↔ topology.ForAllPairs right := by
  constructor
  · intro all source sourceNode target targetNode apart
    exact (same source target targetNode).mp (all source sourceNode target targetNode apart)
  · intro all source sourceNode target targetNode apart
    exact (same source target targetNode).mpr (all source sourceNode target targetNode apart)

/-- After any number of rounds in any order, the routes have converged exactly
when every two nodes are neighbours, with a routing entry from the start and
with a direct link of least cost. If it is enough that the next hop lies
somewhere on a least-cost path, the costs of the links do not matter. -/
theorem converged_iff (topology : Topology) (beyond : Int32 → Nat → Nat → Int32)
    (fresh : Int32 → Nat → Int32) (rounds : List (List RoundEvent))
    (isRounds : ∀ events ∈ rounds, IsRound topology.lines events) :
    ∃ overlay,
      (MnpOverlay.create topology.lines beyond fresh).rounds topology.lines rounds =
        some overlay ∧
      (overlay.Converged topology ↔ topology.ForAllPairs fun source target =>
        topology.DirectRoute fresh source target ∧
          topology.LeastPath source target [source, target]) ∧
      (overlay.OnLeastPaths topology ↔ topology.ForAllPairs (topology.DirectRoute fresh)) := by
  obtain ⟨overlay, run, silent⟩ := rounds_run (create_silent topology beyond fresh) rounds isRounds
  refine ⟨overlay, run, ?_, ?_⟩
  · apply for_all_pairs_congr topology
    intro source target node
    exact silent_converged_pair silent source node
  · apply for_all_pairs_congr topology
    intro source target node
    exact silent_on_least_pair silent source node

def clearMemory : Nat → Int32 := fun _ => 0

def clearUpdate : PktRouteupdate := ⟨0, fun _ => ⟨0, 0⟩⟩

def pairLines : List TopologyLine := [⟨1, 2, 1⟩]

theorem pair_nodes {nodeID : Int32} (node : nodeID ∈ topologyNodes pairLines) :
    nodeID = 1 ∨ nodeID = 2 := by
  have nodes : topologyNodes pairLines = [1, 2] := by decide
  simpa [nodes] using node

theorem pair_of_nodes (property : Int32 → Int32 → Prop) (forth : property 1 2)
    (back : property 2 1) {source target : Int32} (sourceNode : source ∈ topologyNodes pairLines)
    (targetNode : target ∈ topologyNodes pairLines) (apart : source ≠ target) :
    property source target := by
  rcases pair_nodes sourceNode with rfl | rfl
  · rcases pair_nodes targetNode with rfl | rfl
    · exact absurd rfl apart
    · exact forth
  · rcases pair_nodes targetNode with rfl | rfl
    · exact back
    · exact absurd rfl apart

theorem pair_linked {source target : Int32} (sourceNode : source ∈ topologyNodes pairLines)
    (targetNode : target ∈ topologyNodes pairLines) (apart : source ≠ target) :
    Linked pairLines source target :=
  pair_of_nodes (Linked pairLines) (by decide) (by decide) sourceNode targetNode apart

def pairTopology : Topology where
  lines := pairLines
  positive := by decide
  apart := by decide
  few := by decide
  connected _ sourceNode _ targetNode apart :=
    ⟨_, direct_path (pair_linked sourceNode targetNode apart) apart⟩
  short := short_of_cheap 1 (by decide) (by decide)

def pairRound : List RoundEvent :=
  [.broadcast 1 clearMemory .cleared, .broadcast 2 clearMemory .cleared,
    .handle 2 1 clearUpdate clearMemory, .handle 1 2 clearUpdate clearMemory]

theorem pair_round : IsRound pairTopology.lines pairRound := by
  refine ⟨by simp [pairRound, Ordered], by decide, ?_, ?_⟩
  · intro nodeID node
    rcases pair_nodes node with rfl | rfl <;> decide
  · intro nodeID srcNodeID link
    obtain ⟨node, srcNode⟩ := linked_nodes nodeID srcNodeID link
    exact pair_of_nodes
      (fun left right => pairRound.countP (RoundEvent.handles left right) = 1) (by decide)
      (by decide) node srcNode (pairTopology.linked_apart link)

theorem pair_cost {source target : Int32} (sourceNode : source ∈ topologyNodes pairLines)
    (targetNode : target ∈ topologyNodes pairLines) (apart : source ≠ target) :
    linkCost pairLines source target = 1 :=
  pair_of_nodes (fun left right => linkCost pairLines left right = 1) (by decide) (by decide)
    sourceNode targetNode apart

theorem pair_direct : pairTopology.ForAllPairs fun source target =>
    pairTopology.DirectRoute (fun _ => clearMemory) source target ∧
      pairTopology.LeastPath source target [source, target] := by
  intro source sourceNode target targetNode apart
  have link := pair_linked sourceNode targetNode apart
  constructor
  · have member := (pairTopology.mem_nbr_array_iff source target).mpr link
    obtain ⟨index, inArray⟩ := List.mem_iff_getElem?.mp member
    exact ⟨index, inArray, Int32.le_refl 0⟩
  · apply cheapest_link_least link apart
    intro left right other
    obtain ⟨leftNode, rightNode⟩ := linked_nodes left right other
    have cost := pair_cost sourceNode targetNode apart
    have otherCost := pair_cost leftNode rightNode (pairTopology.linked_apart other)
    exact Nat.le_of_eq (cost.trans otherCost.symm)

theorem pair_converges : ∃ overlay,
    (MnpOverlay.create pairTopology.lines (fun _ _ => clearMemory)
      (fun _ => clearMemory)).rounds pairTopology.lines [pairRound] = some overlay ∧
    overlay.Converged pairTopology := by
  have isRounds : ∀ events ∈ [pairRound], IsRound pairTopology.lines events := by
    intro events member
    rw [List.mem_singleton.mp member]
    exact pair_round
  obtain ⟨overlay, run, converged, _⟩ := converged_iff pairTopology (fun _ _ => clearMemory)
    (fun _ => clearMemory) [pairRound] isRounds
  exact ⟨overlay, run, converged.mpr pair_direct⟩

def lineLines : List TopologyLine := [⟨1, 2, 1⟩, ⟨2, 3, 1⟩]

theorem line_nodes {nodeID : Int32} (node : nodeID ∈ topologyNodes lineLines) :
    nodeID = 1 ∨ nodeID = 2 ∨ nodeID = 3 := by
  have nodes : topologyNodes lineLines = [1, 2, 3] := by decide
  simpa [nodes] using node

theorem line_path {source target : Int32} (sourceNode : source ∈ topologyNodes lineLines)
    (targetNode : target ∈ topologyNodes lineLines) (apart : source ≠ target) :
    ∃ path, IsPath (Linked lineLines) source target path := by
  have routes : Linked lineLines source target ∨
      source ≠ 2 ∧ target ≠ 2 ∧ Linked lineLines source 2 ∧ Linked lineLines 2 target := by
    rcases line_nodes sourceNode with rfl | rfl | rfl <;>
      rcases line_nodes targetNode with rfl | rfl | rfl <;>
        first
          | exact absurd rfl apart
          | decide
  rcases routes with link | ⟨left, right, first, second⟩
  · exact ⟨_, direct_path link apart⟩
  · have chain : [source, 2, target].IsChain (Linked lineLines) :=
      .cons_cons first (List.isChain_pair.mpr second)
    exact ⟨[source, 2, target], chain, by simp [left, apart, right.symm], rfl, rfl⟩

def lineTopology : Topology where
  lines := lineLines
  positive := by decide
  apart := by decide
  few := by decide
  connected _ sourceNode _ targetNode apart := line_path sourceNode targetNode apart
  short := short_of_cheap 1 (by decide) (by decide)

def lineRound : List RoundEvent :=
  [.broadcast 1 clearMemory .cleared, .broadcast 2 clearMemory .cleared,
    .broadcast 3 clearMemory .cleared, .handle 2 1 clearUpdate clearMemory,
    .handle 1 2 clearUpdate clearMemory, .handle 3 2 clearUpdate clearMemory,
    .handle 2 3 clearUpdate clearMemory]

theorem line_round : IsRound lineTopology.lines lineRound := by
  refine ⟨by simp [lineRound, Ordered], by decide, ?_, ?_⟩
  · intro nodeID node
    rcases line_nodes node with rfl | rfl | rfl <;> decide
  · intro nodeID srcNodeID link
    obtain ⟨node, srcNode⟩ := linked_nodes nodeID srcNodeID link
    rcases line_nodes node with rfl | rfl | rfl <;>
      rcases line_nodes srcNode with rfl | rfl | rfl <;>
        first
          | decide
          | exact absurd link (by decide)

/-- Two rounds do not route from one end of a line to the other. -/
theorem line_does_not_converge : ∃ overlay,
    (∀ events ∈ [lineRound, lineRound], IsRound lineTopology.lines events) ∧
    topologyGetNodeNum lineTopology.lines - 1 ≤ [lineRound, lineRound].length ∧
    (MnpOverlay.create lineTopology.lines (fun _ _ => clearMemory)
      (fun _ => clearMemory)).rounds lineTopology.lines [lineRound, lineRound] = some overlay ∧
    overlay.nextHop 1 3 = -1 ∧ ¬ overlay.Converged lineTopology ∧
      ¬ overlay.OnLeastPaths lineTopology := by
  have isRounds : ∀ events ∈ [lineRound, lineRound], IsRound lineTopology.lines events := by
    intro events member
    rcases List.mem_pair.mp member with rfl | rfl <;> exact line_round
  obtain ⟨overlay, run, silent⟩ := rounds_run (create_silent lineTopology
    (fun _ _ => clearMemory) (fun _ => clearMemory)) [lineRound, lineRound] isRounds
  have first : (1 : Int32) ∈ topologyNodes lineTopology.lines := by decide
  have third : (3 : Int32) ∈ topologyNodes lineTopology.lines := by decide
  have apart : (1 : Int32) ≠ 3 := by decide
  have unlinked : ¬ Linked lineTopology.lines 1 3 := by decide
  refine ⟨overlay, isRounds, by decide, run, ?_⟩
  rcases silent_next_hop silent 1 third with ⟨route, _⟩ | ⟨_, hop⟩
  · exact absurd (direct_route_linked route) unlinked
  · refine ⟨hop, fun converged => ?_, fun onPaths => ?_⟩
    · have link := (converged 1 first 3 third apart).1
      rw [hop] at link
      exact not_linked_minus_one lineTopology 1 link
    · have link := (onPaths 1 first 3 third apart).1
      rw [hop] at link
      exact not_linked_minus_one lineTopology 1 link

end MiniOverlay
