import MiniOverlay.Constants
import MiniOverlay.WeightedPaths

/-!
# The topology file

`topology/topology.c` over the lines of `topology.dat`, with the host names
resolved to node IDs. Every function reads the file from its start; the ID of
the node that runs it is `myNodeID`.
-/

namespace MiniOverlay

open WeightedPaths

set_option autoImplicit false

structure TopologyLine where
  nodeID1 : Int32
  nodeID2 : Int32
  linkCost : Int32
  deriving DecidableEq

def topologyGetNbrNum (lines : List TopologyLine) (myNodeID : Int32) : Nat :=
  lines.countP fun line => line.nodeID1 = myNodeID ∨ line.nodeID2 = myNodeID

def topologyGetNbrArray (lines : List TopologyLine) (myNodeID : Int32) : List Int32 :=
  lines.filterMap fun line =>
    if line.nodeID1 = myNodeID then some line.nodeID2
    else if myNodeID = line.nodeID2 then some line.nodeID1
    else none

def markNode (nodes : List Int32) (nodeID : Int32) : List Int32 :=
  if nodeID ∈ nodes then nodes else nodes ++ [nodeID]

/-- The node IDs that `topology_getNodeNum` marks, in the order of the file. -/
def topologyNodes (lines : List TopologyLine) : List Int32 :=
  lines.foldl (fun nodes line => markNode (markNode nodes line.nodeID1) line.nodeID2) []

def topologyGetNodeNum (lines : List TopologyLine) : Nat := (topologyNodes lines).length

/-- `topology_getNodeArray` at an index: the neighbours and, one place behind the
block that was allocated for them, the node itself. `beyond` is the memory
behind that, which callers read as well. -/
def topologyGetNodeArray (lines : List TopologyLine) (myNodeID : Int32) (beyond : Nat → Int32)
    (index : Nat) : Int32 :=
  ((topologyGetNbrArray lines myNodeID ++ [myNodeID])[index]?).getD (beyond index)

def topologyGetCost (lines : List TopologyLine) (fromNodeID toNodeID : Int32) : UInt32 :=
  if fromNodeID = toNodeID then 0
  else
    match lines.find? fun line =>
      fromNodeID = line.nodeID1 ∧ toNodeID = line.nodeID2 ∨
        fromNodeID = line.nodeID2 ∧ toNodeID = line.nodeID1 with
    | some line => line.linkCost.toUInt32
    | none => infiniteCost

def Linked (lines : List TopologyLine) (left right : Int32) : Prop :=
  ∃ line ∈ lines, line.nodeID1 = left ∧ line.nodeID2 = right ∨
    line.nodeID1 = right ∧ line.nodeID2 = left

instance (lines : List TopologyLine) (left right : Int32) : Decidable (Linked lines left right) :=
  inferInstanceAs (Decidable (∃ line ∈ lines, _))

def linkCost (lines : List TopologyLine) (left right : Int32) : Nat :=
  (topologyGetCost lines left right).toNat

/-- A connected overlay of at most `MAX_NODE_NUM` nodes in which no path costs
as much as no path at all. -/
structure Topology where
  lines : List TopologyLine
  positive : ∀ line ∈ lines, 0 < line.nodeID1 ∧ 0 < line.nodeID2
  apart : ∀ line ∈ lines, line.nodeID1 ≠ line.nodeID2
  few : topologyGetNodeNum lines ≤ maxNodeNum
  connected : ∀ source ∈ topologyNodes lines, ∀ target ∈ topologyNodes lines, source ≠ target →
    ∃ path, IsPath (Linked lines) source target path
  short : ∀ source target path, IsPath (Linked lines) source target path →
    pathCost (linkCost lines) path < infiniteCost.toNat

theorem mem_mark_node_iff (nodes : List Int32) (nodeID other : Int32) :
    other ∈ markNode nodes nodeID ↔ other ∈ nodes ∨ nodeID = other := by
  unfold markNode
  split_ifs with seen
  · constructor
    · exact Or.inl
    · rintro (old | rfl)
      · exact old
      · exact seen
  · rw [List.mem_append, List.mem_singleton, eq_comm]

theorem mem_topology_nodes_iff (lines : List TopologyLine) (nodeID : Int32) :
    nodeID ∈ topologyNodes lines ↔
      ∃ line ∈ lines, line.nodeID1 = nodeID ∨ line.nodeID2 = nodeID := by
  have general (nodes : List Int32) :
      nodeID ∈ lines.foldl
          (fun nodes line => markNode (markNode nodes line.nodeID1) line.nodeID2) nodes ↔
        nodeID ∈ nodes ∨ ∃ line ∈ lines, line.nodeID1 = nodeID ∨ line.nodeID2 = nodeID := by
    induction lines generalizing nodes with
    | nil => simp
    | cons line lines ih =>
        rw [List.foldl_cons, ih, mem_mark_node_iff, mem_mark_node_iff, List.exists_mem_cons_iff]
        simp only [or_assoc]
  have all := general []
  simpa [topologyNodes] using all

theorem linked_cost_le {lines : List TopologyLine} {bound : Nat}
    (cheap : ∀ line ∈ lines, line.linkCost.toUInt32.toNat ≤ bound) (left right : Int32)
    (link : Linked lines left right) : linkCost lines left right ≤ bound := by
  unfold linkCost topologyGetCost
  split_ifs with same
  · exact Nat.zero_le bound
  cases found : lines.find? fun line =>
      left = line.nodeID1 ∧ right = line.nodeID2 ∨ left = line.nodeID2 ∧ right = line.nodeID1 with
  | some line => exact cheap line (List.mem_of_find?_eq_some found)
  | none =>
      obtain ⟨line, member, ends⟩ := link
      have absent := List.find?_eq_none.mp found line member
      rcases ends with ⟨rfl, rfl⟩ | ⟨rfl, rfl⟩ <;> simp at absent

theorem linked_nodes {lines : List TopologyLine} (left right : Int32)
    (link : Linked lines left right) :
    left ∈ topologyNodes lines ∧ right ∈ topologyNodes lines := by
  rw [mem_topology_nodes_iff, mem_topology_nodes_iff]
  obtain ⟨line, member, ⟨rfl, rfl⟩ | ⟨rfl, rfl⟩⟩ := link
  · exact ⟨⟨line, member, Or.inl rfl⟩, line, member, Or.inr rfl⟩
  · exact ⟨⟨line, member, Or.inr rfl⟩, line, member, Or.inl rfl⟩

theorem short_of_cheap {lines : List TopologyLine} (bound : Nat)
    (cheap : ∀ line ∈ lines, line.linkCost.toUInt32.toNat ≤ bound)
    (room : bound * topologyGetNodeNum lines < infiniteCost.toNat)
    (source target : Int32) (path : List Int32)
    (isPath : IsPath (Linked lines) source target path) :
    pathCost (linkCost lines) path < infiniteCost.toNat :=
  Nat.lt_of_le_of_lt (path_cost_le (linked_cost_le cheap) linked_nodes isPath) room

theorem nbr_array_length (lines : List TopologyLine) (myNodeID : Int32) :
    (topologyGetNbrArray lines myNodeID).length = topologyGetNbrNum lines myNodeID := by
  unfold topologyGetNbrArray topologyGetNbrNum
  induction lines with
  | nil => rfl
  | cons line lines ih =>
      by_cases first : line.nodeID1 = myNodeID
      · simp [first, ih]
      · by_cases second : myNodeID = line.nodeID2
        · simp [first, second.symm, ih]
        · have other : line.nodeID2 ≠ myNodeID := fun same => second same.symm
          simp [first, second, other, ih]

theorem nbr_array_linked_iff {lines : List TopologyLine}
    (apart : ∀ line ∈ lines, line.nodeID1 ≠ line.nodeID2) (myNodeID nbr : Int32) :
    nbr ∈ topologyGetNbrArray lines myNodeID ↔ Linked lines myNodeID nbr := by
  rw [topologyGetNbrArray, List.mem_filterMap]
  constructor
  · rintro ⟨line, member, found⟩
    split_ifs at found with first second
    · cases found
      exact ⟨line, member, Or.inl ⟨first, rfl⟩⟩
    · cases found
      exact ⟨line, member, Or.inr ⟨rfl, second.symm⟩⟩
  · rintro ⟨line, member, ⟨rfl, rfl⟩ | ⟨rfl, rfl⟩⟩
    · exact ⟨line, member, if_pos rfl⟩
    · refine ⟨line, member, ?_⟩
      rw [if_neg (apart line member), if_pos rfl]

theorem linked_symm {lines : List TopologyLine} {left right : Int32}
    (link : Linked lines left right) : Linked lines right left := by
  obtain ⟨line, member, ends⟩ := link
  exact ⟨line, member, ends.symm⟩

namespace Topology

variable (topology : Topology)

theorem mem_nbr_array_iff (myNodeID nbr : Int32) :
    nbr ∈ topologyGetNbrArray topology.lines myNodeID ↔ Linked topology.lines myNodeID nbr :=
  nbr_array_linked_iff topology.apart myNodeID nbr

theorem not_linked_self (nodeID : Int32) : ¬ Linked topology.lines nodeID nodeID := by
  rintro ⟨line, member, ⟨first, second⟩ | ⟨first, second⟩⟩
  · exact topology.apart line member (first.trans second.symm)
  · exact topology.apart line member (first.trans second.symm)

theorem linked_apart {left right : Int32} (link : Linked topology.lines left right) :
    left ≠ right := by
  rintro rfl
  exact topology.not_linked_self left link

theorem node_positive {nodeID : Int32} (node : nodeID ∈ topologyNodes topology.lines) :
    0 < nodeID := by
  obtain ⟨line, member, rfl | rfl⟩ := (mem_topology_nodes_iff _ _).mp node
  · exact (topology.positive line member).1
  · exact (topology.positive line member).2

theorem nbr_positive {myNodeID nbr : Int32}
    (member : nbr ∈ topologyGetNbrArray topology.lines myNodeID) : 0 < nbr := by
  have link := (topology.mem_nbr_array_iff myNodeID nbr).mp member
  exact topology.node_positive (linked_nodes myNodeID nbr link).2

theorem link_cost_lt {left right : Int32} (link : Linked topology.lines left right) :
    (topologyGetCost topology.lines left right).toNat < infiniteCost.toNat :=
  topology.short left right [left, right] (direct_path link (topology.linked_apart link))

end Topology

end MiniOverlay
