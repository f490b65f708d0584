import Mathlib.Data.Finset.Card
import MiniOverlay.NeighborArrays

/-!
# The node array and the node count

`topology_getNodeNum` marks the IDs of the file in an array and counts the marks.
`topology_getNodeArray` collects the neighbours of the local node and then the node
itself, but it allocates its block for the neighbours alone, so the store of the
local node falls behind the block.
-/

namespace MiniOverlay

open AllocatedArrays

set_option autoImplicit false

namespace Allocated

/-- `if (nodes[node_id] == 0)` marks the ID and counts it. -/
def markID (nodes : Block Int32) (nodeNumber : Nat) (nodeID : Int32) :
    Option (Block Int32 × Nat) :=
  if 0 ≤ nodeID then
    (nodes.load nodeID.toInt.toNat).bind fun mark =>
      if mark = 0 then
        (nodes.store nodeID.toInt.toNat nodeID).map fun marked => (marked, nodeNumber + 1)
      else some (nodes, nodeNumber)
  else none

def markLine (state : Block Int32 × Nat) (line : TopologyLine) : Option (Block Int32 × Nat) :=
  (markID state.1 state.2 line.nodeID1).bind fun (nodes, nodeNumber) =>
    markID nodes nodeNumber line.nodeID2

def topologyGetNodeNum (lines : List TopologyLine) : Option Nat :=
  (lines.foldlM markLine (Block.cleared nodesSize 0, 0)).map Prod.snd

def topologyGetNodeArray (lines : List TopologyLine) (myNodeID : Int32) : Option (Block Int32) :=
  (collect (nbrOfLine myNodeID) lines (Block.cleared nodesSize 0) 0).bind
    fun (nodes, nodeNumber) =>
      (nodes.store nodeNumber myNodeID).bind fun nodes =>
        -- `i <= nodeNumber`: one turn more than there are cells
        forLoop (nodeNumber + 1) (saveNode nodes) (Block.malloc nodeNumber)

end Allocated

/-- IDs that are indices of the `nodes` array other than zero. -/
def MarkedRange (nodeID : Int32) : Prop := 0 < nodeID ∧ nodeID.toInt < nodesSize

instance (nodeID : Int32) : Decidable (MarkedRange nodeID) := inferInstanceAs (Decidable (_ ∧ _))

/-- The cells of the IDs seen so far hold the IDs, the others zero. -/
structure Marks (nodes : Block Int32) (seen : List Int32) : Prop where
  size : nodes.size = nodesSize
  cell : ∀ nodeID, MarkedRange nodeID →
    nodes.load nodeID.toInt.toNat = some (if nodeID ∈ seen then nodeID else 0)

theorem MarkedRange.to_int_pos {nodeID : Int32} (range : MarkedRange nodeID) :
    0 < nodeID.toInt :=
  Int32.lt_iff_toInt_lt.mp range.1

theorem MarkedRange.index_lt {nodeID : Int32} (range : MarkedRange nodeID) :
    nodeID.toInt.toNat < nodesSize := by
  have positive := range.to_int_pos
  have upper := range.2
  omega

theorem MarkedRange.index_inj {left right : Int32} (leftRange : MarkedRange left)
    (rightRange : MarkedRange right) (same : left.toInt.toNat = right.toInt.toNat) :
    left = right := by
  have leftPos := leftRange.to_int_pos
  have rightPos := rightRange.to_int_pos
  exact Int32.toInt_inj.mp (by omega)

theorem mark_id_step {nodes : Block Int32} {seen : List Int32} (marks : Marks nodes seen)
    {nodeID : Int32} (range : MarkedRange nodeID) :
    ∃ marked, Allocated.markID nodes seen.length nodeID =
        some (marked, (markNode seen nodeID).length) ∧ Marks marked (markNode seen nodeID) := by
  have nonneg : 0 ≤ nodeID := Int32.le_of_lt range.1
  have nonzero : nodeID ≠ 0 := (Int32.ne_of_lt range.1).symm
  rw [Allocated.markID, if_pos nonneg, marks.cell nodeID range, Option.bind_some]
  by_cases old : nodeID ∈ seen
  · rw [if_pos old, if_neg nonzero, markNode, if_pos old]
    exact ⟨nodes, rfl, marks⟩
  · have inside : nodeID.toInt.toNat < nodes.size := by
      rw [marks.size]
      exact range.index_lt
    have done := Block.store_inside nodeID inside
    rw [if_neg old, if_pos rfl, done, Option.map_some, markNode, if_neg old,
      List.length_append, List.length_singleton]
    refine ⟨_, rfl, (Block.store_size done).trans marks.size, ?_⟩
    intro other otherRange
    by_cases same : nodeID = other
    · subst same
      rw [Block.load_store_same done]
      simp
    · have apart : nodeID.toInt.toNat ≠ other.toInt.toNat :=
        fun sameIndex => same (range.index_inj otherRange sameIndex)
      have notNew : other ≠ nodeID := fun new => same new.symm
      rw [Block.load_store_other done apart, marks.cell other otherRange]
      simp [notNew]

theorem node_num_counts (lines : List TopologyLine)
    (range : ∀ line ∈ lines, MarkedRange line.nodeID1 ∧ MarkedRange line.nodeID2) :
    Allocated.topologyGetNodeNum lines = some (topologyGetNodeNum lines) := by
  have general (nodes : Block Int32) (seen : List Int32) (marks : Marks nodes seen) :
      (lines.foldlM Allocated.markLine (nodes, seen.length)).map Prod.snd =
        some (lines.foldl
          (fun nodes line => markNode (markNode nodes line.nodeID1) line.nodeID2) seen).length := by
    induction lines generalizing nodes seen with
    | nil => rfl
    | cons line lines ih =>
        have ends := range line (by simp)
        obtain ⟨first, firstDone, firstMarks⟩ := mark_id_step marks ends.1
        obtain ⟨second, secondDone, secondMarks⟩ := mark_id_step firstMarks ends.2
        have step : Allocated.markLine (nodes, seen.length) line =
            some (second, (markNode (markNode seen line.nodeID1) line.nodeID2).length) := by
          simp only [Allocated.markLine, firstDone, Option.bind_some, secondDone]
        rw [List.foldlM_cons, step, List.foldl_cons]
        exact ih (fun other member => range other (by simp [member])) second _ secondMarks
  refine general (Block.cleared nodesSize 0) [] ⟨Block.cleared_size nodesSize, ?_⟩
  intro nodeID inRange
  rw [Block.load_cleared inRange.index_lt]
  simp

theorem mark_node_nodup {nodes : List Int32} (nodup : nodes.Nodup) (nodeID : Int32) :
    (markNode nodes nodeID).Nodup := by
  unfold markNode
  split_ifs with seen
  · exact nodup
  · rw [← List.concat_eq_append]
    exact nodup.concat seen

theorem topology_nodes_nodup (lines : List TopologyLine) : (topologyNodes lines).Nodup := by
  have general (nodes : List Int32) (nodup : nodes.Nodup) : (lines.foldl
      (fun nodes line => markNode (markNode nodes line.nodeID1) line.nodeID2) nodes).Nodup := by
    induction lines generalizing nodes with
    | nil => exact nodup
    | cons line lines ih =>
        exact ih _ (mark_node_nodup (mark_node_nodup nodup line.nodeID1) line.nodeID2)
  exact general [] List.nodup_nil

def fileNodes (lines : List TopologyLine) : Finset Int32 :=
  (lines.flatMap fun line => [line.nodeID1, line.nodeID2]).toFinset

theorem mem_file_nodes_iff (lines : List TopologyLine) (nodeID : Int32) :
    nodeID ∈ fileNodes lines ↔ ∃ line ∈ lines, line.nodeID1 = nodeID ∨ line.nodeID2 = nodeID := by
  simp [fileNodes, eq_comm]

theorem node_num_card (lines : List TopologyLine) :
    topologyGetNodeNum lines = (fileNodes lines).card := by
  have same : fileNodes lines = (topologyNodes lines).toFinset := by
    ext nodeID
    rw [mem_file_nodes_iff, List.mem_toFinset, mem_topology_nodes_iff]
  rw [same, List.toFinset_card_of_nodup (topology_nodes_nodup lines), topologyGetNodeNum]

def TopologyLine.swap (line : TopologyLine) : TopologyLine :=
  ⟨line.nodeID2, line.nodeID1, line.linkCost⟩

def SameLinks (lines others : List TopologyLine) : Prop :=
  ∃ turned, List.Forall₂ (fun line other => other = line ∨ other = line.swap) lines turned ∧
    turned.Perm others

theorem turned_nodes {lines turned : List TopologyLine}
    (each : List.Forall₂ (fun line other => other = line ∨ other = line.swap) lines turned)
    (nodeID : Int32) :
    (∃ line ∈ turned, line.nodeID1 = nodeID ∨ line.nodeID2 = nodeID) ↔
      ∃ line ∈ lines, line.nodeID1 = nodeID ∨ line.nodeID2 = nodeID := by
  induction each with
  | nil => rfl
  | cons same _ ih =>
      rw [List.exists_mem_cons_iff, List.exists_mem_cons_iff, ih]
      rcases same with rfl | rfl
      · rfl
      · rw [TopologyLine.swap, or_comm (a := _ = nodeID)]

theorem same_links_nodes {lines others : List TopologyLine} (same : SameLinks lines others) :
    fileNodes others = fileNodes lines := by
  obtain ⟨turned, each, perm⟩ := same
  ext nodeID
  rw [mem_file_nodes_iff, mem_file_nodes_iff, ← turned_nodes each]
  simp only [perm.mem_iff]

/-- `topology_getNodeNum` is the number of different node IDs of the file, whatever the
order of its lines and of the hosts in them. -/
theorem node_num_distinct (lines : List TopologyLine)
    (range : ∀ line ∈ lines, MarkedRange line.nodeID1 ∧ MarkedRange line.nodeID2) :
    Allocated.topologyGetNodeNum lines = some (fileNodes lines).card ∧
      ∀ others, SameLinks lines others →
        Allocated.topologyGetNodeNum others = Allocated.topologyGetNodeNum lines := by
  have ofNodes (file : List TopologyLine)
      (ids : ∀ line ∈ file, MarkedRange line.nodeID1 ∧ MarkedRange line.nodeID2) :
      Allocated.topologyGetNodeNum file = some (fileNodes file).card := by
    rw [node_num_counts file ids, node_num_card]
  refine ⟨ofNodes lines range, fun others same => ?_⟩
  have nodes := same_links_nodes same
  have marked : ∀ nodeID ∈ fileNodes lines, MarkedRange nodeID := by
    intro nodeID member
    obtain ⟨line, inFile, rfl | rfl⟩ := (mem_file_nodes_iff lines _).mp member
    · exact (range line inFile).1
    · exact (range line inFile).2
  have othersRange : ∀ line ∈ others, MarkedRange line.nodeID1 ∧ MarkedRange line.nodeID2 := by
    intro line inFile
    rw [← nodes] at marked
    exact ⟨marked _ ((mem_file_nodes_iff others _).mpr ⟨line, inFile, Or.inl rfl⟩),
      marked _ ((mem_file_nodes_iff others _).mpr ⟨line, inFile, Or.inr rfl⟩)⟩
  rw [ofNodes others othersRange, ofNodes lines range, nodes]

/-- A repeated pair and a self-link. -/
theorem repeated_links_counted :
    Allocated.topologyGetNodeNum [⟨7, 9, 5⟩, ⟨9, 7, 5⟩, ⟨9, 9, 1⟩] = some 2 ∧
      ∀ others, SameLinks [⟨7, 9, 5⟩, ⟨9, 7, 5⟩, ⟨9, 9, 1⟩] others →
        Allocated.topologyGetNodeNum others =
          Allocated.topologyGetNodeNum [⟨7, 9, 5⟩, ⟨9, 7, 5⟩, ⟨9, 9, 1⟩] :=
  node_num_distinct [⟨7, 9, 5⟩, ⟨9, 7, 5⟩, ⟨9, 9, 1⟩] (by decide)

theorem save_node_size (nodes nodeArray : Block Int32) (i : Nat) (result : Block Int32)
    (saved : Allocated.saveNode nodes nodeArray i = some result) :
    result.size = nodeArray.size := by
  obtain ⟨nodeID, _, rest⟩ := Option.bind_eq_some_iff.mp saved
  split_ifs at rest
  · exact Block.store_size rest
  · cases rest
    rfl

theorem node_array_outside (lines : List TopologyLine) (myNodeID : Int32)
    (positive : 0 < myNodeID) :
    Allocated.topologyGetNodeArray lines myNodeID = none := by
  rw [Allocated.topologyGetNodeArray, Option.bind_eq_none_iff]
  rintro ⟨nodes, nodeNumber⟩ _
  rw [Option.bind_eq_none_iff]
  intro withOwn stored
  rw [for_loop_succ, Option.bind_eq_none_iff]
  intro nodeArray looped
  have size : nodeArray.size = nodeNumber :=
    (for_loop_size nodeNumber _ (save_node_size withOwn) looped).trans
      (Block.malloc_size nodeNumber)
  rw [Allocated.saveNode, Block.load_store_same stored, Option.bind_some, if_pos positive,
    Block.store_outside size.le]

/-- `topology_getNodeArray` stays in the block it allocates, which has
`topology_getNodeNum()` entries: the node IDs of the file, each once. -/
def NodeArrayComplete (lines : List TopologyLine) (myNodeID : Int32) : Prop :=
  ∃ nodeArray nodeIDs, Allocated.topologyGetNodeArray lines myNodeID = some nodeArray ∧
    Allocated.topologyGetNodeNum lines = some nodeArray.size ∧ nodeArray.Filled nodeIDs ∧
    nodeIDs.Nodup ∧ ∀ nodeID, nodeID ∈ nodeIDs ↔
      ∃ line ∈ lines, line.nodeID1 = nodeID ∨ line.nodeID2 = nodeID

/-- The IDs that `topology_getNodeIDfromname` gives for an address with a last
octet other than zero. -/
def HostID (nodeID : Int32) : Prop := 1 ≤ nodeID ∧ nodeID ≤ 255
  deriving Decidable

theorem HostID.positive {nodeID : Int32} (host : HostID nodeID) : 0 < nodeID :=
  Int32.lt_of_lt_of_le (by decide) host.1

/-- No file and no local node of it have a complete node array. -/
theorem node_array_never_complete (lines : List TopologyLine)
    (hosts : ∀ line ∈ lines, HostID line.nodeID1 ∧ HostID line.nodeID2) (myNodeID : Int32)
    (node : ∃ line ∈ lines, line.nodeID1 = myNodeID ∨ line.nodeID2 = myNodeID) :
    ¬ NodeArrayComplete lines myNodeID := by
  rintro ⟨nodeArray, _, created, _⟩
  have positive : 0 < myNodeID := by
    obtain ⟨line, member, rfl | rfl⟩ := node
    · exact (hosts line member).1.positive
    · exact (hosts line member).2.positive
  rw [node_array_outside lines myNodeID positive] at created
  cases created

theorem path_node_array_incomplete :
    let lines : List TopologyLine := [⟨1, 2, 5⟩, ⟨2, 3, 4⟩]
    (∀ line ∈ lines, HostID line.nodeID1 ∧ HostID line.nodeID2) ∧ ¬ NodeArrayComplete lines 2 := by
  intro lines
  have hosts : ∀ line ∈ lines, HostID line.nodeID1 ∧ HostID line.nodeID2 := by decide
  exact ⟨hosts, node_array_never_complete lines hosts 2 ⟨⟨1, 2, 5⟩, by simp [lines]⟩⟩

/-- Two linked nodes: the block has one cell and the second store misses it. -/
theorem pair_node_array_overflows : ¬ NodeArrayComplete [⟨1, 2, 5⟩] 1 := by
  rintro ⟨nodeArray, _, created, _⟩
  rw [node_array_outside [⟨1, 2, 5⟩] 1 (by decide)] at created
  cases created

end MiniOverlay
