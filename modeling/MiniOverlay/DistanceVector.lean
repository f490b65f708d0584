import MiniOverlay.Topology

/-!
# The neighbour cost table and the distance vector table

`network/nbrcosttable.c` and `network/dvtable.c`. A distance vector table has a
row for every neighbour and the row of the node itself behind them;
`dvtable_getcost` stops in front of that last row.
-/

namespace MiniOverlay

set_option autoImplicit false

structure NbrCostEntry where
  nodeID : Int32
  cost : UInt32
  deriving DecidableEq

def nbrcosttableCreate (lines : List TopologyLine) (myNodeID : Int32) : List NbrCostEntry :=
  (topologyGetNbrArray lines myNodeID).map fun nbr => ⟨nbr, topologyGetCost lines myNodeID nbr⟩

def nbrcosttableGetcost (nct : List NbrCostEntry) (nodeID : Int32) : UInt32 :=
  match nct.find? fun entry => entry.nodeID = nodeID with
  | some entry => entry.cost
  | none => infiniteCost

structure DvEntry where
  nodeID : Int32
  cost : UInt32
  deriving DecidableEq

/-- `dv_t`; `dvEntry` has one entry for every node that `topology_getNodeNum` counts. -/
structure DvRow where
  nodeID : Int32
  dvEntry : List DvEntry
  deriving DecidableEq

def dvEntryNew (lines : List TopologyLine) (myNodeID : Int32) (beyond : Nat → Int32)
    (sourceNode : Int32) : List DvEntry :=
  (List.range (topologyGetNodeNum lines)).map fun index =>
    let nodeID := topologyGetNodeArray lines myNodeID beyond index
    ⟨nodeID, topologyGetCost lines sourceNode nodeID⟩

/-- Every row is filled from a node array of its own, so `beyond` depends on the row. -/
def dvtableCreate (lines : List TopologyLine) (myNodeID : Int32) (beyond : Nat → Nat → Int32) :
    List DvRow :=
  ((topologyGetNbrArray lines myNodeID).zipIdx.map fun nbr =>
    ⟨nbr.1, dvEntryNew lines myNodeID (beyond nbr.2) nbr.1⟩) ++
  [⟨myNodeID, dvEntryNew lines myNodeID (beyond (topologyGetNbrNum lines myNodeID)) myNodeID⟩]

/-- Sets the first entry for a node; `none` when there is no such entry. -/
def setEntryCost (toNodeID : Int32) (cost : UInt32) : List DvEntry → Option (List DvEntry)
  | [] => none
  | entry :: entries =>
      if entry.nodeID = toNodeID then some (⟨entry.nodeID, cost⟩ :: entries)
      else (setEntryCost toNodeID cost entries).map (entry :: ·)

/-- The return value and the table; all `nbrNum + 1` rows are searched. -/
def dvtableSetcost (fromNodeID toNodeID : Int32) (cost : UInt32) : List DvRow → Int × List DvRow
  | [] => (-1, [])
  | row :: rows =>
      let later := dvtableSetcost fromNodeID toNodeID cost rows
      if fromNodeID = row.nodeID then
        match setEntryCost toNodeID cost row.dvEntry with
        | some dvEntry => (1, ⟨row.nodeID, dvEntry⟩ :: rows)
        | none => (later.1, row :: later.2)
      else (later.1, row :: later.2)

def entryCost? (toNodeID : Int32) (dvEntry : List DvEntry) : Option UInt32 :=
  (dvEntry.find? fun entry => entry.nodeID = toNodeID).map DvEntry.cost

/-- Only the first `nbrNum` rows are searched. -/
def dvtableGetcost (lines : List TopologyLine) (myNodeID : Int32) (dvtable : List DvRow)
    (fromNodeID toNodeID : Int32) : UInt32 :=
  let found := (dvtable.take (topologyGetNbrNum lines myNodeID)).findSome? fun row =>
    if fromNodeID = row.nodeID then entryCost? toNodeID row.dvEntry else none
  found.getD infiniteCost

def OwnRowLast (lines : List TopologyLine) (myNodeID : Int32) (dvtable : List DvRow) : Prop :=
  dvtable.map DvRow.nodeID = topologyGetNbrArray lines myNodeID ++ [myNodeID]

theorem create_own_row_last (lines : List TopologyLine) (myNodeID : Int32)
    (beyond : Nat → Nat → Int32) :
    OwnRowLast lines myNodeID (dvtableCreate lines myNodeID beyond) := by
  rw [OwnRowLast, dvtableCreate, List.map_append, List.map_map]
  simp only [Function.comp_def, List.map_singleton, List.zipIdx_map_fst]

theorem setcost_node_ids (fromNodeID toNodeID : Int32) (cost : UInt32) (dvtable : List DvRow) :
    (dvtableSetcost fromNodeID toNodeID cost dvtable).2.map DvRow.nodeID =
      dvtable.map DvRow.nodeID := by
  induction dvtable with
  | nil => rfl
  | cons row rows ih =>
      rw [dvtableSetcost]
      by_cases here : fromNodeID = row.nodeID
      · rw [if_pos here]
        cases setEntryCost toNodeID cost row.dvEntry with
        | some dvEntry => rfl
        | none => rw [List.map_cons, ih, List.map_cons]
      · rw [if_neg here, List.map_cons, ih, List.map_cons]

theorem setcost_own_row_last {lines : List TopologyLine} {myNodeID : Int32} {dvtable : List DvRow}
    (last : OwnRowLast lines myNodeID dvtable) (fromNodeID toNodeID : Int32) (cost : UInt32) :
    OwnRowLast lines myNodeID (dvtableSetcost fromNodeID toNodeID cost dvtable).2 :=
  (setcost_node_ids fromNodeID toNodeID cost dvtable).trans last

/-- The rows that `dvtable_getcost` searches are the neighbours'. -/
theorem taken_node_ids {lines : List TopologyLine} {myNodeID : Int32} {dvtable : List DvRow}
    (last : OwnRowLast lines myNodeID dvtable) :
    (dvtable.take (topologyGetNbrNum lines myNodeID)).map DvRow.nodeID =
      topologyGetNbrArray lines myNodeID := by
  rw [List.map_take, last, ← nbr_array_length, List.take_left]

theorem getcost_own_row (topology : Topology) (myNodeID toNodeID : Int32) (dvtable : List DvRow)
    (last : OwnRowLast topology.lines myNodeID dvtable) :
    dvtableGetcost topology.lines myNodeID dvtable myNodeID toNodeID = infiniteCost := by
  have absent : ∀ row ∈ dvtable.take (topologyGetNbrNum topology.lines myNodeID),
      myNodeID ≠ row.nodeID := by
    rintro row member same
    have nbr : row.nodeID ∈ topologyGetNbrArray topology.lines myNodeID := by
      rw [← taken_node_ids last]
      exact List.mem_map_of_mem member
    rw [topology.mem_nbr_array_iff] at nbr
    exact topology.linked_apart nbr same
  have nothing : (dvtable.take (topologyGetNbrNum topology.lines myNodeID)).findSome? (fun row =>
      if myNodeID = row.nodeID then entryCost? toNodeID row.dvEntry else none) = none := by
    rw [List.findSome?_eq_none_iff]
    intro row member
    exact if_neg (absent row member)
  rw [dvtableGetcost, nothing]
  rfl

theorem nbrcost_of_linked (topology : Topology) {myNodeID nbr : Int32}
    (link : Linked topology.lines myNodeID nbr) :
    nbrcosttableGetcost (nbrcosttableCreate topology.lines myNodeID) nbr =
      topologyGetCost topology.lines myNodeID nbr := by
  have member := (topology.mem_nbr_array_iff myNodeID nbr).mpr link
  rw [nbrcosttableGetcost]
  cases found : (nbrcosttableCreate topology.lines myNodeID).find? fun entry =>
      entry.nodeID = nbr with
  | none =>
      have absent := List.find?_eq_none.mp found ⟨nbr, _⟩ (List.mem_map_of_mem member)
      simp at absent
  | some entry =>
      have named := List.find?_some found
      obtain ⟨other, _, rfl⟩ := List.mem_map.mp (List.mem_of_find?_eq_some found)
      simp only [decide_eq_true_eq] at named
      rw [named]

end MiniOverlay
