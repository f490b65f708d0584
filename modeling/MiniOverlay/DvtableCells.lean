import MiniOverlay.DistanceVector
import MiniOverlay.FirstMatch

/-!
# The distance vector table as cells

Row after row, a distance vector table is a list of costs by source and
destination. `dvtable_setcost` overwrites the first cell of a pair in the whole
table, `dvtable_getcost` searches the cells of the neighbours' rows only, so a
cost that is written to the node's own row cannot be read back.
-/

namespace MiniOverlay

open FirstMatch

set_option autoImplicit false

abbrev DvCells := List ((Int32 × Int32) × UInt32)

def rowCells (nodeID : Int32) (dvEntry : List DvEntry) : DvCells :=
  dvEntry.map fun entry => ((nodeID, entry.nodeID), entry.cost)

def dvCells (dvtable : List DvRow) : DvCells :=
  dvtable.flatMap fun row => rowCells row.nodeID row.dvEntry

theorem dv_cells_cons (row : DvRow) (rows : List DvRow) :
    dvCells (row :: rows) = rowCells row.nodeID row.dvEntry ++ dvCells rows :=
  List.flatMap_cons

theorem dv_cells_append (front back : List DvRow) :
    dvCells (front ++ back) = dvCells front ++ dvCells back :=
  List.flatMap_append

def cellCost? (dvtable : List DvRow) (fromNodeID toNodeID : Int32) : Option UInt32 :=
  (dvCells dvtable).lookup (fromNodeID, toNodeID)

theorem row_cells_lookup_other {nodeID fromNodeID : Int32} (different : fromNodeID ≠ nodeID)
    (toNodeID : Int32) (dvEntry : List DvEntry) :
    (rowCells nodeID dvEntry).lookup (fromNodeID, toNodeID) = none := by
  rw [rowCells, lookup_map, Option.map_eq_none_iff, List.find?_eq_none]
  intro entry _ same
  rw [decide_eq_true_eq, Prod.mk.injEq] at same
  exact different same.1.symm

theorem row_cells_lookup (nodeID toNodeID : Int32) (dvEntry : List DvEntry) :
    (rowCells nodeID dvEntry).lookup (nodeID, toNodeID) = entryCost? toNodeID dvEntry := by
  rw [rowCells, lookup_map, entryCost?]
  simp only [Prod.mk.injEq, true_and]

theorem set_entry_cells (nodeID toNodeID : Int32) (cost : UInt32) (dvEntry : List DvEntry) :
    match setEntryCost toNodeID cost dvEntry with
    | some written =>
        (entryCost? toNodeID dvEntry).isSome ∧
          rowCells nodeID written = assign (nodeID, toNodeID) cost (rowCells nodeID dvEntry)
    | none => entryCost? toNodeID dvEntry = none := by
  induction dvEntry with
  | nil => rfl
  | cons entry dvEntry ih =>
      rw [setEntryCost]
      by_cases here : entry.nodeID = toNodeID
      · simp [here, entryCost?, rowCells, assign]
      · have apart : ¬ toNodeID = entry.nodeID := fun same => here same.symm
        rw [if_neg here]
        cases written : setEntryCost toNodeID cost dvEntry with
        | none =>
            rw [written] at ih
            simpa [entryCost?, here] using ih
        | some later =>
            rw [written] at ih
            obtain ⟨found, cells⟩ := ih
            refine ⟨by simpa [entryCost?, here] using found, ?_⟩
            simpa [rowCells, assign, apart] using cells

/-- `dvtable_setcost` overwrites the first cell of its pair, and reports whether there is one. -/
theorem setcost_cells (fromNodeID toNodeID : Int32) (cost : UInt32) (dvtable : List DvRow) :
    (dvtableSetcost fromNodeID toNodeID cost dvtable).1 =
        (if (cellCost? dvtable fromNodeID toNodeID).isSome then 1 else -1) ∧
      dvCells (dvtableSetcost fromNodeID toNodeID cost dvtable).2 =
        assign (fromNodeID, toNodeID) cost (dvCells dvtable) := by
  induction dvtable with
  | nil => exact ⟨rfl, rfl⟩
  | cons row rows ih =>
      obtain ⟨result, cells⟩ := ih
      rw [cellCost?, dv_cells_cons, List.lookup_append, assign_append, dvtableSetcost]
      by_cases here : fromNodeID = row.nodeID
      · subst here
        have entries := set_entry_cells row.nodeID toNodeID cost row.dvEntry
        rw [if_pos rfl, row_cells_lookup]
        cases written : setEntryCost toNodeID cost row.dvEntry with
        | none =>
            rw [written] at entries
            simp only [entries, Option.none_or, dv_cells_cons, cells]
            exact ⟨result, rfl⟩
        | some dvEntry =>
            rw [written] at entries
            simp [dv_cells_cons, entries.1, entries.2]
      · rw [if_neg here, row_cells_lookup_other here]
        simp only [Option.none_or, dv_cells_cons, cells]
        exact ⟨result, rfl⟩

theorem cell_cost_setcost_same (dvtable : List DvRow) (fromNodeID toNodeID : Int32)
    (cost : UInt32) :
    cellCost? (dvtableSetcost fromNodeID toNodeID cost dvtable).2 fromNodeID toNodeID =
      (cellCost? dvtable fromNodeID toNodeID).map fun _ => cost := by
  rw [cellCost?, (setcost_cells fromNodeID toNodeID cost dvtable).2, lookup_assign_same, cellCost?]

theorem cell_cost_setcost_other (dvtable : List DvRow) {fromNodeID toNodeID source target : Int32}
    (different : (source, target) ≠ (fromNodeID, toNodeID)) (cost : UInt32) :
    cellCost? (dvtableSetcost fromNodeID toNodeID cost dvtable).2 source target =
      cellCost? dvtable source target := by
  rw [cellCost?, (setcost_cells fromNodeID toNodeID cost dvtable).2,
    lookup_assign_other different, cellCost?]

theorem setcost_missing {dvtable : List DvRow} {fromNodeID toNodeID : Int32} (cost : UInt32)
    (missing : cellCost? dvtable fromNodeID toNodeID = none) :
    (dvtableSetcost fromNodeID toNodeID cost dvtable).2 = dvtable := by
  induction dvtable with
  | nil => rfl
  | cons row rows ih =>
      rw [cellCost?, dv_cells_cons, List.lookup_append, Option.or_eq_none_iff] at missing
      rw [dvtableSetcost]
      by_cases here : fromNodeID = row.nodeID
      · subst here
        have entries := set_entry_cells row.nodeID toNodeID cost row.dvEntry
        rw [row_cells_lookup] at missing
        rw [if_pos rfl]
        cases written : setEntryCost toNodeID cost row.dvEntry with
        | none => exact congrArg (row :: ·) (ih missing.2)
        | some dvEntry =>
            rw [written, missing.1] at entries
            exact absurd entries.1 (by simp)
      · rw [if_neg here]
        exact congrArg (row :: ·) (ih missing.2)

theorem setcost_take (fromNodeID toNodeID : Int32) (cost : UInt32) (dvtable : List DvRow)
    (count : Nat) :
    (dvtableSetcost fromNodeID toNodeID cost dvtable).2.take count =
      (dvtableSetcost fromNodeID toNodeID cost (dvtable.take count)).2 := by
  induction dvtable generalizing count with
  | nil => rw [dvtableSetcost, List.take_nil, dvtableSetcost]
  | cons row rows ih =>
      cases count with
      | zero => rw [List.take_zero, List.take_zero, dvtableSetcost]
      | succ count =>
          rw [List.take_succ_cons, dvtableSetcost, dvtableSetcost]
          split_ifs with here
          · cases setEntryCost toNodeID cost row.dvEntry with
            | none => rw [List.take_succ_cons, ih]
            | some dvEntry => rw [List.take_succ_cons]
          · rw [List.take_succ_cons, ih]

theorem getcost_cells (lines : List TopologyLine) (myNodeID : Int32) (dvtable : List DvRow)
    (fromNodeID toNodeID : Int32) :
    dvtableGetcost lines myNodeID dvtable fromNodeID toNodeID =
      (cellCost? (dvtable.take (topologyGetNbrNum lines myNodeID)) fromNodeID toNodeID).getD
        infiniteCost := by
  have found (rows : List DvRow) :
      rows.findSome? (fun row =>
          if fromNodeID = row.nodeID then entryCost? toNodeID row.dvEntry else none) =
        cellCost? rows fromNodeID toNodeID := by
    induction rows with
    | nil => rfl
    | cons row rows ih =>
        rw [List.findSome?_cons, cellCost?, dv_cells_cons, List.lookup_append, ← cellCost?, ← ih]
        by_cases here : fromNodeID = row.nodeID
        · subst here
          rw [if_pos rfl, row_cells_lookup]
          cases entryCost? toNodeID row.dvEntry <;> rfl
        · rw [if_neg here, row_cells_lookup_other here, Option.none_or]
  rw [dvtableGetcost, found]

theorem getcost_setcost_same (lines : List TopologyLine) (myNodeID : Int32)
    (dvtable : List DvRow) (fromNodeID toNodeID : Int32) (cost : UInt32) :
    dvtableGetcost lines myNodeID (dvtableSetcost fromNodeID toNodeID cost dvtable).2 fromNodeID
        toNodeID =
      if (cellCost? (dvtable.take (topologyGetNbrNum lines myNodeID)) fromNodeID
        toNodeID).isSome then cost else infiniteCost := by
  rw [getcost_cells, setcost_take, cell_cost_setcost_same]
  cases cellCost? (dvtable.take (topologyGetNbrNum lines myNodeID)) fromNodeID toNodeID <;> rfl

theorem getcost_setcost_other (lines : List TopologyLine) (myNodeID : Int32)
    (dvtable : List DvRow) {fromNodeID toNodeID source target : Int32}
    (different : (source, target) ≠ (fromNodeID, toNodeID)) (cost : UInt32) :
    dvtableGetcost lines myNodeID (dvtableSetcost fromNodeID toNodeID cost dvtable).2 source
        target =
      dvtableGetcost lines myNodeID dvtable source target := by
  rw [getcost_cells, getcost_cells, setcost_take, cell_cost_setcost_other _ different]

/-- The neighbours' rows with the node's own row behind them, all for different
nodes and with one entry for every destination. -/
structure DvShape (lines : List TopologyLine) (myNodeID : Int32) (dvtable : List DvRow) : Prop where
  rows : OwnRowLast lines myNodeID dvtable
  distinct : (dvtable.map DvRow.nodeID).Nodup
  entries : ∀ row ∈ dvtable, row.dvEntry.length = topologyGetNodeNum lines
  targets : ∀ row ∈ dvtable, (row.dvEntry.map DvEntry.nodeID).Nodup

abbrev searchedRows (lines : List TopologyLine) (myNodeID : Int32) (dvtable : List DvRow) :
    List DvRow :=
  dvtable.take (topologyGetNbrNum lines myNodeID)

theorem searched_ids {lines : List TopologyLine} {myNodeID : Int32} {dvtable : List DvRow}
    (rows : OwnRowLast lines myNodeID dvtable) :
    (searchedRows lines myNodeID dvtable).map DvRow.nodeID =
      topologyGetNbrArray lines myNodeID :=
  taken_node_ids rows

theorem own_row_behind {lines : List TopologyLine} {myNodeID : Int32} {dvtable : List DvRow}
    (rows : OwnRowLast lines myNodeID dvtable) :
    ∃ own, dvtable = searchedRows lines myNodeID dvtable ++ [own] ∧ own.nodeID = myNodeID := by
  have ids : (dvtable.drop (topologyGetNbrNum lines myNodeID)).map DvRow.nodeID = [myNodeID] := by
    rw [List.map_drop, rows, ← nbr_array_length, List.drop_left]
  obtain ⟨own, last, named⟩ := List.map_eq_singleton_iff.mp ids
  exact ⟨own, by rw [searchedRows, ← last, List.take_append_drop], named⟩

theorem cell_cost_some_iff (dvtable : List DvRow) (fromNodeID toNodeID : Int32) :
    (cellCost? dvtable fromNodeID toNodeID).isSome ↔
      ∃ row ∈ dvtable, row.nodeID = fromNodeID ∧
        ∃ entry ∈ row.dvEntry, entry.nodeID = toNodeID := by
  rw [cellCost?, List.lookup_isSome_iff]
  simp only [dvCells, rowCells, List.mem_flatMap, List.mem_map, beq_iff_eq]
  constructor
  · rintro ⟨_, ⟨row, member, entry, inRow, rfl⟩, same⟩
    obtain ⟨rfl, rfl⟩ := Prod.mk.inj same
    exact ⟨row, member, rfl, entry, inRow, rfl⟩
  · rintro ⟨row, member, rfl, entry, inRow, rfl⟩
    exact ⟨_, ⟨row, member, entry, inRow, rfl⟩, rfl⟩

theorem own_not_searched {lines : List TopologyLine} {myNodeID : Int32} {dvtable : List DvRow}
    (rows : OwnRowLast lines myNodeID dvtable) (distinct : (dvtable.map DvRow.nodeID).Nodup)
    (toNodeID : Int32) :
    cellCost? (searchedRows lines myNodeID dvtable) myNodeID toNodeID = none := by
  rw [rows] at distinct
  rw [← Option.not_isSome_iff_eq_none, cell_cost_some_iff]
  rintro ⟨row, member, named, _⟩
  have isNbr : row.nodeID ∈ topologyGetNbrArray lines myNodeID := by
    rw [← searched_ids rows]
    exact List.mem_map_of_mem member
  have isOwn : row.nodeID ∈ [myNodeID] := by
    rw [named]
    exact List.mem_singleton_self _
  exact List.disjoint_of_nodup_append distinct isNbr isOwn

theorem searched_cell_cost {lines : List TopologyLine} {myNodeID : Int32} {dvtable : List DvRow}
    (rows : OwnRowLast lines myNodeID dvtable) {fromNodeID : Int32}
    (different : fromNodeID ≠ myNodeID) (toNodeID : Int32) :
    cellCost? (searchedRows lines myNodeID dvtable) fromNodeID toNodeID =
      cellCost? dvtable fromNodeID toNodeID := by
  obtain ⟨own, split, named⟩ := own_row_behind rows
  have whole : cellCost? dvtable fromNodeID toNodeID =
      cellCost? (searchedRows lines myNodeID dvtable ++ [own]) fromNodeID toNodeID :=
    congrArg (cellCost? · fromNodeID toNodeID) split
  have apart : fromNodeID ≠ own.nodeID := by
    rw [named]
    exact different
  rw [whole, cellCost?, cellCost?, dv_cells_append, List.lookup_append, dv_cells_cons,
    List.lookup_append, row_cells_lookup_other apart]
  simp [dvCells]

/-- A successful `dvtable_setcost` is read back and changes nothing else, and
one that fails changes nothing. -/
def ReadsWhatWasSet (lines : List TopologyLine) (myNodeID : Int32) (dvtable : List DvRow)
    (fromNodeID toNodeID : Int32) (cost : UInt32) : Prop :=
  let written := dvtableSetcost fromNodeID toNodeID cost dvtable
  (written.1 = 1 →
    dvtableGetcost lines myNodeID written.2 fromNodeID toNodeID = cost ∧
      ∀ source target, (source, target) ≠ (fromNodeID, toNodeID) →
        dvtableGetcost lines myNodeID written.2 source target =
          dvtableGetcost lines myNodeID dvtable source target) ∧
  (written.1 = -1 →
    written.2 = dvtable ∧
      dvtableGetcost lines myNodeID written.2 fromNodeID toNodeID = infiniteCost)

theorem reads_missing {lines : List TopologyLine} {myNodeID : Int32} {dvtable : List DvRow}
    {fromNodeID toNodeID : Int32} (missing : cellCost? dvtable fromNodeID toNodeID = none)
    (cost : UInt32) :
    ReadsWhatWasSet lines myNodeID dvtable fromNodeID toNodeID cost := by
  have result := (setcost_cells fromNodeID toNodeID cost dvtable).1
  have kept := setcost_missing cost missing
  rw [missing] at result
  refine ⟨fun wrong => absurd (result.symm.trans wrong) (by decide), fun _ => ⟨kept, ?_⟩⟩
  have notSearched :
      cellCost? (searchedRows lines myNodeID dvtable) fromNodeID toNodeID = none := by
    have split := List.take_append_drop (topologyGetNbrNum lines myNodeID) dvtable
    rw [← split, cellCost?, dv_cells_append, List.lookup_append, Option.or_eq_none_iff] at missing
    exact missing.1
  rw [kept, getcost_cells, notSearched]
  rfl

theorem reads_present_iff {lines : List TopologyLine} {myNodeID : Int32} {dvtable : List DvRow}
    {fromNodeID toNodeID : Int32} (present : (cellCost? dvtable fromNodeID toNodeID).isSome)
    (cost : UInt32) :
    ReadsWhatWasSet lines myNodeID dvtable fromNodeID toNodeID cost ↔
      dvtableGetcost lines myNodeID (dvtableSetcost fromNodeID toNodeID cost dvtable).2
        fromNodeID toNodeID = cost := by
  have result := (setcost_cells fromNodeID toNodeID cost dvtable).1
  rw [if_pos present] at result
  constructor
  · intro reads
    exact (reads.1 result).1
  · intro read
    refine ⟨fun _ => ⟨read, ?_⟩, fun wrong => absurd (result.symm.trans wrong) (by decide)⟩
    intro source target other
    exact getcost_setcost_other lines myNodeID dvtable other cost

/-- What was set is read back everywhere but in the node's own row, where only
`INFINITE_COST` is. -/
theorem reads_what_was_set_iff (lines : List TopologyLine) (myNodeID : Int32)
    (dvtable : List DvRow) (shape : DvShape lines myNodeID dvtable)
    (fromNodeID toNodeID : Int32) (cost : UInt32) :
    ReadsWhatWasSet lines myNodeID dvtable fromNodeID toNodeID cost ↔
      ¬ (fromNodeID = myNodeID ∧ cost ≠ infiniteCost ∧
        ∃ row ∈ dvtable, row.nodeID = myNodeID ∧
          ∃ entry ∈ row.dvEntry, entry.nodeID = toNodeID) := by
  have listed := cell_cost_some_iff dvtable fromNodeID toNodeID
  have read := getcost_setcost_same lines myNodeID dvtable fromNodeID toNodeID cost
  by_cases present : (cellCost? dvtable fromNodeID toNodeID).isSome
  · rw [reads_present_iff present, read]
    by_cases own : fromNodeID = myNodeID
    · rw [own] at listed present ⊢
      rw [own_not_searched shape.rows shape.distinct]
      constructor
      · rintro infinite ⟨_, apart, _⟩
        exact apart infinite.symm
      · intro readable
        by_contra apart
        exact readable ⟨rfl, fun same => apart same.symm, listed.mp present⟩
    · rw [← searched_cell_cost shape.rows own] at present
      simp [present, own]
  · refine iff_of_true (reads_missing (Option.not_isSome_iff_eq_none.mp present) cost) ?_
    rintro ⟨rfl, _, stands⟩
    exact present (listed.mpr stands)

def pairTable : List DvRow := [⟨2, [⟨2, 0⟩, ⟨1, 1⟩]⟩, ⟨1, [⟨2, 1⟩, ⟨1, 0⟩]⟩]

theorem pair_table_shape : DvShape [⟨1, 2, 1⟩] 1 pairTable :=
  ⟨rfl, by decide, by decide, by decide⟩

theorem pair_reads_neighbour :
    ReadsWhatWasSet [⟨1, 2, 1⟩] 1 pairTable 2 1 7 :=
  (reads_what_was_set_iff _ 1 pairTable pair_table_shape 2 1 7).mpr (by decide)

/-- A cost of 7 in the own row is read as `INFINITE_COST`. -/
theorem own_cost_not_read :
    DvShape [⟨1, 2, 1⟩] 1 pairTable ∧
      pairTable = dvtableCreate [⟨1, 2, 1⟩] 1 (fun _ _ => 0) ∧
      (dvtableSetcost 1 2 7 pairTable).1 = 1 ∧
      dvtableGetcost [⟨1, 2, 1⟩] 1 (dvtableSetcost 1 2 7 pairTable).2 1 2 = infiniteCost ∧
      ¬ ReadsWhatWasSet [⟨1, 2, 1⟩] 1 pairTable 1 2 7 := by
  refine ⟨pair_table_shape, by decide, by decide, by decide, fun reads => ?_⟩
  exact absurd (reads.1 (by decide)).1 (by decide)

end MiniOverlay
