import MiniOverlay.AllocatedArrays
import MiniOverlay.DistanceVector
import MiniOverlay.PacketForwarding

/-!
# The arrays behind the neighbour structures

`topology_getNbrArray`, `nt_create`, `nbrcosttable_create` and `dvtable_create` with
the blocks they allocate. Each of them sizes its block with `topology_getNbrNum` or
with a count of its own and fills it in a loop of its own; none of them leaves a
cell of its block empty or stores outside it, so the blocks hold the lists that the
other modules work with.
-/

namespace MiniOverlay

open AllocatedArrays

set_option autoImplicit false

structure InAddr where
  octet1 : UInt8
  octet2 : UInt8
  octet3 : UInt8
  octet4 : UInt8
  deriving DecidableEq

def topologyGetNodeIDfromip (addr : InAddr) : Int32 := Int32.ofNat addr.octet4.toNat

structure AddressedNbrEntry extends NbrEntry where
  nodeIP : InAddr
  deriving DecidableEq

/-- A line of the file with the addresses that `gethostbyname` gives for its hosts. -/
structure HostLine extends TopologyLine where
  address1 : InAddr
  address2 : InAddr
  deriving DecidableEq

def hostNodes (file : List HostLine) : List TopologyLine := file.map HostLine.toTopologyLine

def nodesSize : Nat := 2048

def nbrOfLine (myNodeID : Int32) (line : TopologyLine) : Option Int32 :=
  if line.nodeID1 = myNodeID then some line.nodeID2
  else if myNodeID = line.nodeID2 then some line.nodeID1
  else none

def ntEntryOfLine (myNodeID : Int32) (line : HostLine) : Option AddressedNbrEntry :=
  if line.nodeID1 = myNodeID then some ⟨⟨line.nodeID2, -1⟩, line.address2⟩
  else if line.nodeID2 = myNodeID then some ⟨⟨line.nodeID1, -1⟩, line.address1⟩
  else none

def ntEntries (file : List HostLine) (myNodeID : Int32) : List AddressedNbrEntry :=
  file.filterMap (ntEntryOfLine myNodeID)

namespace Allocated

/-- `if (nodes[i] > 0) nodeArray[i] = nodes[i];` -/
def saveNode (nodes nodeArray : Block Int32) (i : Nat) : Option (Block Int32) :=
  (nodes.load i).bind fun nodeID =>
    if 0 < nodeID then nodeArray.store i nodeID else some nodeArray

def topologyGetNbrArray (lines : List TopologyLine) (myNodeID : Int32) : Option (Block Int32) :=
  (collect (nbrOfLine myNodeID) lines (Block.cleared nodesSize 0) 0).bind
    fun (nodes, nodeNumber) =>
      forLoop (topologyGetNbrNum lines myNodeID) (saveNode nodes) (Block.malloc nodeNumber)

def ntCreate (file : List HostLine) (myNodeID : Int32) : Option (Block AddressedNbrEntry) :=
  (collect (ntEntryOfLine myNodeID) file
    (Block.malloc (topologyGetNbrNum (hostNodes file) myNodeID)) 0).map Prod.fst

def nbrcosttableCreate (lines : List TopologyLine) (myNodeID : Int32) :
    Option (Block NbrCostEntry) :=
  let nbrNum := topologyGetNbrNum lines myNodeID
  (topologyGetNbrArray lines myNodeID).bind fun nbrArray =>
    forLoop nbrNum (fun nbrtable i =>
      (nbrArray.load i).bind fun nbr =>
        nbrtable.store i ⟨nbr, topologyGetCost lines myNodeID nbr⟩)
      (Block.malloc nbrNum)

/-- The int that a call of `dv_entry_new` stores behind its node array: what the calls before
the one of an index do to the array of the neighbours, and what the one of an index does to
the table with its row. -/
structure StrayStores where
  nbrArray : Nat → Block Int32 → Block Int32
  dvTable : Nat → Block DvRow → Block DvRow

structure StrayStores.Miss (stray : StrayStores) : Prop where
  nbrArray : ∀ i block, stray.nbrArray i block = block
  dvTable : ∀ i block, stray.dvTable i block = block

def dvtableCreate (lines : List TopologyLine) (myNodeID : Int32) (beyond : Nat → Nat → Int32)
    (stray : StrayStores) : Option (Block DvRow) :=
  let nbrNum := topologyGetNbrNum lines myNodeID
  (topologyGetNbrArray lines myNodeID).bind fun nbrArray =>
    (forLoop nbrNum (fun dvTable i =>
      ((stray.nbrArray i nbrArray).load i).bind fun nbr =>
        (dvTable.store i ⟨nbr, dvEntryNew lines myNodeID (beyond i) nbr⟩).map (stray.dvTable i))
      (Block.malloc (nbrNum + 1))).bind fun dvTable =>
        (dvTable.store nbrNum
          ⟨myNodeID, dvEntryNew lines myNodeID (beyond nbrNum) myNodeID⟩).map
            (stray.dvTable nbrNum)

end Allocated

theorem nbr_array_eq (lines : List TopologyLine) (myNodeID : Int32) :
    lines.filterMap (nbrOfLine myNodeID) = topologyGetNbrArray lines myNodeID := rfl

theorem nt_entry_node (myNodeID : Int32) (line : HostLine) :
    (ntEntryOfLine myNodeID line).map (fun entry => entry.nodeID) =
      nbrOfLine myNodeID line.toTopologyLine := by
  unfold ntEntryOfLine nbrOfLine
  by_cases first : line.nodeID1 = myNodeID
  · simp [first]
  · by_cases second : line.nodeID2 = myNodeID
    · simp [first, second]
    · have other : myNodeID ≠ line.nodeID2 := fun same => second same.symm
      simp [first, second, other]

theorem nt_entries_nodes (file : List HostLine) (myNodeID : Int32) :
    (ntEntries file myNodeID).map (fun entry => entry.nodeID) =
      topologyGetNbrArray (hostNodes file) myNodeID := by
  rw [ntEntries, List.map_filterMap, hostNodes, ← nbr_array_eq, List.filterMap_map]
  exact congrArg (List.filterMap · file) (funext (nt_entry_node myNodeID))

theorem nt_entries_length (file : List HostLine) (myNodeID : Int32) :
    (ntEntries file myNodeID).length = topologyGetNbrNum (hostNodes file) myNodeID := by
  rw [← nbr_array_length, ← nt_entries_nodes, List.length_map]

theorem nt_create_filled (file : List HostLine) (myNodeID : Int32) :
    ∃ nt, Allocated.ntCreate file myNodeID = some nt ∧ nt.Filled (ntEntries file myNodeID) := by
  have length := nt_entries_length file myNodeID
  obtain ⟨nt, looped, starts, size⟩ := collect_fits (ntEntryOfLine myNodeID) file
    (Block.starts_with_nil (Block.malloc (topologyGetNbrNum (hostNodes file) myNodeID)))
    (by rw [Block.malloc_size, List.length_nil, Nat.zero_add]; exact length.le)
  refine ⟨nt, ?_, Block.filled_of_starts starts ?_⟩
  · rw [List.length_nil] at looped
    rw [Allocated.ntCreate, looped, Option.map_some]
  · rw [size, Block.malloc_size]
    exact length.symm

theorem collect_nbrs {lines : List TopologyLine} {myNodeID : Int32}
    (few : topologyGetNbrNum lines myNodeID ≤ nodesSize) :
    ∃ nodes, collect (nbrOfLine myNodeID) lines (Block.cleared nodesSize 0) 0 =
        some (nodes, topologyGetNbrNum lines myNodeID) ∧
      nodes.StartsWith (topologyGetNbrArray lines myNodeID) ∧ nodes.size = nodesSize := by
  have length := nbr_array_length lines myNodeID
  obtain ⟨nodes, looped, starts, size⟩ := collect_fits (nbrOfLine myNodeID) lines
    (Block.starts_with_nil (Block.cleared nodesSize 0))
    (by rw [nbr_array_eq, length, Block.cleared_size]; simpa using few)
  rw [nbr_array_eq, length, List.length_nil, Nat.zero_add] at looped
  exact ⟨nodes, looped, starts, size.trans (Block.cleared_size nodesSize)⟩

theorem save_nodes_filled {nodes : Block Int32} {nodeIDs : List Int32}
    (starts : nodes.StartsWith nodeIDs) (positive : ∀ nodeID ∈ nodeIDs, 0 < nodeID) :
    ∃ nodeArray, forLoop nodeIDs.length (Allocated.saveNode nodes)
        (Block.malloc nodeIDs.length) = some nodeArray ∧ nodeArray.Filled nodeIDs := by
  refine for_loop_filled nodeIDs (Allocated.saveNode nodes) fun nodeArray i nodeID held => ?_
  have nonzero : 0 < nodeID := positive nodeID (List.mem_of_getElem? held)
  rw [Allocated.saveNode, Block.load_starts_with starts held, Option.bind_some, if_pos nonzero]

section Filled

variable {lines : List TopologyLine} {myNodeID : Int32}
  (few : topologyGetNbrNum lines myNodeID ≤ nodesSize)
  (positive : ∀ nbr ∈ topologyGetNbrArray lines myNodeID, 0 < nbr)

include few positive

theorem get_nbr_array_filled :
    ∃ nbrArray, Allocated.topologyGetNbrArray lines myNodeID = some nbrArray ∧
      nbrArray.Filled (topologyGetNbrArray lines myNodeID) := by
  obtain ⟨nodes, looped, starts, _⟩ := collect_nbrs few
  obtain ⟨nbrArray, saved, filled⟩ := save_nodes_filled starts positive
  rw [nbr_array_length] at saved
  refine ⟨nbrArray, ?_, filled⟩
  simp only [Allocated.topologyGetNbrArray, looped, Option.bind_some, saved]

theorem nbrcosttable_create_filled :
    ∃ nct, Allocated.nbrcosttableCreate lines myNodeID = some nct ∧
      nct.Filled (nbrcosttableCreate lines myNodeID) := by
  obtain ⟨nbrArray, created, nbrs⟩ := get_nbr_array_filled few positive
  have length : (nbrcosttableCreate lines myNodeID).length = topologyGetNbrNum lines myNodeID := by
    rw [nbrcosttableCreate, List.length_map, nbr_array_length]
  obtain ⟨nct, looped, filled⟩ := for_loop_filled (nbrcosttableCreate lines myNodeID)
    (fun nbrtable i => (nbrArray.load i).bind fun nbr =>
      nbrtable.store i ⟨nbr, topologyGetCost lines myNodeID nbr⟩) (by
      intro nbrtable i entry held
      rw [nbrcosttableCreate, List.getElem?_map] at held
      obtain ⟨nbr, nbrHeld, rfl⟩ := Option.map_eq_some_iff.mp held
      simp only [nbrs.load_eq, nbrHeld, Option.bind_some])
  rw [length] at looped
  refine ⟨nct, ?_, filled⟩
  simp only [Allocated.nbrcosttableCreate, created, Option.bind_some, looped]

theorem dvtable_create_filled (beyond : Nat → Nat → Int32) {stray : Allocated.StrayStores}
    (misses : stray.Miss) :
    ∃ dvTable, Allocated.dvtableCreate lines myNodeID beyond stray = some dvTable ∧
      dvTable.Filled (dvtableCreate lines myNodeID beyond) := by
  obtain ⟨nbrArray, created, nbrs⟩ := get_nbr_array_filled few positive
  let nbrRows := (topologyGetNbrArray lines myNodeID).zipIdx.map fun nbr =>
    (⟨nbr.1, dvEntryNew lines myNodeID (beyond nbr.2) nbr.1⟩ : DvRow)
  have length : nbrRows.length = topologyGetNbrNum lines myNodeID := by
    rw [List.length_map, List.length_zipIdx, nbr_array_length]
  obtain ⟨dvTable, looped, starts, size⟩ := for_loop_fills nbrRows
    (fun dvTable i => (nbrArray.load i).bind fun nbr =>
      dvTable.store i ⟨nbr, dvEntryNew lines myNodeID (beyond i) nbr⟩) (by
      intro dvTable i row held
      rw [List.getElem?_map, List.getElem?_zipIdx, Option.map_map] at held
      obtain ⟨nbr, nbrHeld, rfl⟩ := Option.map_eq_some_iff.mp held
      simp only [nbrs.load_eq, nbrHeld, Option.bind_some, Function.comp_apply, Nat.zero_add])
    (Block.malloc (topologyGetNbrNum lines myNodeID + 1)) (by rw [Block.malloc_size, length]; omega)
  rw [Block.malloc_size] at size
  -- the own row goes into the one cell that the loop leaves
  obtain ⟨whole, stored, all, wholeSize⟩ := Block.store_next starts
    ⟨myNodeID, dvEntryNew lines myNodeID (beyond (topologyGetNbrNum lines myNodeID)) myNodeID⟩
    (by omega)
  rw [length] at looped stored
  refine ⟨whole, ?_, Block.filled_of_starts all ?_⟩
  · have same (i : Nat) : stray.dvTable i = id := funext (misses.dvTable i)
    simp only [Allocated.dvtableCreate, misses.nbrArray, same, Option.map_id, id_eq, created,
      Option.bind_some, looped, stored]
  · have rows : (dvtableCreate lines myNodeID beyond).length = nbrRows.length + 1 := by
      rw [dvtableCreate, List.length_append, List.length_singleton]
    rw [wholeSize, size, rows, length]

end Filled

def touchingLines (file : List HostLine) (myNodeID : Int32) : List HostLine :=
  file.filter fun line => line.nodeID1 = myNodeID ∨ line.nodeID2 = myNodeID

def otherEnd (myNodeID : Int32) (line : HostLine) : Int32 :=
  if line.nodeID1 = myNodeID then line.nodeID2 else line.nodeID1

theorem nbr_of_host_line (myNodeID : Int32) (line : HostLine) :
    nbrOfLine myNodeID line.toTopologyLine =
      if line.nodeID1 = myNodeID ∨ line.nodeID2 = myNodeID then some (otherEnd myNodeID line)
      else none := by
  unfold nbrOfLine otherEnd
  by_cases first : line.nodeID1 = myNodeID
  · simp [first]
  · simp only [first, if_false, false_or, eq_comm]

theorem nbr_array_touching (file : List HostLine) (myNodeID : Int32) :
    topologyGetNbrArray (hostNodes file) myNodeID =
      (touchingLines file myNodeID).map (otherEnd myNodeID) := by
  rw [← nbr_array_eq, hostNodes, List.filterMap_map, touchingLines]
  induction file with
  | nil => rfl
  | cons line file ih =>
      have picked : (nbrOfLine myNodeID ∘ HostLine.toTopologyLine) line = _ :=
        nbr_of_host_line myNodeID line
      by_cases touches : line.nodeID1 = myNodeID ∨ line.nodeID2 = myNodeID
      · rw [if_pos touches] at picked
        rw [List.filterMap_cons_some picked, ih, List.filter_cons_of_pos (by simpa using touches),
          List.map_cons]
      · rw [if_neg touches] at picked
        rw [List.filterMap_cons_none picked, ih, List.filter_cons_of_neg (by simpa using touches)]

section Entries

variable {lines : List TopologyLine} {myNodeID nbr : Int32} {i : Nat}

theorem nct_create_entry (held : (topologyGetNbrArray lines myNodeID)[i]? = some nbr) :
    (nbrcosttableCreate lines myNodeID)[i]? =
      some ⟨nbr, topologyGetCost lines myNodeID nbr⟩ := by
  rw [nbrcosttableCreate, List.getElem?_map, held, Option.map_some]

theorem dvtable_create_nbr_row (held : (topologyGetNbrArray lines myNodeID)[i]? = some nbr)
    (beyond : Nat → Nat → Int32) :
    (dvtableCreate lines myNodeID beyond)[i]? =
      some ⟨nbr, dvEntryNew lines myNodeID (beyond i) nbr⟩ := by
  have inside : i < (topologyGetNbrArray lines myNodeID).length :=
    (List.getElem?_eq_some_iff.mp held).1
  rw [dvtableCreate, List.getElem?_append_left (by simpa using inside), List.getElem?_map,
    List.getElem?_zipIdx, held]
  simp

theorem dvtable_create_own_row (lines : List TopologyLine) (myNodeID : Int32)
    (beyond : Nat → Nat → Int32) :
    (dvtableCreate lines myNodeID beyond)[topologyGetNbrNum lines myNodeID]? =
      some ⟨myNodeID,
        dvEntryNew lines myNodeID (beyond (topologyGetNbrNum lines myNodeID)) myNodeID⟩ := by
  rw [dvtableCreate, List.getElem?_append_right (by simp [nbr_array_length])]
  simp [nbr_array_length]

theorem dvtable_create_length (lines : List TopologyLine) (myNodeID : Int32)
    (beyond : Nat → Nat → Int32) :
    (dvtableCreate lines myNodeID beyond).length = topologyGetNbrNum lines myNodeID + 1 := by
  rw [dvtableCreate, List.length_append, List.length_map, List.length_zipIdx, nbr_array_length,
    List.length_singleton]

theorem nt_entry_unconnected {file : List HostLine} {entry : AddressedNbrEntry}
    (member : entry ∈ ntEntries file myNodeID) : entry.conn = -1 := by
  obtain ⟨line, _, found⟩ := List.mem_filterMap.mp member
  unfold ntEntryOfLine at found
  split_ifs at found <;> cases found <;> rfl

theorem nt_entries_entry {file : List HostLine}
    (held : (topologyGetNbrArray (hostNodes file) myNodeID)[i]? = some nbr) :
    ∃ nodeIP, (ntEntries file myNodeID)[i]? = some ⟨⟨nbr, -1⟩, nodeIP⟩ := by
  rw [← nt_entries_nodes, List.getElem?_map] at held
  obtain ⟨entry, entryHeld, rfl⟩ := Option.map_eq_some_iff.mp held
  have unconnected := nt_entry_unconnected (List.mem_of_getElem? entryHeld)
  exact ⟨entry.nodeIP, by rw [entryHeld, ← unconnected]⟩

end Entries

/-- A file of positive node IDs with fewer lines than the `nodes` arrays have cells. -/
structure ShortFile (file : List HostLine) : Prop where
  short : file.length < nodesSize
  positive : ∀ line ∈ file, 0 < line.nodeID1 ∧ 0 < line.nodeID2

namespace ShortFile

variable {file : List HostLine} (valid : ShortFile file) (myNodeID : Int32)

include valid

theorem nbr_num_le : topologyGetNbrNum (hostNodes file) myNodeID ≤ nodesSize := by
  have touching := List.countP_le_length (l := hostNodes file)
    (p := fun line => decide (line.nodeID1 = myNodeID ∨ line.nodeID2 = myNodeID))
  rw [hostNodes, List.length_map] at touching
  exact touching.trans valid.short.le

theorem nbr_pos (nbr : Int32) (member : nbr ∈ topologyGetNbrArray (hostNodes file) myNodeID) :
    0 < nbr := by
  rw [nbr_array_touching] at member
  obtain ⟨line, touching, rfl⟩ := List.mem_map.mp member
  have ends := valid.positive line (List.mem_of_mem_filter touching)
  unfold otherEnd
  split_ifs
  · exact ends.2
  · exact ends.1

end ShortFile

/-- The blocks have one entry for every neighbour, in the order of the lines. -/
structure NeighborsAgree (file : List HostLine) (myNodeID : Int32) (nbrArray : Block Int32)
    (nt : Block AddressedNbrEntry) (nct : Block NbrCostEntry) (dvTable : Block DvRow) : Prop where
  nbrArraySize : nbrArray.size = topologyGetNbrNum (hostNodes file) myNodeID
  ntSize : nt.size = topologyGetNbrNum (hostNodes file) myNodeID
  nctSize : nct.size = topologyGetNbrNum (hostNodes file) myNodeID
  dvTableSize : dvTable.size = topologyGetNbrNum (hostNodes file) myNodeID + 1
  entry : ∀ i < topologyGetNbrNum (hostNodes file) myNodeID,
    ∃ line nbr, (touchingLines file myNodeID)[i]? = some line ∧ nbr = otherEnd myNodeID line ∧
      nbrArray.load i = some nbr ∧
      (∃ nodeIP, nt.load i = some ⟨⟨nbr, -1⟩, nodeIP⟩) ∧
      nct.load i = some ⟨nbr, topologyGetCost (hostNodes file) myNodeID nbr⟩ ∧
      ∃ dvEntry, dvTable.load i = some ⟨nbr, dvEntry⟩
  ownRow : ∃ dvEntry,
    dvTable.load (topologyGetNbrNum (hostNodes file) myNodeID) = some ⟨myNodeID, dvEntry⟩

def loopFile : List HostLine :=
  [⟨⟨1, 2, 4⟩, ⟨10, 0, 0, 1⟩, ⟨10, 0, 0, 2⟩⟩, ⟨⟨2, 1, 5⟩, ⟨10, 0, 0, 2⟩, ⟨10, 0, 0, 1⟩⟩,
    ⟨⟨1, 1, 6⟩, ⟨10, 0, 0, 1⟩, ⟨10, 0, 0, 1⟩⟩]

def harmlessStores : Allocated.StrayStores where
  nbrArray := fun _ block => block
  dvTable := fun _ block => block

end MiniOverlay
