import MiniOverlay.Constants
import Mathlib.Data.List.Basic
import Mathlib.Data.Vector.Basic

/-!
# The routing table

`network/routing_table.c`: a hash table whose slots are linked lists. An insert
appends to its slot and a lookup returns the first match, so for lookups the
table is one list of entries in the order of their insertion.
-/

namespace MiniOverlay

set_option autoImplicit false

structure RoutingtableEntry where
  destNodeID : Int32
  nextNodeID : Int32
  deriving DecidableEq

/-- The entries of one slot in the order of their `next` pointers. -/
abbrev RoutingSet := List RoutingtableEntry

structure Routingtable where
  table : Vector RoutingSet maxRoutingtableSlots

def makehash (node : Int32) : Int32 := node % 10

def slotIndex (destID : Int32) : Nat := (makehash destID).toInt.toNat

def Routingtable.slot (rt : Routingtable) (hash : Nat) : RoutingSet := rt.table[hash]?.getD []

/-- `fresh` is what `malloc` left in the `destNodeID` of the new entry, which
the code tests before it writes the field. -/
def routingEntryNodeNew (fresh destinationID nextID : Int32) : Option RoutingtableEntry :=
  if fresh < 0 then none else some ⟨destinationID, nextID⟩

/-- `none` is the return value `false`, with the slot unchanged. -/
def setInsert (fresh : Int32) (set : RoutingSet) (destinationID nextID : Int32) :
    Option RoutingSet :=
  if 0 < nextID ∧ 0 < destinationID then
    (routingEntryNodeNew fresh destinationID nextID).map fun entry => set ++ [entry]
  else none

def setFind (set : RoutingSet) (destID : Int32) : Int32 :=
  if destID < 0 then -1
  else
    match set.find? fun entry => entry.destNodeID = destID with
    | some entry => entry.nextNodeID
    | none => -1

def hashtableInsert (fresh : Int32) (rt : Routingtable) (destID nextID : Int32) :
    Option Routingtable :=
  if 0 < nextID ∧ 0 < destID then
    (setInsert fresh (rt.slot (slotIndex destID)) destID nextID).map fun set =>
      ⟨rt.table.setIfInBounds (slotIndex destID) set⟩
  else none

def hashtableFind (rt : Routingtable) (destID : Int32) : Int32 :=
  if 0 < destID then setFind (rt.slot (slotIndex destID)) destID else -1

def routingtableSetnextnode (fresh : Int32) (rt : Routingtable) (destNodeID nextNodeID : Int32) :
    Routingtable :=
  (hashtableInsert fresh rt destNodeID nextNodeID).getD rt

def routingtableGetnextnode (rt : Routingtable) (destNodeID : Int32) : Int32 :=
  let nextHop := hashtableFind rt destNodeID
  if 0 ≤ nextHop then nextHop else -1

def Routingtable.empty : Routingtable := ⟨Vector.replicate maxRoutingtableSlots []⟩

/-- One entry for every neighbour, with the neighbour as its own next hop;
`fresh index` is for the entry of the neighbour at that index. -/
def routingtableCreate (fresh : Nat → Int32) (nbrArray : List Int32) : Routingtable :=
  nbrArray.zipIdx.foldl
    (fun rt nbr => (hashtableInsert (fresh nbr.2) rt nbr.1 nbr.1).getD rt) Routingtable.empty

theorem slot_index_lt (destID : Int32) : slotIndex destID < maxRoutingtableSlots := by
  have remainder : (makehash destID).toInt = destID.toInt.tmod 10 := Int32.toInt_mod _ _
  have bounded := Int.tmod_lt_of_pos destID.toInt (b := 10) (by decide)
  simp only [slotIndex, remainder, maxRoutingtableSlots]
  omega

def Stores (rt : Routingtable) (entries : List RoutingtableEntry) : Prop :=
  ∀ index, index < maxRoutingtableSlots →
    rt.slot index = entries.filter fun entry => slotIndex entry.destNodeID = index

def firstHop (entries : List RoutingtableEntry) (destNodeID : Int32) : Int32 :=
  match entries.find? fun entry => entry.destNodeID = destNodeID with
  | some entry => entry.nextNodeID
  | none => -1

theorem stores_empty : Stores Routingtable.empty [] := by
  intro index inside
  simp [Routingtable.slot, Routingtable.empty, inside]

theorem insert_accepted (fresh : Int32) (rt : Routingtable) {destID nextID : Int32}
    (allocated : 0 ≤ fresh) (destPositive : 0 < destID) (nextPositive : 0 < nextID) :
    hashtableInsert fresh rt destID nextID =
      some ⟨rt.table.setIfInBounds (slotIndex destID)
        (rt.slot (slotIndex destID) ++ [⟨destID, nextID⟩])⟩ := by
  have notNegative : ¬ fresh < 0 := Int32.not_lt.mpr allocated
  simp [hashtableInsert, setInsert, routingEntryNodeNew, destPositive, nextPositive, notNegative]

theorem slot_appended (rt : Routingtable) (entry : RoutingtableEntry) (index : Nat) :
    Routingtable.slot ⟨rt.table.setIfInBounds (slotIndex entry.destNodeID)
        (rt.slot (slotIndex entry.destNodeID) ++ [entry])⟩ index =
      if slotIndex entry.destNodeID = index then rt.slot index ++ [entry] else rt.slot index := by
  have inside := slot_index_lt entry.destNodeID
  split_ifs with same
  · subst same
    simp [Routingtable.slot, inside]
  · simp [Routingtable.slot, same]

theorem stores_insert (fresh : Int32) (rt : Routingtable) (entries : List RoutingtableEntry)
    (destID nextID : Int32) (stores : Stores rt entries) (allocated : 0 ≤ fresh)
    (destPositive : 0 < destID) (nextPositive : 0 < nextID) :
    ∃ inserted, hashtableInsert fresh rt destID nextID = some inserted ∧
      Stores inserted (entries ++ [⟨destID, nextID⟩]) := by
  refine ⟨_, insert_accepted fresh rt allocated destPositive nextPositive, ?_⟩
  intro index bounded
  rw [slot_appended rt ⟨destID, nextID⟩, List.filter_append, ← stores index bounded]
  split_ifs with same <;> simp [same]

theorem find_in_slot (entries : List RoutingtableEntry) (destNodeID : Int32) :
    (entries.filter fun entry => slotIndex entry.destNodeID = slotIndex destNodeID).find?
        (fun entry => entry.destNodeID = destNodeID) =
      entries.find? fun entry => entry.destNodeID = destNodeID := by
  rw [List.find?_filter]
  apply congrArg (List.find? · entries)
  funext entry
  by_cases same : entry.destNodeID = destNodeID <;> simp [same]

theorem first_hop_nonneg (entries : List RoutingtableEntry)
    (positive : ∀ entry ∈ entries, 0 < entry.nextNodeID) (destNodeID : Int32) :
    firstHop entries destNodeID = -1 ∨ 0 ≤ firstHop entries destNodeID := by
  unfold firstHop
  cases found : entries.find? fun entry => entry.destNodeID = destNodeID with
  | none => exact Or.inl rfl
  | some entry =>
      exact Or.inr (Int32.le_of_lt (positive entry (List.mem_of_find?_eq_some found)))

theorem getnextnode_of_stores (rt : Routingtable) (entries : List RoutingtableEntry)
    (stores : Stores rt entries) (positive : ∀ entry ∈ entries, 0 < entry.nextNodeID)
    (destNodeID : Int32) (destPositive : 0 < destNodeID) :
    routingtableGetnextnode rt destNodeID = firstHop entries destNodeID := by
  have notNegative : ¬ destNodeID < 0 := Int32.not_lt.mpr (Int32.le_of_lt destPositive)
  have found : hashtableFind rt destNodeID = firstHop entries destNodeID := by
    rw [hashtableFind, if_pos destPositive, setFind, if_neg notNegative,
      stores _ (slot_index_lt destNodeID), find_in_slot]
    rfl
  rw [routingtableGetnextnode, found]
  rcases first_hop_nonneg entries positive destNodeID with absent | nonneg
  · simp [absent]
  · simp [nonneg]

/-- The entries of a new table: `malloc` decides which neighbours get one. -/
def createdEntries (fresh : Nat → Int32) (nbrArray : List Int32) : List RoutingtableEntry :=
  (nbrArray.zipIdx.filter fun nbr => 0 ≤ fresh nbr.2).map fun nbr => ⟨nbr.1, nbr.1⟩

theorem insert_refused (fresh : Int32) (rt : Routingtable) (destID nextID : Int32)
    (negative : fresh < 0) : hashtableInsert fresh rt destID nextID = none := by
  simp [hashtableInsert, setInsert, routingEntryNodeNew, negative]

theorem stores_create (fresh : Nat → Int32) (nbrArray : List Int32)
    (positive : ∀ nbr ∈ nbrArray, 0 < nbr) :
    Stores (routingtableCreate fresh nbrArray) (createdEntries fresh nbrArray) := by
  have general (nbrs : List (Int32 × Nat)) (rt : Routingtable) (entries : List RoutingtableEntry)
      (stores : Stores rt entries) (nbrsPositive : ∀ nbr ∈ nbrs, 0 < nbr.1) :
      Stores (nbrs.foldl (fun rt nbr => (hashtableInsert (fresh nbr.2) rt nbr.1 nbr.1).getD rt) rt)
        (entries ++
          (nbrs.filter fun nbr => 0 ≤ fresh nbr.2).map fun nbr => ⟨nbr.1, nbr.1⟩) := by
    induction nbrs generalizing rt entries with
    | nil => simpa using stores
    | cons nbr nbrs ih =>
        have head := nbrsPositive nbr (by simp)
        have tailPositive : ∀ item ∈ nbrs, 0 < item.1 := fun item member =>
          nbrsPositive item (by simp [member])
        by_cases allocated : 0 ≤ fresh nbr.2
        · obtain ⟨inserted, insert, insertedStores⟩ :=
            stores_insert (fresh nbr.2) rt entries nbr.1 nbr.1 stores allocated head head
          have tail := ih inserted _ insertedStores tailPositive
          simpa [insert, allocated] using tail
        · have refused := insert_refused (fresh nbr.2) rt nbr.1 nbr.1 (Int32.not_le.mp allocated)
          have tail := ih rt entries stores tailPositive
          simpa [refused, allocated] using tail
  have built := general nbrArray.zipIdx Routingtable.empty [] stores_empty (by
    intro nbr member
    exact positive nbr.1 (List.fst_mem_of_mem_zipIdx member))
  exact built

def Installed (fresh : Nat → Int32) (nbrArray : List Int32) (nbr : Int32) : Prop :=
  ∃ index, nbrArray[index]? = some nbr ∧ 0 ≤ fresh index

theorem created_entry_iff (fresh : Nat → Int32) (nbrArray : List Int32)
    (entry : RoutingtableEntry) :
    entry ∈ createdEntries fresh nbrArray ↔
      entry.nextNodeID = entry.destNodeID ∧ Installed fresh nbrArray entry.destNodeID := by
  rw [createdEntries, List.mem_map]
  constructor
  · rintro ⟨nbr, member, rfl⟩
    obtain ⟨inArray, allocated⟩ := List.mem_filter.mp member
    exact ⟨rfl, nbr.2, List.mem_zipIdx_iff_getElem?.mp inArray, by simpa using allocated⟩
  · rintro ⟨same, index, inArray, allocated⟩
    refine ⟨(entry.destNodeID, index), ?_, congrArg (RoutingtableEntry.mk _) same.symm⟩
    rw [List.mem_filter]
    exact ⟨List.mem_zipIdx_iff_getElem?.mpr inArray, by simpa using allocated⟩

theorem create_getnextnode (fresh : Nat → Int32) (nbrArray : List Int32)
    (positive : ∀ nbr ∈ nbrArray, 0 < nbr) (destNodeID : Int32) (destPositive : 0 < destNodeID) :
    Installed fresh nbrArray destNodeID ∧
        routingtableGetnextnode (routingtableCreate fresh nbrArray) destNodeID = destNodeID ∨
      ¬ Installed fresh nbrArray destNodeID ∧
        routingtableGetnextnode (routingtableCreate fresh nbrArray) destNodeID = -1 := by
  have nextPositive : ∀ entry ∈ createdEntries fresh nbrArray, 0 < entry.nextNodeID := by
    intro entry member
    obtain ⟨same, index, inArray, _⟩ := (created_entry_iff fresh nbrArray entry).mp member
    rw [same]
    exact positive _ (List.mem_of_getElem? inArray)
  rw [getnextnode_of_stores _ _ (stores_create fresh nbrArray positive) nextPositive destNodeID
    destPositive, firstHop]
  cases found : (createdEntries fresh nbrArray).find? fun entry =>
      entry.destNodeID = destNodeID with
  | none =>
      refine Or.inr ⟨fun installed => ?_, rfl⟩
      have member := (created_entry_iff fresh nbrArray ⟨destNodeID, destNodeID⟩).mpr
        ⟨rfl, installed⟩
      have absent := List.find?_eq_none.mp found _ member
      simp at absent
  | some entry =>
      have named := List.find?_some found
      simp only [decide_eq_true_eq] at named
      obtain ⟨same, installed⟩ :=
        (created_entry_iff fresh nbrArray entry).mp (List.mem_of_find?_eq_some found)
      rw [named] at same installed
      exact Or.inl ⟨installed, same⟩

end MiniOverlay
