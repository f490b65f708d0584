import MiniOverlay.LinkedLists
import MiniOverlay.RoutingTable

/-!
# The routing table on the heap

The functions of `network/routing_table.c` with the pointers that they follow. The
entries of all slots lie on one heap; `malloc` always returns a cell, with whatever was in
it, and a loop over a slot turns at most once for each cell of the heap. Every sequence of
calls returns what it returns on the lists of `RoutingTable`, and `routingtable_destroy`
frees every entry once.
-/

namespace MiniOverlay

open LinkedHeap

set_option autoImplicit false

/-- The entries, and the field `head` of the set in each slot. -/
structure RoutingtableMemory where
  heap : Heap RoutingtableEntry
  heads : Fin maxRoutingtableSlots → Ptr

def slotOf (destID : Int32) : Fin maxRoutingtableSlots := ⟨slotIndex destID, slot_index_lt destID⟩

/-- `fresh` is the cell as `malloc` returns it. -/
def routingEntryNodeNewAt (heap : Heap RoutingtableEntry) (fresh : Cell RoutingtableEntry)
    (destinationID nextID : Int32) : Option (Ptr × Heap RoutingtableEntry) :=
  let node := alloc heap fresh
  if fresh.val.destNodeID < 0 then do
    let heap ← free node.1 node.2
    return (none, heap)
  else do
    let heap ← write node.1 node.2 ⟨⟨destinationID, nextID⟩, none⟩
    return (node.2, heap)

def setInsertAt (heap : Heap RoutingtableEntry) (head : Ptr) (fresh : Cell RoutingtableEntry)
    (destinationID nextID : Int32) : Option (Bool × Ptr × Heap RoutingtableEntry) :=
  if 0 < nextID ∧ 0 < destinationID then do
    let (new, heap) ← routingEntryNodeNewAt heap fresh destinationID nextID
    match new with
    | none => return (false, head, heap)
    | some _ =>
        -- `new->next` is null already.
        let (heap, head) ← appendCell heap head new
        return (true, head, heap)
  else return (false, head, heap)

def hashtableInsertAt (memory : RoutingtableMemory) (fresh : Cell RoutingtableEntry)
    (destID nextID : Int32) : Option (Bool × RoutingtableMemory) :=
  if 0 < nextID ∧ 0 < destID then do
    let (inserted, head, heap) ←
      setInsertAt memory.heap (memory.heads (slotOf destID)) fresh destID nextID
    return (inserted, ⟨heap, Function.update memory.heads (slotOf destID) head⟩)
  else return (false, memory)

def setFindAt (heap : Heap RoutingtableEntry) (head : Ptr) (destID : Int32) : Option Int32 :=
  match head with
  | none => some (-1)
  | some _ =>
      if destID < 0 then some (-1)
      else do
        let found ← findFrom heap (fun entry => entry.destNodeID = destID) heap.length head
        match found with
        | some entry => return entry.nextNodeID
        | none => return -1

def hashtableFindAt (memory : RoutingtableMemory) (destID : Int32) : Option Int32 :=
  if 0 < destID then setFindAt memory.heap (memory.heads (slotOf destID)) destID else some (-1)

def routingtableGetnextnodeAt (memory : RoutingtableMemory) (destNodeID : Int32) :
    Option Int32 := do
  let nextHop ← hashtableFindAt memory destNodeID
  return if 0 ≤ nextHop then nextHop else -1

def routingtableSetnextnodeAt (memory : RoutingtableMemory) (fresh : Cell RoutingtableEntry)
    (destNodeID nextNodeID : Int32) : Option RoutingtableMemory :=
  (hashtableInsertAt memory fresh destNodeID nextNodeID).map Prod.snd

def routingtableCreateAt (fresh : Nat → Cell RoutingtableEntry) (nbrArray : List Int32) :
    Option RoutingtableMemory :=
  nbrArray.zipIdx.foldlM
    (fun memory nbr => routingtableSetnextnodeAt memory (fresh nbr.2) nbr.1 nbr.1)
    ⟨[], fun _ => none⟩

/-- The entries that `routingtable_destroy` frees; the sets, the array and the table itself
go with them. -/
def routingtableDestroyAt (memory : RoutingtableMemory) : Option (Heap RoutingtableEntry) :=
  freeLists memory.heap (List.ofFn memory.heads)

structure Refines (memory : RoutingtableMemory) (rt : Routingtable)
    (lists : Fin maxRoutingtableSlots → List (Nat × RoutingtableEntry)) : Prop where
  owns : OwnsAll memory.heap memory.heads lists
  values : ∀ index, (lists index).map Prod.snd = rt.slot index

variable {memory : RoutingtableMemory} {rt : Routingtable}
  {lists : Fin maxRoutingtableSlots → List (Nat × RoutingtableEntry)}

theorem find_refines (refines : Refines memory rt lists) (destID : Int32) :
    hashtableFindAt memory destID = some (hashtableFind rt destID) := by
  rw [hashtableFindAt, hashtableFind]
  split_ifs with positive
  · have notNegative : ¬ destID < 0 := Int32.not_lt.mpr (Int32.le_of_lt positive)
    have owns := refines.owns.owns (slotOf destID)
    have found := find_from_chain owns.chain (fun entry => entry.destNodeID = destID)
      (owns_length_le owns)
    have values : (lists (slotOf destID)).map Prod.snd = rt.slot (slotIndex destID) :=
      refines.values (slotOf destID)
    rw [values] at found
    rw [setFind, if_neg notNegative]
    cases head : memory.heads (slotOf destID) with
    | none =>
        have empty : rt.slot (slotIndex destID) = [] := by
          have chain := owns.chain
          rw [head] at chain
          cases entries : lists (slotOf destID) with
          | nil =>
              rw [entries] at values
              exact values.symm
          | cons entry entries =>
              rw [entries] at chain
              cases chain.1
        rw [setFindAt, empty]
        rfl
    | some address =>
        rw [head] at found
        simp only [setFindAt, if_neg notNegative, found, Option.bind_eq_bind, Option.bind_some]
        cases (rt.slot (slotIndex destID)).find? fun entry => entry.destNodeID = destID with
        | none => rfl
        | some entry => rfl
  · rfl

theorem getnextnode_refines (refines : Refines memory rt lists) (destNodeID : Int32) :
    routingtableGetnextnodeAt memory destNodeID =
      some (routingtableGetnextnode rt destNodeID) := by
  rw [routingtableGetnextnodeAt, find_refines refines]
  rfl

theorem insert_refines (refines : Refines memory rt lists) (fresh : Cell RoutingtableEntry)
    (destID nextID : Int32) :
    ∃ after lists', hashtableInsertAt memory fresh destID nextID =
        some ((hashtableInsert fresh.val.destNodeID rt destID nextID).isSome, after) ∧
      Refines after ((hashtableInsert fresh.val.destNodeID rt destID nextID).getD rt) lists' := by
  by_cases guard : 0 < nextID ∧ 0 < destID
  · by_cases negative : fresh.val.destNodeID < 0
    · obtain ⟨freed, owns⟩ := owns_all_discard refines.owns fresh
      have refused := insert_refused fresh.val.destNodeID rt destID nextID negative
      refine ⟨⟨memory.heap ++ [none], memory.heads⟩, lists, ?_, ?_⟩
      · rw [refused, hashtableInsertAt, if_pos guard, setInsertAt, if_pos guard,
          routingEntryNodeNewAt, if_pos negative, freed]
        simp
      · rw [refused]
        exact ⟨owns, refines.values⟩
    · have allocated : 0 ≤ fresh.val.destNodeID := Int32.not_lt.mp negative
      have accepted := insert_accepted fresh.val.destNodeID rt allocated guard.2 guard.1
      have written : write (alloc memory.heap fresh).1 (alloc memory.heap fresh).2
          ⟨⟨destID, nextID⟩, none⟩ = some (memory.heap ++ [some ⟨⟨destID, nextID⟩, none⟩]) := by
        refine (store_of_read (read_alloc_new memory.heap fresh) _).trans ?_
        simp [alloc]
      obtain ⟨heap, head, appended, owns⟩ :=
        owns_all_append refines.owns (slotOf destID) ⟨destID, nextID⟩
      refine ⟨⟨heap, Function.update memory.heads (slotOf destID) head⟩, _, ?_, owns, ?_⟩
      · have inserted : setInsertAt memory.heap (memory.heads (slotOf destID)) fresh destID nextID =
            some (true, head, heap) := by
          rw [setInsertAt, if_pos guard, routingEntryNodeNewAt, if_neg negative, written]
          simp only [Option.bind_eq_bind, Option.bind_some, alloc, appended, Option.pure_def]
        rw [hashtableInsertAt, if_pos guard, inserted, accepted]
        rfl
      · intro index
        rw [accepted, Option.getD_some]
        by_cases same : index = slotOf destID
        · subst same
          have here : slotIndex destID = (slotOf destID).val := rfl
          rw [Function.update_self, List.map_append, refines.values,
            slot_appended rt ⟨destID, nextID⟩, if_pos here]
          rfl
        · have apart : slotIndex destID ≠ index.val := fun here => same (Fin.ext here.symm)
          rw [Function.update_of_ne same, refines.values, slot_appended rt ⟨destID, nextID⟩,
            if_neg apart]
  · refine ⟨memory, lists, ?_, ?_⟩
    · rw [hashtableInsertAt, if_neg guard, hashtableInsert, if_neg guard]
      rfl
    · rw [hashtableInsert, if_neg guard]
      exact refines

theorem setnextnode_refines (refines : Refines memory rt lists) (fresh : Cell RoutingtableEntry)
    (destNodeID nextNodeID : Int32) :
    ∃ after lists', routingtableSetnextnodeAt memory fresh destNodeID nextNodeID = some after ∧
      Refines after (routingtableSetnextnode fresh.val.destNodeID rt destNodeID nextNodeID)
        lists' := by
  obtain ⟨after, lists', inserted, kept⟩ := insert_refines refines fresh destNodeID nextNodeID
  refine ⟨after, lists', ?_, kept⟩
  rw [routingtableSetnextnodeAt, inserted]
  rfl

theorem create_refines (fresh : Nat → Cell RoutingtableEntry) (nbrArray : List Int32) :
    ∃ memory lists, routingtableCreateAt fresh nbrArray = some memory ∧
      Refines memory (routingtableCreate (fun index => (fresh index).val.destNodeID) nbrArray)
        lists := by
  have general (nbrs : List (Int32 × Nat)) : ∀ (memory : RoutingtableMemory) (rt : Routingtable)
      (lists : Fin maxRoutingtableSlots → List (Nat × RoutingtableEntry)),
      Refines memory rt lists → ∃ after lists',
        nbrs.foldlM (fun memory nbr => routingtableSetnextnodeAt memory (fresh nbr.2) nbr.1 nbr.1)
            memory = some after ∧
          Refines after (nbrs.foldl (fun rt nbr =>
            (hashtableInsert (fresh nbr.2).val.destNodeID rt nbr.1 nbr.1).getD rt) rt) lists' := by
    induction nbrs with
    | nil => exact fun memory rt lists refines => ⟨memory, lists, rfl, refines⟩
    | cons nbr nbrs ih =>
        intro memory rt lists refines
        obtain ⟨middle, between, set, kept⟩ :=
          setnextnode_refines refines (fresh nbr.2) nbr.1 nbr.1
        obtain ⟨after, last, run, done⟩ := ih middle _ between kept
        refine ⟨after, last, ?_, done⟩
        rw [List.foldlM_cons, set]
        exact run
  refine general nbrArray.zipIdx _ Routingtable.empty (fun _ => []) ⟨owns_all_nil, ?_⟩
  intro index
  exact (stores_empty index.val index.isLt).symm

inductive RoutingCall where
  | setnextnode (fresh : Cell RoutingtableEntry) (destNodeID nextNodeID : Int32)
  | getnextnode (destNodeID : Int32)

/-- The table after the calls, and what the calls of `routingtable_getnextnode` return. -/
def Routingtable.call : List RoutingCall → Routingtable → Routingtable × List Int32
  | [], rt => (rt, [])
  | .setnextnode fresh destNodeID nextNodeID :: calls, rt =>
      call calls (routingtableSetnextnode fresh.val.destNodeID rt destNodeID nextNodeID)
  | .getnextnode destNodeID :: calls, rt =>
      let later := call calls rt
      (later.1, routingtableGetnextnode rt destNodeID :: later.2)

def RoutingtableMemory.call :
    List RoutingCall → RoutingtableMemory → Option (RoutingtableMemory × List Int32)
  | [], memory => some (memory, [])
  | .setnextnode fresh destNodeID nextNodeID :: calls, memory => do
      let memory ← routingtableSetnextnodeAt memory fresh destNodeID nextNodeID
      call calls memory
  | .getnextnode destNodeID :: calls, memory => do
      let nextHop ← routingtableGetnextnodeAt memory destNodeID
      let (last, results) ← call calls memory
      return (last, nextHop :: results)

theorem calls_refine (refines : Refines memory rt lists) (calls : List RoutingCall) :
    ∃ after lists', memory.call calls = some (after, (rt.call calls).2) ∧
      Refines after (rt.call calls).1 lists' := by
  induction calls generalizing memory rt lists with
  | nil => exact ⟨memory, lists, rfl, refines⟩
  | cons call calls ih =>
      cases call with
      | setnextnode fresh destNodeID nextNodeID =>
          obtain ⟨middle, between, set, kept⟩ :=
            setnextnode_refines refines fresh destNodeID nextNodeID
          obtain ⟨after, last, run, done⟩ := ih kept
          refine ⟨after, last, ?_, done⟩
          rw [RoutingtableMemory.call, set]
          exact run
      | getnextnode destNodeID =>
          obtain ⟨after, last, run, done⟩ := ih refines
          refine ⟨after, last, ?_, done⟩
          rw [RoutingtableMemory.call, getnextnode_refines refines, run]
          rfl

theorem cells_of_entries (refines : Refines memory rt lists) :
    ((List.ofFn lists).flatMap addresses).length = rt.table.toList.flatten.length := by
  have slots : rt.table.toList = (List.ofFn lists).map (List.map Prod.snd) := by
    refine List.ext_getElem (by simp) fun index inside _ => ?_
    have bounded : index < maxRoutingtableSlots := by simpa using inside
    have values : (lists ⟨index, bounded⟩).map Prod.snd = rt.slot index :=
      refines.values ⟨index, bounded⟩
    simp [values, Routingtable.slot, bounded]
  rw [slots]
  induction List.ofFn lists with
  | nil => rfl
  | cons list all ih =>
      rw [List.flatMap_cons, List.map_cons, List.flatten_cons, List.length_append,
        List.length_append, ih, addresses, List.length_map, List.length_map]

/-- On the heap the calls on a table return what they return on its lists, and destroying the
table then frees exactly the cells that are left on the heap, one for each entry. -/
theorem routing_calls_on_heap (fresh : Nat → Cell RoutingtableEntry) (nbrArray : List Int32)
    (calls : List RoutingCall) :
    ∃ created memory destroyed, routingtableCreateAt fresh nbrArray = some created ∧
      created.call calls = some (memory, ((routingtableCreate
        (fun index => (fresh index).val.destNodeID) nbrArray).call calls).2) ∧
      routingtableDestroyAt memory = some destroyed ∧
      (∀ address < destroyed.length, Freed destroyed address) ∧
      (freedIn memory.heap destroyed).length = (((routingtableCreate
        (fun index => (fresh index).val.destNodeID) nbrArray).call calls).1.table.toList.flatten
          ).length := by
  obtain ⟨created, start, made, opening⟩ := create_refines fresh nbrArray
  obtain ⟨memory, lists, run, refines⟩ := calls_refine opening calls
  obtain ⟨destroyed, freed, frees, all⟩ := owns_all_freed refines.owns
  refine ⟨created, memory, destroyed, made, run, freed, all, ?_⟩
  rw [(freed_in_perm frees).length_eq]
  exact cells_of_entries refines

end MiniOverlay
