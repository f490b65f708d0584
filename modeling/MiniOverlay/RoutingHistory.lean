import MiniOverlay.FirstMatch
import MiniOverlay.PartialRuns
import MiniOverlay.RoutingTable

/-!
# Histories of the routing table

A routing table after any calls of `routingtable_setnextnode`. Every call that
is not refused appends an entry to the slot of its destination, so the first
next hop of a destination stays: other destinations are not disturbed, and a
destination that was set before keeps its old next hop.
-/

namespace MiniOverlay

open FirstMatch PartialRuns

set_option autoImplicit false

/-- A call of `routingtable_setnextnode`; `fresh` is what `malloc` left in the
`destNodeID` of the new entry. -/
structure SetnextnodeCall where
  destNodeID : Int32
  nextNodeID : Int32
  fresh : Int32
  deriving DecidableEq

def SetnextnodeCall.Positive (call : SetnextnodeCall) : Prop :=
  0 < call.destNodeID ∧ 0 < call.nextNodeID

def SetnextnodeCall.Accepted (call : SetnextnodeCall) : Prop := call.Positive ∧ 0 ≤ call.fresh

instance (call : SetnextnodeCall) : Decidable call.Positive :=
  inferInstanceAs (Decidable (_ ∧ _))

instance (call : SetnextnodeCall) : Decidable call.Accepted :=
  inferInstanceAs (Decidable (_ ∧ _))

def SetnextnodeCall.entry (call : SetnextnodeCall) : RoutingtableEntry :=
  ⟨call.destNodeID, call.nextNodeID⟩

def Routingtable.setnextnode (rt : Routingtable) (call : SetnextnodeCall) : Routingtable :=
  routingtableSetnextnode call.fresh rt call.destNodeID call.nextNodeID

def Routingtable.setAll (rt : Routingtable) (calls : List SetnextnodeCall) : Routingtable :=
  calls.foldl Routingtable.setnextnode rt

def creationCalls (fresh : Nat → Int32) (nbrArray : List Int32) : List SetnextnodeCall :=
  nbrArray.zipIdx.map fun nbr => ⟨nbr.1, nbr.1, fresh nbr.2⟩

theorem create_eq_set_all (fresh : Nat → Int32) (nbrArray : List Int32) :
    routingtableCreate fresh nbrArray =
      Routingtable.empty.setAll (creationCalls fresh nbrArray) := by
  rw [Routingtable.setAll, creationCalls, List.foldl_map]
  rfl

theorem set_all_append (rt : Routingtable) (before after : List SetnextnodeCall) :
    rt.setAll (before ++ after) = (rt.setAll before).setAll after :=
  List.foldl_append

theorem setnextnode_accepted (rt : Routingtable) {call : SetnextnodeCall}
    (accepted : call.Accepted) :
    rt.setnextnode call =
      ⟨rt.table.setIfInBounds (slotIndex call.destNodeID)
        (rt.slot (slotIndex call.destNodeID) ++ [call.entry])⟩ := by
  obtain ⟨⟨destPositive, nextPositive⟩, allocated⟩ := accepted
  rw [Routingtable.setnextnode, routingtableSetnextnode,
    insert_accepted call.fresh rt allocated destPositive nextPositive]
  rfl

theorem setnextnode_refused (rt : Routingtable) {call : SetnextnodeCall}
    (refused : ¬ call.Accepted) : rt.setnextnode call = rt := by
  rw [Routingtable.setnextnode, routingtableSetnextnode]
  by_cases positive : call.Positive
  · have negative : call.fresh < 0 :=
      Int32.not_le.mp fun allocated => refused ⟨positive, allocated⟩
    rw [insert_refused _ _ _ _ negative]
    rfl
  · have swapped : ¬ (0 < call.nextNodeID ∧ 0 < call.destNodeID) :=
      fun both => positive both.symm
    rw [hashtableInsert, if_neg swapped]
    rfl

theorem slot_setnextnode (rt : Routingtable) {call : SetnextnodeCall} (accepted : call.Accepted)
    (index : Nat) :
    (rt.setnextnode call).slot index =
      if slotIndex call.destNodeID = index then rt.slot index ++ [call.entry]
      else rt.slot index := by
  rw [setnextnode_accepted rt accepted]
  exact slot_appended rt call.entry index

def RoutingSet.cells (set : RoutingSet) : List (Int32 × Int32) :=
  set.map fun entry => (entry.destNodeID, entry.nextNodeID)

def Routingtable.hop? (rt : Routingtable) (destNodeID : Int32) : Option Int32 :=
  (RoutingSet.cells (rt.slot (slotIndex destNodeID))).lookup destNodeID

theorem set_find_eq (set : RoutingSet) {destID : Int32} (positive : 0 < destID) :
    setFind set destID = ((RoutingSet.cells set).lookup destID).getD (-1) := by
  have notNegative : ¬ destID < 0 := Int32.not_lt.mpr (Int32.le_of_lt positive)
  rw [setFind, if_neg notNegative, RoutingSet.cells, lookup_map]
  cases set.find? fun entry => entry.destNodeID = destID <;> rfl

theorem empty_hop (destNodeID : Int32) : Routingtable.empty.hop? destNodeID = none := by
  have nothing : Routingtable.empty.slot (slotIndex destNodeID) = [] :=
    stores_empty _ (slot_index_lt destNodeID)
  rw [Routingtable.hop?, nothing]
  rfl

def SetnextnodeCall.hopFor (destNodeID : Int32) (call : SetnextnodeCall) : Option Int32 :=
  if call.destNodeID = destNodeID ∧ call.Accepted then some call.nextNodeID else none

theorem cells_concat (set : RoutingSet) (entry : RoutingtableEntry) (destNodeID : Int32) :
    (RoutingSet.cells (set ++ [entry])).lookup destNodeID =
      ((RoutingSet.cells set).lookup destNodeID).or
        (if entry.destNodeID = destNodeID then some entry.nextNodeID else none) := by
  rw [RoutingSet.cells, List.map_append]
  refine (lookup_concat _ _ _ _).trans ?_
  simp only [eq_comm]
  rfl

theorem hop_setnextnode (rt : Routingtable) (call : SetnextnodeCall) (destNodeID : Int32) :
    (rt.setnextnode call).hop? destNodeID =
      (rt.hop? destNodeID).or (call.hopFor destNodeID) := by
  by_cases accepted : call.Accepted
  · rw [Routingtable.hop?, slot_setnextnode rt accepted]
    by_cases same : call.destNodeID = destNodeID
    · have added : call.hopFor destNodeID = some call.nextNodeID := if_pos ⟨same, accepted⟩
      rw [if_pos (congrArg slotIndex same), cells_concat, added]
      exact congrArg _ (if_pos same)
    · have nothing : call.hopFor destNodeID = none := if_neg fun both => same both.1
      rw [nothing, Option.or_none]
      split_ifs with collide
      · rw [cells_concat]
        exact (congrArg _ (if_neg same)).trans Option.or_none
      · rfl
  · have nothing : call.hopFor destNodeID = none := if_neg fun both => accepted both.2
    rw [setnextnode_refused rt accepted, nothing, Option.or_none]

theorem hop_set_all (rt : Routingtable) (calls : List SetnextnodeCall) (destNodeID : Int32) :
    (rt.setAll calls).hop? destNodeID =
      (rt.hop? destNodeID).or (calls.findSome? (SetnextnodeCall.hopFor destNodeID)) := by
  have run := fold_total Routingtable.setnextnode calls rt
  have filled := fold_first_write _ (Routingtable.hop? · destNodeID)
    (SetnextnodeCall.hopFor destNodeID) (fun _ => True) calls
    (fun call _ before after _ stepped => by
      cases stepped
      exact ⟨trivial, hop_setnextnode before call destNodeID⟩)
    trivial run
  exact filled.2

def Routingtable.WellPlaced (rt : Routingtable) : Prop :=
  ∀ index, index < maxRoutingtableSlots → ∀ entry ∈ rt.slot index,
    0 < entry.destNodeID ∧ 0 < entry.nextNodeID ∧ (makehash entry.destNodeID).toInt = index

theorem empty_well_placed : Routingtable.empty.WellPlaced := by
  intro index inside entry member
  have nothing : Routingtable.empty.slot index = [] := stores_empty index inside
  rw [nothing] at member
  cases member

theorem makehash_slot {destNodeID : Int32} (positive : 0 < destNodeID) :
    (makehash destNodeID).toInt = slotIndex destNodeID := by
  have remainder : (makehash destNodeID).toInt = destNodeID.toInt.tmod 10 := Int32.toInt_mod _ _
  have nonneg : 0 ≤ destNodeID.toInt.tmod 10 :=
    Int.tmod_nonneg 10 (Int.le_of_lt (Int32.lt_iff_toInt_lt.mp positive))
  rw [slotIndex, remainder, Int.toNat_of_nonneg nonneg]

theorem setnextnode_well_placed {rt : Routingtable} (placed : rt.WellPlaced)
    (call : SetnextnodeCall) : (rt.setnextnode call).WellPlaced := by
  by_cases accepted : call.Accepted
  · intro index inside entry member
    rw [slot_setnextnode rt accepted] at member
    split_ifs at member with here
    · rcases List.mem_append.mp member with old | new
      · exact placed index inside entry old
      · rw [List.mem_singleton] at new
        subst new
        refine ⟨accepted.1.1, accepted.1.2, ?_⟩
        exact (makehash_slot accepted.1.1).trans (congrArg Nat.cast here)
    · exact placed index inside entry member
  · rw [setnextnode_refused rt accepted]
    exact placed

theorem set_all_well_placed {rt : Routingtable} (placed : rt.WellPlaced)
    (calls : List SetnextnodeCall) : (rt.setAll calls).WellPlaced :=
  List.foldlRecOn calls _ placed fun _ kept call _ => setnextnode_well_placed kept call

theorem hop_entry {rt : Routingtable} {destNodeID nextNodeID : Int32}
    (leads : rt.hop? destNodeID = some nextNodeID) :
    ⟨destNodeID, nextNodeID⟩ ∈ rt.slot (slotIndex destNodeID) := by
  rw [Routingtable.hop?, RoutingSet.cells, lookup_map] at leads
  obtain ⟨entry, found, rfl⟩ := Option.map_eq_some_iff.mp leads
  have named : entry.destNodeID = destNodeID := by simpa using List.find?_some found
  have member := List.mem_of_find?_eq_some found
  rw [← named] at member ⊢
  exact member

theorem getnextnode_eq {rt : Routingtable} (placed : rt.WellPlaced) (destNodeID : Int32) :
    routingtableGetnextnode rt destNodeID = (rt.hop? destNodeID).getD (-1) := by
  rw [routingtableGetnextnode, hashtableFind]
  by_cases positive : 0 < destNodeID
  · rw [if_pos positive, set_find_eq _ positive]
    change (if 0 ≤ (rt.hop? destNodeID).getD (-1) then (rt.hop? destNodeID).getD (-1) else -1) = _
    cases leads : rt.hop? destNodeID with
    | none => rfl
    | some nextNodeID =>
        have next := (placed _ (slot_index_lt destNodeID) _ (hop_entry leads)).2.1
        exact if_pos (Int32.le_of_lt next)
  · rw [if_neg positive]
    cases leads : rt.hop? destNodeID with
    | none => rfl
    | some nextNodeID =>
        exact absurd (placed _ (slot_index_lt destNodeID) _ (hop_entry leads)).1 positive

theorem created_history (fresh : Nat → Int32) (nbrArray : List Int32)
    (calls : List SetnextnodeCall) :
    (routingtableCreate fresh nbrArray).setAll calls =
      Routingtable.empty.setAll (creationCalls fresh nbrArray ++ calls) := by
  rw [set_all_append, create_eq_set_all]

theorem history_well_placed (fresh : Nat → Int32) (nbrArray : List Int32)
    (calls : List SetnextnodeCall) :
    ((routingtableCreate fresh nbrArray).setAll calls).WellPlaced := by
  rw [created_history]
  exact set_all_well_placed empty_well_placed _

/-- A neighbour was inserted or a call was made for the destination, with positive IDs. -/
def Entered (nbrArray : List Int32) (calls : List SetnextnodeCall) (destNodeID : Int32) : Prop :=
  destNodeID ∈ nbrArray ∧ 0 < destNodeID ∨
    ∃ call ∈ calls, call.Positive ∧ call.destNodeID = destNodeID

instance (nbrArray : List Int32) (calls : List SetnextnodeCall) (destNodeID : Int32) :
    Decidable (Entered nbrArray calls destNodeID) :=
  inferInstanceAs (Decidable (_ ∨ ∃ call ∈ calls, _))

theorem hop_for_some_iff (destNodeID : Int32) (call : SetnextnodeCall) :
    (call.hopFor destNodeID).isSome ↔ call.destNodeID = destNodeID ∧ call.Accepted := by
  rw [SetnextnodeCall.hopFor]
  split_ifs with added <;> simp [added]

theorem creation_call_iff (fresh : Nat → Int32) (nbrArray : List Int32) (call : SetnextnodeCall) :
    call ∈ creationCalls fresh nbrArray ↔
      ∃ index, nbrArray[index]? = some call.destNodeID ∧ call.nextNodeID = call.destNodeID ∧
        call.fresh = fresh index := by
  rw [creationCalls, List.mem_map]
  constructor
  · rintro ⟨nbr, member, rfl⟩
    exact ⟨nbr.2, List.mem_zipIdx_iff_getElem?.mp member, rfl, rfl⟩
  · rintro ⟨index, inArray, next, allocated⟩
    obtain ⟨destNodeID, nextNodeID, freshNodeID⟩ := call
    cases next
    cases allocated
    exact ⟨(destNodeID, index), List.mem_zipIdx_iff_getElem?.mpr inArray, rfl⟩

theorem hop_entered_iff (fresh : Nat → Int32) (nbrArray : List Int32)
    (calls : List SetnextnodeCall)
    (nbrsAllocated : ∀ index, index < nbrArray.length → 0 ≤ fresh index)
    (allocated : ∀ call ∈ calls, 0 ≤ call.fresh) (destNodeID : Int32) :
    (((routingtableCreate fresh nbrArray).setAll calls).hop? destNodeID).isSome ↔
      Entered nbrArray calls destNodeID := by
  rw [created_history, hop_set_all, empty_hop, Option.none_or, List.findSome?_isSome_iff]
  simp only [hop_for_some_iff, List.mem_append, Entered]
  constructor
  · rintro ⟨call, created | called, rfl, accepted⟩
    · obtain ⟨index, inArray, _⟩ := (creation_call_iff fresh nbrArray call).mp created
      exact Or.inl ⟨List.mem_of_getElem? inArray, accepted.1.1⟩
    · exact Or.inr ⟨call, called, accepted.1, rfl⟩
  · rintro (⟨isNbr, positive⟩ | ⟨call, called, positive, rfl⟩)
    · obtain ⟨index, inside, inArray⟩ := List.mem_iff_getElem.mp isNbr
      refine ⟨⟨destNodeID, destNodeID, fresh index⟩, Or.inl ?_, rfl, ⟨positive, positive⟩,
        nbrsAllocated index inside⟩
      exact (creation_call_iff fresh nbrArray _).mpr
        ⟨index, List.getElem?_eq_some_iff.mpr ⟨inside, inArray⟩, rfl, rfl⟩
    · exact ⟨call, Or.inr called, rfl, positive, allocated call called⟩

/-- Destinations in one slot do not disturb each other: every entry stands in
its slot, a lookup finds what was entered and nothing else, and a call for one
destination leaves all others as they are. -/
theorem routing_table_isolates (fresh : Nat → Int32) (nbrArray : List Int32)
    (calls : List SetnextnodeCall)
    (nbrsAllocated : ∀ index, index < nbrArray.length → 0 ≤ fresh index)
    (allocated : ∀ call ∈ calls, 0 ≤ call.fresh) :
    (∀ index, index < maxRoutingtableSlots →
      ∀ entry ∈ ((routingtableCreate fresh nbrArray).setAll calls).slot index,
        0 < entry.destNodeID ∧ 0 < entry.nextNodeID ∧ (makehash entry.destNodeID).toInt = index) ∧
    (∀ destNodeID,
      (Entered nbrArray calls destNodeID →
        0 < routingtableGetnextnode ((routingtableCreate fresh nbrArray).setAll calls)
          destNodeID) ∧
      (¬ Entered nbrArray calls destNodeID →
        routingtableGetnextnode ((routingtableCreate fresh nbrArray).setAll calls) destNodeID =
          -1)) ∧
    ∀ call : SetnextnodeCall, ∀ destNodeID, destNodeID ≠ call.destNodeID →
      routingtableGetnextnode
          (((routingtableCreate fresh nbrArray).setAll calls).setnextnode call) destNodeID =
        routingtableGetnextnode ((routingtableCreate fresh nbrArray).setAll calls)
          destNodeID := by
  have placed := history_well_placed fresh nbrArray calls
  refine ⟨placed, fun destNodeID => ?_, fun call destNodeID different => ?_⟩
  · rw [getnextnode_eq placed,
      ← hop_entered_iff fresh nbrArray calls nbrsAllocated allocated destNodeID]
    cases leads : ((routingtableCreate fresh nbrArray).setAll calls).hop? destNodeID with
    | none => simp
    | some nextNodeID =>
        have next := (placed _ (slot_index_lt destNodeID) _ (hop_entry leads)).2.1
        simpa using next
  · have nothing : call.hopFor destNodeID = none := if_neg fun both => different both.1.symm
    rw [getnextnode_eq placed, getnextnode_eq (setnextnode_well_placed placed call),
      hop_setnextnode, nothing, Option.or_none]

/-- Three destinations in slot 3, and one with a negative remainder. -/
theorem colliding_destinations_found :
    0 < routingtableGetnextnode
        ((routingtableCreate (fun _ => 0) [3, 13]).setAll [⟨23, 3, 0⟩]) 23 ∧
      routingtableGetnextnode
        ((routingtableCreate (fun _ => 0) [3, 13]).setAll [⟨23, 3, 0⟩]) (-7) = -1 := by
  obtain ⟨_, found, _⟩ := routing_table_isolates (fun _ => 0) [3, 13] [⟨23, 3, 0⟩]
    (fun _ _ => Int32.le_refl 0) (by decide)
  exact ⟨(found 23).1 (by decide), (found (-7)).2 (by decide)⟩

def Routingtable.entries (rt : Routingtable) : List RoutingtableEntry := rt.table.toList.flatten

def Routingtable.AtMostOneEntry (rt : Routingtable) : Prop :=
  (rt.entries.map RoutingtableEntry.destNodeID).Nodup

instance (rt : Routingtable) : Decidable rt.AtMostOneEntry :=
  inferInstanceAs (Decidable (List.Nodup _))

theorem flatten_set_concat {Item : Type} (lists : List (List Item)) (index : Nat) (item : Item)
    (inside : index < lists.length) :
    ((lists.set index (lists[index] ++ [item])).flatten).Perm (lists.flatten ++ [item]) := by
  induction lists generalizing index with
  | nil => cases inside
  | cons list lists ih =>
      cases index with
      | zero =>
          simp only [List.set_cons_zero, List.flatten_cons, List.getElem_cons_zero,
            List.append_assoc]
          exact (List.perm_append_comm).append_left list
      | succ index =>
          simp only [List.set_cons_succ, List.flatten_cons, List.getElem_cons_succ,
            List.append_assoc]
          exact (ih index (Nat.lt_of_succ_lt_succ inside)).append_left list

theorem entries_setnextnode (rt : Routingtable) {call : SetnextnodeCall}
    (accepted : call.Accepted) :
    (rt.setnextnode call).entries.Perm (rt.entries ++ [call.entry]) := by
  have inside : slotIndex call.destNodeID < rt.table.toList.length := by
    rw [Vector.length_toList]
    exact slot_index_lt call.destNodeID
  have here : rt.slot (slotIndex call.destNodeID) = rt.table.toList[slotIndex call.destNodeID] := by
    have bounded := slot_index_lt call.destNodeID
    simp [Routingtable.slot, bounded]
  rw [setnextnode_accepted rt accepted, Routingtable.entries, Vector.toList_setIfInBounds, here]
  exact flatten_set_concat rt.table.toList _ call.entry inside

theorem no_hop_iff {rt : Routingtable} (placed : rt.WellPlaced) (destNodeID : Int32) :
    rt.hop? destNodeID = none ↔
      destNodeID ∉ rt.entries.map RoutingtableEntry.destNodeID := by
  have listed : destNodeID ∈ rt.entries.map RoutingtableEntry.destNodeID ↔
      ∃ index, index < maxRoutingtableSlots ∧
        ∃ entry ∈ rt.slot index, entry.destNodeID = destNodeID := by
    simp only [List.mem_map, Routingtable.entries, List.mem_flatten, Vector.mem_toList_iff]
    constructor
    · rintro ⟨entry, ⟨set, inTable, member⟩, named⟩
      obtain ⟨index, inside, rfl⟩ := Vector.mem_iff_getElem.mp inTable
      exact ⟨index, inside, entry, by simpa [Routingtable.slot, inside] using member, named⟩
    · rintro ⟨index, inside, entry, member, named⟩
      have inSlot : entry ∈ rt.table[index] := by
        simpa [Routingtable.slot, inside] using member
      exact ⟨entry, ⟨_, Vector.getElem_mem inside, inSlot⟩, named⟩
  rw [listed]
  constructor
  · rintro nowhere ⟨index, inside, entry, member, rfl⟩
    obtain ⟨destPositive, _, hash⟩ := placed index inside entry member
    have here : slotIndex entry.destNodeID = index := by
      exact_mod_cast (makehash_slot destPositive).symm.trans hash
    rw [Routingtable.hop?, here, RoutingSet.cells, lookup_map, Option.map_eq_none_iff] at nowhere
    have absent := List.find?_eq_none.mp nowhere entry member
    simp at absent
  · intro absent
    cases leads : rt.hop? destNodeID with
    | none => rfl
    | some nextNodeID =>
        exact absurd ⟨_, slot_index_lt destNodeID, _, hop_entry leads, rfl⟩ absent

theorem at_most_one_setnextnode {rt : Routingtable} (placed : rt.WellPlaced)
    (call : SetnextnodeCall) :
    (rt.setnextnode call).AtMostOneEntry ↔
      rt.AtMostOneEntry ∧ (call.Accepted → rt.hop? call.destNodeID = none) := by
  by_cases accepted : call.Accepted
  · have same := (entries_setnextnode rt accepted).map RoutingtableEntry.destNodeID
    rw [Routingtable.AtMostOneEntry, same.nodup_iff, List.map_append, List.map_singleton,
      ← List.concat_eq_append, List.nodup_concat, no_hop_iff placed, imp_iff_right accepted]
    exact and_comm
  · rw [setnextnode_refused rt accepted, and_iff_left fun wrong => absurd wrong accepted]

/-- The table has one entry for a destination at most, and every call with
positive IDs sets the next hop of its destination. -/
def UpdatableMap : Routingtable → List SetnextnodeCall → Prop
  | rt, [] => rt.AtMostOneEntry
  | rt, call :: calls =>
      rt.AtMostOneEntry ∧
        (call.Positive →
          routingtableGetnextnode (rt.setnextnode call) call.destNodeID = call.nextNodeID) ∧
        UpdatableMap (rt.setnextnode call) calls

/-- No call with positive IDs is for a destination that has an entry, unless it
is refused and repeats the next hop of the destination. -/
def SetsNewDestinations : Routingtable → List SetnextnodeCall → Prop
  | _, [] => True
  | rt, call :: calls =>
      (call.Positive →
        0 ≤ call.fresh ∧ routingtableGetnextnode rt call.destNodeID = -1 ∨
          call.fresh < 0 ∧
            routingtableGetnextnode rt call.destNodeID = call.nextNodeID) ∧
        SetsNewDestinations (rt.setnextnode call) calls

theorem getnextnode_absent_iff {rt : Routingtable} (placed : rt.WellPlaced) (destNodeID : Int32) :
    routingtableGetnextnode rt destNodeID = -1 ↔ rt.hop? destNodeID = none := by
  rw [getnextnode_eq placed]
  cases leads : rt.hop? destNodeID with
  | none => simp
  | some nextNodeID =>
      have next := (placed _ (slot_index_lt destNodeID) _ (hop_entry leads)).2.1
      have apart : nextNodeID ≠ -1 := by
        rintro rfl
        exact absurd next (by decide : ¬ (0 : Int32) < -1)
      simp [apart]

theorem call_updates_iff {rt : Routingtable} (placed : rt.WellPlaced) {call : SetnextnodeCall}
    (positive : call.Positive) :
    routingtableGetnextnode (rt.setnextnode call) call.destNodeID = call.nextNodeID ∧
        (call.Accepted → rt.hop? call.destNodeID = none) ↔
      0 ≤ call.fresh ∧ routingtableGetnextnode rt call.destNodeID = -1 ∨
        call.fresh < 0 ∧ routingtableGetnextnode rt call.destNodeID = call.nextNodeID := by
  rcases Int32.le_or_lt 0 call.fresh with allocated | negative
  · have accepted : call.Accepted := ⟨positive, allocated⟩
    have added : call.hopFor call.destNodeID = some call.nextNodeID := if_pos ⟨rfl, accepted⟩
    rw [getnextnode_absent_iff placed, imp_iff_right accepted, and_iff_right allocated,
      or_iff_left fun refused => Int32.not_lt.mpr allocated refused.1, and_iff_right_iff_imp]
    intro new
    rw [getnextnode_eq (setnextnode_well_placed placed call), hop_setnextnode, new, added]
    rfl
  · have refused : ¬ call.Accepted := fun accepted => Int32.not_lt.mpr accepted.2 negative
    rw [setnextnode_refused rt refused, and_iff_left fun wrong => absurd wrong refused,
      or_iff_right fun accepted => Int32.not_lt.mpr accepted.1 negative, and_iff_right negative]

theorem updatable_map_iff {rt : Routingtable} (placed : rt.WellPlaced)
    (calls : List SetnextnodeCall) :
    UpdatableMap rt calls ↔ rt.AtMostOneEntry ∧ SetsNewDestinations rt calls := by
  induction calls generalizing rt with
  | nil => rw [UpdatableMap, SetsNewDestinations, and_true]
  | cons call calls ih =>
      rw [UpdatableMap, SetsNewDestinations, ih (setnextnode_well_placed placed call),
        at_most_one_setnextnode placed call]
      refine and_congr_right fun once => ?_
      rw [and_iff_right once, ← and_assoc]
      refine and_congr_left fun _ => ?_
      by_cases positive : call.Positive
      · rw [imp_iff_right positive, imp_iff_right positive]
        exact call_updates_iff placed positive
      · have refused : ¬ call.Accepted := fun accepted => positive accepted.1
        simp [positive, refused]

/-- The neighbours for which `routingtable_create` makes an entry. -/
def insertedNbrs (fresh : Nat → Int32) (nbrArray : List Int32) : List Int32 :=
  ((creationCalls fresh nbrArray).filter fun call => call.Accepted).map
    SetnextnodeCall.destNodeID

theorem entries_set_all (rt : Routingtable) (calls : List SetnextnodeCall) :
    (rt.setAll calls).entries.Perm
      (rt.entries ++ (calls.filter fun call => call.Accepted).map SetnextnodeCall.entry) := by
  induction calls generalizing rt with
  | nil => simp [Routingtable.setAll]
  | cons call calls ih =>
      refine (ih (rt.setnextnode call)).trans ?_
      by_cases accepted : call.Accepted
      · have head := (entries_setnextnode rt accepted).append_right
          ((calls.filter fun call => call.Accepted).map SetnextnodeCall.entry)
        simpa [accepted] using head
      · simp [accepted, setnextnode_refused rt accepted]

theorem created_at_most_one_iff (fresh : Nat → Int32) (nbrArray : List Int32) :
    (routingtableCreate fresh nbrArray).AtMostOneEntry ↔ (insertedNbrs fresh nbrArray).Nodup := by
  have empty : Routingtable.empty.entries = [] := by decide
  have same := (entries_set_all Routingtable.empty (creationCalls fresh nbrArray)).map
    RoutingtableEntry.destNodeID
  rw [Routingtable.AtMostOneEntry, create_eq_set_all, same.nodup_iff, empty, List.nil_append,
    List.map_map]
  rfl

/-- The routing table is an updatable map exactly as long as no destination that
has an entry is set, the neighbours of a new table included. -/
theorem updatable_history_iff (fresh : Nat → Int32) (nbrArray : List Int32)
    (calls : List SetnextnodeCall) :
    UpdatableMap (routingtableCreate fresh nbrArray) calls ↔
      (insertedNbrs fresh nbrArray).Nodup ∧
        SetsNewDestinations (routingtableCreate fresh nbrArray) calls := by
  have placed : (routingtableCreate fresh nbrArray).WellPlaced :=
    history_well_placed fresh nbrArray []
  rw [updatable_map_iff placed, created_at_most_one_iff]

/-- Destination 13 is set twice: the second next hop is not found. -/
theorem second_hop_not_found :
    routingtableGetnextnode
        ((routingtableCreate (fun _ => 0) []).setAll [⟨13, 4, 0⟩, ⟨13, 5, 0⟩]) 13 = 4 ∧
      ¬ UpdatableMap (routingtableCreate (fun _ => 0) []) [⟨13, 4, 0⟩, ⟨13, 5, 0⟩] := by
  have first : routingtableGetnextnode
      ((routingtableCreate (fun _ => 0) []).setAll [⟨13, 4, 0⟩, ⟨13, 5, 0⟩]) 13 = 4 := by decide
  refine ⟨first, ?_⟩
  rintro ⟨_, _, _, updated, _⟩
  have second := updated (by decide)
  exact absurd (first.symm.trans second) (by decide)

end MiniOverlay
