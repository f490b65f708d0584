import MiniOverlay.LinkedHeap
import Mathlib.Data.List.OfFn
import Mathlib.Logic.Function.Basic

/-!
# Several linked lists on one heap

The loops over a list (to its last cell, to the first cell with a property, freeing
every cell), and lists that share a heap without sharing a cell. When they are all that
is left on the heap, appending keeps this and freeing them leaves nothing behind.
-/

namespace MiniOverlay.LinkedHeap

set_option autoImplicit false

variable {Value : Type}

def lastFrom (heap : Heap Value) : Nat → Ptr → Option Ptr
  | 0, _ => none
  | fuel + 1, ptr => do
      let cell ← read heap ptr
      match cell.next with
      | none => some ptr
      | some next => lastFrom heap fuel (some next)

/-- Makes the last cell of a list point to a new one, or the head when there is no cell. -/
def appendCell (heap : Heap Value) (head new : Ptr) : Option (Heap Value × Ptr) :=
  match head with
  | none => some (heap, new)
  | some _ => do
      let last ← lastFrom heap heap.length head
      let cell ← read heap last
      let heap ← write heap last { cell with next := new }
      return (heap, head)

def findFrom (heap : Heap Value) (found : Value → Bool) : Nat → Ptr → Option (Option Value)
  | _, none => some none
  | 0, some _ => none
  | fuel + 1, some address => do
      let cell ← read heap (some address)
      if found cell.val then some (some cell.val) else findFrom heap found fuel cell.next

/-- Frees each cell after it has read where the next one is. -/
def freeAll (heap : Heap Value) : Nat → Ptr → Option (Heap Value)
  | _, none => some heap
  | 0, some _ => none
  | fuel + 1, some address => do
      let cell ← read heap (some address)
      let heap ← free heap (some address)
      freeAll heap fuel cell.next

theorem last_from_chain {heap : Heap Value} {ptr : Ptr} {front : List (Nat × Value)}
    {entry : Nat × Value} (chain : Chain heap ptr (front ++ [entry]) none) {fuel : Nat}
    (enough : front.length < fuel) : lastFrom heap fuel ptr = some (some entry.1) := by
  induction front generalizing ptr fuel with
  | nil =>
      obtain ⟨rfl, next, held, rfl⟩ := chain
      cases fuel with
      | zero => cases enough
      | succ fuel => simp [lastFrom, held]
  | cons first front ih =>
      obtain ⟨rfl, next, held, tail⟩ := chain
      cases fuel with
      | zero => cases enough
      | succ fuel =>
          have rest := ih tail (Nat.lt_of_succ_lt_succ enough)
          have more : next = firstPtr (front ++ [entry]) := chain_first tail
          cases next with
          | none => cases front <;> cases more
          | some address => simpa [lastFrom, held] using rest

theorem find_from_chain {heap : Heap Value} {ptr : Ptr} {entries : List (Nat × Value)}
    (chain : Chain heap ptr entries none) (found : Value → Bool) {fuel : Nat}
    (enough : entries.length ≤ fuel) :
    findFrom heap found fuel ptr = some ((entries.map Prod.snd).find? found) := by
  induction entries generalizing ptr fuel with
  | nil =>
      rw [Chain] at chain
      rw [chain]
      cases fuel <;> rfl
  | cons entry entries ih =>
      obtain ⟨rfl, next, held, tail⟩ := chain
      cases fuel with
      | zero => cases enough
      | succ fuel =>
          have rest := ih tail (Nat.le_of_succ_le_succ enough)
          by_cases here : found entry.2
          · simp [findFrom, held, here]
          · simp [findFrom, held, here, rest]

theorem free_all_owns {heap : Heap Value} {ptr : Ptr} {entries : List (Nat × Value)}
    (owns : Owns heap ptr entries) {fuel : Nat} (enough : entries.length ≤ fuel) :
    ∃ after, freeAll heap fuel ptr = some after ∧ Frees heap after (addresses entries) ∧
      after.length = heap.length ∧
      ∀ other others, Owns heap other others →
        (∀ address ∈ addresses entries, address ∉ addresses others) →
        Owns after other others := by
  induction entries generalizing heap ptr fuel with
  | nil =>
      have ended : ptr = none := owns.chain
      refine ⟨heap, ?_, frees_refl heap, rfl, fun _ _ kept _ => kept⟩
      rw [ended]
      cases fuel <;> rfl
  | cons entry entries ih =>
      obtain ⟨rfl, held⟩ := owns_head owns
      cases fuel with
      | zero => cases enough
      | succ fuel =>
          obtain ⟨after, run, frees, length, kept⟩ :=
            ih (owns_free_head owns) (Nat.le_of_succ_le_succ enough)
          have freed : free heap (some entry.1) = some (heap.set entry.1 none) :=
            store_of_read held none
          refine ⟨after, ?_, frees_trans (frees_free held) frees, ?_, ?_⟩
          · simp [freeAll, held, freed, run]
          · rw [length, List.length_set]
          · intro other others otherOwns apart
            refine kept other others ⟨?_, otherOwns.nodup⟩ fun address member =>
              apart address (List.mem_cons_of_mem _ member)
            exact chain_set otherOwns.chain (apart entry.1 List.mem_cons_self) none

/-- Lists without a common cell; every other cell of the heap was freed. -/
structure OwnsAll {Index : Type} (heap : Heap Value) (heads : Index → Ptr)
    (lists : Index → List (Nat × Value)) : Prop where
  owns : ∀ index, Owns heap (heads index) (lists index)
  apart : ∀ index other, index ≠ other →
    ∀ address ∈ addresses (lists index), address ∉ addresses (lists other)
  rest : ∀ address < heap.length, Freed heap address ∨
    ∃ index, address ∈ addresses (lists index)

section Lists

variable {Index : Type} {heap : Heap Value} {heads : Index → Ptr}
  {lists : Index → List (Nat × Value)}

theorem owns_all_nil : OwnsAll ([] : Heap Value) (fun _ : Index => none) fun _ => [] where
  owns _ := ⟨rfl, List.nodup_nil⟩
  apart _ _ _ _ member := absurd member List.not_mem_nil
  rest address bounded := absurd bounded (Nat.not_lt_zero address)

theorem owns_all_discard (all : OwnsAll heap heads lists) (fresh : Cell Value) :
    free (alloc heap fresh).1 (alloc heap fresh).2 = some (heap ++ [none]) ∧
      OwnsAll (heap ++ [none]) heads lists := by
  have freed : free (alloc heap fresh).1 (alloc heap fresh).2 =
      some ((alloc heap fresh).1.set heap.length none) :=
    store_of_read (read_alloc_new heap fresh) none
  have gone : (alloc heap fresh).1.set heap.length none = heap ++ [none] := by
    simp [alloc]
  rw [gone] at freed
  refine ⟨freed, ?_, all.apart, ?_⟩
  · intro index
    have owns := all.owns index
    rw [← gone]
    refine ⟨chain_set (chain_alloc owns.chain fresh) (fun member => ?_) none, owns.nodup⟩
    exact Nat.lt_irrefl _ (chain_address_lt owns.chain _ member)
  · intro address bounded
    by_cases inside : address < heap.length
    · refine (all.rest address inside).imp_left fun before => ?_
      rw [Freed, List.getElem?_append_left inside]
      exact before
    · left
      rw [List.length_append, List.length_singleton] at bounded
      have last : address = heap.length := by omega
      simp [Freed, last]

variable [DecidableEq Index]

theorem owns_all_grown (all : OwnsAll heap heads lists) (index : Index) (val : Value)
    {after : Heap Value} {head : Ptr} (length : after.length = heap.length + 1)
    (freed : ∀ address, Freed heap address → Freed after address)
    (grown : Owns after head (lists index ++ [(heap.length, val)]))
    (others : ∀ other, other ≠ index → Owns after (heads other) (lists other)) :
    OwnsAll after (Function.update heads index head)
      (Function.update lists index (lists index ++ [(heap.length, val)])) where
  owns other := by
    by_cases same : other = index
    · subst same
      simpa using grown
    · simpa [same] using others other same
  apart := by
    have inside (other : Index) : heap.length ∉ addresses (lists other) := fun member =>
      Nat.lt_irrefl _ (chain_address_lt (all.owns other).chain _ member)
    have split : addresses (lists index ++ [(heap.length, val)]) =
        addresses (lists index) ++ [heap.length] := by simp [addresses]
    intro left right different address member
    by_cases first : left = index
    · subst first
      rw [Function.update_self, split, List.mem_append, List.mem_singleton] at member
      rw [Function.update_of_ne (Ne.symm different)]
      rcases member with old | rfl
      · exact all.apart left right different address old
      · exact inside right
    · rw [Function.update_of_ne first] at member
      by_cases second : right = index
      · subst second
        rw [Function.update_self, split, List.mem_append, List.mem_singleton, not_or]
        refine ⟨all.apart left right different address member, ?_⟩
        rintro rfl
        exact inside left member
      · rw [Function.update_of_ne second]
        exact all.apart left right different address member
  rest address bounded := by
    have listed (other : Index) (member : address ∈ addresses (lists other)) :
        address ∈ addresses
          (Function.update lists index (lists index ++ [(heap.length, val)]) other) := by
      by_cases same : other = index
      · subst same
        rw [Function.update_self]
        simp only [addresses, List.map_append, List.mem_append]
        exact Or.inl member
      · rwa [Function.update_of_ne same]
    by_cases inside : address < heap.length
    · exact (all.rest address inside).imp (freed address) (Exists.imp listed)
    · have last : address = heap.length := by omega
      refine Or.inr ⟨index, ?_⟩
      rw [Function.update_self, last]
      simp [addresses]

theorem owns_all_append (all : OwnsAll heap heads lists) (index : Index) (val : Value) :
    ∃ after head, appendCell (heap ++ [some ⟨val, none⟩]) (heads index) (some heap.length) =
        some (after, head) ∧
      OwnsAll after (Function.update heads index head)
        (Function.update lists index (lists index ++ [(heap.length, val)])) := by
  have kept (other : Index) : Owns (heap ++ [some ⟨val, none⟩]) (heads other) (lists other) :=
    owns_alloc (all.owns other) ⟨val, none⟩
  have held : read (heap ++ [some ⟨val, none⟩]) (some heap.length) = some ⟨val, none⟩ :=
    read_alloc_new heap ⟨val, none⟩
  have freed (address : Nat) (before : Freed heap address) :
      Freed (heap ++ [some ⟨val, none⟩]) address := freed_alloc before ⟨val, none⟩
  rcases List.eq_nil_or_concat' (lists index) with empty | ⟨front, entry, split⟩
  · have headless : heads index = none := by
      have chain := (all.owns index).chain
      rwa [empty] at chain
    refine ⟨heap ++ [some ⟨val, none⟩], some heap.length, by rw [headless]; rfl, ?_⟩
    refine owns_all_grown all index val (by simp) freed ?_ fun other _ => kept other
    rw [empty, List.nil_append]
    refine ⟨⟨rfl, none, held, rfl⟩, ?_⟩
    exact List.nodup_singleton _
  · have owns := kept index
    rw [split] at owns
    have first : ∃ address, heads index = some address := by
      have start := chain_first owns.chain
      cases front with
      | nil => exact ⟨_, start⟩
      | cons first front => exact ⟨_, start⟩
    obtain ⟨address, headed⟩ := first
    have fits := owns_length_le owns
    rw [List.length_append, List.length_singleton] at fits
    have found := last_from_chain owns.chain (Nat.lt_of_succ_le fits)
    have last := owns_read owns
    have linked : write (heap ++ [some (Cell.mk val none)]) (some entry.1)
        (Cell.mk entry.2 (some heap.length)) =
          some ((heap ++ [some (Cell.mk val none)]).set entry.1
            (some ⟨entry.2, some heap.length⟩)) :=
      store_of_read last _
    have inside (other : Index) : heap.length ∉ addresses (lists other) := fun member =>
      Nat.lt_irrefl _ (chain_address_lt (all.owns other).chain _ member)
    let after := (heap ++ [some (Cell.mk val none)]).set entry.1
      (some ⟨entry.2, some heap.length⟩)
    refine ⟨after, heads index, ?_, owns_all_grown all index val ?_ ?_ ?_ ?_⟩
    · rw [headed] at found ⊢
      simp only [appendCell, found, last, linked, Option.bind_eq_bind, Option.bind_some]
      rfl
    · simp [after]
    · exact fun other before => freed_set (freed other before) last _
    · rw [split, List.append_assoc]
      exact owns_link entry (heap.length, val) owns held (split ▸ inside index)
    · intro other different
      refine ⟨chain_set (kept other).chain (fun member => ?_) _, (kept other).nodup⟩
      refine all.apart other index different _ member ?_
      simp [split, addresses]

end Lists

/-- Frees the lists at these pointers one after the other. -/
def freeLists (heap : Heap Value) (heads : List Ptr) : Option (Heap Value) :=
  heads.foldlM (fun heap head => freeAll heap heap.length head) heap

theorem free_lists_owned {heap : Heap Value} (owned : List (Ptr × List (Nat × Value)))
    (owns : ∀ list ∈ owned, Owns heap list.1 list.2)
    (apart : owned.Pairwise fun left right =>
      ∀ address ∈ addresses left.2, address ∉ addresses right.2) :
    ∃ after, freeLists heap (owned.map Prod.fst) = some after ∧
      Frees heap after (owned.flatMap fun list => addresses list.2) ∧
      after.length = heap.length := by
  induction owned generalizing heap with
  | nil => exact ⟨heap, rfl, frees_refl heap, rfl⟩
  | cons list owned ih =>
      obtain ⟨first, later⟩ := List.pairwise_cons.mp apart
      have head := owns list List.mem_cons_self
      obtain ⟨middle, run, frees, length, kept⟩ := free_all_owns head (owns_length_le head)
      have rest : ∀ other ∈ owned, Owns middle other.1 other.2 := fun other member =>
        kept _ _ (owns other (List.mem_cons_of_mem _ member)) (first other member)
      obtain ⟨after, runs, more, same⟩ := ih rest later
      refine ⟨after, ?_, ?_, same.trans length⟩
      · rw [freeLists, List.map_cons, List.foldlM_cons, run]
        exact runs
      · rw [List.flatMap_cons]
        exact frees_trans frees more

theorem owns_all_freed {count : Nat} {heap : Heap Value} {heads : Fin count → Ptr}
    {lists : Fin count → List (Nat × Value)} (all : OwnsAll heap heads lists) :
    ∃ after, freeLists heap (List.ofFn heads) = some after ∧
      Frees heap after ((List.ofFn lists).flatMap addresses) ∧
      ∀ address < after.length, Freed after address := by
  let owned := List.ofFn fun index => (heads index, lists index)
  have pointers : owned.map Prod.fst = List.ofFn heads := by simp [owned, List.map_ofFn]; rfl
  have cells : (owned.flatMap fun list => addresses list.2) =
      (List.ofFn lists).flatMap addresses := by
    have lists : owned.map Prod.snd = List.ofFn lists := by simp [owned, List.map_ofFn]; rfl
    rw [← lists, List.flatMap_map]
  have owns : ∀ list ∈ owned, Owns heap list.1 list.2 := by
    intro list member
    obtain ⟨index, rfl⟩ := List.mem_ofFn.mp member
    exact all.owns index
  have apart : owned.Pairwise fun left right =>
      ∀ address ∈ addresses left.2, address ∉ addresses right.2 :=
    List.pairwise_ofFn.mpr fun left right before =>
      all.apart left right (Fin.ne_of_lt before)
  obtain ⟨after, run, frees, length⟩ := free_lists_owned owned owns apart
  rw [pointers] at run
  rw [cells] at frees
  refine ⟨after, run, frees, fun address bounded => ?_⟩
  rw [frees.freed]
  refine (all.rest address (length ▸ bounded)).imp_right fun ⟨index, member⟩ => ?_
  exact List.mem_flatMap.mpr ⟨lists index, List.mem_ofFn.mpr ⟨index, rfl⟩, member⟩

end MiniOverlay.LinkedHeap
