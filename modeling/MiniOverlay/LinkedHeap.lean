import Mathlib.Data.List.Basic
import Mathlib.Data.List.Nodup
import Mathlib.Data.List.TakeWhile
import Mathlib.Data.List.Perm.Subperm
import Mathlib.Data.Option.Basic
import Mathlib.Tactic.SplitIfs

/-!
# Singly linked cells on a heap

Reads and writes through a null, freed or never allocated pointer have no
result. `Chain` follows the `next` pointers from one pointer to another, and the
lemmas say which writes leave a chain alone and how a chain grows at its end and
shrinks at its front.
-/

namespace MiniOverlay.LinkedHeap

set_option autoImplicit false

abbrev Ptr := Option Nat

structure Cell (Value : Type) where
  val : Value
  next : Ptr
  deriving DecidableEq

/-- A freed cell stays behind as `none`, so no address is used twice. -/
abbrev Heap (Value : Type) := List (Option (Cell Value))

variable {Value : Type}

def read (heap : Heap Value) (ptr : Ptr) : Option (Cell Value) :=
  ptr.bind fun address => heap[address]?.join

def store (heap : Heap Value) (ptr : Ptr) (content : Option (Cell Value)) :
    Option (Heap Value) :=
  match ptr with
  | none => none
  | some address =>
      if (read heap (some address)).isSome then some (heap.set address content) else none

def write (heap : Heap Value) (ptr : Ptr) (cell : Cell Value) : Option (Heap Value) :=
  store heap ptr (some cell)

def free (heap : Heap Value) (ptr : Ptr) : Option (Heap Value) := store heap ptr none

def alloc (heap : Heap Value) (cell : Cell Value) : Heap Value × Ptr :=
  (heap ++ [some cell], some heap.length)

theorem address_lt {heap : Heap Value} {address : Nat} {cell : Cell Value}
    (held : read heap (some address) = some cell) : address < heap.length := by
  by_contra past
  have absent : heap[address]? = none := List.getElem?_eq_none (by omega)
  simp [read, absent] at held

theorem read_set_same {heap : Heap Value} {address : Nat} (inside : address < heap.length)
    (content : Option (Cell Value)) :
    read (heap.set address content) (some address) = content := by
  simp [read, inside]

theorem read_set_other {heap : Heap Value} {address other : Nat} (different : other ≠ address)
    (content : Option (Cell Value)) :
    read (heap.set address content) (some other) = read heap (some other) := by
  simp [read, List.getElem?_set_ne (Ne.symm different)]

theorem store_of_read {heap : Heap Value} {address : Nat} {cell : Cell Value}
    (held : read heap (some address) = some cell) (content : Option (Cell Value)) :
    store heap (some address) content = some (heap.set address content) := by
  simp [store, held]

theorem write_read {heap after : Heap Value} {address : Nat} {cell : Cell Value}
    (written : write heap (some address) cell = some after) :
    read after (some address) = some cell := by
  cases held : read heap (some address) with
  | none => simp [write, store, held] at written
  | some old =>
      rw [write, store_of_read held] at written
      cases written
      exact read_set_same (address_lt held) _

theorem read_alloc_old {heap : Heap Value} {ptr : Ptr} {cell : Cell Value}
    (held : read heap ptr = some cell) (fresh : Cell Value) :
    read (alloc heap fresh).1 ptr = some cell := by
  cases ptr with
  | none => simp [read] at held
  | some address =>
      have inside := address_lt held
      simpa [read, alloc, List.getElem?_append_left inside] using held

theorem store_alloc {heap after : Heap Value} {ptr : Ptr} {content : Option (Cell Value)}
    (stored : store heap ptr content = some after) (fresh : Cell Value) :
    store (alloc heap fresh).1 ptr content = some (alloc after fresh).1 := by
  cases ptr with
  | none => cases stored
  | some address =>
      cases held : read heap (some address) with
      | none => simp [store, held] at stored
      | some cell =>
          rw [store_of_read held] at stored
          cases stored
          rw [store_of_read (read_alloc_old held fresh), alloc, alloc,
            List.set_append_left _ _ (address_lt held)]

theorem read_alloc_new (heap : Heap Value) (fresh : Cell Value) :
    read (alloc heap fresh).1 (alloc heap fresh).2 = some fresh := by
  simp [read, alloc]

def Freed (heap : Heap Value) (address : Nat) : Prop := heap[address]? = some none

theorem freed_read {heap : Heap Value} {address : Nat} (freed : Freed heap address) :
    read heap (some address) = none := by
  rw [Freed] at freed
  simp [read, freed]

theorem freed_set {heap : Heap Value} {address other : Nat} {cell : Cell Value}
    (freed : Freed heap address) (held : read heap (some other) = some cell)
    (content : Option (Cell Value)) : Freed (heap.set other content) address := by
  have different : other ≠ address := by
    rintro rfl
    rw [freed_read freed] at held
    cases held
  rw [Freed, List.getElem?_set_ne different]
  exact freed

theorem freed_free {heap : Heap Value} {address : Nat} {cell : Cell Value}
    (held : read heap (some address) = some cell) : Freed (heap.set address none) address := by
  simp [Freed, address_lt held]

theorem freed_alloc {heap : Heap Value} {address : Nat} (freed : Freed heap address)
    (fresh : Cell Value) : Freed (alloc heap fresh).1 address := by
  have inside : address < heap.length := (List.getElem?_eq_some_iff.mp freed).1
  rw [Freed, alloc, List.getElem?_append_left inside]
  exact freed

/-- The cells from one pointer to another, with their addresses. -/
def Chain (heap : Heap Value) : Ptr → List (Nat × Value) → Ptr → Prop
  | ptr, [], last => ptr = last
  | ptr, (address, val) :: entries, last =>
      ptr = some address ∧ ∃ next, read heap ptr = some ⟨val, next⟩ ∧
        Chain heap next entries last

def addresses (entries : List (Nat × Value)) : List Nat := entries.map Prod.fst

/-- The address a pointer to a list of cells holds. -/
def firstPtr (entries : List (Nat × Value)) : Ptr := entries.head?.map Prod.fst

def lastPtr (entries : List (Nat × Value)) : Ptr := entries.getLast?.map Prod.fst

structure Owns (heap : Heap Value) (ptr : Ptr) (entries : List (Nat × Value)) : Prop where
  chain : Chain heap ptr entries none
  nodup : (addresses entries).Nodup

theorem last_ptr_concat (entries : List (Nat × Value)) (entry : Nat × Value) :
    lastPtr (entries ++ [entry]) = some entry.1 := by
  simp [lastPtr]

theorem first_ptr_concat (entries : List (Nat × Value)) (entry : Nat × Value) :
    firstPtr (entries ++ [entry]) =
      if firstPtr entries = none then some entry.1 else firstPtr entries := by
  cases entries with
  | nil => simp [firstPtr]
  | cons first entries => simp [firstPtr]

theorem last_ptr_of_addresses {entries others : List (Nat × Value)}
    (same : addresses entries = addresses others) : lastPtr entries = lastPtr others := by
  have last (entries : List (Nat × Value)) : lastPtr entries = (addresses entries).getLast? := by
    simp [lastPtr, addresses]
  rw [last, last, same]

theorem chain_append_iff (heap : Heap Value) (ptr last : Ptr)
    (front back : List (Nat × Value)) :
    Chain heap ptr (front ++ back) last ↔
      ∃ middle, Chain heap ptr front middle ∧ Chain heap middle back last := by
  induction front generalizing ptr with
  | nil => simp [Chain]
  | cons entry front ih =>
      simp only [List.cons_append, Chain, ih]
      constructor
      · rintro ⟨head, next, held, middle, left, right⟩
        exact ⟨middle, ⟨head, next, held, left⟩, right⟩
      · rintro ⟨middle, ⟨head, next, held, left⟩, right⟩
        exact ⟨head, next, held, middle, left, right⟩

theorem chain_first {heap : Heap Value} {ptr : Ptr} {entries : List (Nat × Value)}
    (chain : Chain heap ptr entries none) : ptr = firstPtr entries := by
  cases entries with
  | nil => exact chain
  | cons entry entries => exact chain.1

theorem chain_address_lt {heap : Heap Value} {ptr last : Ptr} {entries : List (Nat × Value)}
    (chain : Chain heap ptr entries last) : ∀ address ∈ addresses entries,
      address < heap.length := by
  induction entries generalizing ptr with
  | nil => simp [addresses]
  | cons entry entries ih =>
      obtain ⟨rfl, next, held, tail⟩ := chain
      intro address member
      rcases List.mem_cons.mp member with rfl | later
      · exact address_lt held
      · exact ih tail address later

theorem chain_alloc {heap : Heap Value} {ptr last : Ptr} {entries : List (Nat × Value)}
    (chain : Chain heap ptr entries last) (fresh : Cell Value) :
    Chain (alloc heap fresh).1 ptr entries last := by
  induction entries generalizing ptr with
  | nil => exact chain
  | cons entry entries ih =>
      obtain ⟨head, next, held, tail⟩ := chain
      exact ⟨head, next, read_alloc_old held fresh, ih tail⟩

theorem chain_set {heap : Heap Value} {ptr last : Ptr} {entries : List (Nat × Value)}
    (chain : Chain heap ptr entries last) {address : Nat} (outside : address ∉ addresses entries)
    (content : Option (Cell Value)) : Chain (heap.set address content) ptr entries last := by
  induction entries generalizing ptr with
  | nil => exact chain
  | cons entry entries ih =>
      obtain ⟨rfl, next, held, tail⟩ := chain
      have different : entry.1 ≠ address := fun same => outside (by simp [addresses, same])
      refine ⟨rfl, next, ?_, ih tail fun member => outside (List.mem_cons_of_mem _ member)⟩
      rw [read_set_other different, held]

theorem owns_alloc {heap : Heap Value} {ptr : Ptr} {entries : List (Nat × Value)}
    (owns : Owns heap ptr entries) (fresh : Cell Value) :
    Owns (alloc heap fresh).1 ptr entries :=
  ⟨chain_alloc owns.chain fresh, owns.nodup⟩

theorem owns_head {heap : Heap Value} {ptr : Ptr} {entry : Nat × Value}
    {entries : List (Nat × Value)} (owns : Owns heap ptr (entry :: entries)) :
    ptr = some entry.1 ∧ read heap (some entry.1) = some ⟨entry.2, firstPtr entries⟩ := by
  obtain ⟨rfl, next, held, tail⟩ := owns.chain
  rw [chain_first tail] at held
  exact ⟨rfl, held⟩

theorem chain_unique {heap : Heap Value} {ptr : Ptr} {entries others : List (Nat × Value)}
    (chain : Chain heap ptr entries none) (other : Chain heap ptr others none) :
    entries = others := by
  induction entries generalizing ptr others with
  | nil =>
      cases others with
      | nil => rfl
      | cons entry others =>
          rw [Chain] at chain
          rw [chain] at other
          cases other.1
  | cons entry entries ih =>
      obtain ⟨rfl, next, held, tail⟩ := chain
      cases others with
      | nil => cases other
      | cons entry' others =>
          obtain ⟨same, next', held', tail'⟩ := other
          have address : entry.1 = entry'.1 := Option.some.inj same
          rw [held] at held'
          obtain ⟨val, rfl⟩ := Cell.mk.inj (Option.some.inj held')
          rw [ih tail tail', Prod.ext address val]

theorem owns_read {heap : Heap Value} {ptr : Ptr} {front back : List (Nat × Value)}
    {entry : Nat × Value} (owns : Owns heap ptr (front ++ entry :: back)) :
    read heap (some entry.1) = some ⟨entry.2, firstPtr back⟩ := by
  obtain ⟨middle, _, rfl, next, held, tail⟩ := (chain_append_iff _ _ _ _ _).mp owns.chain
  rwa [chain_first tail] at held

theorem owns_not_freed {heap : Heap Value} {ptr : Ptr} {entries : List (Nat × Value)}
    (owns : Owns heap ptr entries) {address : Nat} (member : address ∈ addresses entries) :
    ¬ Freed heap address := by
  obtain ⟨entry, inside, rfl⟩ := List.mem_map.mp member
  obtain ⟨front, back, rfl⟩ := List.append_of_mem inside
  intro freed
  have held := owns_read owns
  rw [freed_read freed] at held
  cases held

theorem owns_suffix {heap : Heap Value} {ptr : Ptr} {front back : List (Nat × Value)}
    (owns : Owns heap ptr (front ++ back)) : Owns heap (firstPtr back) back := by
  obtain ⟨middle, _, tail⟩ := (chain_append_iff _ _ _ _ _).mp owns.chain
  have nodup := owns.nodup
  rw [addresses, List.map_append] at nodup
  rw [chain_first tail] at tail
  exact ⟨tail, (List.nodup_append.mp nodup).2.1⟩

theorem take_while_before {front back : List (Nat × Value)}
    (nodup : (addresses (front ++ back)).Nodup) :
    ((front ++ back).takeWhile fun entry => decide (some entry.1 ≠ firstPtr back)) = front := by
  cases back with
  | nil =>
      rw [List.append_nil, List.takeWhile_eq_self_iff]
      simp [firstPtr]
  | cons entry back =>
      have before : ∀ item ∈ front, decide (some item.1 ≠ firstPtr (entry :: back)) = true := by
        intro item member
        rw [addresses, List.map_append] at nodup
        have apart := (List.nodup_append.mp nodup).2.2 item.1 (List.mem_map_of_mem member)
          entry.1 (by simp)
        simpa [firstPtr] using apart
      rw [List.takeWhile_append_of_pos before]
      simp [firstPtr]

theorem drop_while_before {front back : List (Nat × Value)}
    (nodup : (addresses (front ++ back)).Nodup) :
    ((front ++ back).dropWhile fun entry => decide (some entry.1 ≠ firstPtr back)) = back := by
  have split := List.takeWhile_append_dropWhile (l := front ++ back)
    (p := fun entry => decide (some entry.1 ≠ firstPtr back))
  rw [take_while_before nodup] at split
  exact List.append_cancel_left split

theorem owns_free_head {heap : Heap Value} {ptr : Ptr} {entry : Nat × Value}
    {entries : List (Nat × Value)} (owns : Owns heap ptr (entry :: entries)) :
    Owns (heap.set entry.1 none) (firstPtr entries) entries := by
  obtain ⟨rfl, next, held, tail⟩ := owns.chain
  obtain ⟨absent, nodup⟩ := List.nodup_cons.mp owns.nodup
  rw [chain_first tail] at tail
  exact ⟨chain_set tail absent none, nodup⟩

theorem owns_set_val {heap : Heap Value} {ptr : Ptr} {front back : List (Nat × Value)}
    {entry : Nat × Value} (owns : Owns heap ptr (front ++ entry :: back)) (val : Value) :
    Owns (heap.set entry.1 (some ⟨val, firstPtr back⟩)) ptr
      (front ++ (entry.1, val) :: back) := by
  have held := owns_read owns
  have nodup := owns.nodup
  rw [addresses, List.map_append, List.map_cons] at nodup
  have apart := List.nodup_middle.mp nodup
  have absent := (List.nodup_cons.mp apart).1
  rw [List.mem_append, not_or] at absent
  obtain ⟨middle, left, rfl, next, _, tail⟩ := (chain_append_iff _ _ _ _ _).mp owns.chain
  rw [chain_first tail] at tail
  constructor
  · rw [chain_append_iff]
    refine ⟨some entry.1, chain_set left absent.1 _, rfl, firstPtr back, ?_,
      chain_set tail absent.2 _⟩
    exact read_set_same (address_lt held) _
  · rw [addresses, List.map_append, List.map_cons]
    exact nodup

theorem owns_link {heap : Heap Value} {ptr : Ptr} {front : List (Nat × Value)}
    (entry fresh : Nat × Value) (owns : Owns heap ptr (front ++ [entry]))
    (held : read heap (some fresh.1) = some ⟨fresh.2, none⟩)
    (apart : fresh.1 ∉ addresses (front ++ [entry])) :
    Owns (heap.set entry.1 (some ⟨entry.2, some fresh.1⟩)) ptr (front ++ [entry, fresh]) := by
  have lastHeld := owns_read owns
  have nodup := owns.nodup
  rw [addresses, List.map_append, List.map_cons, List.map_nil] at nodup apart
  have absent : entry.1 ∉ addresses front := by
    intro member
    exact (List.nodup_append.mp nodup).2.2 _ member _ (by simp) rfl
  have different : fresh.1 ≠ entry.1 := fun same => apart (by simp [same])
  obtain ⟨middle, left, rfl, _⟩ := (chain_append_iff _ _ _ _ _).mp owns.chain
  constructor
  · rw [chain_append_iff]
    refine ⟨some entry.1, chain_set left absent _, rfl, some fresh.1,
      read_set_same (address_lt lastHeld) _, rfl, none, ?_, rfl⟩
    rw [read_set_other different, held]
  · have joined : addresses (front ++ [entry, fresh]) =
        (front.map Prod.fst ++ [entry.1]) ++ [fresh.1] := by simp [addresses]
    rw [joined, List.nodup_append]
    refine ⟨nodup, List.nodup_singleton _, ?_⟩
    intro left leftMember right rightMember
    rw [List.mem_singleton.mp rightMember]
    exact fun same => apart (same ▸ leftMember)

theorem advance_ptr {heap : Heap Value} {ptr : Ptr} {front back : List (Nat × Value)}
    {entry : Nat × Value} (owns : Owns heap ptr (front ++ entry :: back)) :
    (if some entry.1 ≠ lastPtr (front ++ entry :: back) then firstPtr back else none) =
      firstPtr back := by
  rcases List.eq_nil_or_concat' back with rfl | ⟨more, last, rfl⟩
  · simp [lastPtr, firstPtr]
  · have nodup := owns.nodup
    simp only [addresses, List.map_append, List.map_cons, List.map_nil] at nodup
    have apart := (List.nodup_cons.mp (List.nodup_append.mp nodup).2.1).1
    have different : entry.1 ≠ last.1 := by
      intro same
      apply apart
      simp [same]
    rw [← List.cons_append, ← List.append_assoc, last_ptr_concat,
      if_pos (by simpa using different)]

theorem owns_length_le {heap : Heap Value} {ptr : Ptr} {entries : List (Nat × Value)}
    (owns : Owns heap ptr entries) : entries.length ≤ heap.length := by
  have bounded := chain_address_lt owns.chain
  have contained : addresses entries ⊆ List.range heap.length := fun address member =>
    List.mem_range.mpr (bounded address member)
  have counted := (List.Nodup.subperm owns.nodup contained).length_le
  simpa [addresses] using counted

/-- The values from a pointer to the null pointer. -/
def walk (heap : Heap Value) : Nat → Ptr → Option (List Value)
  | _, none => some []
  | 0, some _ => none
  | fuel + 1, some address => do
      let cell ← read heap (some address)
      let later ← walk heap fuel cell.next
      return cell.val :: later

theorem walk_of_chain {heap : Heap Value} {ptr : Ptr} {entries : List (Nat × Value)}
    (chain : Chain heap ptr entries none) {fuel : Nat} (enough : entries.length ≤ fuel) :
    walk heap fuel ptr = some (entries.map Prod.snd) := by
  induction entries generalizing ptr fuel with
  | nil =>
      rw [Chain] at chain
      rw [chain]
      cases fuel <;> rfl
  | cons entry entries ih =>
      obtain ⟨rfl, next, held, tail⟩ := chain
      cases fuel with
      | zero => simp at enough
      | succ fuel =>
          have rest := ih tail (Nat.le_of_succ_le_succ enough)
          simp [walk, held, rest]

theorem freed_iff_any (heap : Heap Value) (address : Nat) :
    heap[address]?.any Option.isNone = true ↔ Freed heap address := by
  rw [Freed]
  cases heap[address]? with
  | none => simp
  | some content => simp

instance (heap : Heap Value) (address : Nat) : Decidable (Freed heap address) :=
  decidable_of_iff _ (freed_iff_any heap address)

theorem freed_lt {heap : Heap Value} {address : Nat} (freed : Freed heap address) :
    address < heap.length :=
  (List.getElem?_eq_some_iff.mp freed).1

/-- From one heap to a later one the cells of `gone` were freed, and no others. -/
structure Frees (before after : Heap Value) (gone : List Nat) : Prop where
  freed : ∀ address, Freed after address ↔ Freed before address ∨ address ∈ gone
  unfreed : ∀ address ∈ gone, ¬ Freed before address
  nodup : gone.Nodup
  length : before.length ≤ after.length

theorem frees_refl (heap : Heap Value) : Frees heap heap [] :=
  ⟨by simp, by simp, List.nodup_nil, Nat.le_refl _⟩

theorem frees_trans {before middle after : Heap Value} {gone more : List Nat}
    (first : Frees before middle gone) (second : Frees middle after more) :
    Frees before after (gone ++ more) where
  freed address := by
    rw [second.freed, first.freed, List.mem_append, or_assoc]
  unfreed address member := by
    rcases List.mem_append.mp member with early | late
    · exact first.unfreed address early
    · exact fun freed => second.unfreed address late ((first.freed address).mpr (Or.inl freed))
  nodup := by
    refine List.nodup_append.mpr ⟨first.nodup, second.nodup, ?_⟩
    rintro address early other late rfl
    exact second.unfreed address late ((first.freed address).mpr (Or.inr early))
  length := Nat.le_trans first.length second.length

theorem frees_set {heap : Heap Value} {address : Nat} {cell : Cell Value}
    (held : read heap (some address) = some cell) (fresh : Cell Value) :
    Frees heap (heap.set address (some fresh)) [] where
  freed other := by
    simp only [List.not_mem_nil, or_false]
    by_cases here : other = address
    · subst here
      refine iff_of_false (fun freed => ?_) fun freed => ?_
      · rw [Freed, List.getElem?_set_self (address_lt held)] at freed
        cases freed
      · rw [freed_read freed] at held
        cases held
    · rw [Freed, Freed, List.getElem?_set_ne (Ne.symm here)]
  unfreed := by simp
  nodup := List.nodup_nil
  length := by rw [List.length_set]

theorem frees_write {heap after : Heap Value} {ptr : Ptr} {cell : Cell Value}
    (written : write heap ptr cell = some after) : Frees heap after [] := by
  rcases ptr with _ | address
  · cases written
  · cases held : read heap (some address) with
    | none => simp [write, store, held] at written
    | some old =>
        rw [write, store_of_read held] at written
        cases written
        exact frees_set held cell

theorem frees_free {heap : Heap Value} {address : Nat} {cell : Cell Value}
    (held : read heap (some address) = some cell) :
    Frees heap (heap.set address none) [address] where
  freed other := by
    rw [List.mem_singleton]
    by_cases here : other = address
    · subst here
      exact iff_of_true (freed_free held) (Or.inr rfl)
    · rw [Freed, Freed, List.getElem?_set_ne (Ne.symm here)]
      exact (or_iff_left here).symm
  unfreed other member freed := by
    rw [List.mem_singleton.mp member] at freed
    rw [freed_read freed] at held
    cases held
  nodup := List.nodup_singleton _
  length := by rw [List.length_set]

theorem frees_alloc (heap : Heap Value) (fresh : Cell Value) :
    Frees heap (alloc heap fresh).1 [] where
  freed address := by
    simp only [List.not_mem_nil, or_false]
    refine ⟨fun freed => ?_, fun freed => freed_alloc freed fresh⟩
    have bounded := freed_lt freed
    rw [alloc, List.length_append, List.length_singleton] at bounded
    rw [Freed, alloc] at freed
    by_cases inside : address < heap.length
    · rw [List.getElem?_append_left inside] at freed
      exact freed
    · have last : address = heap.length := by omega
      subst last
      simp at freed
  unfreed := by simp
  nodup := List.nodup_nil
  length := by simp [alloc]

/-- The addresses that were freed between two heaps. Only an allocated cell can be freed, so
each of them stands for one `free`. -/
def freedIn (before after : Heap Value) : List Nat :=
  (List.range after.length).filter fun address => ¬ Freed before address ∧ Freed after address

theorem freed_in_perm {before after : Heap Value} {gone : List Nat}
    (frees : Frees before after gone) : (freedIn before after).Perm gone := by
  refine (List.perm_ext_iff_of_nodup (List.nodup_range.filter _) frees.nodup).mpr fun address => ?_
  simp only [List.mem_filter, List.mem_range, decide_eq_true_eq]
  constructor
  · rintro ⟨_, unfreed, freed⟩
    exact ((frees.freed address).mp freed).resolve_left unfreed
  · intro member
    have freed := (frees.freed address).mpr (Or.inr member)
    exact ⟨freed_lt freed, frees.unfreed address member, freed⟩

def Everywhere (keep : Value → Prop) (heap : Heap Value) : Prop :=
  ∀ ptr cell, read heap ptr = some cell → keep cell.val

theorem everywhere_nil (keep : Value → Prop) : Everywhere keep [] := by
  intro ptr cell held
  cases ptr <;> simp [read] at held

theorem everywhere_store {keep : Value → Prop} {heap after : Heap Value} {ptr : Ptr}
    {content : Option (Cell Value)} (all : Everywhere keep heap)
    (new : ∀ cell, content = some cell → keep cell.val)
    (stored : store heap ptr content = some after) : Everywhere keep after := by
  intro other cell held
  unfold store at stored
  rcases ptr with _ | address
  · cases stored
  · simp only at stored
    split_ifs at stored with allocated
    cases stored
    rcases other with _ | other
    · cases held
    by_cases same : other = address
    · obtain ⟨old, oldHeld⟩ := Option.isSome_iff_exists.mp allocated
      rw [same, read_set_same (address_lt oldHeld)] at held
      exact new cell held
    · rw [read_set_other same] at held
      exact all (some other) cell held

theorem everywhere_write {keep : Value → Prop} {heap after : Heap Value} {ptr : Ptr}
    {cell : Cell Value} (all : Everywhere keep heap) (written : write heap ptr cell = some after)
    (new : keep cell.val) : Everywhere keep after := by
  apply everywhere_store all _ written
  intro content same
  cases same
  exact new

theorem everywhere_free {keep : Value → Prop} {heap after : Heap Value} {ptr : Ptr}
    (all : Everywhere keep heap) (freed : free heap ptr = some after) : Everywhere keep after := by
  apply everywhere_store all _ freed
  intro cell absent
  cases absent

theorem everywhere_alloc {keep : Value → Prop} {heap : Heap Value} (all : Everywhere keep heap)
    (fresh : Cell Value) (new : keep fresh.val) : Everywhere keep (alloc heap fresh).1 := by
  intro ptr cell held
  rcases ptr with _ | address
  · cases held
  by_cases inside : address < heap.length
  · apply all (some address) cell
    simpa [read, alloc, List.getElem?_append_left inside] using held
  · have bounded := address_lt held
    have last : address = heap.length := by
      simp only [alloc, List.length_append, List.length_singleton] at bounded
      omega
    rw [last] at held
    have same := (read_alloc_new heap fresh).symm.trans held
    cases same
    exact new

end MiniOverlay.LinkedHeap
