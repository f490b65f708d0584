import MiniOverlay.PartialRuns

/-!
# Allocated arrays

Blocks of cells as an allocator returns them: a cell holds nothing until
something is stored in it. A store outside the block and a load of a cell that
holds nothing have no result, so a loop that ends with a block has made neither.
The two loops below fill a block from its first cell on, one with the values that
are picked from a list of items and one with a value for every index.
-/

namespace MiniOverlay.AllocatedArrays

set_option autoImplicit false

structure Block (Value : Type) where
  cells : List (Option Value)
  deriving DecidableEq

variable {Value Item : Type}

namespace Block

def malloc (size : Nat) : Block Value := ⟨List.replicate size none⟩

def cleared (size : Nat) (value : Value) : Block Value := ⟨List.replicate size (some value)⟩

def size (block : Block Value) : Nat := block.cells.length

def store (block : Block Value) (index : Nat) (value : Value) : Option (Block Value) :=
  if index < block.size then some ⟨block.cells.set index (some value)⟩ else none

def load (block : Block Value) (index : Nat) : Option Value := block.cells[index]?.join

def StartsWith (block : Block Value) (values : List Value) : Prop :=
  values.map some <+: block.cells

/-- The cells hold these values and there are no others. -/
def Filled (block : Block Value) (values : List Value) : Prop := block.cells = values.map some

variable {block stored : Block Value} {values : List Value} {index : Nat} {value : Value}

@[simp] theorem malloc_size (count : Nat) : (malloc count : Block Value).size = count := by
  simp [size, malloc]

@[simp] theorem cleared_size (count : Nat) : (cleared count value).size = count := by
  simp [size, cleared]

theorem store_inside (value : Value) (inside : index < block.size) :
    block.store index value = some ⟨block.cells.set index (some value)⟩ :=
  if_pos inside

theorem store_outside (outside : block.size ≤ index) : block.store index value = none :=
  if_neg (Nat.not_lt.mpr outside)

theorem store_size (done : block.store index value = some stored) : stored.size = block.size := by
  rw [store] at done
  split_ifs at done
  cases done
  simp [size]

theorem load_store_same (done : block.store index value = some stored) :
    stored.load index = some value := by
  rw [store] at done
  split_ifs at done with inside
  cases done
  have inCells : index < block.cells.length := inside
  simp [load, inCells]

theorem load_store_other {other : Nat} (done : block.store index value = some stored)
    (different : index ≠ other) : stored.load other = block.load other := by
  rw [store] at done
  split_ifs at done
  cases done
  simp [load, List.getElem?_set_ne different]

theorem load_cleared {count : Nat} (inside : index < count) :
    (cleared count value).load index = some value := by
  simp [load, cleared, inside]

theorem starts_with_nil (block : Block Value) : block.StartsWith [] := List.nil_prefix

theorem load_starts_with (starts : block.StartsWith values) (held : values[index]? = some value) :
    block.load index = some value := by
  obtain ⟨rest, cells⟩ := starts
  have inside : index < values.length := (List.getElem?_eq_some_iff.mp held).1
  rw [load, ← cells, List.getElem?_append_left (by simpa using inside), List.getElem?_map, held]
  rfl

theorem store_next (starts : block.StartsWith values) (value : Value)
    (room : values.length < block.size) :
    ∃ stored, block.store values.length value = some stored ∧
      stored.StartsWith (values ++ [value]) ∧ stored.size = block.size := by
  obtain ⟨rest, cells⟩ := starts
  have done : block.store values.length value =
      some ⟨block.cells.set values.length (some value)⟩ := store_inside value room
  refine ⟨_, done, ?_, store_size done⟩
  cases rest with
  | nil =>
      rw [List.append_nil] at cells
      rw [size, ← cells, List.length_map] at room
      exact absurd room (Nat.lt_irrefl _)
  | cons free rest =>
      refine ⟨rest, ?_⟩
      rw [← cells, List.set_append_right _ _ (by simp)]
      simp

theorem filled_of_starts (starts : block.StartsWith values) (full : block.size = values.length) :
    block.Filled values := by
  rw [Filled, eq_comm]
  exact starts.eq_of_length (by rw [List.length_map, ← full, size])

theorem Filled.starts (filled : block.Filled values) : block.StartsWith values :=
  ⟨[], (List.append_nil _).trans filled.symm⟩

theorem Filled.size_eq (filled : block.Filled values) : block.size = values.length := by
  rw [size, filled, List.length_map]

theorem Filled.load_eq (filled : block.Filled values) (index : Nat) :
    block.load index = values[index]? := by
  rw [load, filled, List.getElem?_map]
  cases values[index]? <;> rfl

end Block

/-- Stores what is picked from each item in the next cell. -/
def collect (pick : Item → Option Value) :
    List Item → Block Value → Nat → Option (Block Value × Nat)
  | [], block, next => some (block, next)
  | item :: items, block, next =>
      match pick item with
      | some value =>
          (block.store next value).bind fun stored => collect pick items stored (next + 1)
      | none => collect pick items block next

theorem collect_fits (pick : Item → Option Value) (items : List Item) {block : Block Value}
    {done : List Value} (starts : block.StartsWith done)
    (room : done.length + (items.filterMap pick).length ≤ block.size) :
    ∃ result, collect pick items block done.length =
        some (result, done.length + (items.filterMap pick).length) ∧
      result.StartsWith (done ++ items.filterMap pick) ∧ result.size = block.size := by
  induction items generalizing block done with
  | nil => exact ⟨block, rfl, by simpa using starts, rfl⟩
  | cons item items ih =>
      cases picked : pick item with
      | none =>
          rw [List.filterMap_cons_none picked] at room ⊢
          rw [collect, picked]
          exact ih starts room
      | some value =>
          rw [List.filterMap_cons_some picked] at room ⊢
          rw [List.length_cons] at room ⊢
          obtain ⟨stored, did, held, sameSize⟩ := Block.store_next starts value (by omega)
          obtain ⟨result, looped, all, size⟩ := ih held
            (by rw [sameSize, List.length_append, List.length_singleton]; omega)
          refine ⟨result, ?_, by simpa using all, size.trans sameSize⟩
          rw [collect, picked]
          simp only [did, Option.bind_some]
          rw [List.length_append, List.length_singleton] at looped
          rw [looped, Nat.add_assoc, Nat.add_comm 1]

/-- The body of the loop is run for every index below `count`. -/
def forLoop (count : Nat) (body : Block Value → Nat → Option (Block Value))
    (block : Block Value) : Option (Block Value) :=
  (List.range count).foldlM body block

theorem for_loop_succ (count : Nat) (body : Block Value → Nat → Option (Block Value))
    (block : Block Value) :
    forLoop (count + 1) body block =
      (forLoop count body block).bind fun result => body result count := by
  rw [forLoop, List.range_succ, List.foldlM_append, forLoop]
  simp

theorem for_loop_fills (values : List Value) (body : Block Value → Nat → Option (Block Value))
    (stores : ∀ block index value, values[index]? = some value →
      body block index = block.store index value)
    (block : Block Value) (room : values.length ≤ block.size) :
    ∃ result, forLoop values.length body block = some result ∧ result.StartsWith values ∧
      result.size = block.size := by
  have upTo : ∀ count ≤ values.length, ∃ result, forLoop count body block = some result ∧
      result.StartsWith (values.take count) ∧ result.size = block.size := by
    intro count
    induction count with
    | zero => exact fun _ => ⟨block, rfl, Block.starts_with_nil block, rfl⟩
    | succ count ih =>
        intro fits
        obtain ⟨result, looped, starts, size⟩ := ih (by omega)
        have counted : (values.take count).length = count := List.length_take_of_le (by omega)
        obtain ⟨stored, did, held, sameSize⟩ :=
          Block.store_next starts values[count] (by omega)
        rw [counted] at did
        refine ⟨stored, ?_, ?_, sameSize.trans size⟩
        · rw [for_loop_succ, looped, Option.bind_some,
            stores result count values[count] (List.getElem?_eq_getElem (by omega)), did]
        · rwa [List.take_add_one, List.getElem?_eq_getElem (by omega)]
  simpa using upTo values.length (Nat.le_refl _)

theorem for_loop_filled (values : List Value) (body : Block Value → Nat → Option (Block Value))
    (stores : ∀ block index value, values[index]? = some value →
      body block index = block.store index value) :
    ∃ result, forLoop values.length body (Block.malloc values.length) = some result ∧
      result.Filled values := by
  obtain ⟨result, looped, starts, size⟩ :=
    for_loop_fills values body stores (Block.malloc values.length) (by simp)
  exact ⟨result, looped, Block.filled_of_starts starts (by rw [size, Block.malloc_size])⟩

theorem for_loop_size (count : Nat) (body : Block Value → Nat → Option (Block Value))
    (keeps : ∀ block index result, body block index = some result → result.size = block.size)
    {block result : Block Value} (looped : forLoop count body block = some result) :
    result.size = block.size :=
  PartialRuns.fold_keeps body (fun reached => reached.size = block.size) (List.range count)
    (fun index _ before after kept did => (keeps before index after did).trans kept) rfl looped

end MiniOverlay.AllocatedArrays
