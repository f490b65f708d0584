import Mathlib.Data.List.Basic

/-!
# Copying inside one block

A copy whose source and target may overlap, made cell by cell from the first to the
last. When the target does not lie behind the source, no cell is read after it was
written, and the copy moves the cells as they were before it.
-/

namespace MiniOverlay.AscendingCopy

set_option autoImplicit false

variable {Cell : Type}

/-- `block[target + i] = block[source + i]` for `i = 0, 1, ..` up to `count`. -/
def copyAscending (block : List Cell) (target source : Nat) : Nat → List Cell
  | 0 => block
  | count + 1 =>
      let copied := copyAscending block target source count
      match copied[source + count]? with
      | some value => copied.set (target + count) value
      | none => copied

theorem copy_ascending_length (block : List Cell) (target source count : Nat) :
    (copyAscending block target source count).length = block.length := by
  induction count with
  | zero => rfl
  | succ count ih =>
      rw [copyAscending]
      cases (copyAscending block target source count)[source + count]? with
      | none => exact ih
      | some value =>
          change ((copyAscending block target source count).set _ _).length = _
          rw [List.length_set, ih]

theorem copy_ascending_get {block : List Cell} {target source : Nat} (ahead : target ≤ source)
    (count : Nat) (inside : source + count ≤ block.length) (index : Nat) :
    (copyAscending block target source count)[index]? =
      if target ≤ index ∧ index < target + count then block[source + (index - target)]?
      else block[index]? := by
  induction count generalizing index with
  | zero =>
      rw [copyAscending, if_neg]
      omega
  | succ count ih =>
      have earlier : source + count ≤ block.length := by omega
      -- the cell that is read now has not been written
      have unwritten : (copyAscending block target source count)[source + count]? =
          some (block[source + count]) := by
        rw [ih earlier, if_neg (by omega), List.getElem?_eq_getElem]
      rw [copyAscending, unwritten]
      change ((copyAscending block target source count).set _ _)[index]? = _
      rw [List.getElem?_set, copy_ascending_length, ih earlier]
      by_cases last : target + count = index
      · have moved : source + (index - target) = source + count := by omega
        rw [if_pos last, if_pos (by omega), if_pos (by omega), moved, List.getElem?_eq_getElem]
      · rw [if_neg last]
        by_cases written : target ≤ index ∧ index < target + count
        · rw [if_pos written, if_pos (by omega)]
        · rw [if_neg written, if_neg (by omega)]

theorem copy_to_front (block : List Cell) (source count : Nat)
    (inside : source + count ≤ block.length) :
    copyAscending block 0 source count = (block.drop source).take count ++ block.drop count := by
  apply List.ext_getElem?
  intro index
  have front : ((block.drop source).take count).length = count := by
    rw [List.length_take, List.length_drop]
    omega
  rw [copy_ascending_get (Nat.zero_le source) count inside]
  by_cases moved : index < count
  · rw [if_pos (by omega), List.getElem?_append_left (by omega), List.getElem?_take,
      if_pos moved, List.getElem?_drop, Nat.sub_zero]
  · have behind : count + (index - count) = index := by omega
    rw [if_neg (by omega), List.getElem?_append_right (by omega), front, List.getElem?_drop, behind]

end MiniOverlay.AscendingCopy
