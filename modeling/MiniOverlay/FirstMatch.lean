import Mathlib.Data.List.Basic
import Mathlib.Data.List.Nodup

/-!
# Tables in which the first match counts

A table is a list of cells, each a key with a value, and a search returns the
value of the first cell with the key. A cell is overwritten where it stands or
a new one is appended behind the others; with appended cells the first value of
a key stays, with overwritten ones the last.
-/

namespace MiniOverlay.FirstMatch

set_option autoImplicit false

variable {Key Value : Type} [BEq Key] [LawfulBEq Key] [DecidableEq Key]

def assign (key : Key) (value : Value) : List (Key × Value) → List (Key × Value)
  | [] => []
  | cell :: cells =>
      if key = cell.1 then (cell.1, value) :: cells else cell :: assign key value cells

omit [DecidableEq Key] in
theorem lookup_cons_other {key name : Key} (different : key ≠ name) (value : Value)
    (cells : List (Key × Value)) : ((name, value) :: cells).lookup key = cells.lookup key := by
  rw [List.lookup_cons, beq_eq_false_iff_ne.mpr different]

theorem lookup_map {Item : Type} (name : Item → Key) (value : Item → Value) (key : Key)
    (items : List Item) :
    (items.map fun item => (name item, value item)).lookup key =
      (items.find? fun item => name item = key).map value := by
  induction items with
  | nil => rfl
  | cons item items ih =>
      by_cases here : key = name item
      · simp [here]
      · have other : ¬ name item = key := fun same => here same.symm
        simp [other, lookup_cons_other here, ih]

theorem lookup_assign_same (key : Key) (value : Value) (cells : List (Key × Value)) :
    (assign key value cells).lookup key = (cells.lookup key).map fun _ => value := by
  induction cells with
  | nil => rfl
  | cons cell cells ih =>
      obtain ⟨name, held⟩ := cell
      by_cases here : key = name
      · simp [assign, here]
      · simp [assign, here, lookup_cons_other, ih]

theorem lookup_assign_other {key other : Key} (different : other ≠ key) (value : Value)
    (cells : List (Key × Value)) :
    (assign key value cells).lookup other = cells.lookup other := by
  induction cells with
  | nil => rfl
  | cons cell cells ih =>
      obtain ⟨name, held⟩ := cell
      by_cases here : key = name
      · subst here
        simp [assign, lookup_cons_other, different]
      · rw [assign, if_neg here, List.lookup_cons, List.lookup_cons, ih]

theorem assign_append (key : Key) (value : Value) (front back : List (Key × Value)) :
    assign key value (front ++ back) =
      if (front.lookup key).isSome then assign key value front ++ back
      else front ++ assign key value back := by
  induction front with
  | nil => simp
  | cons cell front ih =>
      obtain ⟨name, held⟩ := cell
      by_cases here : key = name
      · simp [assign, here]
      · rw [List.cons_append, assign, if_neg here, ih, lookup_cons_other here, assign, if_neg here]
        split_ifs <;> rfl

theorem lookup_concat (key other : Key) (value : Value) (cells : List (Key × Value)) :
    (cells ++ [(key, value)]).lookup other =
      (cells.lookup other).or (if other = key then some value else none) := by
  have last : [(key, value)].lookup other = if other = key then some value else none := by
    by_cases same : other = key
    · simp [same]
    · simp [same, lookup_cons_other]
  rw [List.lookup_append, last]

end MiniOverlay.FirstMatch
