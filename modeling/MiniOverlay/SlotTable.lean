import Mathlib.Data.List.FinRange
import Mathlib.Logic.Function.Basic
import Mathlib.Tactic.SplitIfs

/-!
# Tables of slots that are searched by a key

A fixed number of slots, each empty or with one entry. A lookup returns the first
slot whose entry has the wanted key; when no two entries share a key it returns
the only one, and it does not see changes that keep the keys.
-/

namespace MiniOverlay.SlotTable

set_option autoImplicit false

abbrev Table (Value : Type) (count : Nat) := Fin count → Option Value

variable {Value Key : Type} [DecidableEq Key] {count : Nat}

def fetch (key : Value → Key) (table : Table Value count) (wanted : Key) : Option (Fin count) :=
  (List.finRange count).find? fun index => (table index).map key = some wanted

def DistinctKeys (key : Value → Key) (table : Table Value count) : Prop :=
  ∀ index other wanted, (table index).map key = some wanted →
    (table other).map key = some wanted → index = other

theorem fetch_none_iff (key : Value → Key) (table : Table Value count) (wanted : Key) :
    fetch key table wanted = none ↔ ∀ index, (table index).map key ≠ some wanted := by
  simp [fetch, List.find?_eq_none]

theorem fetch_key {key : Value → Key} {table : Table Value count} {wanted : Key}
    {index : Fin count} (found : fetch key table wanted = some index) :
    (table index).map key = some wanted := by
  simpa using List.find?_some found

theorem fetch_entry {key : Value → Key} {table : Table Value count} {wanted : Key}
    {index : Fin count} (found : fetch key table wanted = some index) :
    ∃ value, table index = some value ∧ key value = wanted :=
  Option.map_eq_some_iff.mp (fetch_key found)

theorem fetch_eq_some_iff {key : Value → Key} {table : Table Value count}
    (distinct : DistinctKeys key table) (wanted : Key) (index : Fin count) :
    fetch key table wanted = some index ↔ (table index).map key = some wanted := by
  refine ⟨fetch_key, fun held => ?_⟩
  cases found : fetch key table wanted with
  | none => exact absurd held ((fetch_none_iff key table wanted).mp found index)
  | some first => rw [distinct index first wanted held (fetch_key found)]

theorem fetch_agrees_iff {key : Value → Key} {table : Table Value count}
    (distinct : DistinctKeys key table) (wanted other : Key) :
    (∀ index, fetch key table wanted = some index ↔ (table index).map key = some other) ↔
      (wanted = other ∨
        ∀ index, (table index).map key ≠ some wanted ∧ (table index).map key ≠ some other) := by
  simp only [fetch_eq_some_iff distinct]
  constructor
  · intro agrees
    by_cases held : ∃ index, (table index).map key = some wanted
    · obtain ⟨index, holds⟩ := held
      have both : some wanted = some other := holds.symm.trans ((agrees index).mp holds)
      exact Or.inl (Option.some.inj both)
    · have absent (index : Fin count) : (table index).map key ≠ some wanted :=
        fun holds => held ⟨index, holds⟩
      exact Or.inr fun index => ⟨absent index, fun holds => absent index ((agrees index).mpr holds)⟩
  · rintro (same | absent) index
    · rw [same]
    · exact iff_of_false (absent index).1 (absent index).2

theorem fetch_congr {key : Value → Key} {table other : Table Value count}
    (same : ∀ index, (table index).map key = (other index).map key) (wanted : Key) :
    fetch key table wanted = fetch key other wanted := by
  simp only [fetch, same]

/-- The table with one entry in each of two slots. -/
def pair (first second : Fin count) (left right : Value) : Table Value count := fun index =>
  if index = first then some left else if index = second then some right else none

omit [DecidableEq Key] in
theorem pair_distinct (key : Value → Key) (first second : Fin count) {left right : Value}
    (different : key left ≠ key right) : DistinctKeys key (pair first second left right) := by
  intro index other wanted held held'
  obtain ⟨value, here, rfl⟩ := Option.map_eq_some_iff.mp held
  obtain ⟨value', there, same⟩ := Option.map_eq_some_iff.mp held'
  simp only [pair] at here there
  split_ifs at here there with isFirst otherFirst otherSecond isSecond otherFirst otherSecond
  · rw [isFirst, otherFirst]
  · cases here
    cases there
    exact absurd same.symm different
  · cases here
    cases there
    exact absurd same different
  · rw [isSecond, otherSecond]

omit [DecidableEq Key] in
theorem map_key_update {key : Value → Key} (table : Table Value count) (index : Fin count)
    {value after : Value} (held : table index = some value) (kept : key after = key value)
    (slot : Fin count) :
    (Function.update table index (some after) slot).map key = (table slot).map key := by
  by_cases here : slot = index
  · rw [here, Function.update_self, held, Option.map_some, Option.map_some, kept]
  · rw [Function.update_of_ne here]

theorem lowest_of_found {wanted : Fin count → Bool} {index : Fin count}
    (found : (List.finRange count).find? wanted = some index) :
    wanted index ∧ ∀ lower < index, ¬ wanted lower := by
  obtain ⟨holds, before, after, split, absent⟩ := List.find?_eq_some_iff_append.mp found
  refine ⟨holds, fun lower below isWanted => ?_⟩
  have ordered := List.pairwise_lt_finRange count
  have member := List.mem_finRange lower
  rw [split] at ordered member
  rcases List.mem_append.mp member with earlier | later
  · simpa [isWanted] using absent lower earlier
  · have behind := (List.pairwise_append.mp ordered).2.1
    rcases List.mem_cons.mp later with rfl | later
    · exact lt_irrefl lower below
    · exact lt_asymm below ((List.pairwise_cons.mp behind).1 lower later)

theorem find_lowest_iff (wanted : Fin count → Bool) (index : Fin count) :
    (List.finRange count).find? wanted = some index ↔
      wanted index ∧ ∀ lower < index, ¬ wanted lower := by
  refine ⟨lowest_of_found, ?_⟩
  rintro ⟨holds, lowest⟩
  cases found : (List.finRange count).find? wanted with
  | none => exact absurd holds (List.find?_eq_none.mp found index (List.mem_finRange index))
  | some first =>
      obtain ⟨isWanted, lowestFirst⟩ := lowest_of_found found
      rcases lt_trichotomy first index with below | rfl | above
      · exact absurd isWanted (lowest first below)
      · rfl
      · exact absurd holds (lowestFirst index above)

/-- The slots whose entry has a key, as a map of its own. -/
def Tracks (key : Value → Key) (table : Table Value count) (held : Fin count → Option Key) :
    Prop :=
  ∀ index, (table index).map key = held index

omit [DecidableEq Key] in
theorem tracks_empty_iff {key : Value → Key} {table : Table Value count}
    {held : Fin count → Option Key} (tracks : Tracks key table held) (index : Fin count) :
    table index = none ↔ held index = none := by
  rw [← tracks index, Option.map_eq_none_iff]

omit [DecidableEq Key] in
theorem tracks_set {key : Value → Key} {table : Table Value count}
    {held : Fin count → Option Key} (tracks : Tracks key table held) (index : Fin count)
    (entry : Option Value) :
    Tracks key (Function.update table index entry)
      (Function.update held index (entry.map key)) := by
  intro slot
  by_cases here : slot = index
  · rw [here, Function.update_self, Function.update_self]
  · rw [Function.update_of_ne here, Function.update_of_ne here, tracks slot]

omit [DecidableEq Key] in
theorem tracks_change {key : Value → Key} {table : Table Value count}
    {held : Fin count → Option Key} (tracks : Tracks key table held) {index : Fin count}
    {value after : Value} (here : table index = some value) (kept : key after = key value) :
    Tracks key (Function.update table index (some after)) held :=
  fun slot => (map_key_update table index here kept slot).trans (tracks slot)

def Each (keep : Value → Prop) (table : Table Value count) : Prop :=
  ∀ index value, table index = some value → keep value

section Each

omit [DecidableEq Key]

variable {keep : Value → Prop} {table : Table Value count}

theorem each_update (each : Each keep table) (index : Fin count) {value : Value}
    (added : keep value) : Each keep (Function.update table index (some value)) := by
  intro slot other held
  by_cases here : slot = index
  · rw [here, Function.update_self] at held
    cases held
    exact added
  · rw [Function.update_of_ne here] at held
    exact each slot other held

theorem each_remove (each : Each keep table) (index : Fin count) :
    Each keep (Function.update table index none) := by
  intro slot other held
  by_cases here : slot = index
  · rw [here, Function.update_self] at held
    cases held
  · rw [Function.update_of_ne here] at held
    exact each slot other held

end Each

end MiniOverlay.SlotTable
