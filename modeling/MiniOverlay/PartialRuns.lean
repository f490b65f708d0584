import Mathlib.Data.List.Basic
import Mathlib.Order.MinMax

/-!
# Runs of partial steps

A list of items that are applied to a state one after the other, where a step
may have no result: what makes a run fail, what every run keeps and when there
is a run.
-/

namespace MiniOverlay.PartialRuns

set_option autoImplicit false

theorem of_guard {Value : Type} {guard : Prop} [Decidable guard] {value result : Value}
    (holds : (if guard then some value else none) = some result) : guard ∧ result = value := by
  split at holds
  · exact ⟨‹guard›, (Option.some.inj holds).symm⟩
  · cases holds

variable {State Item : Type} (step : State → Item → Option State)

theorem fold_fails (items : List Item) (bad : Item) (member : bad ∈ items)
    (fails : ∀ state, step state bad = none) (state : State) : items.foldlM step state = none := by
  induction items generalizing state with
  | nil => cases member
  | cons item items ih =>
      rw [List.foldlM_cons]
      rcases List.mem_cons.mp member with rfl | later
      · rw [fails]
        rfl
      · cases step state item with
        | none => rfl
        | some next => exact ih later next

theorem fold_keeps (keeps : State → Prop) (items : List Item)
    (each : ∀ item ∈ items, ∀ before after, keeps before → step before item = some after →
      keeps after)
    {start last : State} (begins : keeps start) (run : items.foldlM step start = some last) :
    keeps last := by
  induction items generalizing start with
  | nil =>
      cases run
      exact begins
  | cons item items ih =>
      rw [List.foldlM_cons] at run
      obtain ⟨middle, first, later⟩ := Option.bind_eq_some_iff.mp run
      have next := each item (by simp) start middle begins first
      exact ih (fun other member => each other (by simp [member])) next later

theorem fold_runs (keeps : State → Prop) (items : List Item)
    (each : ∀ item ∈ items, ∀ before, keeps before →
      ∃ after, step before item = some after ∧ keeps after)
    {start : State} (begins : keeps start) :
    ∃ last, items.foldlM step start = some last ∧ keeps last := by
  induction items generalizing start with
  | nil => exact ⟨start, rfl, begins⟩
  | cons item items ih =>
      obtain ⟨middle, first, next⟩ := each item (by simp) start begins
      obtain ⟨last, later, kept⟩ := ih (fun other member => each other (by simp [member])) next
      refine ⟨last, ?_, kept⟩
      rw [List.foldlM_cons, first]
      exact later

/-- Each item of a run that is reached meets a condition on the state before it. -/
def Throughout (meets : State → Item → Prop) : State → List Item → Prop
  | _, [] => True
  | state, item :: items =>
      meets state item ∧ ∀ next ∈ step state item, Throughout meets next items

theorem throughout_agree (keeps : State → Prop) (left right : State → Item → Prop)
    (agree : ∀ state item, keeps state → (left state item ↔ right state item))
    (each : ∀ state item next, keeps state → right state item → step state item = some next →
      keeps next)
    {start : State} (begins : keeps start) (items : List Item) :
    Throughout step left start items ↔ Throughout step right start items := by
  induction items generalizing start with
  | nil => exact Iff.rfl
  | cons item items ih =>
      rw [Throughout, Throughout, agree start item begins]
      refine and_congr_right fun meets => forall₂_congr fun next stepped => ?_
      exact ih (each start item next begins meets (Option.mem_def.mp stepped))

theorem throughout_kept (keeps : State → Prop) {meets : State → Item → Prop}
    (each : ∀ state item next, keeps state → step state item = some next → keeps next)
    {start : State} (begins : keeps start) {items : List Item}
    (along : Throughout step meets start items) :
    Throughout step (fun state item => keeps state ∧ meets state item) start items := by
  induction items generalizing start with
  | nil => trivial
  | cons item items ih =>
      refine ⟨⟨begins, along.1⟩, fun next stepped => ?_⟩
      exact ih (each start item next begins (Option.mem_def.mp stepped)) (along.2 next stepped)

theorem fold_append {first rest : List Item} {start middle last : State}
    (front : first.foldlM step start = some middle) (back : rest.foldlM step middle = some last) :
    (first ++ rest).foldlM step start = some last := by
  rw [List.foldlM_append, front]
  exact back

theorem throughout_append {meets : State → Item → Prop} {first rest : List Item}
    {start middle : State} (front : Throughout step meets start first)
    (run : first.foldlM step start = some middle) (back : Throughout step meets middle rest) :
    Throughout step meets start (first ++ rest) := by
  induction first generalizing start with
  | nil =>
      cases run
      exact back
  | cons item first ih =>
      refine ⟨front.1, fun next stepped => ?_⟩
      rw [List.foldlM_cons, Option.mem_def.mp stepped] at run
      exact ih (front.2 next stepped) run

/-- A run whose items all meet a condition on the state before them. -/
def Guarded (meets : State → Item → Prop) (start : State) (items : List Item) (last : State) :
    Prop :=
  items.foldlM step start = some last ∧ Throughout step meets start items

section Guarded

variable {step} {meets : State → Item → Prop}

theorem guarded_nil (state : State) : Guarded step meets state [] state := ⟨rfl, trivial⟩

theorem guarded_cons {start next last : State} {item : Item} {items : List Item}
    (met : meets start item) (stepped : step start item = some next)
    (rest : Guarded step meets next items last) :
    Guarded step meets start (item :: items) last := by
  refine ⟨?_, met, ?_⟩
  · rw [List.foldlM_cons, stepped]
    exact rest.1
  · intro other isNext
    obtain rfl := Option.some.inj (stepped.symm.trans isNext)
    exact rest.2

theorem guarded_append {start middle last : State} {first rest : List Item}
    (front : Guarded step meets start first middle) (back : Guarded step meets middle rest last) :
    Guarded step meets start (first ++ rest) last :=
  ⟨fold_append step front.1 back.1, throughout_append step front.2 front.1 back.2⟩

theorem guarded_keeps (keeps : State → Prop)
    (each : ∀ item before after, keeps before → meets before item →
      step before item = some after → keeps after)
    {start last : State} {items : List Item} (begins : keeps start)
    (run : Guarded step meets start items last) : keeps last := by
  obtain ⟨run, met⟩ := run
  induction items generalizing start with
  | nil =>
      cases run
      exact begins
  | cons item items ih =>
      rw [List.foldlM_cons] at run
      obtain ⟨middle, first, later⟩ := Option.bind_eq_some_iff.mp run
      exact ih (each item start middle begins met.1 first) later (met.2 middle first)

theorem guarded_drains (size : State → Nat) (keeps : State → Prop)
    (each : ∀ state, keeps state → size state ≠ 0 → ∃ item next, meets state item ∧
      step state item = some next ∧ keeps next ∧ size next < size state)
    {start : State} (begins : keeps start) :
    ∃ (items : List Item) (last : State), items.length ≤ size start ∧
      Guarded step meets start items last ∧ keeps last ∧ size last = 0 := by
  induction left : size start using Nat.strongRecOn generalizing start with
  | _ left ih =>
      by_cases done : size start = 0
      · exact ⟨[], start, Nat.zero_le _, guarded_nil start, begins, done⟩
      · obtain ⟨item, next, met, stepped, kept, smaller⟩ := each start begins done
        obtain ⟨items, last, few, run, ended⟩ := ih _ (left ▸ smaller) kept rfl
        refine ⟨item :: items, last, ?_, guarded_cons met stepped run, ended⟩
        rw [List.length_cons]
        omega

end Guarded

theorem fold_simulates {Image : Type} (imageStep : Image → Item → Option Image)
    (image : State → Image) (good : State → Prop)
    (commutes : ∀ state item, good state →
      imageStep (image state) item = (step state item).map image)
    (start : State) (items : List Item)
    (along : Throughout step (fun state _ => good state) start items) :
    items.foldlM imageStep (image start) = (items.foldlM step start).map image := by
  induction items generalizing start with
  | nil => rfl
  | cons item items ih =>
      rw [List.foldlM_cons, List.foldlM_cons, commutes start item along.1]
      cases stepped : step start item with
      | none => rfl
      | some next => exact ih next (along.2 next stepped)

theorem fold_drains (size : State → Nat) (keeps : State → Prop)
    (each : ∀ state, keeps state → size state ≠ 0 →
      ∃ item next, step state item = some next ∧ keeps next ∧ size next < size state)
    {start : State} (begins : keeps start) :
    ∃ (items : List Item) (last : State), items.length ≤ size start ∧
      items.foldlM step start = some last ∧ keeps last ∧ size last = 0 := by
  obtain ⟨items, last, few, run, ended⟩ := guarded_drains size keeps (by
      intro state kept more
      obtain ⟨item, next, taken⟩ := each state kept more
      exact ⟨item, next, (trivial : (fun _ _ => True) state item), taken⟩)
    begins
  exact ⟨items, last, few, run.1, ended⟩

theorem fold_empties {Content : Type} (queue : State → List Content) (keeps : State → Prop)
    (each : ∀ state, keeps state → queue state ≠ [] →
      ∃ item next, step state item = some next ∧ keeps next ∧ queue next = (queue state).tail)
    {start : State} (begins : keeps start) :
    ∃ (items : List Item) (last : State), items.foldlM step start = some last ∧ keeps last ∧
      queue last = [] := by
  obtain ⟨items, last, _, run, kept, empty⟩ := fold_drains step
    (fun state => (queue state).length) keeps (by
      intro state kept busy
      have filled : queue state ≠ [] := fun empty => busy (by simp [empty])
      obtain ⟨item, next, stepped, after, shorter⟩ := each state kept filled
      refine ⟨item, next, stepped, after, ?_⟩
      rw [shorter, List.length_tail]
      omega)
    begins
  exact ⟨items, last, run, kept, List.eq_nil_of_length_eq_zero empty⟩

variable {Value : Type} (read : State → Value)

theorem fold_last_write (writes : Item → Option Value) (keeps : State → Prop) (items : List Item)
    (each : ∀ item ∈ items, ∀ before after, keeps before → step before item = some after →
      keeps after ∧ read after = (writes item).getD (read before))
    {start last : State} (begins : keeps start) (run : items.foldlM step start = some last) :
    keeps last ∧ read last = (items.reverse.findSome? writes).getD (read start) := by
  induction items generalizing start with
  | nil =>
      cases run
      exact ⟨begins, rfl⟩
  | cons item items ih =>
      rw [List.foldlM_cons] at run
      obtain ⟨middle, first, later⟩ := Option.bind_eq_some_iff.mp run
      obtain ⟨next, wrote⟩ := each item (by simp) start middle begins first
      obtain ⟨kept, rest⟩ := ih (fun other member => each other (by simp [member])) next later
      refine ⟨kept, ?_⟩
      rw [rest, wrote, List.reverse_cons, List.findSome?_append]
      cases items.reverse.findSome? writes with
      | some value => rfl
      | none => simp

theorem fold_first_write (content : State → Option Value) (writes : Item → Option Value)
    (keeps : State → Prop) (items : List Item)
    (each : ∀ item ∈ items, ∀ before after, keeps before → step before item = some after →
      keeps after ∧ content after = (content before).or (writes item))
    {start last : State} (begins : keeps start) (run : items.foldlM step start = some last) :
    keeps last ∧ content last = (content start).or (items.findSome? writes) := by
  induction items generalizing start with
  | nil =>
      cases run
      exact ⟨begins, by simp⟩
  | cons item items ih =>
      rw [List.foldlM_cons] at run
      obtain ⟨middle, first, later⟩ := Option.bind_eq_some_iff.mp run
      obtain ⟨next, wrote⟩ := each item (by simp) start middle begins first
      obtain ⟨kept, rest⟩ := ih (fun other member => each other (by simp [member])) next later
      refine ⟨kept, ?_⟩
      rw [rest, wrote, List.findSome?_cons, Option.or_assoc]
      cases writes item with
      | some value => simp
      | none => simp

theorem fold_total (next : State → Item → State) (items : List Item) (start : State) :
    items.foldlM (fun state item => some (next state item)) start =
      some (items.foldl next start) :=
  List.foldlM_pure

section Greatest

variable {Key : Type} [LinearOrder Key] (key : Item → Key) (floor : Key)
  (settled : Key → State → Prop)

theorem fold_settled (items : List Item)
    (each : ∀ item ∈ items, ∀ greatest state, floor ≤ greatest → settled greatest state →
      ∃ next, step state item = some next ∧ settled (max greatest (key item)) next)
    {greatest : Key} {start : State} (above : floor ≤ greatest) (begins : settled greatest start) :
    ∃ last, items.foldlM step start = some last ∧
      floor ≤ (items.map key).foldl max greatest ∧
        settled ((items.map key).foldl max greatest) last := by
  induction items generalizing greatest start with
  | nil => exact ⟨start, rfl, above, begins⟩
  | cons item items ih =>
      obtain ⟨next, first, settles⟩ := each item (by simp) greatest start above begins
      obtain ⟨last, later, result⟩ := ih (fun other member => each other (by simp [member]))
        (le_trans above (le_max_left _ _)) settles
      refine ⟨last, ?_, result⟩
      rw [List.foldlM_cons, first]
      exact later

theorem fold_greatest (items : List Item) (start : State)
    (below : ∀ item ∈ items, key item < floor → step start item = some start)
    (above : ∀ item ∈ items, floor ≤ key item →
      ∃ next, step start item = some next ∧ settled (key item) next)
    (each : ∀ item ∈ items, ∀ greatest state, floor ≤ greatest → settled greatest state →
      ∃ next, step state item = some next ∧ settled (max greatest (key item)) next) :
    ∃ last, items.foldlM step start = some last ∧
      ((∀ greatest ∈ (items.map key).max?, greatest < floor) ∧ last = start ∨
        ∃ greatest ∈ (items.map key).max?, floor ≤ greatest ∧ settled greatest last) := by
  induction items with
  | nil => exact ⟨start, rfl, Or.inl ⟨by simp, rfl⟩⟩
  | cons item items ih =>
      rcases lt_or_ge (key item) floor with low | high
      · have first := below item (by simp) low
        obtain ⟨last, later, result⟩ := ih (fun other member => below other (by simp [member]))
          (fun other member => above other (by simp [member]))
          (fun other member => each other (by simp [member]))
        refine ⟨last, by rw [List.foldlM_cons, first]; exact later, ?_⟩
        -- an item below the floor is not the greatest one unless all of them are below
        rw [List.map_cons, List.max?_cons]
        rcases result with ⟨lower, same⟩ | ⟨greatest, isGreatest, reached, settles⟩
        · refine Or.inl ⟨?_, same⟩
          cases found : (items.map key).max? with
          | none => simpa using low
          | some greatest => simpa [low] using lower greatest found
        · have greater := max_eq_right (le_trans (le_of_lt low) reached)
          rw [Option.mem_def.mp isGreatest, Option.elim_some, greater]
          exact Or.inr ⟨greatest, rfl, reached, settles⟩
      · obtain ⟨next, first, settles⟩ := above item (by simp) high
        obtain ⟨last, later, result⟩ := fold_settled step key floor settled items
          (fun other member => each other (by simp [member])) high settles
        refine ⟨last, ?_, Or.inr ⟨_, rfl, result⟩⟩
        rw [List.foldlM_cons, first]
        exact later

end Greatest

end MiniOverlay.PartialRuns
