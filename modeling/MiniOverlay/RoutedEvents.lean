import Mathlib.Data.List.Basic
import Mathlib.Logic.Function.Basic

/-!
# Events routed to components

A family of components with one partial step function, and a list of events each
of which goes to one component. What a run does to a component, and what that
component puts out, is what its own events do to it alone.
-/

namespace MiniOverlay.RoutedEvents

set_option autoImplicit false

variable {Index State Event Output : Type} [DecidableEq Index]

def runOne (step : State → Event → Option (State × List Output)) :
    State → List Event → Option (State × List Output)
  | state, [] => some (state, [])
  | state, event :: events => do
      let next ← step state event
      let later ← runOne step next.1 events
      return (later.1, next.2 ++ later.2)

/-- One event of one component; the output is marked with the component. -/
def stepAt (step : State → Event → Option (State × List Output)) (states : Index → State)
    (item : Index × Event) : Option ((Index → State) × List (Index × Output)) :=
  (step (states item.1) item.2).map fun next =>
    (Function.update states item.1 next.1, next.2.map (Prod.mk item.1))

def run (step : State → Event → Option (State × List Output)) :
    (Index → State) → List (Index × Event) →
      Option ((Index → State) × List (Index × Output))
  | states, [] => some (states, [])
  | states, item :: items => do
      let next ← stepAt step states item
      let later ← run step next.1 items
      return (later.1, next.2 ++ later.2)

def own {Value : Type} (index : Index) (items : List (Index × Value)) : List Value :=
  (items.filter fun item => item.1 = index).map Prod.snd

theorem mem_own_iff {Value : Type} (index : Index) (value : Value)
    (items : List (Index × Value)) : value ∈ own index items ↔ (index, value) ∈ items := by
  simp [own]

theorem own_append {Value : Type} (index : Index) (left right : List (Index × Value)) :
    own index (left ++ right) = own index left ++ own index right := by
  simp [own]

theorem own_cons_same {Value : Type} (index : Index) (value : Value)
    (items : List (Index × Value)) :
    own index ((index, value) :: items) = value :: own index items := by
  simp [own]

theorem own_cons_other {Value : Type} {index : Index} {item : Index × Value}
    (other : item.1 ≠ index) (items : List (Index × Value)) :
    own index (item :: items) = own index items := by
  simp [own, other]

theorem own_marked_same {Value : Type} (index : Index) (values : List Value) :
    own index (values.map (Prod.mk index)) = values := by
  simp [own, List.filter_map, Function.comp_def]

theorem own_marked_other {Value : Type} {index other : Index} (different : other ≠ index)
    (values : List Value) : own index (values.map (Prod.mk other)) = [] := by
  simp [own, List.filter_map, Function.comp_def, different]

theorem own_filter_same {Value : Type} (index : Index) (items : List (Index × Value)) :
    own index (items.filter fun item => item.1 = index) = own index items := by
  simp [own]

theorem own_filter_other {Value : Type} {index other : Index} (different : other ≠ index)
    (items : List (Index × Value)) :
    own other (items.filter fun item => item.1 = index) = [] := by
  simp only [own, List.filter_filter, List.map_eq_nil_iff, List.filter_eq_nil_iff]
  intro item _ both
  simp only [Bool.and_eq_true, decide_eq_true_eq] at both
  exact different (both.1.symm.trans both.2)

variable (step : State → Event → Option (State × List Output))

omit [DecidableEq Index] in
theorem run_one_defined (keeps : State → Prop) (fits : Event → Prop)
    (each : ∀ state event, keeps state → fits event →
      ∃ next, step state event = some next ∧ keeps next.1)
    (events : List Event) (all : ∀ event ∈ events, fits event) (state : State)
    (begins : keeps state) : ∃ result, runOne step state events = some result := by
  induction events generalizing state with
  | nil => exact ⟨_, rfl⟩
  | cons event events ih =>
      obtain ⟨next, stepped, kept⟩ := each state event begins (all event (by simp))
      obtain ⟨later, rest⟩ := ih (fun other member => all other (by simp [member])) next.1 kept
      refine ⟨(later.1, next.2 ++ later.2), ?_⟩
      rw [runOne, stepped]
      simp only [Option.bind_eq_bind, Option.bind_some, rest]
      rfl

omit [DecidableEq Index] in
theorem run_one_keeps {step : State → Event → Option (State × List Output)}
    (keeps : State → Prop) (fits : Event → Prop) (good : Output → Prop)
    (each : ∀ state event next outputs, keeps state → fits event →
      step state event = some (next, outputs) → keeps next ∧ ∀ output ∈ outputs, good output)
    (events : List Event) (all : ∀ event ∈ events, fits event) {state last : State}
    {outputs : List Output} (begins : keeps state)
    (ran : runOne step state events = some (last, outputs)) :
    keeps last ∧ ∀ output ∈ outputs, good output := by
  induction events generalizing state outputs with
  | nil =>
      cases ran
      exact ⟨begins, by simp⟩
  | cons event events ih =>
      obtain ⟨⟨next, first⟩, stepped, ran⟩ := Option.bind_eq_some_iff.mp ran
      obtain ⟨⟨after, later⟩, rest, ran⟩ := Option.bind_eq_some_iff.mp ran
      cases ran
      obtain ⟨kept, now⟩ := each state event next first begins (all event (by simp)) stepped
      obtain ⟨ends, afterwards⟩ := ih (fun other member => all other (by simp [member])) kept rest
      refine ⟨ends, fun output member => ?_⟩
      rcases List.mem_append.mp member with early | late
      · exact now output early
      · exact afterwards output late

theorem run_component (items : List (Index × Event)) (states after : Index → State)
    (outputs : List (Index × Output)) (ran : run step states items = some (after, outputs))
    (index : Index) :
    runOne step (states index) (own index items) = some (after index, own index outputs) := by
  induction items generalizing states outputs with
  | nil =>
      cases ran
      rfl
  | cons item items ih =>
      obtain ⟨first, stepped, ran⟩ := Option.bind_eq_some_iff.mp ran
      obtain ⟨later, rest, ran⟩ := Option.bind_eq_some_iff.mp ran
      cases ran
      obtain ⟨next, one, rfl⟩ := Option.map_eq_some_iff.mp stepped
      have tail := ih _ _ rest
      obtain ⟨target, event⟩ := item
      by_cases here : target = index
      · subst here
        simp only [Function.update_self] at tail
        rw [own_cons_same, own_append, own_marked_same, runOne, one]
        simp only [Option.bind_eq_bind, Option.bind_some, tail]
        rfl
      · simp only [Function.update_of_ne (Ne.symm here)] at tail
        rw [own_cons_other here, own_append, own_marked_other here]
        exact tail

theorem run_defined (items : List (Index × Event)) (states : Index → State)
    (each : ∀ index, ∃ result, runOne step (states index) (own index items) = some result) :
    ∃ result, run step states items = some result := by
  induction items generalizing states with
  | nil => exact ⟨_, rfl⟩
  | cons item items ih =>
      obtain ⟨target, event⟩ := item
      obtain ⟨result, ran⟩ := each target
      rw [own_cons_same] at ran
      obtain ⟨next, one, ran⟩ := Option.bind_eq_some_iff.mp ran
      obtain ⟨later, rest, _⟩ := Option.bind_eq_some_iff.mp ran
      have others : ∀ index, ∃ result,
          runOne step (Function.update states target next.1 index) (own index items) =
            some result := by
        intro index
        by_cases here : target = index
        · subst here
          rw [Function.update_self]
          exact ⟨later, rest⟩
        · obtain ⟨result, alone⟩ := each index
          rw [own_cons_other here] at alone
          rw [Function.update_of_ne (Ne.symm here)]
          exact ⟨result, alone⟩
      obtain ⟨result, tail⟩ := ih _ others
      refine ⟨(result.1, next.2.map (Prod.mk target) ++ result.2), ?_⟩
      rw [run, stepAt, one]
      simp only [Option.map_some, Option.bind_eq_bind, Option.bind_some, tail]
      rfl

theorem run_alone (items : List (Index × Event)) (states after : Index → State)
    (outputs : List (Index × Output)) (ran : run step states items = some (after, outputs))
    (index : Index) :
    ∃ alone outputsAlone,
      run step states (items.filter fun item => item.1 = index) = some (alone, outputsAlone) ∧
        alone index = after index ∧ own index outputsAlone = own index outputs := by
  have component := run_component step items states after outputs ran index
  have each : ∀ other, ∃ result, runOne step (states other)
      (own other (items.filter fun item => item.1 = index)) = some result := by
    intro other
    by_cases here : other = index
    · rw [here, own_filter_same]
      exact ⟨_, component⟩
    · rw [own_filter_other here]
      exact ⟨_, rfl⟩
  obtain ⟨⟨alone, outputsAlone⟩, ranAlone⟩ := run_defined step _ states each
  have same := run_component step _ states alone outputsAlone ranAlone index
  rw [own_filter_same, component] at same
  obtain ⟨sameState, sameOutputs⟩ := Prod.mk.inj (Option.some.inj same)
  exact ⟨alone, outputsAlone, ranAlone, sameState.symm, sameOutputs.symm⟩

end MiniOverlay.RoutedEvents
