import MiniOverlay.PartialRuns
import Mathlib.Data.List.Induction
import Mathlib.Data.Stream.Init

/-!
# Calls that run under one lock

Each call holds the lock from its first turn to its last, and a turn may read
something from outside, such as the clock. What a thread does without the lock
is one step that commutes with every turn. A run of turns then is a run of whole
calls, in the order in which they got the lock.
-/

namespace MiniOverlay.CriticalSections

set_option autoImplicit false

structure LockedCalls (Shared Call Local Outer Input Effect : Type) where
  enter : Call → Local
  turn : Input → Local → Shared → Option (Option Local × Shared × List Effect)
  outside : Outer → Shared → Shared

variable {Thread Shared Call Local Outer Input Effect : Type} [DecidableEq Thread]

/-- The shared state, with the thread that has the lock and what is left of its call. -/
structure Threads (Thread Shared Local Effect : Type) where
  shared : Shared
  holder : Option (Thread × Local)
  effects : List Effect

inductive LockEvent (Thread Call Outer Input : Type) where
  | enters (thread : Thread) (call : Call)
  | turns (thread : Thread) (input : Input)
  | outside (thread : Thread) (outer : Outer)

section Runs

variable (calls : LockedCalls Shared Call Local Outer Input Effect)

/-- A thread that wants the lock waits while another has it. -/
def step (threads : Threads Thread Shared Local Effect) :
    LockEvent Thread Call Outer Input → Option (Threads Thread Shared Local Effect)
  | .enters thread call =>
      match threads.holder with
      | none => some { threads with holder := some (thread, calls.enter call) }
      | some _ => none
  | .turns thread input =>
      match threads.holder with
      | none => none
      | some (owner, left) =>
          if owner = thread then
            (calls.turn input left threads.shared).map fun result =>
              ⟨result.2.1, result.1.map (Prod.mk thread), threads.effects ++ result.2.2⟩
          else none
  | .outside thread outer =>
      if threads.holder.map Prod.fst = some thread then none
      else some { threads with shared := calls.outside outer threads.shared }

inductive Finishes : Stream' Input → Local → Shared → Shared → List Effect → Prop
  | last {readings : Stream' Input} {left : Local} {before after : Shared}
      {effects : List Effect}
      (turned : calls.turn readings.head left before = some (none, after, effects)) :
      Finishes readings left before after effects
  | more {readings : Stream' Input} {left next : Local} {before middle after : Shared}
      {first later : List Effect}
      (turned : calls.turn readings.head left before = some (some next, middle, first))
      (rest : Finishes readings.tail next middle after later) :
      Finishes readings left before after (first ++ later)

inductive Reaches : List Input → Local → Shared → Local → Shared → List Effect → Prop
  | here (left : Local) (shared : Shared) : Reaches [] left shared left shared []
  | more {input : Input} {inputs : List Input} {left next last : Local}
      {before middle after : Shared} {first later : List Effect}
      (turned : calls.turn input left before = some (some next, middle, first))
      (rest : Reaches inputs next middle last after later) :
      Reaches (input :: inputs) left before last after (first ++ later)

variable {calls}

theorem reaches_turn {inputs : List Input} {input : Input} {left last next : Local}
    {before middle after : Shared} {first later : List Effect}
    (reached : Reaches calls inputs left before last middle first)
    (turned : calls.turn input last middle = some (some next, after, later)) :
    Reaches calls (inputs ++ [input]) left before next after (first ++ later) := by
  induction reached with
  | here left shared =>
      have one := Reaches.more turned (Reaches.here next after)
      rwa [List.append_nil] at one
  | more earlier _ ih =>
      rw [List.append_assoc]
      exact Reaches.more earlier (ih turned)

theorem reaches_finishes {inputs : List Input} {readings : Stream' Input} {left last : Local}
    {before middle after : Shared} {first later : List Effect}
    (reached : Reaches calls inputs left before last middle first)
    (rest : Finishes calls readings last middle after later) :
    Finishes calls (inputs ++ₛ readings) left before after (first ++ later) := by
  induction reached with
  | here left shared => exact rest
  | more earlier _ ih =>
      rw [List.append_assoc]
      exact Finishes.more earlier (ih rest)

theorem finishes_rest {inputs : List Input} {readings : Stream' Input} {left last : Local}
    {before middle after : Shared} {first whole : List Effect}
    (reached : Reaches calls inputs left before last middle first)
    (finishes : Finishes calls (inputs ++ₛ readings) left before after whole) :
    ∃ later, Finishes calls readings last middle after later ∧ whole = first ++ later := by
  induction reached generalizing whole with
  | here left shared => exact ⟨whole, finishes, rfl⟩
  | more earlier _ ih =>
      cases finishes with
      | last turned => cases earlier.symm.trans turned
      | more turned rest =>
          cases earlier.symm.trans turned
          obtain ⟨later, finished, rfl⟩ := ih rest
          exact ⟨later, finished, (List.append_assoc ..).symm⟩

theorem finishes_none {readings : Stream' Input} {left : Local} {before : Shared}
    (undefined : calls.turn readings.head left before = none) (after : Shared)
    (effects : List Effect) : ¬Finishes calls readings left before after effects := by
  intro finishes
  cases finishes with
  | last turned => cases undefined.symm.trans turned
  | more turned _ => cases undefined.symm.trans turned

theorem finishes_last_iff {readings : Stream' Input} {left : Local} {before middle : Shared}
    {first : List Effect}
    (turned : calls.turn readings.head left before = some (none, middle, first)) (after : Shared)
    (effects : List Effect) : Finishes calls readings left before after effects ↔
      middle = after ∧ first = effects := by
  constructor
  · intro finishes
    cases finishes with
    | last other =>
        cases turned.symm.trans other
        exact ⟨rfl, rfl⟩
    | more other _ => cases turned.symm.trans other
  · rintro ⟨rfl, rfl⟩
    exact Finishes.last turned

theorem finishes_more_iff {readings : Stream' Input} {left next : Local} {before middle : Shared}
    {first : List Effect}
    (turned : calls.turn readings.head left before = some (some next, middle, first))
    (after : Shared) (effects : List Effect) :
    Finishes calls readings left before after effects ↔
      ∃ later, Finishes calls readings.tail next middle after later ∧ first ++ later = effects := by
  constructor
  · intro finishes
    cases finishes with
    | last other => cases turned.symm.trans other
    | more other rest =>
        cases turned.symm.trans other
        exact ⟨_, rest, rfl⟩
  · rintro ⟨later, rest, rfl⟩
    exact Finishes.more turned rest

theorem reaches_outside
    (commutes : ∀ outer input left before next after effects,
      calls.turn input left before = some (next, after, effects) →
        calls.turn input left (calls.outside outer before) =
          some (next, calls.outside outer after, effects))
    (outer : Outer) {inputs : List Input} {left last : Local} {before after : Shared}
    {effects : List Effect} (reached : Reaches calls inputs left before last after effects) :
    Reaches calls inputs left (calls.outside outer before) last (calls.outside outer after)
      effects := by
  induction reached with
  | here left shared => exact Reaches.here ..
  | more earlier _ ih => exact Reaches.more (commutes _ _ _ _ _ _ _ earlier) ih

end Runs

/-- A call with all its turns together, or a step without the lock. -/
inductive SerialEvent (Thread Call Outer Input : Type) where
  | call (thread : Thread) (call : Call) (readings : Stream' Input)
  | outside (thread : Thread) (outer : Outer)

def LockEvent.entered? : LockEvent Thread Call Outer Input → Option (Thread × Call)
  | .enters thread call => some (thread, call)
  | _ => none

def LockEvent.outside? : LockEvent Thread Call Outer Input → Option (Thread × Outer)
  | .outside thread outer => some (thread, outer)
  | _ => none

def SerialEvent.entered? : SerialEvent Thread Call Outer Input → Option (Thread × Call)
  | .call thread asked _ => some (thread, asked)
  | _ => none

def SerialEvent.outside? : SerialEvent Thread Call Outer Input → Option (Thread × Outer)
  | .outside thread outer => some (thread, outer)
  | _ => none

/-- The calls in the order in which they got the lock. -/
def entered (events : List (LockEvent Thread Call Outer Input)) : List (Thread × Call) :=
  events.filterMap LockEvent.entered?

def outsides (events : List (LockEvent Thread Call Outer Input)) : List (Thread × Outer) :=
  events.filterMap LockEvent.outside?

theorem filter_map_snoc {Item Image : Type} (image : Item → Option Image) (items : List Item)
    (item : Item) : (items ++ [item]).filterMap image =
      items.filterMap image ++ (image item).toList := by
  rw [List.filterMap_append]
  cases same : image item with
  | none => simp [same]
  | some value => simp [same]

section Serial

variable (calls : LockedCalls Shared Call Local Outer Input Effect)
  (whole : Call → Stream' Input → Shared → Option (Shared × List Effect))

def serialStep (state : Shared × List Effect) :
    SerialEvent Thread Call Outer Input → Option (Shared × List Effect)
  | .call _ call readings =>
      (whole call readings state.1).map fun result => (result.1, state.2 ++ result.2)
  | .outside _ outer => some (calls.outside outer state.1, state.2)

/-- A call as a whole is all its turns, and what needs no lock commutes with a turn. -/
structure Atomic : Prop where
  whole_iff : ∀ readings call before after effects,
    Finishes calls readings (calls.enter call) before after effects ↔
      whole call readings before = some (after, effects)
  commutes : ∀ outer input left before next after effects,
    calls.turn input left before = some (next, after, effects) →
      calls.turn input left (calls.outside outer before) =
        some (next, calls.outside outer after, effects)

/-- The threads after the calls that are over, with the turns of the one that is not. -/
inductive Stands (threads : Threads Thread Shared Local Effect)
    (asked done : List (Thread × Call)) (shared : Shared) (effects : List Effect) : Prop
  | free (idle : threads.holder = none) (same : threads.shared = shared)
      (put : threads.effects = effects) (all : asked = done)
  | inside (thread : Thread) (call : Call) (left : Local) (inputs : List Input)
      (first : List Effect) (holds : threads.holder = some (thread, left))
      (reached : Reaches calls inputs (calls.enter call) shared left threads.shared first)
      (put : threads.effects = effects ++ first) (all : asked = done ++ [(thread, call)])

def Serialises (start : Shared) (events : List (LockEvent Thread Call Outer Input))
    (threads : Threads Thread Shared Local Effect) : Prop :=
  ∃ (serial : List (SerialEvent Thread Call Outer Input)) (shared : Shared)
    (effects : List Effect),
    serial.foldlM (serialStep calls whole) (start, []) = some (shared, effects) ∧
      serial.filterMap SerialEvent.outside? = outsides events ∧
      Stands calls threads (entered events) (serial.filterMap SerialEvent.entered?) shared effects

variable {calls whole} (atomic : Atomic calls whole)

omit [DecidableEq Thread] in
theorem serial_snoc {start middle last : Shared × List Effect}
    {serial : List (SerialEvent Thread Call Outer Input)}
    {event : SerialEvent Thread Call Outer Input}
    (run : serial.foldlM (serialStep calls whole) start = some middle)
    (stepped : serialStep calls whole middle event = some last) :
    (serial ++ [event]).foldlM (serialStep calls whole) start = some last := by
  apply PartialRuns.fold_append _ run
  rw [List.foldlM_cons, stepped]
  rfl

include atomic

theorem serialises_step {start : Shared} {events : List (LockEvent Thread Call Outer Input)}
    {threads next : Threads Thread Shared Local Effect}
    {event : LockEvent Thread Call Outer Input}
    (before : Serialises calls whole start events threads)
    (stepped : step calls threads event = some next) :
    Serialises calls whole start (events ++ [event]) next := by
  obtain ⟨serial, shared, effects, run, outer, stands⟩ := before
  unfold Serialises
  rw [entered, outsides, filter_map_snoc, filter_map_snoc]
  cases event with
  | enters thread call =>
      simp only [step] at stepped
      split at stepped
      case h_1 idle =>
        cases stepped
        cases stands with
        | free _ same put all =>
            refine ⟨serial, shared, effects, run, outer.trans (List.append_nil _).symm,
              .inside thread call _ [] [] rfl ?_ ?_ ?_⟩
            · rw [← same]
              exact Reaches.here ..
            · exact put.trans (List.append_nil effects).symm
            · exact congrArg (· ++ [(thread, call)]) all
        | inside thread call left inputs first holds => cases idle.symm.trans holds
      case h_2 => cases stepped
  | turns thread input =>
      simp only [step] at stepped
      split at stepped
      case h_1 => cases stepped
      case h_2 owner left held =>
        split at stepped
        case isFalse => cases stepped
        case isTrue same =>
          subst same
          obtain ⟨⟨further, after, later⟩, turned, rfl⟩ := Option.map_eq_some_iff.mp stepped
          cases stands with
          | free idle => cases idle.symm.trans held
          | inside thread call other inputs first holds reached put all =>
              cases held.symm.trans holds
              cases further with
              | some more =>
                  refine ⟨serial, shared, effects, run, outer.trans (List.append_nil _).symm,
                    .inside owner call more (inputs ++ [input]) (first ++ later) rfl
                      (reaches_turn reached turned) ?_ ((List.append_nil _).trans all)⟩
                  rw [put, List.append_assoc]
              | none =>
                  have finished : Finishes calls (inputs ++ₛ Stream'.const input)
                      (calls.enter call) shared after (first ++ later) :=
                    reaches_finishes reached (Finishes.last turned)
                  have called := (atomic.whole_iff ..).mp finished
                  refine ⟨serial ++ [.call owner call (inputs ++ₛ Stream'.const input)], after,
                    effects ++ (first ++ later), serial_snoc run ?_, ?_, .free rfl rfl ?_ ?_⟩
                  · rw [serialStep, called]
                    rfl
                  · rw [filter_map_snoc]
                    exact congrArg (· ++ []) outer
                  · rw [put, List.append_assoc]
                  · rw [filter_map_snoc]
                    exact (List.append_nil _).trans all
  | outside thread request =>
      simp only [step] at stepped
      split at stepped
      case isTrue => cases stepped
      case isFalse =>
        cases stepped
        refine ⟨serial ++ [.outside thread request], calls.outside request shared, effects,
          serial_snoc run rfl, ?_, ?_⟩
        · rw [filter_map_snoc]
          exact congrArg (· ++ [(thread, request)]) outer
        · rw [filter_map_snoc]
          cases stands with
          | free idle same put all =>
              exact .free idle (congrArg _ same) put (congrArg (· ++ []) all)
          | inside owner call left inputs first holds reached put all =>
              refine .inside owner call left inputs first holds
                (reaches_outside atomic.commutes request reached) put ?_
              refine (List.append_nil _).trans (all.trans ?_)
              exact congrArg (· ++ [(owner, call)]) (List.append_nil _).symm

theorem run_serialises {start : Shared} {events : List (LockEvent Thread Call Outer Input)}
    {last : Threads Thread Shared Local Effect}
    (run : events.foldlM (step calls) ⟨start, none, []⟩ = some last) :
    Serialises calls whole start events last := by
  induction events using List.reverseRecOn generalizing last with
  | nil =>
      cases run
      exact ⟨[], start, [], rfl, rfl, .free rfl rfl rfl rfl⟩
  | append_singleton events event ih =>
      rw [List.foldlM_append] at run
      obtain ⟨middle, front, back⟩ := Option.bind_eq_some_iff.mp run
      rw [List.foldlM_cons] at back
      obtain ⟨next, stepped, rest⟩ := Option.bind_eq_some_iff.mp back
      cases rest
      exact serialises_step atomic (ih front) stepped

omit atomic in
theorem finishes_run (thread : Thread) {readings : Stream' Input} {left : Local}
    {before after : Shared} {later : List Effect}
    (finishes : Finishes calls readings left before after later) (effects : List Effect) :
    ∃ turns, ((readings.take turns).map (LockEvent.turns thread)).foldlM (step calls)
      ⟨before, some (thread, left), effects⟩ = some ⟨after, none, effects ++ later⟩ := by
  induction finishes generalizing effects with
  | last turned =>
      refine ⟨1, ?_⟩
      rw [Stream'.take_succ, List.map_cons, List.foldlM_cons, step]
      simp only [if_pos]
      rw [turned]
      rfl
  | more turned _ ih =>
      obtain ⟨turns, rest⟩ := ih (effects ++ _)
      refine ⟨turns + 1, ?_⟩
      rw [Stream'.take_succ, List.map_cons, List.foldlM_cons, step]
      simp only [if_pos]
      rw [turned, ← List.append_assoc]
      exact rest

theorem inside_finishes {threads : Threads Thread Shared Local Effect} {thread : Thread}
    {call : Call} {left : Local} {inputs : List Input} {first : List Effect} {shared : Shared}
    (holds : threads.holder = some (thread, left))
    (reached : Reaches calls inputs (calls.enter call) shared left threads.shared first)
    (readings : Stream' Input) (defined : (whole call (inputs ++ₛ readings) shared).isSome) :
    ∃ turns after later,
      ((readings.take turns).map (LockEvent.turns thread)).foldlM (step calls) threads =
        some ⟨after, none, threads.effects ++ later⟩ ∧
      whole call (inputs ++ₛ readings) shared = some (after, first ++ later) := by
  obtain ⟨⟨after, put⟩, called⟩ := Option.isSome_iff_exists.mp defined
  have finishes := (atomic.whole_iff ..).mpr called
  obtain ⟨later, rest, rfl⟩ := finishes_rest reached finishes
  obtain ⟨turns, run⟩ := finishes_run thread rest threads.effects
  rw [← holds] at run
  exact ⟨turns, after, later, run, called⟩

end Serial

end MiniOverlay.CriticalSections
