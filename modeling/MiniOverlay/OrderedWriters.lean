import Mathlib.Data.List.Flatten
import Mathlib.Logic.Function.Basic

/-!
# Writers that share one stream

Each writer has a list of blocks to append, and a schedule says which writer
appends its next block. A complete schedule of given lists is one interleaving
of them, and every interleaving has one.
-/

namespace MiniOverlay.OrderedWriters

set_option autoImplicit false

variable {Writer Block Call : Type} [DecidableEq Writer]

/-- The blocks in the order of the schedule, each with its writer. A turn of a
writer that is done writes nothing. -/
def weave : (Writer → List Block) → List Writer → List (Writer × Block)
  | _, [] => []
  | pending, writer :: schedule =>
      match pending writer with
      | [] => weave pending schedule
      | block :: later =>
          (writer, block) :: weave (Function.update pending writer later) schedule

/-- Every writer gets exactly as many turns as it has blocks. -/
def IsSchedule (pending : Writer → List Block) (schedule : List Writer) : Prop :=
  ∀ writer, schedule.count writer = (pending writer).length

def ownBlocks (written : List (Writer × Block)) (writer : Writer) : List Block :=
  (written.filter fun entry => entry.1 = writer).map Prod.snd

theorem weave_cons {pending : Writer → List Block} {writer : Writer} {block : Block}
    {later : List Block} (head : pending writer = block :: later) (schedule : List Writer) :
    weave pending (writer :: schedule) =
      (writer, block) :: weave (Function.update pending writer later) schedule := by
  rw [weave, head]

theorem IsSchedule.head {pending : Writer → List Block} {writer : Writer}
    {schedule : List Writer} (complete : IsSchedule pending (writer :: schedule)) :
    ∃ block later, pending writer = block :: later := by
  have count := complete writer
  rw [List.count_cons_self] at count
  exact List.exists_cons_of_length_pos (by omega)

theorem IsSchedule.tail {pending : Writer → List Block} {writer : Writer} {block : Block}
    {later : List Block} {schedule : List Writer}
    (complete : IsSchedule pending (writer :: schedule))
    (head : pending writer = block :: later) :
    IsSchedule (Function.update pending writer later) schedule := by
  intro other
  have count := complete other
  by_cases same : other = writer
  · subst same
    rw [List.count_cons_self, head, List.length_cons] at count
    rw [Function.update_self]
    omega
  · rw [List.count_cons_of_ne (Ne.symm same)] at count
    rw [Function.update_of_ne same, count]

theorem own_blocks_weave (pending : Writer → List Block) (schedule : List Writer)
    (complete : IsSchedule pending schedule) (writer : Writer) :
    ownBlocks (weave pending schedule) writer = pending writer := by
  induction schedule generalizing pending with
  | nil =>
      have count := complete writer
      exact (List.eq_nil_of_length_eq_zero count.symm).symm
  | cons next schedule ih =>
      obtain ⟨block, later, head⟩ := complete.head
      have tail := ih _ (complete.tail head)
      rw [weave_cons head]
      by_cases same : next = writer
      · subst same
        rw [Function.update_self] at tail
        rw [ownBlocks, List.filter_cons_of_pos (by simp), List.map_cons, head]
        exact congrArg (block :: ·) tail
      · rw [Function.update_of_ne (Ne.symm same)] at tail
        rw [ownBlocks, List.filter_cons_of_neg (by simpa using same)]
        exact tail

theorem weave_replicate (pending : Writer → List Block) (writer : Writer)
    (blocks later : List Block) (held : pending writer = blocks ++ later)
    (schedule : List Writer) :
    weave pending (List.replicate blocks.length writer ++ schedule) =
      blocks.map (writer, ·) ++ weave (Function.update pending writer later) schedule := by
  induction blocks generalizing pending with
  | nil =>
      have unchanged : Function.update pending writer later = pending :=
        Function.update_eq_self_iff.mpr held.symm
      simp [unchanged]
  | cons block blocks ih =>
      have tail := ih (Function.update pending writer (blocks ++ later))
        (Function.update_self ..)
      rw [List.cons_append] at held
      rw [List.length_cons, List.replicate_succ, List.cons_append, weave_cons held, tail,
        Function.update_idem, List.map_cons, List.cons_append]

theorem IsSchedule.drop_replicate (pending : Writer → List Block) (writer : Writer)
    (blocks later : List Block) (schedule : List Writer)
    (complete : IsSchedule pending (List.replicate blocks.length writer ++ schedule))
    (held : pending writer = blocks ++ later) :
    IsSchedule (Function.update pending writer later) schedule := by
  intro other
  have count := complete other
  rw [List.count_append, List.count_replicate] at count
  by_cases same : other = writer
  · subst same
    rw [held, List.length_append] at count
    simp only [beq_self_eq_true, if_true] at count
    rw [Function.update_self]
    omega
  · have different : (writer == other) = false := beq_false_of_ne (Ne.symm same)
    rw [different] at count
    rw [Function.update_of_ne same, ← count]
    simp

section Calls

variable (expand : Call → List Block) (width : Nat) (calls : Writer → List Call)

def expandCalls (writer : Writer) : List Block := (calls writer).flatMap expand

variable {expand width calls}

omit [DecidableEq Writer] in
theorem expand_calls_length (uniform : ∀ call, (expand call).length = width) (writer : Writer) :
    (expandCalls expand calls writer).length = (calls writer).length * width := by
  unfold expandCalls
  induction calls writer with
  | nil => simp
  | cons call later ih =>
      rw [List.flatMap_cons, List.length_append, ih, uniform, List.length_cons, Nat.add_mul,
        Nat.one_mul, Nat.add_comm]

theorem weave_calls (uniform : ∀ call, (expand call).length = width) (order : List Writer)
    (complete : IsSchedule calls order) :
    weave (expandCalls expand calls) (order.flatMap (List.replicate width)) =
      (weave calls order).flatMap fun entry => (expand entry.2).map (entry.1, ·) := by
  induction order generalizing calls with
  | nil => rfl
  | cons writer order ih =>
      obtain ⟨call, later, head⟩ := complete.head
      have held : expandCalls expand calls writer =
          expand call ++ later.flatMap expand := by
        rw [expandCalls, head, List.flatMap_cons]
      have rest : Function.update (expandCalls expand calls) writer (later.flatMap expand) =
          expandCalls expand (Function.update calls writer later) := by
        funext other
        by_cases same : other = writer
        · subst same
          simp [expandCalls]
        · simp [expandCalls, same]
      rw [List.flatMap_cons, ← uniform call, weave_replicate _ _ _ _ held, rest, weave_cons head,
        List.flatMap_cons, uniform call, ih (complete.tail head)]

theorem count_whole_calls (width : Nat) (order : List Writer) (writer : Writer) :
    (order.flatMap (List.replicate width)).count writer = order.count writer * width := by
  induction order with
  | nil => simp
  | cons next order ih =>
      rw [List.flatMap_cons, List.count_append, ih, List.count_replicate, List.count_cons]
      by_cases same : next = writer
      · simp [same, Nat.add_mul, Nat.add_comm]
      · simp [same]

theorem whole_calls_iff (positive : 0 < width)
    (uniform : ∀ call, (expand call).length = width) (order : List Writer) :
    IsSchedule (expandCalls expand calls) (order.flatMap (List.replicate width)) ↔
      IsSchedule calls order := by
  apply forall_congr'
  intro writer
  rw [count_whole_calls, expand_calls_length uniform]
  exact Nat.mul_left_inj (Nat.pos_iff_ne_zero.mp positive)

theorem schedule_length (positive : 0 < width)
    (uniform : ∀ call, (expand call).length = width) (schedule : List Writer)
    (complete : IsSchedule (expandCalls expand calls) schedule) (order : List Writer)
    (ordered : IsSchedule calls order) : schedule.length = order.length * width := by
  have whole := (whole_calls_iff positive uniform order).mpr ordered
  have same : schedule.Perm (order.flatMap (List.replicate width)) := by
    rw [List.perm_iff_count]
    intro writer
    rw [complete writer, whole writer]
  rw [same.length_eq]
  clear same whole ordered
  induction order with
  | nil => simp
  | cons next order ih =>
      rw [List.flatMap_cons, List.length_append, List.length_replicate, ih, List.length_cons,
        Nat.add_mul, Nat.one_mul, Nat.add_comm]

end Calls

end MiniOverlay.OrderedWriters
