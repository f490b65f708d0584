import Mathlib.Logic.Function.Iterate

/-!
# One item that is passed from node to node

A node that holds the item names the next node and sends the item there when the two
are linked; at the target the item is delivered. Where it is after a number of steps
follows from the nodes that the names lead through.
-/

namespace MiniOverlay.RelayChain

set_option autoImplicit false

inductive Place (Node : Type) where
  | waiting (node : Node)
  | crossing (sender receiver : Node)
  | arrived (node : Node)
  | delivered
  | lost
  deriving DecidableEq

def Place.node? {Node : Type} : Place Node → Option Node
  | .waiting node => some node
  | .crossing _ receiver => some receiver
  | .arrived node => some node
  | .delivered => none
  | .lost => none

variable {Node : Type} (next : Node → Node) (Linked : Node → Node → Prop) (start target : Node)

inductive Advances : Place Node → Place Node → Prop where
  | sends {node receiver : Node} (named : next node = receiver) (linked : Linked node receiver) :
      Advances (.waiting node) (.crossing node receiver)
  | drops {node : Node} (apart : ¬ Linked node (next node)) : Advances (.waiting node) .lost
  | receives {sender receiver : Node} : Advances (.crossing sender receiver) (.arrived receiver)
  | delivers {node : Node} (meets : node = target) : Advances (.arrived node) .delivered
  | forwards {node : Node} (misses : node ≠ target) : Advances (.arrived node) (.waiting node)

def hop (hops : Nat) : Node := next^[hops] start

theorem hop_succ (hops : Nat) : hop next start (hops + 1) = next (hop next start hops) :=
  Function.iterate_succ_apply' next hops start

structure Way (hops : Nat) : Prop where
  linked : ∀ i < hops, Linked (hop next start i) (hop next start (i + 1))
  misses : ∀ i ≤ hops, hop next start i ≠ target

/-- The first hops are linked and are the first to end at the target. -/
structure Reaches (hops : Nat) : Prop where
  meets : hop next start hops = target
  linked : ∀ i < hops, Linked (hop next start i) (hop next start (i + 1))
  misses : ∀ i < hops, hop next start i ≠ target

structure Leaves (hops : Nat) : Prop where
  way : Way next Linked start target hops
  apart : ¬ Linked (hop next start hops) (hop next start (hops + 1))

/-- The names lead along links for ever and not to the target. -/
def Circles : Prop :=
  ∀ i, Linked (hop next start i) (hop next start (i + 1)) ∧ hop next start i ≠ target

/-- The places of the item, with the number of steps that lead there. -/
inductive Trail : Nat → Place Node → Prop where
  | waiting {hops : Nat} (way : Way next Linked start target hops) :
      Trail (3 * hops) (.waiting (hop next start hops))
  | crossing {hops : Nat} (way : Way next Linked start target hops)
      (linked : Linked (hop next start hops) (hop next start (hops + 1))) :
      Trail (3 * hops + 1) (.crossing (hop next start hops) (hop next start (hops + 1)))
  | arrived {hops : Nat} (way : Way next Linked start target hops)
      (linked : Linked (hop next start hops) (hop next start (hops + 1))) :
      Trail (3 * hops + 2) (.arrived (hop next start (hops + 1)))
  | delivered {hops : Nat} (way : Way next Linked start target hops)
      (linked : Linked (hop next start hops) (hop next start (hops + 1)))
      (meets : hop next start (hops + 1) = target) : Trail (3 * hops + 3) .delivered
  | lost {hops : Nat} (leaves : Leaves next Linked start target hops) :
      Trail (3 * hops + 1) .lost

variable {next Linked start target}

theorem way_succ {hops : Nat} (way : Way next Linked start target hops)
    (linked : Linked (hop next start hops) (hop next start (hops + 1)))
    (misses : hop next start (hops + 1) ≠ target) :
    Way next Linked start target (hops + 1) := by
  constructor
  · intro i inside
    rcases Nat.lt_succ_iff_lt_or_eq.mp inside with before | rfl
    · exact way.linked i before
    · exact linked
  · intro i inside
    rcases Nat.le_succ_iff.mp inside with before | rfl
    · exact way.misses i before
    · exact misses

theorem trail_start (apart : start ≠ target) :
    Trail next Linked start target 0 (.waiting start) := by
  have way : Way next Linked start target 0 := by
    constructor
    · intro i inside
      exact absurd inside (Nat.not_lt_zero i)
    · intro i inside
      rw [Nat.le_zero.mp inside]
      exact apart
  have trail := Trail.waiting way
  exact trail

theorem trail_advances {steps : Nat} {place after : Place Node}
    (trail : Trail next Linked start target steps place)
    (advances : Advances next Linked target place after) :
    Trail next Linked start target (steps + 1) after := by
  cases trail with
  | waiting way =>
      cases advances with
      | sends named linked =>
          rw [← hop_succ next start] at named
          subst named
          exact Trail.crossing way linked
      | drops apart =>
          rw [← hop_succ next start] at apart
          exact Trail.lost ⟨way, apart⟩
  | crossing way linked =>
      cases advances with
      | receives => exact Trail.arrived way linked
  | arrived way linked =>
      cases advances with
      | delivers meets => exact Trail.delivered way linked meets
      | forwards misses => exact Trail.waiting (way_succ way linked misses)
  | delivered way linked meets => cases advances
  | lost leaves => cases advances

theorem way_before_reach {hops reached : Nat} (way : Way next Linked start target hops)
    (reaches : Reaches next Linked start target reached) : hops < reached := by
  by_contra past
  exact way.misses reached (Nat.not_lt.mp past) reaches.meets

theorem trail_reaches {steps reached : Nat} {place : Place Node}
    (trail : Trail next Linked start target steps place)
    (reaches : Reaches next Linked start target reached) :
    steps ≤ 3 * reached ∧ place ≠ .lost := by
  cases trail with
  | waiting way =>
      have before := way_before_reach way reaches
      exact ⟨by omega, by simp⟩
  | crossing way linked =>
      have before := way_before_reach way reaches
      exact ⟨by omega, by simp⟩
  | arrived way linked =>
      have before := way_before_reach way reaches
      exact ⟨by omega, by simp⟩
  | delivered way linked meets =>
      have before := way_before_reach way reaches
      exact ⟨by omega, by simp⟩
  | lost leaves =>
      have before := way_before_reach leaves.way reaches
      exact absurd (reaches.linked _ before) leaves.apart

theorem way_before_leave {hops left : Nat} (way : Way next Linked start target hops)
    (leaves : Leaves next Linked start target left) : hops ≤ left := by
  by_contra past
  exact leaves.apart (way.linked left (Nat.not_le.mp past))

theorem trail_leaves {steps left : Nat} {place : Place Node}
    (trail : Trail next Linked start target steps place)
    (leaves : Leaves next Linked start target left) : place ≠ .delivered := by
  rintro rfl
  cases trail with
  | delivered way linked meets =>
      rcases Nat.lt_or_eq_of_le (way_before_leave way leaves) with before | rfl
      · exact leaves.way.misses _ before meets
      · exact leaves.apart linked

theorem trail_circles {steps : Nat} {place : Place Node}
    (trail : Trail next Linked start target steps place)
    (circles : Circles next Linked start target) : place ≠ .delivered := by
  rintro rfl
  cases trail with
  | delivered way linked meets => exact (circles _).2 meets

end MiniOverlay.RelayChain
