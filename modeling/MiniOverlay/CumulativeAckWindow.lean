import Mathlib.Data.Set.Insert
import Mathlib.Logic.Relation

/-!
# Cumulative acknowledgement over a lossy network

Items are numbered in the order in which they are queued. The sender sends them
in this order and may send any unacknowledged one again; the receiver takes only
the next one it expects and acknowledges how many it has taken. Items and
acknowledgements in flight are sets that never shrink, so a message may be
lost, duplicated or overtaken.
-/

namespace MiniOverlay.CumulativeAckWindow

set_option autoImplicit false

structure Window where
  queued : Nat
  sent : Nat
  acked : Nat
  received : Nat
  data : Set Nat
  acks : Set Nat

inductive Step : Window → Window → Prop where
  | queue (window : Window) : Step window { window with queued := window.queued + 1 }
  | send (window : Window) (unsent : window.sent < window.queued) :
      Step window { window with
        sent := window.sent + 1
        data := insert window.sent window.data }
  | resend (window : Window) (index : Nat) (below : index < window.sent) :
      Step window { window with data := insert index window.data }
  | accept (window : Window) (arrived : window.received ∈ window.data) :
      Step window { window with
        received := window.received + 1
        acks := insert (window.received + 1) window.acks }
  | repeatAck (window : Window) :
      Step window { window with acks := insert window.received window.acks }
  | acknowledge (window : Window) (count : Nat) (arrived : count ∈ window.acks)
      (newer : window.acked ≤ count) : Step window { window with acked := count }

abbrev Steps : Window → Window → Prop := Relation.ReflTransGen Step

def Window.initial : Window := ⟨0, 0, 0, 0, ∅, ∅⟩

/-- What was acknowledged was received, what was received was sent, and nothing
in flight is ahead of its sender. -/
structure Ordered (window : Window) : Prop where
  acked : window.acked ≤ window.received
  received : window.received ≤ window.sent
  sent : window.sent ≤ window.queued
  data : ∀ index ∈ window.data, index < window.sent
  acks : ∀ count ∈ window.acks, count ≤ window.received

theorem ordered_initial : Ordered Window.initial := by
  constructor <;> simp [Window.initial]

theorem ordered_step {window next : Window} (ordered : Ordered window) (step : Step window next) :
    Ordered next := by
  have acked := ordered.acked
  have received := ordered.received
  have sent := ordered.sent
  cases step with
  | queue => exact ⟨acked, received, Nat.le_succ_of_le sent, ordered.data, ordered.acks⟩
  | send unsent =>
      refine ⟨acked, Nat.le_succ_of_le received, unsent, ?_, ordered.acks⟩
      intro index member
      rcases Set.mem_insert_iff.mp member with rfl | old
      · exact Nat.lt_succ_self _
      · exact Nat.lt_succ_of_lt (ordered.data index old)
  | resend index below =>
      refine ⟨acked, received, sent, ?_, ordered.acks⟩
      intro other member
      rcases Set.mem_insert_iff.mp member with rfl | old
      · exact below
      · exact ordered.data other old
  | accept arrived =>
      refine ⟨Nat.le_succ_of_le acked, ordered.data _ arrived, sent, ordered.data, ?_⟩
      intro count member
      rcases Set.mem_insert_iff.mp member with rfl | old
      · exact Nat.le_refl _
      · exact Nat.le_succ_of_le (ordered.acks count old)
  | repeatAck =>
      refine ⟨acked, received, sent, ordered.data, ?_⟩
      intro count member
      rcases Set.mem_insert_iff.mp member with rfl | old
      · exact Nat.le_refl _
      · exact ordered.acks count old
  | acknowledge count arrived newer =>
      exact ⟨ordered.acks count arrived, received, sent, ordered.data, ordered.acks⟩

theorem ordered_steps {window next : Window} (ordered : Ordered window)
    (steps : Steps window next) : Ordered next := by
  induction steps with
  | refl => exact ordered
  | tail _ step ih => exact ordered_step ih step

def span (start count : Nat) : Set Nat := fun index => start ≤ index ∧ index < start + count

theorem mem_span {start count index : Nat} :
    index ∈ span start count ↔ start ≤ index ∧ index < start + count := Iff.rfl

theorem union_span_zero (data : Set Nat) (start : Nat) : data ∪ span start 0 = data := by
  apply Set.union_eq_self_of_subset_right
  intro index member
  have bounds := mem_span.mp member
  omega

theorem insert_span (data : Set Nat) (start count : Nat) :
    insert (start + count) (data ∪ span start count) = data ∪ span start (count + 1) := by
  ext index
  simp only [Set.mem_insert_iff, Set.mem_union, mem_span]
  constructor
  · rintro (rfl | old | new)
    · exact Or.inr (by omega)
    · exact Or.inl old
    · exact Or.inr (by omega)
  · rintro (old | new)
    · exact Or.inr (Or.inl old)
    · by_cases last : index = start + count
      · exact Or.inl last
      · exact Or.inr (Or.inr (by omega))

theorem send_steps (window : Window) (count : Nat)
    (available : window.sent + count ≤ window.queued) :
    Steps window { window with
      sent := window.sent + count
      data := window.data ∪ span window.sent count } := by
  induction count with
  | zero =>
      rw [union_span_zero]
      exact Relation.ReflTransGen.refl
  | succ count ih =>
      apply Relation.ReflTransGen.tail (ih (by omega))
      rw [← insert_span]
      exact Step.send { window with
        sent := window.sent + count
        data := window.data ∪ span window.sent count } available

theorem resend_steps (window : Window) (start count : Nat)
    (below : start + count ≤ window.sent) :
    Steps window { window with data := window.data ∪ span start count } := by
  induction count with
  | zero =>
      rw [union_span_zero]
  | succ count ih =>
      apply Relation.ReflTransGen.tail (ih (by omega))
      rw [← insert_span]
      exact Step.resend { window with data := window.data ∪ span start count } (start + count)
        below

end MiniOverlay.CumulativeAckWindow
