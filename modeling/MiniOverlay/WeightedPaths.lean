import Mathlib.Data.List.Chain
import Mathlib.Data.List.Nodup
import Mathlib.Data.List.Perm.Subperm
import Mathlib.Data.Nat.Find

/-!
# Least-cost paths

Paths without repeated nodes under any relation between nodes, with the sum of
the costs of their links, and paths of least cost.
-/

namespace MiniOverlay.WeightedPaths

set_option autoImplicit false

variable {Node : Type}

structure IsPath (linked : Node → Node → Prop) (source target : Node) (path : List Node) :
    Prop where
  chain : path.IsChain linked
  nodup : path.Nodup
  head : path.head? = some source
  last : path.getLast? = some target

def pathCost (cost : Node → Node → Nat) : List Node → Nat
  | [] => 0
  | [_] => 0
  | first :: second :: rest => cost first second + pathCost cost (second :: rest)

structure IsLeastPath (linked : Node → Node → Prop) (cost : Node → Node → Nat)
    (source target : Node) (path : List Node) : Prop where
  isPath : IsPath linked source target path
  least : ∀ other, IsPath linked source target other → pathCost cost path ≤ pathCost cost other

variable {linked : Node → Node → Prop} {cost : Node → Node → Nat} {source target : Node}

theorem direct_path (link : linked source target) (apart : source ≠ target) :
    IsPath linked source target [source, target] :=
  ⟨List.isChain_pair.mpr link, by simpa using apart, rfl, rfl⟩

theorem chain_cost_le {bound : Nat}
    (each : ∀ left right, linked left right → cost left right ≤ bound)
    (path : List Node) (chain : path.IsChain linked) :
    pathCost cost path ≤ bound * (path.length - 1) := by
  induction path with
  | nil => exact Nat.zero_le _
  | cons first rest ih =>
      cases rest with
      | nil => exact Nat.zero_le _
      | cons second rest =>
          obtain ⟨link, chain⟩ := List.isChain_cons_cons.mp chain
          have head := each first second link
          have tail := ih chain
          simp only [pathCost, List.length_cons, Nat.add_sub_cancel] at tail ⊢
          rw [Nat.mul_add, Nat.mul_one, Nat.add_comm]
          exact Nat.add_le_add tail head

theorem chain_mem {nodes : List Node}
    (ends : ∀ left right, linked left right → left ∈ nodes ∧ right ∈ nodes)
    (first second : Node) (rest : List Node) (chain : (first :: second :: rest).IsChain linked) :
    ∀ node ∈ first :: second :: rest, node ∈ nodes := by
  induction rest generalizing first second with
  | nil =>
      have inside := ends first second (List.isChain_pair.mp chain)
      simp [inside.1, inside.2]
  | cons third rest ih =>
      obtain ⟨link, chain⟩ := List.isChain_cons_cons.mp chain
      intro node member
      rcases List.mem_cons.mp member with rfl | later
      · exact (ends node second link).1
      · exact ih second third chain node later

theorem path_cost_le {bound : Nat} {nodes path : List Node}
    (each : ∀ left right, linked left right → cost left right ≤ bound)
    (ends : ∀ left right, linked left right → left ∈ nodes ∧ right ∈ nodes)
    (isPath : IsPath linked source target path) : pathCost cost path ≤ bound * nodes.length := by
  have links := chain_cost_le each path isPath.chain
  rcases path with _ | ⟨first, _ | ⟨second, rest⟩⟩
  · exact Nat.zero_le _
  · exact Nat.zero_le _
  · have inside := chain_mem ends first second rest isPath.chain
    have counted := (List.Nodup.subperm isPath.nodup inside).length_le
    exact links.trans (Nat.mul_le_mul_left bound (by omega))

theorem exists_least_path (cost : Node → Node → Nat) {path : List Node}
    (isPath : IsPath linked source target path) :
    ∃ least, IsLeastPath linked cost source target least := by
  classical
  have costs : ∃ total, ∃ other, IsPath linked source target other ∧ pathCost cost other = total :=
    ⟨_, path, isPath, rfl⟩
  obtain ⟨least, leastPath, total⟩ := Nat.find_spec costs
  refine ⟨least, leastPath, ?_⟩
  intro other otherPath
  rw [total]
  exact Nat.find_min' costs ⟨other, otherPath, rfl⟩

theorem target_mem {path : List Node} (isPath : IsPath linked source target path) :
    target ∈ path :=
  List.mem_of_getLast? isPath.last

theorem cheapest_link_least (link : linked source target) (apart : source ≠ target)
    (cheapest : ∀ left right, linked left right → cost source target ≤ cost left right) :
    IsLeastPath linked cost source target [source, target] := by
  refine ⟨direct_path link apart, ?_⟩
  intro other isPath
  rcases other with _ | ⟨first, _ | ⟨second, rest⟩⟩
  · cases isPath.head
  · cases isPath.head
    cases isPath.last
    exact absurd rfl apart
  · have head := cheapest first second (List.isChain_cons_cons.mp isPath.chain).1
    exact head.trans (Nat.le_add_right _ _)

theorem path_through_target {rest : List Node}
    (isPath : IsPath linked source target (source :: target :: rest)) : rest = [] := by
  rcases List.eq_nil_or_concat' rest with rfl | ⟨front, last, rfl⟩
  · rfl
  · have ends := isPath.last
    have nodup := isPath.nodup
    rw [← List.cons_append, ← List.cons_append, List.getLast?_concat] at ends
    cases ends
    simp at nodup

theorem target_first_hop_iff :
    (∃ rest, IsLeastPath linked cost source target (source :: target :: rest)) ↔
      IsLeastPath linked cost source target [source, target] := by
  constructor
  · rintro ⟨rest, least⟩
    rwa [path_through_target least.isPath] at least
  · intro least
    exact ⟨[], least⟩

end MiniOverlay.WeightedPaths
