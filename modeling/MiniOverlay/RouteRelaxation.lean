import MiniOverlay.DvtableCells
import MiniOverlay.RouteUpdate

/-!
# The sum behind a route

For every entry of an update `pkthandler` adds the link cost and the entry's
cost as `unsigned int`, stores the sum in an `int` and compares it with the
cost that it reads for the node itself, an `int` as well.
-/

namespace MiniOverlay

set_option autoImplicit false

/-- What `pkthandler` reads for the node itself after it has set the sender's row. -/
def readDvCost (lines : List TopologyLine) (myNodeID srcNodeID : Int32) (node : MnpNode)
    (routingUpdate : RouteupdateEntry) : UInt32 :=
  let nodeID := routingUpdate.nodeID.toInt32
  dvtableGetcost lines myNodeID
    (dvtableSetcost srcNodeID nodeID routingUpdate.cost node.dvTable).2 myNodeID nodeID

/-- The cost that `pkthandler` stores in the node's own row for an entry; `none`
when it stores none. -/
def relaxedCost (lines : List TopologyLine) (myNodeID srcNodeID : Int32) (node : MnpNode)
    (routingUpdate : RouteupdateEntry) : Option UInt32 :=
  let dvCost := (readDvCost lines myNodeID srcNodeID node routingUpdate).toInt32
  let nbrCost := (nbrcosttableGetcost node.nbrCostTable srcNodeID + routingUpdate.cost).toInt32
  if dvCost > nbrCost then some nbrCost.toUInt32 else none

def exactSum (node : MnpNode) (srcNodeID : Int32) (routingUpdate : RouteupdateEntry) : Nat :=
  (nbrcosttableGetcost node.nbrCostTable srcNodeID).toNat + routingUpdate.cost.toNat

/-- The tables after an entry: the sender's row is set and, when a cost is
relaxed, the own row and the next hop. -/
def MnpNode.afterEntry (myNodeID srcNodeID fresh : Int32) (node : MnpNode)
    (routingUpdate : RouteupdateEntry) : Option UInt32 → MnpNode
  | some cost =>
      let nodeID := routingUpdate.nodeID.toInt32
      { node with
        dvTable := (dvtableSetcost myNodeID nodeID cost
          (dvtableSetcost srcNodeID nodeID routingUpdate.cost node.dvTable).2).2
        routingTable := routingtableSetnextnode fresh node.routingTable nodeID srcNodeID }
  | none =>
      { node with
        dvTable := (dvtableSetcost srcNodeID routingUpdate.nodeID.toInt32 routingUpdate.cost
          node.dvTable).2 }

theorem pkthandler_entry_eq (lines : List TopologyLine) (myNodeID srcNodeID fresh : Int32)
    (node : MnpNode) (routingUpdate : RouteupdateEntry) :
    pkthandlerEntry lines myNodeID srcNodeID fresh node routingUpdate =
      node.afterEntry myNodeID srcNodeID fresh routingUpdate
        (relaxedCost lines myNodeID srcNodeID node routingUpdate) := by
  rw [pkthandlerEntry, relaxedCost, readDvCost]
  split_ifs <;> rfl

/-- The sums that are not taken for less than they are, against a cost that was read. -/
def SumInRange (read sum : Nat) : Prop :=
  if read < 2147483648 then
    sum < 2147483648 ∨ 4294967296 + read ≤ sum ∧ sum < 6442450944
  else sum < 6442450944 ∨ 4294967296 + read ≤ sum

instance (read sum : Nat) : Decidable (SumInRange read sum) :=
  inferInstanceAs (Decidable (if read < 2147483648 then _ ∨ _ ∧ _ else _ ∨ _))

theorem relaxed_less_iff (read left right : UInt32) :
    (read.toInt32 > (left + right).toInt32 → left.toNat + right.toNat < read.toNat) ↔
      SumInRange read.toNat (left.toNat + right.toNat) := by
  have readBounded := read.toNat_lt
  have leftBounded := left.toNat_lt
  have rightBounded := right.toNat_lt
  rw [gt_iff_lt, Int32.lt_iff_toInt_lt, signed_value, signed_value, UInt32.toNat_add, SumInRange]
  split_ifs <;> omega

def RelaxesExactSum (lines : List TopologyLine) (myNodeID srcNodeID : Int32) (node : MnpNode)
    (routingUpdate : RouteupdateEntry) : Prop :=
  ∀ cost, relaxedCost lines myNodeID srcNodeID node routingUpdate = some cost →
    exactSum node srcNodeID routingUpdate <
        (readDvCost lines myNodeID srcNodeID node routingUpdate).toNat ∧
      cost.toNat = exactSum node srcNodeID routingUpdate

/-- An entry lowers the own cost and sets the next hop with `relaxedCost` only,
and that is honest exactly as long as the sum is in range. -/
theorem relaxes_exact_sum_iff (lines : List TopologyLine) (myNodeID srcNodeID fresh : Int32)
    (node : MnpNode) (routingUpdate : RouteupdateEntry) :
    pkthandlerEntry lines myNodeID srcNodeID fresh node routingUpdate =
        node.afterEntry myNodeID srcNodeID fresh routingUpdate
          (relaxedCost lines myNodeID srcNodeID node routingUpdate) ∧
      (RelaxesExactSum lines myNodeID srcNodeID node routingUpdate ↔
        SumInRange (readDvCost lines myNodeID srcNodeID node routingUpdate).toNat
          (exactSum node srcNodeID routingUpdate)) := by
  refine ⟨pkthandler_entry_eq lines myNodeID srcNodeID fresh node routingUpdate, ?_⟩
  rw [exactSum, ← relaxed_less_iff]
  constructor
  · intro exact less
    exact (exact _ (if_pos less)).1
  · intro honest cost relaxed
    rw [relaxedCost] at relaxed
    split_ifs at relaxed with less
    cases relaxed
    have below := honest less
    have bounded := (readDvCost lines myNodeID srcNodeID node routingUpdate).toNat_lt
    refine ⟨below, ?_⟩
    rw [UInt32.toUInt32_toInt32, UInt32.toNat_add, Nat.mod_eq_of_lt (by omega), exactSum]

def pairNode : MnpNode := ⟨pairTable, [⟨2, 1⟩], Routingtable.empty⟩

/-- The largest cost there is, behind a link of cost 1, becomes a route of cost 0. -/
theorem wrapped_sum_relaxed :
    readDvCost [⟨1, 2, 1⟩] 1 2 pairNode ⟨2, 4294967295⟩ = infiniteCost ∧
      exactSum pairNode 2 ⟨2, 4294967295⟩ = 4294967296 ∧
      cellCost? (pkthandlerEntry [⟨1, 2, 1⟩] 1 2 0 pairNode ⟨2, 4294967295⟩).dvTable 1 2 =
        some 0 ∧
      ¬ RelaxesExactSum [⟨1, 2, 1⟩] 1 2 pairNode ⟨2, 4294967295⟩ := by
  refine ⟨by decide, by decide, by decide, fun exact => ?_⟩
  exact absurd (exact 0 (by decide)).1 (by decide)

end MiniOverlay
