import Mathlib.Logic.Function.Basic
import MiniOverlay.DistanceVector
import MiniOverlay.PacketFormat
import MiniOverlay.PartialRuns
import MiniOverlay.RoutingTable

/-!
# Route updates

What `network/network.c` does with ROUTE_UPDATE packets: `routeupdate_daemon`
fills one from the distance vector table and `pkthandler` relaxes the tables
with one from a neighbour. Rounds of updates run on all nodes of an overlay at
once, in any order of the broadcasts and of their handling.
-/

namespace MiniOverlay

open PartialRuns

set_option autoImplicit false

structure MnpNode where
  dvTable : List DvRow
  nbrCostTable : List NbrCostEntry
  routingTable : Routingtable

/-- The tables that `main` creates; `beyond` and `fresh` are uninitialised memory. -/
def MnpNode.create (lines : List TopologyLine) (myNodeID : Int32) (beyond : Nat → Nat → Int32)
    (fresh : Nat → Int32) : MnpNode where
  dvTable := dvtableCreate lines myNodeID beyond
  nbrCostTable := nbrcosttableCreate lines myNodeID
  routingTable := routingtableCreate fresh (topologyGetNbrArray lines myNodeID)

/-- One turn of `routeupdate_daemon`; `packet` is what its variable held before.
`none` is a write behind the entries of the update. -/
def routeupdateDaemon (lines : List TopologyLine) (myNodeID : Int32) (beyond : Nat → Int32)
    (packet : MnpPkt) (node : MnpNode) : Option MnpPkt :=
  if topologyGetNodeNum lines ≤ maxNodeNum then
    let routingUpdate : PktRouteupdate :=
      { entryNum := UInt32.ofNat (topologyGetNodeNum lines)
        entry := fun index =>
          if index.val < topologyGetNodeNum lines then
            let nodeID := topologyGetNodeArray lines myNodeID beyond index.val
            ⟨nodeID.toUInt32, dvtableGetcost lines myNodeID node.dvTable myNodeID nodeID⟩
          else ⟨0, 0⟩ }
    some
      { header := ⟨myNodeID, broadcastNodeID, UInt16.ofNat sizeofPktRouteupdate,
          PktType.routeUpdate⟩
        data := packet.copyData (pktRouteupdateCodec.encode routingUpdate) }
  else none

/-- One turn of the loop of `pkthandler` over the entries of an update. The
costs are compared as `int`. -/
def pkthandlerEntry (lines : List TopologyLine) (myNodeID srcNodeID fresh : Int32)
    (node : MnpNode) (routingUpdate : RouteupdateEntry) : MnpNode :=
  let nodeID := routingUpdate.nodeID.toInt32
  let dvTable := (dvtableSetcost srcNodeID nodeID routingUpdate.cost node.dvTable).2
  let dvCost := (dvtableGetcost lines myNodeID dvTable myNodeID nodeID).toInt32
  let nbrCost := (nbrcosttableGetcost node.nbrCostTable srcNodeID + routingUpdate.cost).toInt32
  if dvCost > nbrCost then
    { node with
      dvTable := (dvtableSetcost myNodeID nodeID nbrCost.toUInt32 dvTable).2
      routingTable := routingtableSetnextnode fresh node.routingTable nodeID srcNodeID }
  else { node with dvTable := dvTable }

/-- `pkthandler` on a ROUTE_UPDATE packet; `pktUpdate` is what its variable held
before. `none` is a copy or a read behind that variable. -/
def pkthandlerRouteUpdate (lines : List TopologyLine) (myNodeID : Int32)
    (pktUpdate : PktRouteupdate) (fresh : Nat → Int32) (node : MnpNode) (packet : MnpPkt) :
    Option MnpNode :=
  let received := pktUpdate.copyInto packet.payload
  if packet.header.length.toNat ≤ sizeofPktRouteupdate ∧ received.entryNum.toNat ≤ maxNodeNum then
    some (received.entries.zipIdx.foldl (fun node routingUpdate =>
      pkthandlerEntry lines myNodeID packet.header.srcNodeID (fresh routingUpdate.2) node
        routingUpdate.1) node)
  else none

/-- The tables of every node and the packet it has broadcast in this round. -/
structure MnpOverlay where
  node : Int32 → MnpNode
  update : Int32 → Option MnpPkt

def MnpOverlay.create (lines : List TopologyLine) (beyond : Int32 → Nat → Nat → Int32)
    (fresh : Int32 → Nat → Int32) : MnpOverlay where
  node nodeID := MnpNode.create lines nodeID (beyond nodeID) (fresh nodeID)
  update _ := none

inductive RoundEvent where
  | broadcast (nodeID : Int32) (beyond : Nat → Int32) (packet : MnpPkt)
  | handle (nodeID srcNodeID : Int32) (pktUpdate : PktRouteupdate) (fresh : Nat → Int32)

/-- One event; `none` is undefined behaviour or a packet that was not sent yet. -/
def MnpOverlay.step (lines : List TopologyLine) (overlay : MnpOverlay) :
    RoundEvent → Option MnpOverlay
  | .broadcast nodeID beyond packet => do
      let sent ← routeupdateDaemon lines nodeID beyond packet (overlay.node nodeID)
      return { overlay with update := Function.update overlay.update nodeID (some sent) }
  | .handle nodeID srcNodeID pktUpdate fresh => do
      let packet ← overlay.update srcNodeID
      let node ← pkthandlerRouteUpdate lines nodeID pktUpdate fresh (overlay.node nodeID) packet
      return { overlay with node := Function.update overlay.node nodeID node }

def MnpOverlay.round (lines : List TopologyLine) (overlay : MnpOverlay)
    (events : List RoundEvent) : Option MnpOverlay :=
  events.foldlM (MnpOverlay.step lines) { overlay with update := fun _ => none }

def MnpOverlay.rounds (lines : List TopologyLine) (overlay : MnpOverlay)
    (rounds : List (List RoundEvent)) : Option MnpOverlay :=
  rounds.foldlM (MnpOverlay.round lines) overlay

def RoundEvent.broadcasts (nodeID : Int32) : RoundEvent → Bool
  | .broadcast other _ _ => other = nodeID
  | .handle _ _ _ _ => false

def RoundEvent.handles (nodeID srcNodeID : Int32) : RoundEvent → Bool
  | .broadcast _ _ _ => false
  | .handle other otherSrc _ _ => other = nodeID ∧ otherSrc = srcNodeID

def RoundEvent.Within (lines : List TopologyLine) : RoundEvent → Prop
  | .broadcast nodeID _ _ => nodeID ∈ topologyNodes lines
  | .handle nodeID srcNodeID _ _ => Linked lines nodeID srcNodeID

instance (lines : List TopologyLine) (event : RoundEvent) : Decidable (event.Within lines) :=
  match event with
  | .broadcast nodeID _ _ => inferInstanceAs (Decidable (nodeID ∈ topologyNodes lines))
  | .handle nodeID srcNodeID _ _ => inferInstanceAs (Decidable (Linked lines nodeID srcNodeID))

/-- Every update is handled behind its broadcast; `sent` has broadcast already. -/
def Ordered (sent : List Int32) : List RoundEvent → Prop
  | [] => True
  | .broadcast nodeID _ _ :: events => Ordered (nodeID :: sent) events
  | .handle _ srcNodeID _ _ :: events => srcNodeID ∈ sent ∧ Ordered sent events

/-- Every node broadcasts once and every neighbour handles the update once. -/
structure IsRound (lines : List TopologyLine) (events : List RoundEvent) : Prop where
  ordered : Ordered [] events
  within : ∀ event ∈ events, event.Within lines
  broadcasts : ∀ nodeID ∈ topologyNodes lines, events.countP (RoundEvent.broadcasts nodeID) = 1
  handles : ∀ nodeID srcNodeID, Linked lines nodeID srcNodeID →
    events.countP (RoundEvent.handles nodeID srcNodeID) = 1

/-- A packet from a node with an update in which every cost is `INFINITE_COST`. -/
structure Unreachable (nodeID : Int32) (packet : MnpPkt) : Prop where
  src : packet.header.srcNodeID = nodeID
  length : packet.header.length.toNat = sizeofPktRouteupdate
  payload : ∃ pktUpdate, packet.payload = pktRouteupdateCodec.encode pktUpdate ∧
    pktUpdate.entryNum.toNat ≤ maxNodeNum ∧ ∀ entry ∈ pktUpdate.entries, entry.cost = infiniteCost

theorem signed_value (value : UInt32) :
    value.toInt32.toInt =
      if value.toNat < 2147483648 then (value.toNat : Int) else value.toNat - 4294967296 := by
  have bounded := value.toNat_lt
  have bits : value.toBitVec.toNat = value.toNat := rfl
  change value.toBitVec.toInt = _
  rw [BitVec.toInt_eq_toNat_cond, bits]
  split_ifs <;> omega

theorem to_int32_nonneg (value : UInt32) (small : value.toNat < 2147483648) :
    value.toInt32.toInt = value.toNat := by
  rw [signed_value, if_pos small]

/-- A neighbour's `INFINITE_COST` behind a link is not less than `INFINITE_COST`. -/
theorem infinite_not_relaxed (cost : UInt32) (short : cost.toNat < infiniteCost.toNat) :
    ¬ infiniteCost.toInt32 > (cost + infiniteCost).toInt32 := by
  have infinite : infiniteCost.toNat = 999 := rfl
  have sum : (cost + infiniteCost).toNat = cost.toNat + 999 := by
    rw [UInt32.toNat_add, infinite]
    omega
  rw [gt_iff_lt, Int32.lt_iff_toInt_lt, to_int32_nonneg _ (by omega), to_int32_nonneg _ (by omega),
    sum, infinite]
  omega

section Node

variable (topology : Topology)

/-- The tables of a node after any number of unreachable updates. -/
structure Uninformed (myNodeID : Int32) (fresh : Nat → Int32) (node : MnpNode) : Prop where
  dvTable : OwnRowLast topology.lines myNodeID node.dvTable
  nbrCostTable : node.nbrCostTable = nbrcosttableCreate topology.lines myNodeID
  routingTable :
    node.routingTable = routingtableCreate fresh (topologyGetNbrArray topology.lines myNodeID)

theorem create_uninformed (myNodeID : Int32) (beyond : Nat → Nat → Int32) (fresh : Nat → Int32) :
    Uninformed topology myNodeID fresh
      (MnpNode.create topology.lines myNodeID beyond fresh) :=
  ⟨create_own_row_last topology.lines myNodeID beyond, rfl, rfl⟩

theorem daemon_unreachable {myNodeID : Int32} {fresh : Nat → Int32} {node : MnpNode}
    (uninformed : Uninformed topology myNodeID fresh node) (beyond : Nat → Int32)
    (packet : MnpPkt) :
    ∃ sent, routeupdateDaemon topology.lines myNodeID beyond packet node = some sent ∧
      Unreachable myNodeID sent := by
  have num : (UInt32.ofNat (topologyGetNodeNum topology.lines)).toNat =
      topologyGetNodeNum topology.lines :=
    UInt32.toNat_ofNat_of_lt' (Nat.lt_of_le_of_lt topology.few (by decide))
  have size : (UInt16.ofNat sizeofPktRouteupdate).toNat = sizeofPktRouteupdate :=
    UInt16.toNat_ofNat_of_lt' (by decide)
  have encoded := pktRouteupdateCodec.encode_length
  rw [routeupdateDaemon, if_pos topology.few]
  refine ⟨_, rfl, rfl, size, _, copied_payload packet _ _ ?_ ?_, ?_, ?_⟩
  · rw [encoded]
    exact size
  · rw [encoded]
    decide
  · rw [num]
    exact topology.few
  · intro entry member
    obtain ⟨index, inside, rfl⟩ := (mem_entries_iff _ entry).mp member
    rw [num] at inside
    simp only [if_pos inside]
    exact getcost_own_row topology myNodeID _ node.dvTable uninformed.dvTable

theorem entry_uninformed {myNodeID srcNodeID : Int32} {fresh : Nat → Int32} {node : MnpNode}
    (uninformed : Uninformed topology myNodeID fresh node) (newFresh : Int32)
    (link : Linked topology.lines myNodeID srcNodeID) (routingUpdate : RouteupdateEntry)
    (infinite : routingUpdate.cost = infiniteCost) :
    Uninformed topology myNodeID fresh
      (pkthandlerEntry topology.lines myNodeID srcNodeID newFresh node routingUpdate) := by
  have last := setcost_own_row_last uninformed.dvTable srcNodeID routingUpdate.nodeID.toInt32
    infiniteCost
  have kept := infinite_not_relaxed _ (topology.link_cost_lt link)
  rw [pkthandlerEntry]
  simp only [getcost_own_row topology myNodeID _ _ last, uninformed.nbrCostTable,
    nbrcost_of_linked topology link, infinite]
  rw [if_neg kept]
  exact ⟨last, rfl, uninformed.routingTable⟩

theorem update_uninformed {myNodeID srcNodeID : Int32} {fresh : Nat → Int32} {node : MnpNode}
    (uninformed : Uninformed topology myNodeID fresh node) (pktUpdate : PktRouteupdate)
    (newFresh : Nat → Int32) (link : Linked topology.lines myNodeID srcNodeID) (packet : MnpPkt)
    (unreachable : Unreachable srcNodeID packet) :
    ∃ after, pkthandlerRouteUpdate topology.lines myNodeID pktUpdate newFresh node packet =
        some after ∧ Uninformed topology myNodeID fresh after := by
  obtain ⟨received, payload, few, infinite⟩ := unreachable.payload
  rw [pkthandlerRouteUpdate, payload, copy_into_update, unreachable.src,
    if_pos ⟨Nat.le_of_eq unreachable.length, few⟩]
  refine ⟨_, rfl, ?_⟩
  apply List.foldlRecOn received.entries.zipIdx _ uninformed
  intro node uninformed entry member
  have cost := infinite entry.1 (List.fst_mem_of_mem_zipIdx member)
  exact entry_uninformed topology uninformed _ link entry.1 cost

end Node

structure MnpOverlay.Silent (topology : Topology) (fresh : Int32 → Nat → Int32)
    (overlay : MnpOverlay) : Prop where
  node : ∀ nodeID, Uninformed topology nodeID (fresh nodeID) (overlay.node nodeID)
  update : ∀ nodeID packet, overlay.update nodeID = some packet → Unreachable nodeID packet

theorem create_silent (topology : Topology) (beyond : Int32 → Nat → Nat → Int32)
    (fresh : Int32 → Nat → Int32) :
    (MnpOverlay.create topology.lines beyond fresh).Silent topology fresh := by
  constructor
  · intro nodeID
    exact create_uninformed topology nodeID (beyond nodeID) (fresh nodeID)
  · intro nodeID packet sent
    cases sent

theorem broadcast_silent {topology : Topology} {fresh : Int32 → Nat → Int32}
    {overlay : MnpOverlay} (silent : overlay.Silent topology fresh) (nodeID : Int32)
    (beyond : Nat → Int32) (packet : MnpPkt) :
    ∃ sent, overlay.step topology.lines (.broadcast nodeID beyond packet) =
        some { overlay with update := Function.update overlay.update nodeID (some sent) } ∧
      MnpOverlay.Silent topology fresh
        { overlay with update := Function.update overlay.update nodeID (some sent) } := by
  obtain ⟨sent, sends, unreachable⟩ :=
    daemon_unreachable topology (silent.node nodeID) beyond packet
  refine ⟨sent, ?_, silent.node, ?_⟩
  · rw [MnpOverlay.step, sends]
    rfl
  · intro other packet found
    by_cases same : other = nodeID
    · simp only [same, Function.update_self, Option.some.injEq] at found
      rw [same, ← found]
      exact unreachable
    · simp only [Function.update_of_ne same] at found
      exact silent.update other packet found

theorem handle_silent {topology : Topology} {fresh : Int32 → Nat → Int32} {overlay : MnpOverlay}
    (silent : overlay.Silent topology fresh) {nodeID srcNodeID : Int32}
    (link : Linked topology.lines nodeID srcNodeID) (pktUpdate : PktRouteupdate)
    (newFresh : Nat → Int32) {packet : MnpPkt} (found : overlay.update srcNodeID = some packet) :
    ∃ node, overlay.step topology.lines (.handle nodeID srcNodeID pktUpdate newFresh) =
        some { overlay with node := Function.update overlay.node nodeID node } ∧
      MnpOverlay.Silent topology fresh
        { overlay with node := Function.update overlay.node nodeID node } := by
  obtain ⟨node, handled, uninformed⟩ := update_uninformed topology (silent.node nodeID) pktUpdate
    newFresh link packet (silent.update srcNodeID packet found)
  refine ⟨node, ?_, ?_, silent.update⟩
  · rw [MnpOverlay.step, found]
    simp only [Option.bind_eq_bind, Option.bind_some, handled]
    rfl
  · intro other
    by_cases same : other = nodeID
    · rw [same]
      simp only [Function.update_self]
      exact uninformed
    · simp only [Function.update_of_ne same]
      exact silent.node other

theorem ordered_runs {topology : Topology} {fresh : Int32 → Nat → Int32} (sent : List Int32)
    (events : List RoundEvent) {overlay : MnpOverlay} (silent : overlay.Silent topology fresh)
    (within : ∀ event ∈ events, event.Within topology.lines)
    (known : ∀ nodeID ∈ sent, (overlay.update nodeID).isSome) (ordered : Ordered sent events) :
    ∃ after, events.foldlM (MnpOverlay.step topology.lines) overlay = some after ∧
      after.Silent topology fresh := by
  induction events generalizing sent overlay with
  | nil => exact ⟨overlay, rfl, silent⟩
  | cons event events ih =>
      have later := fun other member => within other (List.mem_cons_of_mem event member)
      cases event with
      | broadcast nodeID beyond packet =>
          obtain ⟨data, stepped, next⟩ := broadcast_silent silent nodeID beyond packet
          rw [List.foldlM_cons, stepped]
          refine ih (nodeID :: sent) next later ?_ ordered
          intro other member
          by_cases same : other = nodeID
          · simp [same]
          · have old := (List.mem_cons.mp member).resolve_left same
            simpa only [Function.update_of_ne same] using known other old
      | handle nodeID srcNodeID pktUpdate newFresh =>
          have link : Linked topology.lines nodeID srcNodeID := within _ List.mem_cons_self
          obtain ⟨packet, found⟩ := Option.isSome_iff_exists.mp (known srcNodeID ordered.1)
          obtain ⟨node, stepped, next⟩ := handle_silent silent link pktUpdate newFresh found
          rw [List.foldlM_cons, stepped]
          exact ih sent next later known ordered.2

theorem rounds_run {topology : Topology} {fresh : Int32 → Nat → Int32} {overlay : MnpOverlay}
    (silent : overlay.Silent topology fresh) (rounds : List (List RoundEvent))
    (isRounds : ∀ events ∈ rounds, IsRound topology.lines events) :
    ∃ after, overlay.rounds topology.lines rounds = some after ∧ after.Silent topology fresh := by
  apply fold_runs (MnpOverlay.round topology.lines) (MnpOverlay.Silent topology fresh) rounds _
    silent
  intro events member before beforeSilent
  have isRound := isRounds events member
  have cleared : MnpOverlay.Silent topology fresh { before with update := fun _ => none } := by
    refine ⟨beforeSilent.node, ?_⟩
    intro nodeID packet sent
    cases sent
  apply ordered_runs [] events cleared isRound.within _ isRound.ordered
  intro nodeID sent
  cases sent

end MiniOverlay
