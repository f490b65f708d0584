import MiniOverlay.RouteAdvertisements
import MiniOverlay.RoutingHistory

/-!
# The node's own distance vector

What the entries of the updates leave in the node's own row and in its routing
table. The cost that is read for the node itself is always `INFINITE_COST`, so
the own row holds the last sum below it, and the routing table the first
neighbour that was recorded.
-/

namespace MiniOverlay

open PartialRuns

set_option autoImplicit false

/-- One turn of the loop of `pkthandler` over the entries of an update. -/
structure EntryTurn where
  srcNodeID : Int32
  fresh : Int32
  entry : RouteupdateEntry

def UpdateEvent.turns (event : UpdateEvent) : List EntryTurn :=
  event.packet.routeupdate.entries.zipIdx.map fun item =>
    ⟨event.packet.header.srcNodeID, event.fresh item.2, item.1⟩

def turnsOf (events : List UpdateEvent) : List EntryTurn := events.flatMap UpdateEvent.turns

def MnpNode.turn (lines : List TopologyLine) (myNodeID : Int32) (node : MnpNode)
    (turn : EntryTurn) : MnpNode :=
  pkthandlerEntry lines myNodeID turn.srcNodeID turn.fresh node turn.entry

def EntryTurn.sum (nct : List NbrCostEntry) (turn : EntryTurn) : Nat :=
  (nbrcosttableGetcost nct turn.srcNodeID).toNat + turn.entry.cost.toNat

/-- A well-formed update from a neighbour, with no sum over `INFINITE_COST`. -/
structure FromNeighbour (lines : List TopologyLine) (myNodeID : Int32) (event : UpdateEvent) :
    Prop where
  carries : CarriesUpdate event.packet
  fits : event.packet.header.length.toNat ≤ sizeofPktRouteupdate
  nbr : event.packet.header.srcNodeID ∈ topologyGetNbrArray lines myNodeID
  bounded : ∀ turn ∈ event.turns,
    turn.sum (nbrcosttableCreate lines myNodeID) ≤ infiniteCost.toNat

theorem handle_turns {lines : List TopologyLine} {myNodeID : Int32} {event : UpdateEvent}
    (sent : FromNeighbour lines myNodeID event) (node : MnpNode) :
    node.handle lines myNodeID event =
      some (event.turns.foldl (MnpNode.turn lines myNodeID) node) := by
  rw [handle_eq lines myNodeID node sent.carries, if_pos sent.fits, UpdateEvent.turns,
    List.foldl_map]
  rfl

theorem handle_all_turns {lines : List TopologyLine} {myNodeID : Int32}
    {events : List UpdateEvent} (sent : ∀ event ∈ events, FromNeighbour lines myNodeID event)
    (node : MnpNode) :
    node.handleAll lines myNodeID events =
      some ((turnsOf events).foldl (MnpNode.turn lines myNodeID) node) := by
  induction events generalizing node with
  | nil => rfl
  | cons event events ih =>
      rw [MnpNode.handleAll, List.foldlM_cons, handle_turns (sent event (by simp)), turnsOf,
        List.flatMap_cons, List.foldl_append]
      exact ih (fun other member => sent other (by simp [member])) _

/-- The tables of a node with the neighbours' rows in front of the own one. -/
structure OwnTables (lines : List TopologyLine) (myNodeID : Int32) (node : MnpNode) : Prop where
  rows : OwnRowLast lines myNodeID node.dvTable
  nbrCostTable : node.nbrCostTable = nbrcosttableCreate lines myNodeID

theorem turn_own_tables {lines : List TopologyLine} {myNodeID : Int32} {node : MnpNode}
    (tables : OwnTables lines myNodeID node) (turn : EntryTurn) :
    OwnTables lines myNodeID (node.turn lines myNodeID turn) := by
  refine ⟨entry_rows tables.rows _ _ _, ?_⟩
  rw [MnpNode.turn, pkthandler_entry_eq, ← tables.nbrCostTable]
  cases relaxedCost lines myNodeID turn.srcNodeID node turn.entry <;> rfl

theorem relaxed_below_infinite {lines : List TopologyLine} {myNodeID : Int32} {node : MnpNode}
    (tables : OwnTables lines myNodeID node)
    (distinct : (topologyGetNbrArray lines myNodeID ++ [myNodeID]).Nodup) {turn : EntryTurn}
    (bounded : turn.sum (nbrcosttableCreate lines myNodeID) ≤ infiniteCost.toNat) :
    relaxedCost lines myNodeID turn.srcNodeID node turn.entry =
      if turn.sum (nbrcosttableCreate lines myNodeID) < infiniteCost.toNat then
        some (UInt32.ofNat (turn.sum (nbrcosttableCreate lines myNodeID)))
      else none := by
  have written := setcost_own_row_last tables.rows turn.srcNodeID turn.entry.nodeID.toInt32
    turn.entry.cost
  have read : readDvCost lines myNodeID turn.srcNodeID node turn.entry = infiniteCost := by
    rw [readDvCost, getcost_cells, own_not_searched written (by rw [written]; exact distinct)]
    rfl
  have infinite : infiniteCost.toNat = 999 := rfl
  have added : (nbrcosttableGetcost node.nbrCostTable turn.srcNodeID + turn.entry.cost).toNat =
      turn.sum (nbrcosttableCreate lines myNodeID) := by
    rw [UInt32.toNat_add, tables.nbrCostTable]
    exact Nat.mod_eq_of_lt (Nat.lt_of_le_of_lt bounded (by decide))
  have stored : nbrcosttableGetcost node.nbrCostTable turn.srcNodeID + turn.entry.cost =
      UInt32.ofNat (turn.sum (nbrcosttableCreate lines myNodeID)) := by
    rw [← added, UInt32.ofNat_toNat]
  have less : infiniteCost.toInt32 >
        (nbrcosttableGetcost node.nbrCostTable turn.srcNodeID + turn.entry.cost).toInt32 ↔
      turn.sum (nbrcosttableCreate lines myNodeID) < infiniteCost.toNat := by
    rw [gt_iff_lt, Int32.lt_iff_toInt_lt, to_int32_nonneg _ (by omega),
      to_int32_nonneg _ (by omega), added]
    omega
  rw [relaxedCost, read, UInt32.toUInt32_toInt32, stored]
  rw [stored] at less
  simp only [less]

def EntryTurn.storedFor (nct : List NbrCostEntry) (destNodeID : Int32) (turn : EntryTurn) :
    Option Nat :=
  if turn.entry.nodeID.toInt32 = destNodeID ∧ turn.sum nct < infiniteCost.toNat then
    some (turn.sum nct)
  else none

def EntryTurn.call (turn : EntryTurn) : SetnextnodeCall :=
  ⟨turn.entry.nodeID.toInt32, turn.srcNodeID, turn.fresh⟩

def EntryTurn.recordedFor (nct : List NbrCostEntry) (destNodeID : Int32) (turn : EntryTurn) :
    Option Int32 :=
  if turn.sum nct < infiniteCost.toNat then turn.call.hopFor destNodeID else none

section Turn

variable {lines : List TopologyLine} {myNodeID : Int32} {node : MnpNode} {turn : EntryTurn}

theorem turn_own_cost (tables : OwnTables lines myNodeID node)
    (distinct : (topologyGetNbrArray lines myNodeID ++ [myNodeID]).Nodup)
    (nbr : turn.srcNodeID ∈ topologyGetNbrArray lines myNodeID)
    (bounded : turn.sum (nbrcosttableCreate lines myNodeID) ≤ infiniteCost.toNat)
    {destNodeID : Int32} (present : (cellCost? node.dvTable myNodeID destNodeID).isSome) :
    (cellCost? (node.turn lines myNodeID turn).dvTable myNodeID destNodeID).isSome ∧
      ((node.turn lines myNodeID turn).rowCost myNodeID destNodeID).toNat =
        (turn.storedFor (nbrcosttableCreate lines myNodeID) destNodeID).getD
          (node.rowCost myNodeID destNodeID).toNat := by
  obtain ⟨old, held⟩ := Option.isSome_iff_exists.mp present
  have sender : cellCost? (dvtableSetcost turn.srcNodeID turn.entry.nodeID.toInt32 turn.entry.cost
      node.dvTable).2 myNodeID destNodeID = some old := by
    rw [← held]
    apply cell_cost_setcost_other
    intro same
    rw [← (Prod.mk.inj same).1] at nbr
    exact List.disjoint_of_nodup_append distinct nbr (List.mem_singleton_self myNodeID)
  rw [MnpNode.turn, pkthandler_entry_eq, relaxed_below_infinite tables distinct bounded,
    EntryTurn.storedFor, MnpNode.rowCost, MnpNode.rowCost, held]
  by_cases below : turn.sum (nbrcosttableCreate lines myNodeID) < infiniteCost.toNat
  · simp only [if_pos below, MnpNode.afterEntry]
    by_cases mentioned : turn.entry.nodeID.toInt32 = destNodeID
    · have small : turn.sum (nbrcosttableCreate lines myNodeID) < UInt32.size :=
        below.trans (by decide)
      rw [← mentioned] at sender
      rw [← mentioned, cell_cost_setcost_same, sender, if_pos ⟨rfl, below⟩]
      exact ⟨rfl, UInt32.toNat_ofNat_of_lt' small⟩
    · have other : (myNodeID, destNodeID) ≠ (myNodeID, turn.entry.nodeID.toInt32) :=
        fun same => mentioned (Prod.mk.inj same).2.symm
      rw [cell_cost_setcost_other _ other, sender, if_neg fun both => mentioned both.1]
      exact ⟨rfl, rfl⟩
  · rw [if_neg below, MnpNode.afterEntry, sender, if_neg fun both => below both.2]
    exact ⟨rfl, rfl⟩

theorem turn_routing_table (tables : OwnTables lines myNodeID node)
    (distinct : (topologyGetNbrArray lines myNodeID ++ [myNodeID]).Nodup)
    (bounded : turn.sum (nbrcosttableCreate lines myNodeID) ≤ infiniteCost.toNat) :
    (node.turn lines myNodeID turn).routingTable =
      if turn.sum (nbrcosttableCreate lines myNodeID) < infiniteCost.toNat then
        node.routingTable.setnextnode turn.call
      else node.routingTable := by
  rw [MnpNode.turn, pkthandler_entry_eq, relaxed_below_infinite tables distinct bounded]
  split_ifs <;> rfl

theorem turn_hop (tables : OwnTables lines myNodeID node)
    (distinct : (topologyGetNbrArray lines myNodeID ++ [myNodeID]).Nodup)
    (bounded : turn.sum (nbrcosttableCreate lines myNodeID) ≤ infiniteCost.toNat)
    (destNodeID : Int32) :
    (node.turn lines myNodeID turn).routingTable.hop? destNodeID =
      (node.routingTable.hop? destNodeID).or
        (turn.recordedFor (nbrcosttableCreate lines myNodeID) destNodeID) := by
  rw [turn_routing_table tables distinct bounded, EntryTurn.recordedFor]
  split_ifs with below
  · exact hop_setnextnode _ _ _
  · rw [Option.or_none]

theorem turn_well_placed (tables : OwnTables lines myNodeID node)
    (distinct : (topologyGetNbrArray lines myNodeID ++ [myNodeID]).Nodup)
    (bounded : turn.sum (nbrcosttableCreate lines myNodeID) ≤ infiniteCost.toNat)
    (placed : node.routingTable.WellPlaced) :
    (node.turn lines myNodeID turn).routingTable.WellPlaced := by
  rw [turn_routing_table tables distinct bounded]
  split_ifs with below
  · exact setnextnode_well_placed placed turn.call
  · exact placed

end Turn

structure NeighbourTurn (lines : List TopologyLine) (myNodeID : Int32) (turn : EntryTurn) :
    Prop where
  nbr : turn.srcNodeID ∈ topologyGetNbrArray lines myNodeID
  bounded : turn.sum (nbrcosttableCreate lines myNodeID) ≤ infiniteCost.toNat

theorem event_turns {lines : List TopologyLine} {myNodeID : Int32} {events : List UpdateEvent}
    (sent : ∀ event ∈ events, FromNeighbour lines myNodeID event) :
    ∀ turn ∈ turnsOf events, NeighbourTurn lines myNodeID turn := by
  intro turn member
  obtain ⟨event, inEvents, inTurns⟩ := List.mem_flatMap.mp member
  refine ⟨?_, (sent event inEvents).bounded turn inTurns⟩
  obtain ⟨item, _, rfl⟩ := List.mem_map.mp inTurns
  exact (sent event inEvents).nbr

section Run

variable {lines : List TopologyLine} {myNodeID : Int32} {start : MnpNode} {turns : List EntryTurn}

/-- The own row holds the last sum below `INFINITE_COST`. -/
theorem run_own_cost (tables : OwnTables lines myNodeID start)
    (distinct : (topologyGetNbrArray lines myNodeID ++ [myNodeID]).Nodup)
    (sent : ∀ turn ∈ turns, NeighbourTurn lines myNodeID turn) {destNodeID : Int32}
    (present : (cellCost? start.dvTable myNodeID destNodeID).isSome) :
    ((turns.foldl (MnpNode.turn lines myNodeID) start).rowCost myNodeID destNodeID).toNat =
      (turns.reverse.findSome?
        (EntryTurn.storedFor (nbrcosttableCreate lines myNodeID) destNodeID)).getD
        (start.rowCost myNodeID destNodeID).toNat := by
  have run := fold_total (MnpNode.turn lines myNodeID) turns start
  have written := fold_last_write _ (fun node => (node.rowCost myNodeID destNodeID).toNat)
    (EntryTurn.storedFor (nbrcosttableCreate lines myNodeID) destNodeID)
    (fun node => OwnTables lines myNodeID node ∧
      (cellCost? node.dvTable myNodeID destNodeID).isSome) turns
    (fun turn member before after kept stepped => by
      cases stepped
      have wrote := turn_own_cost kept.1 distinct (sent turn member).nbr (sent turn member).bounded
        kept.2
      exact ⟨⟨turn_own_tables kept.1 turn, wrote.1⟩, wrote.2⟩)
    ⟨tables, present⟩ run
  exact written.2

theorem run_hop (tables : OwnTables lines myNodeID start)
    (distinct : (topologyGetNbrArray lines myNodeID ++ [myNodeID]).Nodup)
    (sent : ∀ turn ∈ turns, NeighbourTurn lines myNodeID turn)
    (placed : start.routingTable.WellPlaced) (destNodeID : Int32) :
    routingtableGetnextnode (turns.foldl (MnpNode.turn lines myNodeID) start).routingTable
        destNodeID =
      ((start.routingTable.hop? destNodeID).or
        (turns.findSome?
          (EntryTurn.recordedFor (nbrcosttableCreate lines myNodeID) destNodeID))).getD (-1) := by
  have run := fold_total (MnpNode.turn lines myNodeID) turns start
  have filled := fold_first_write _ (fun node => node.routingTable.hop? destNodeID)
    (EntryTurn.recordedFor (nbrcosttableCreate lines myNodeID) destNodeID)
    (fun node => OwnTables lines myNodeID node ∧ node.routingTable.WellPlaced) turns
    (fun turn member before after kept stepped => by
      cases stepped
      have bounded := (sent turn member).bounded
      exact ⟨⟨turn_own_tables kept.1 turn, turn_well_placed kept.1 distinct bounded kept.2⟩,
        turn_hop kept.1 distinct bounded destNodeID⟩)
    ⟨tables, placed⟩ run
  rw [getnextnode_eq filled.1.2, filled.2]

end Run

def offersFor (destNodeID : Int32) (turns : List EntryTurn) : List EntryTurn :=
  turns.filter fun turn => turn.entry.nodeID.toInt32 = destNodeID

def firstOffer (nct : List NbrCostEntry) (destNodeID : Int32) (sum : Nat)
    (turns : List EntryTurn) : Option Int32 :=
  ((offersFor destNodeID turns).find? fun turn => turn.sum nct = sum).map EntryTurn.srcNodeID

/-- The own cost is the least of the cost at the start and the sums, and when it
is less than at the start, the next hop is the neighbour that offered it first. -/
structure LeastWithHop (nct : List NbrCostEntry) (myNodeID destNodeID : Int32)
    (start after : MnpNode) (turns : List EntryTurn) : Prop where
  least : ((start.rowCost myNodeID destNodeID).toNat ::
      (offersFor destNodeID turns).map (EntryTurn.sum nct)).min? =
    some (after.rowCost myNodeID destNodeID).toNat
  hop : (after.rowCost myNodeID destNodeID).toNat < (start.rowCost myNodeID destNodeID).toNat →
    firstOffer nct destNodeID (after.rowCost myNodeID destNodeID).toNat turns =
      some (routingtableGetnextnode after.routingTable destNodeID)

def ListedInOwnRow (myNodeID destNodeID : Int32) (node : MnpNode) : Prop :=
  ∃ row ∈ node.dvTable, row.nodeID = myNodeID ∧ ∃ entry ∈ row.dvEntry, entry.nodeID = destNodeID

instance (myNodeID destNodeID : Int32) (node : MnpNode) :
    Decidable (ListedInOwnRow myNodeID destNodeID node) :=
  inferInstanceAs (Decidable (∃ row ∈ node.dvTable, _ ∧ ∃ entry ∈ row.dvEntry, _))

/-- After every packet of the run each listed destination has its least cost
with the hop for it, and no packet raises a cost. -/
def RunsMinimum (lines : List TopologyLine) (myNodeID : Int32) (start : MnpNode)
    (events : List UpdateEvent) : Prop :=
  ∀ destNodeID, ListedInOwnRow myNodeID destNodeID start →
    (∀ seen, seen <+: events → ∀ after, start.handleAll lines myNodeID seen = some after →
      LeastWithHop (nbrcosttableCreate lines myNodeID) myNodeID destNodeID start after
        (turnsOf seen)) ∧
    ∀ seen event, seen ++ [event] <+: events → ∀ before after,
      start.handleAll lines myNodeID seen = some before →
      start.handleAll lines myNodeID (seen ++ [event]) = some after →
      (after.rowCost myNodeID destNodeID).toNat ≤ (before.rowCost myNodeID destNodeID).toNat

/-- The last sum below `INFINITE_COST` for a destination, or the cost at the start. -/
def lastSum (nct : List NbrCostEntry) (destNodeID : Int32) (initial : Nat)
    (turns : List EntryTurn) : Nat :=
  (turns.reverse.findSome? (EntryTurn.storedFor nct destNodeID)).getD initial

/-- The first next hop that was recorded for a destination, if there was none at the start. -/
def firstRecorded (nct : List NbrCostEntry) (destNodeID : Int32) (created : Option Int32)
    (turns : List EntryTurn) : Int32 :=
  (created.or (turns.findSome? (EntryTurn.recordedFor nct destNodeID))).getD (-1)

/-- The last sum below `INFINITE_COST` is the least one, and when it is less
than the cost at the start, who offered it first is who was recorded first. -/
structure LastIsLeast (nct : List NbrCostEntry) (destNodeID : Int32) (initial : Nat)
    (created : Option Int32) (turns : List EntryTurn) : Prop where
  start : lastSum nct destNodeID initial turns ≤ initial
  offers : ∀ turn ∈ offersFor destNodeID turns,
    lastSum nct destNodeID initial turns ≤ turn.sum nct
  first : lastSum nct destNodeID initial turns < initial →
    firstOffer nct destNodeID (lastSum nct destNodeID initial turns) turns =
      some (firstRecorded nct destNodeID created turns)

theorem last_sum_mem (nct : List NbrCostEntry) (destNodeID : Int32) (initial : Nat)
    (turns : List EntryTurn) :
    lastSum nct destNodeID initial turns ∈
      initial :: (offersFor destNodeID turns).map (EntryTurn.sum nct) := by
  rw [lastSum]
  cases found : turns.reverse.findSome? (EntryTurn.storedFor nct destNodeID) with
  | none => exact List.mem_cons_self
  | some sum =>
      obtain ⟨turn, member, stored⟩ := List.exists_of_findSome?_eq_some found
      rw [EntryTurn.storedFor] at stored
      split_ifs at stored with both
      cases stored
      refine List.mem_cons_of_mem _ (List.mem_map_of_mem ?_)
      exact List.mem_filter.mpr ⟨List.mem_reverse.mp member, by simpa using both.1⟩

theorem least_with_hop_iff {lines : List TopologyLine} {myNodeID destNodeID : Int32}
    {start after : MnpNode} {turns : List EntryTurn}
    (cost : (after.rowCost myNodeID destNodeID).toNat =
      lastSum (nbrcosttableCreate lines myNodeID) destNodeID
        (start.rowCost myNodeID destNodeID).toNat turns)
    (hop : routingtableGetnextnode after.routingTable destNodeID =
      firstRecorded (nbrcosttableCreate lines myNodeID) destNodeID
        (start.routingTable.hop? destNodeID) turns) :
    LeastWithHop (nbrcosttableCreate lines myNodeID) myNodeID destNodeID start after turns ↔
      LastIsLeast (nbrcosttableCreate lines myNodeID) destNodeID
        (start.rowCost myNodeID destNodeID).toNat (start.routingTable.hop? destNodeID) turns := by
  have member := last_sum_mem (nbrcosttableCreate lines myNodeID) destNodeID
    (start.rowCost myNodeID destNodeID).toNat turns
  constructor
  · rintro ⟨least, first⟩
    rw [cost, List.min?_eq_some_iff] at least
    rw [cost, hop] at first
    refine ⟨least.2 _ List.mem_cons_self, fun turn offered => ?_, first⟩
    exact least.2 _ (List.mem_cons_of_mem _ (List.mem_map_of_mem offered))
  · rintro ⟨initial, offers, first⟩
    refine ⟨?_, by rw [cost, hop]; exact first⟩
    rw [cost, List.min?_eq_some_iff]
    refine ⟨member, ?_⟩
    simpa using ⟨initial, offers⟩

theorem least_not_raised {nct : List NbrCostEntry} {myNodeID destNodeID : Int32}
    {start before after : MnpNode} {turns later : List EntryTurn}
    (old : LeastWithHop nct myNodeID destNodeID start before turns)
    (new : LeastWithHop nct myNodeID destNodeID start after (turns ++ later)) :
    (after.rowCost myNodeID destNodeID).toNat ≤ (before.rowCost myNodeID destNodeID).toNat := by
  have attained := (List.min?_eq_some_iff.mp old.least).1
  have least := (List.min?_eq_some_iff.mp new.least).2
  apply least
  rw [offersFor, List.filter_append, List.map_append, ← List.cons_append]
  exact List.mem_append_left _ attained

/-- The own row is a running minimum with the right next hops exactly when the
last sum below `INFINITE_COST` is always the least, and first offered by the
neighbour that was recorded first. -/
theorem runs_minimum_iff (lines : List TopologyLine) (myNodeID : Int32)
    (beyond : Nat → Nat → Int32) (fresh : Nat → Int32) (events : List UpdateEvent)
    (distinct : (topologyGetNbrArray lines myNodeID ++ [myNodeID]).Nodup)
    (sent : ∀ event ∈ events, FromNeighbour lines myNodeID event) :
    let start := MnpNode.create lines myNodeID beyond fresh
    RunsMinimum lines myNodeID start events ↔
      ∀ destNodeID, ListedInOwnRow myNodeID destNodeID start → ∀ seen, seen <+: events →
        LastIsLeast (nbrcosttableCreate lines myNodeID) destNodeID
          (start.rowCost myNodeID destNodeID).toNat (start.routingTable.hop? destNodeID)
          (turnsOf seen) := by
  intro start
  have tables : OwnTables lines myNodeID start := ⟨create_own_row_last lines myNodeID beyond, rfl⟩
  have placed : start.routingTable.WellPlaced :=
    history_well_placed fresh (topologyGetNbrArray lines myNodeID) []
  have runs (seen : List UpdateEvent) (first : seen <+: events) :
      start.handleAll lines myNodeID seen =
        some ((turnsOf seen).foldl (MnpNode.turn lines myNodeID) start) :=
    handle_all_turns (fun event member => sent event (first.subset member)) start
  have described (destNodeID : Int32) (listed : ListedInOwnRow myNodeID destNodeID start)
      (seen : List UpdateEvent) (first : seen <+: events) :
      LeastWithHop (nbrcosttableCreate lines myNodeID) myNodeID destNodeID start
          ((turnsOf seen).foldl (MnpNode.turn lines myNodeID) start) (turnsOf seen) ↔
        LastIsLeast (nbrcosttableCreate lines myNodeID) destNodeID
          (start.rowCost myNodeID destNodeID).toNat (start.routingTable.hop? destNodeID)
          (turnsOf seen) := by
    have turns := event_turns fun event member => sent event (first.subset member)
    have present := (cell_cost_some_iff start.dvTable myNodeID destNodeID).mpr listed
    exact least_with_hop_iff (run_own_cost tables distinct turns present)
      (run_hop tables distinct turns placed destNodeID)
  constructor
  · intro minimum destNodeID listed seen first
    rw [← described destNodeID listed seen first]
    exact (minimum destNodeID listed).1 seen first _ (runs seen first)
  · intro ordered destNodeID listed
    have least (seen : List UpdateEvent) (first : seen <+: events) (after : MnpNode)
        (run : start.handleAll lines myNodeID seen = some after) :
        LeastWithHop (nbrcosttableCreate lines myNodeID) myNodeID destNodeID start after
          (turnsOf seen) := by
      rw [runs seen first] at run
      cases run
      exact (described destNodeID listed seen first).mpr (ordered destNodeID listed seen first)
    refine ⟨least, fun seen event first before after old new => ?_⟩
    have longer := least (seen ++ [event]) first after new
    rw [turnsOf, List.flatMap_append] at longer
    exact least_not_raised (least seen ((List.prefix_append seen [event]).trans first) before old)
      longer

def forkLines : List TopologyLine := [⟨1, 2, 1⟩, ⟨1, 3, 1⟩]

def forkNode : MnpNode := MnpNode.create forkLines 1 (fun _ _ => 0) fun _ => 0

theorem single_event_turns (srcNodeID : Int32) (destNodeID cost : UInt32) :
    (singleEvent srcNodeID destNodeID cost).turns = [⟨srcNodeID, 0, ⟨destNodeID, cost⟩⟩] := by
  rw [UpdateEvent.turns, single_event_entries]
  rfl

theorem single_event_sent {lines : List TopologyLine} {myNodeID srcNodeID : Int32}
    {destNodeID cost : UInt32} (nbr : srcNodeID ∈ topologyGetNbrArray lines myNodeID)
    (bounded : EntryTurn.sum (nbrcosttableCreate lines myNodeID)
      ⟨srcNodeID, 0, ⟨destNodeID, cost⟩⟩ ≤ infiniteCost.toNat) :
    FromNeighbour lines myNodeID (singleEvent srcNodeID destNodeID cost) := by
  refine ⟨single_event_carries srcNodeID destNodeID cost,
    single_event_fits srcNodeID destNodeID cost, nbr, ?_⟩
  rw [single_event_turns]
  simpa using bounded

theorem fork_offer_sent : FromNeighbour forkLines 1 (singleEvent 2 3 5) :=
  single_event_sent (by decide) (by decide)

instance (nct : List NbrCostEntry) (destNodeID : Int32) (initial : Nat) (created : Option Int32)
    (turns : List EntryTurn) : Decidable (LastIsLeast nct destNodeID initial created turns) :=
  decidable_of_iff
    (lastSum nct destNodeID initial turns ≤ initial ∧
      (∀ turn ∈ offersFor destNodeID turns,
        lastSum nct destNodeID initial turns ≤ turn.sum nct) ∧
      (lastSum nct destNodeID initial turns < initial →
        firstOffer nct destNodeID (lastSum nct destNodeID initial turns) turns =
          some (firstRecorded nct destNodeID created turns)))
    ⟨fun ⟨start, offers, first⟩ => ⟨start, offers, first⟩,
      fun least => ⟨least.start, least.offers, least.first⟩⟩

/-- Node 3 is behind the neighbour 2; the third entry of a row, which nothing fills, holds
its ID by chance. -/
def pathLines : List TopologyLine := [⟨1, 2, 1⟩, ⟨2, 3, 1⟩]

def pathNode : MnpNode := MnpNode.create pathLines 1 (fun _ _ => 3) fun _ => 0

theorem path_node_lists {destNodeID : Int32} (listed : ListedInOwnRow 1 destNodeID pathNode) :
    destNodeID = 2 ∨ destNodeID = 1 ∨ destNodeID = 3 := by
  have rows : pathNode.dvTable =
      [⟨2, [⟨2, 0⟩, ⟨1, 1⟩, ⟨3, 1⟩]⟩, ⟨1, [⟨2, 1⟩, ⟨1, 0⟩, ⟨3, infiniteCost⟩]⟩] := rfl
  simpa [ListedInOwnRow, rows, eq_comm] using listed

theorem path_least {turns : List EntryTurn} (neighbour : LastIsLeast [⟨2, 1⟩] 2 1 (some 2) turns)
    (own : LastIsLeast [⟨2, 1⟩] 1 0 none turns)
    (far : LastIsLeast [⟨2, 1⟩] 3 infiniteCost.toNat none turns) {destNodeID : Int32}
    (listed : ListedInOwnRow 1 destNodeID pathNode) :
    LastIsLeast (nbrcosttableCreate pathLines 1) destNodeID
      (pathNode.rowCost 1 destNodeID).toNat (pathNode.routingTable.hop? destNodeID) turns := by
  rcases path_node_lists listed with rfl | rfl | rfl
  · exact neighbour
  · exact own
  · exact far

/-- Neighbour 2 offers node 3 at a cost of 5 and then at a cost of 4. -/
theorem better_offers_keep_minimum :
    ∃ after, pathNode.handleAll pathLines 1 [singleEvent 2 3 5, singleEvent 2 3 4] = some after ∧
      pathNode.rowCost 1 3 = infiniteCost ∧ after.rowCost 1 3 = 5 ∧
      RunsMinimum pathLines 1 pathNode [singleEvent 2 3 5, singleEvent 2 3 4] := by
  have sent : ∀ event ∈ [singleEvent 2 3 5, singleEvent 2 3 4],
      FromNeighbour pathLines 1 event := by
    rw [List.forall_mem_cons, List.forall_mem_singleton]
    exact ⟨single_event_sent (by decide) (by decide), single_event_sent (by decide) (by decide)⟩
  have all : turnsOf [singleEvent 2 3 5, singleEvent 2 3 4] =
      [⟨2, 0, ⟨3, 5⟩⟩, ⟨2, 0, ⟨3, 4⟩⟩] := by
    simp [turnsOf, single_event_turns]
  have run := handle_all_turns sent pathNode
  rw [all] at run
  refine ⟨_, run, by decide, by decide,
    (runs_minimum_iff pathLines 1 _ _ _ (by decide) sent).mpr ?_⟩
  intro destNodeID listed seen first
  rcases List.prefix_cons_iff.mp first with rfl | ⟨rest, rfl, later⟩
  · exact path_least (by decide) (by decide) (by decide) listed
  · rcases List.prefix_cons_iff.mp later with rfl | ⟨rest, rfl, last⟩
    · have one : turnsOf [singleEvent 2 3 5] = [⟨2, 0, ⟨3, 5⟩⟩] := by
        simp [turnsOf, single_event_turns]
      rw [one]
      exact path_least (by decide) (by decide) (by decide) listed
    · rw [List.prefix_nil.mp last, all]
      exact path_least (by decide) (by decide) (by decide) listed

/-- Neighbour 2 offers a cost of 5 for neighbour 3, and the own cost rises from 1 to 6. -/
theorem worse_offer_raises_cost :
    FromNeighbour forkLines 1 (singleEvent 2 3 5) ∧
      (∃ after, forkNode.handleAll forkLines 1 [singleEvent 2 3 5] = some after ∧
        forkNode.rowCost 1 3 = 1 ∧ after.rowCost 1 3 = 6) ∧
      ¬ RunsMinimum forkLines 1 forkNode [singleEvent 2 3 5] := by
  have sent : ∀ event ∈ [singleEvent 2 3 5], FromNeighbour forkLines 1 event := by
    simpa using fork_offer_sent
  have run := handle_all_turns sent forkNode
  have turns : turnsOf [singleEvent 2 3 5] = [⟨2, 0, ⟨3, 5⟩⟩] := by
    rw [turnsOf, List.flatMap_singleton, single_event_turns]
  rw [turns] at run
  have raised : (MnpNode.turn forkLines 1 forkNode ⟨2, 0, ⟨3, 5⟩⟩).rowCost 1 3 = 6 := by decide
  refine ⟨fork_offer_sent, ⟨_, run, by decide, raised⟩, fun minimum => ?_⟩
  have notRaised := (minimum 3 (by decide)).2 [] (singleEvent 2 3 5) List.prefix_rfl _ _ rfl run
  exact absurd notRaised (by decide)

end MiniOverlay
