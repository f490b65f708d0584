import MiniOverlay.RouteRelaxation

/-!
# What the neighbours advertised

Runs of `pkthandler` over ROUTE_UPDATE packets. Every entry writes to the
sender's row and to the node's own row at most, so the row of a neighbour holds
what that neighbour advertised last.
-/

namespace MiniOverlay

open FixedByteCodec PartialRuns

set_option autoImplicit false

/-- A ROUTE_UPDATE packet for `pkthandler`; `pktUpdate` is what its variable held
before and `fresh` what `malloc` finds for each entry. -/
structure UpdateEvent where
  packet : MnpPkt
  pktUpdate : PktRouteupdate
  fresh : Nat → Int32

def MnpNode.handle (lines : List TopologyLine) (myNodeID : Int32) (node : MnpNode)
    (event : UpdateEvent) : Option MnpNode :=
  pkthandlerRouteUpdate lines myNodeID event.pktUpdate event.fresh node event.packet

def MnpNode.handleAll (lines : List TopologyLine) (myNodeID : Int32) (node : MnpNode)
    (events : List UpdateEvent) : Option MnpNode :=
  events.foldlM (MnpNode.handle lines myNodeID) node

def MnpNode.handleTurn (lines : List TopologyLine) (myNodeID srcNodeID : Int32)
    (fresh : Nat → Int32) (node : MnpNode) (routingUpdate : RouteupdateEntry × Nat) : MnpNode :=
  pkthandlerEntry lines myNodeID srcNodeID (fresh routingUpdate.2) node routingUpdate.1

/-- The loop of `pkthandler` over the entries of a packet. -/
def MnpNode.handleEntries (lines : List TopologyLine) (myNodeID srcNodeID : Int32)
    (fresh : Nat → Int32) (node : MnpNode) (entries : List (RouteupdateEntry × Nat)) : MnpNode :=
  entries.foldl (MnpNode.handleTurn lines myNodeID srcNodeID fresh) node

theorem handle_eq (lines : List TopologyLine) (myNodeID : Int32) (node : MnpNode)
    {event : UpdateEvent} (carries : CarriesUpdate event.packet) :
    node.handle lines myNodeID event =
      if event.packet.header.length.toNat ≤ sizeofPktRouteupdate then
        some (node.handleEntries lines myNodeID event.packet.header.srcNodeID event.fresh
          event.packet.routeupdate.entries.zipIdx)
      else none := by
  rw [MnpNode.handle, pkthandlerRouteUpdate]
  by_cases fits : event.packet.header.length.toNat ≤ sizeofPktRouteupdate
  · obtain ⟨num, entries⟩ := copy_into_covered event.pktUpdate carries fits
    rw [if_pos fits, num, entries, if_pos ⟨fits, carries.few⟩]
    rfl
  · rw [if_neg fits, if_neg fun both => fits both.1]

theorem handle_all_defined_iff (lines : List TopologyLine) (myNodeID : Int32) (node : MnpNode)
    (events : List UpdateEvent) (carries : ∀ event ∈ events, CarriesUpdate event.packet) :
    (node.handleAll lines myNodeID events).isSome ↔
      ∀ event ∈ events, event.packet.header.length.toNat ≤ sizeofPktRouteupdate := by
  constructor
  · intro isDefined event member
    by_contra long
    have fails := fold_fails (MnpNode.handle lines myNodeID) events event member
      (fun node => by rw [handle_eq lines myNodeID node (carries event member), if_neg long]) node
    rw [MnpNode.handleAll, fails] at isDefined
    cases isDefined
  · intro fits
    have each : ∀ event ∈ events, ∀ before : MnpNode, True →
        ∃ after, before.handle lines myNodeID event = some after ∧ True := by
      intro event member before _
      rw [handle_eq lines myNodeID before (carries event member), if_pos (fits event member)]
      exact ⟨_, rfl, trivial⟩
    obtain ⟨last, run, _⟩ : ∃ last, node.handleAll lines myNodeID events = some last ∧ True :=
      fold_runs (MnpNode.handle lines myNodeID) (fun _ => True) events each trivial
    rw [run]
    rfl

def RouteupdateEntry.costFor (destNodeID : Int32) (entry : RouteupdateEntry) : Option UInt32 :=
  if entry.nodeID.toInt32 = destNodeID then some entry.cost else none

def MnpPkt.advertised (srcNodeID destNodeID : Int32) (packet : MnpPkt) : Option UInt32 :=
  if packet.header.srcNodeID = srcNodeID then
    packet.routeupdate.entries.reverse.findSome? (RouteupdateEntry.costFor destNodeID)
  else none

def lastAdvertised (srcNodeID destNodeID : Int32) (packets : List MnpPkt) : Option UInt32 :=
  packets.reverse.findSome? (MnpPkt.advertised srcNodeID destNodeID)

theorem entry_rows {lines : List TopologyLine} {myNodeID : Int32} {node : MnpNode}
    (rows : OwnRowLast lines myNodeID node.dvTable) (srcNodeID fresh : Int32)
    (routingUpdate : RouteupdateEntry) :
    OwnRowLast lines myNodeID
      (pkthandlerEntry lines myNodeID srcNodeID fresh node routingUpdate).dvTable := by
  rw [pkthandler_entry_eq]
  cases relaxedCost lines myNodeID srcNodeID node routingUpdate with
  | none => exact setcost_own_row_last rows _ _ _
  | some cost => exact setcost_own_row_last (setcost_own_row_last rows _ _ _) _ _ _

theorem entry_cell_cost {lines : List TopologyLine} {myNodeID : Int32} (node : MnpNode)
    (srcNodeID fresh : Int32) (routingUpdate : RouteupdateEntry) {nbr : Int32}
    (different : nbr ≠ myNodeID) (destNodeID : Int32) :
    cellCost? (pkthandlerEntry lines myNodeID srcNodeID fresh node routingUpdate).dvTable nbr
        destNodeID =
      if srcNodeID = nbr ∧ routingUpdate.nodeID.toInt32 = destNodeID then
        (cellCost? node.dvTable nbr destNodeID).map fun _ => routingUpdate.cost
      else cellCost? node.dvTable nbr destNodeID := by
  have sender : cellCost? (dvtableSetcost srcNodeID routingUpdate.nodeID.toInt32
      routingUpdate.cost node.dvTable).2 nbr destNodeID =
      if srcNodeID = nbr ∧ routingUpdate.nodeID.toInt32 = destNodeID then
        (cellCost? node.dvTable nbr destNodeID).map fun _ => routingUpdate.cost
      else cellCost? node.dvTable nbr destNodeID := by
    split_ifs with written
    · rw [← written.1, ← written.2]
      exact cell_cost_setcost_same _ _ _ _
    · apply cell_cost_setcost_other
      intro same
      obtain ⟨nbrSame, destSame⟩ := Prod.mk.inj same
      exact written ⟨nbrSame.symm, destSame.symm⟩
  rw [← sender, pkthandler_entry_eq]
  cases relaxedCost lines myNodeID srcNodeID node routingUpdate with
  | none => rfl
  | some cost =>
      apply cell_cost_setcost_other
      intro same
      exact different (Prod.mk.inj same).1

theorem handle_rows {lines : List TopologyLine} {myNodeID : Int32} {node after : MnpNode}
    (rows : OwnRowLast lines myNodeID node.dvTable) {event : UpdateEvent}
    (handled : node.handle lines myNodeID event = some after) :
    OwnRowLast lines myNodeID after.dvTable := by
  rw [MnpNode.handle, pkthandlerRouteUpdate] at handled
  split_ifs at handled
  cases handled
  exact List.foldlRecOn (motive := fun node : MnpNode => OwnRowLast lines myNodeID node.dvTable)
    _ _ rows fun _ kept _ _ => entry_rows kept _ _ _

theorem handle_all_rows {lines : List TopologyLine} {myNodeID : Int32} {node after : MnpNode}
    (rows : OwnRowLast lines myNodeID node.dvTable) {events : List UpdateEvent}
    (run : node.handleAll lines myNodeID events = some after) :
    OwnRowLast lines myNodeID after.dvTable :=
  fold_keeps (MnpNode.handle lines myNodeID) (fun node => OwnRowLast lines myNodeID node.dvTable)
    events (fun _ _ _ _ kept handled => handle_rows kept handled) rows run

def MnpNode.rowCost (nbr destNodeID : Int32) (node : MnpNode) : UInt32 :=
  (cellCost? node.dvTable nbr destNodeID).getD infiniteCost

section NeighbourRow

variable {lines : List TopologyLine} {myNodeID nbr destNodeID : Int32}

theorem getcost_row {node : MnpNode} (rows : OwnRowLast lines myNodeID node.dvTable)
    (different : nbr ≠ myNodeID) :
    dvtableGetcost lines myNodeID node.dvTable nbr destNodeID = node.rowCost nbr destNodeID := by
  rw [getcost_cells, searched_cell_cost rows different, MnpNode.rowCost]

theorem entry_row_cost (different : nbr ≠ myNodeID) (srcNodeID fresh : Int32) {node : MnpNode}
    (present : (cellCost? node.dvTable nbr destNodeID).isSome) (routingUpdate : RouteupdateEntry) :
    (cellCost? (pkthandlerEntry lines myNodeID srcNodeID fresh node routingUpdate).dvTable nbr
        destNodeID).isSome ∧
      (pkthandlerEntry lines myNodeID srcNodeID fresh node routingUpdate).rowCost nbr destNodeID =
        (if srcNodeID = nbr then routingUpdate.costFor destNodeID else none).getD
          (node.rowCost nbr destNodeID) := by
  obtain ⟨old, held⟩ := Option.isSome_iff_exists.mp present
  rw [MnpNode.rowCost, MnpNode.rowCost,
    entry_cell_cost node srcNodeID fresh routingUpdate different, held, RouteupdateEntry.costFor]
  by_cases sender : srcNodeID = nbr
  · by_cases mentioned : routingUpdate.nodeID.toInt32 = destNodeID <;> simp [sender, mentioned]
  · simp [sender]

theorem entries_row_cost (different : nbr ≠ myNodeID) (srcNodeID : Int32) (fresh : Nat → Int32)
    {node : MnpNode} (present : (cellCost? node.dvTable nbr destNodeID).isSome)
    (entries : List RouteupdateEntry) :
    (cellCost? (node.handleEntries lines myNodeID srcNodeID fresh entries.zipIdx).dvTable nbr
        destNodeID).isSome ∧
      (node.handleEntries lines myNodeID srcNodeID fresh entries.zipIdx).rowCost nbr destNodeID =
        (if srcNodeID = nbr then
          entries.reverse.findSome? (RouteupdateEntry.costFor destNodeID)
        else none).getD (node.rowCost nbr destNodeID) := by
  have run := fold_total (MnpNode.handleTurn lines myNodeID srcNodeID fresh) entries.zipIdx node
  have written := fold_last_write _ (MnpNode.rowCost nbr destNodeID)
    (fun item : RouteupdateEntry × Nat =>
      if srcNodeID = nbr then item.1.costFor destNodeID else none)
    (fun node => (cellCost? node.dvTable nbr destNodeID).isSome) entries.zipIdx
    (fun item _ before after kept stepped => by
      cases stepped
      exact entry_row_cost different srcNodeID (fresh item.2) kept item.1)
    present run
  have indexed : entries.reverse = entries.zipIdx.reverse.map Prod.fst := by
    rw [List.map_reverse, List.zipIdx_map_fst]
  refine ⟨written.1, written.2.trans ?_⟩
  rw [indexed, List.findSome?_map]
  split_ifs with sender
  · rfl
  · rw [List.findSome?_eq_none_iff.mpr fun _ _ => rfl]

theorem run_row_cost (different : nbr ≠ myNodeID) {node after : MnpNode}
    (present : (cellCost? node.dvTable nbr destNodeID).isSome) {events : List UpdateEvent}
    (carries : ∀ event ∈ events, CarriesUpdate event.packet)
    (run : node.handleAll lines myNodeID events = some after) :
    after.rowCost nbr destNodeID =
      (lastAdvertised nbr destNodeID (events.map UpdateEvent.packet)).getD
        (node.rowCost nbr destNodeID) := by
  have written := fold_last_write (MnpNode.handle lines myNodeID) (MnpNode.rowCost nbr destNodeID)
    (fun event => event.packet.advertised nbr destNodeID)
    (fun node => (cellCost? node.dvTable nbr destNodeID).isSome) events
    (fun event member before after kept handled => by
      rw [handle_eq lines myNodeID before (carries event member)] at handled
      split_ifs at handled
      cases handled
      exact entries_row_cost different _ _ kept _)
    present run
  rw [written.2, lastAdvertised, ← List.map_reverse, List.findSome?_map]
  rfl

end NeighbourRow

/-- The row of a neighbour holds what this neighbour advertised last, whatever
else was handled. A run is undefined only by a packet longer than its variable. -/
theorem neighbour_row_last_advertised (lines : List TopologyLine) (myNodeID : Int32)
    (node : MnpNode) (events : List UpdateEvent) (shape : DvShape lines myNodeID node.dvTable)
    (carries : ∀ event ∈ events, CarriesUpdate event.packet) :
    ((node.handleAll lines myNodeID events).isSome ↔
        ∀ event ∈ events, event.packet.header.length.toNat ≤ sizeofPktRouteupdate) ∧
      ∀ after, node.handleAll lines myNodeID events = some after →
        ∀ nbr ∈ topologyGetNbrArray lines myNodeID, ∀ destNodeID,
          (∃ row ∈ node.dvTable, row.nodeID = nbr ∧
            ∃ entry ∈ row.dvEntry, entry.nodeID = destNodeID) →
          dvtableGetcost lines myNodeID after.dvTable nbr destNodeID =
            (lastAdvertised nbr destNodeID (events.map UpdateEvent.packet)).getD
              (dvtableGetcost lines myNodeID node.dvTable nbr destNodeID) := by
  refine ⟨handle_all_defined_iff lines myNodeID node events carries, ?_⟩
  intro after run nbr isNbr destNodeID listed
  have distinct := shape.distinct
  rw [shape.rows] at distinct
  have different : nbr ≠ myNodeID := by
    rintro rfl
    exact List.disjoint_of_nodup_append distinct isNbr (List.mem_singleton_self nbr)
  have present := (cell_cost_some_iff node.dvTable nbr destNodeID).mpr listed
  rw [getcost_row (handle_all_rows shape.rows run) different, getcost_row shape.rows different,
    run_row_cost different present carries run]

def updatePacket (srcNodeID : Int32) (pktUpdate : PktRouteupdate) : MnpPkt where
  header := ⟨srcNodeID, broadcastNodeID, UInt16.ofNat sizeofPktRouteupdate, PktType.routeUpdate⟩
  data := padVector maxPktLen (pktRouteupdateCodec.encode pktUpdate)

theorem update_packet_routeupdate (srcNodeID : Int32) (pktUpdate : PktRouteupdate) :
    (updatePacket srcNodeID pktUpdate).routeupdate = pktUpdate := by
  have width := pktRouteupdateCodec.encode_length pktUpdate
  have copied := pad_vector_take maxPktLen (pktRouteupdateCodec.encode pktUpdate) (by
    rw [width]
    decide)
  rw [width] at copied
  rw [MnpPkt.routeupdate, updatePacket, sizeofPktRouteupdate, copied,
    pktRouteupdateCodec.decode_encode]

theorem update_packet_carries (srcNodeID : Int32) (pktUpdate : PktRouteupdate)
    (few : pktUpdate.entryNum.toNat ≤ maxNodeNum) :
    CarriesUpdate (updatePacket srcNodeID pktUpdate) := by
  constructor
  · rw [update_packet_routeupdate]
    exact few
  · have most := Nat.mul_le_mul_left sizeofRouteupdateEntry few
    have size : sizeofEntryNum + sizeofRouteupdateEntry * maxNodeNum = sizeofPktRouteupdate := rfl
    have length : (updatePacket srcNodeID pktUpdate).header.length.toNat =
        sizeofPktRouteupdate := UInt16.toNat_ofNat_of_lt' (by decide)
    rw [update_packet_routeupdate, length]
    omega

def singleUpdate (destNodeID cost : UInt32) : PktRouteupdate := ⟨1, fun _ => ⟨destNodeID, cost⟩⟩

def singleEvent (srcNodeID : Int32) (destNodeID cost : UInt32) : UpdateEvent where
  packet := updatePacket srcNodeID (singleUpdate destNodeID cost)
  pktUpdate := singleUpdate 0 0
  fresh _ := 0

theorem single_event_carries (srcNodeID : Int32) (destNodeID cost : UInt32) :
    CarriesUpdate (singleEvent srcNodeID destNodeID cost).packet :=
  update_packet_carries srcNodeID (singleUpdate destNodeID cost)
    (by decide : (1 : UInt32).toNat ≤ maxNodeNum)

theorem single_event_fits (srcNodeID : Int32) (destNodeID cost : UInt32) :
    (singleEvent srcNodeID destNodeID cost).packet.header.length.toNat ≤ sizeofPktRouteupdate :=
  (by decide : (UInt16.ofNat sizeofPktRouteupdate).toNat ≤ sizeofPktRouteupdate)

theorem single_event_entries (srcNodeID : Int32) (destNodeID cost : UInt32) :
    (singleEvent srcNodeID destNodeID cost).packet.routeupdate.entries = [⟨destNodeID, cost⟩] := by
  rw [singleEvent, update_packet_routeupdate]
  rfl

theorem single_event_advertised (srcNodeID nbr dest : Int32) (destNodeID cost : UInt32) :
    (singleEvent srcNodeID destNodeID cost).packet.advertised nbr dest =
      if srcNodeID = nbr ∧ destNodeID.toInt32 = dest then some cost else none := by
  have source : (singleEvent srcNodeID destNodeID cost).packet.header.srcNodeID = srcNodeID := rfl
  rw [MnpPkt.advertised, single_event_entries, source, ite_and, List.reverse_singleton,
    List.findSome?_singleton, RouteupdateEntry.costFor]

/-- Neighbour 2 advertises two costs to node 1, and then a cost for itself and the unknown
node 9 another one. -/
def pairUpdates : List UpdateEvent :=
  [singleEvent 2 1 7, singleEvent 2 1 4, singleEvent 2 2 3, singleEvent 9 1 6]

theorem pair_row_last_advertised :
    ∃ after, pairNode.handleAll [⟨1, 2, 1⟩] 1 pairUpdates = some after ∧
      dvtableGetcost [⟨1, 2, 1⟩] 1 after.dvTable 2 1 = 4 ∧
      dvtableGetcost [⟨1, 2, 1⟩] 1 after.dvTable 2 2 = 3 := by
  obtain ⟨isDefined, advertised⟩ := neighbour_row_last_advertised [⟨1, 2, 1⟩] 1 pairNode
    pairUpdates pair_table_shape (by simp [pairUpdates, single_event_carries])
  obtain ⟨after, run⟩ := Option.isSome_iff_exists.mp
    (isDefined.mpr (by simp [pairUpdates, single_event_fits]))
  refine ⟨after, run, ?_, ?_⟩
  · rw [advertised after run 2 (by decide) 1 (by decide)]
    simp [lastAdvertised, pairUpdates, single_event_advertised]
  · rw [advertised after run 2 (by decide) 2 (by decide)]
    simp [lastAdvertised, pairUpdates, single_event_advertised]
end MiniOverlay
