import MiniOverlay.NeighborArrays
import Mathlib.Data.Finset.Card
import Mathlib.Logic.Function.Basic

/-!
# Setting up the overlay

`connectNbrs` and `waitNbrs` of `overlay/overlay.c` on all nodes at once. A step is one
turn of one of the two loops, and the turns of different threads come in any order. A
connection whose `connect` has succeeded waits at the other node until it is accepted,
and any of the waiting connections can be the next one. Turns whose `socket`, `connect`
or `accept` fails are left out.
-/

namespace MiniOverlay

set_option autoImplicit false

def SamePair (line other : TopologyLine) : Prop :=
  line.nodeID1 = other.nodeID1 ∧ line.nodeID2 = other.nodeID2 ∨
    line.nodeID1 = other.nodeID2 ∧ line.nodeID2 = other.nodeID1

instance (line other : TopologyLine) : Decidable (SamePair line other) :=
  inferInstanceAs (Decidable (_ ∨ _))

/-- A file that every node reads, with one address for every node, no self-link and
every pair of nodes on at most one line. -/
structure OverlayFile where
  file : List HostLine
  address : Int32 → InAddr
  resolved : ∀ line ∈ file, line.address1 = address line.nodeID1 ∧
    line.address2 = address line.nodeID2
  identified : ∀ nodeID ∈ topologyNodes (hostNodes file),
    topologyGetNodeIDfromip (address nodeID) = nodeID
  positive : ∀ line ∈ file, 0 < line.nodeID1 ∧ 0 < line.nodeID2
  apart : ∀ line ∈ file, line.nodeID1 ≠ line.nodeID2
  once : (hostNodes file).Pairwise fun line later => ¬ SamePair line later

namespace OverlayFile

variable (overlay : OverlayFile)

def nodes : List Int32 := topologyNodes (hostNodes overlay.file)

def nbrs (myNodeID : Int32) : List Int32 := topologyGetNbrArray (hostNodes overlay.file) myNodeID

end OverlayFile

def ntAddconn (nodeID conn : Int32) :
    List AddressedNbrEntry → Int × List AddressedNbrEntry
  | [] => (-1, [])
  | entry :: entries =>
      let later := ntAddconn nodeID conn entries
      if entry.nodeID ≤ 0 then (later.1, entry :: later.2)
      else if entry.nodeID = nodeID then (1, { entry with conn := conn } :: entries)
      else (later.1, entry :: later.2)

/-- The counter of `waitNbrs` before its loop. -/
def waitNbrsCounter (lines : List TopologyLine) (myNodeID : Int32) : Nat :=
  (topologyGetNbrArray lines myNodeID).countP fun nbr => myNodeID < nbr

inductive ConnectNbrs where
  | turn (i : Nat)
  | returned (status : Int)
  deriving DecidableEq

/-- The ON process of one node. `pending` are the peers of the connections that wait
to be accepted, and `sockets` has the peer of every connection by its descriptor. -/
structure SetupHost where
  nt : List AddressedNbrEntry
  connecting : ConnectNbrs
  counter : Nat
  pending : List InAddr
  sockets : List (Int32 × InAddr)
  deriving DecidableEq

abbrev Setup := Int32 → SetupHost

def SetupHost.Fresh (host : SetupHost) (socketFd : Int32) : Prop :=
  0 ≤ socketFd ∧ socketFd ∉ host.sockets.map Prod.fst

instance (host : SetupHost) (socketFd : Int32) : Decidable (host.Fresh socketFd) :=
  inferInstanceAs (Decidable (_ ∧ _))

theorem SetupHost.Fresh.connected {host : SetupHost} {socketFd : Int32}
    (fresh : host.Fresh socketFd) : socketFd ≠ -1 := by
  rintro rfl
  exact absurd fresh.1 (by decide)

/-- `connectNbrs` behind a successful `connect`. -/
def SetupHost.connects (host : SetupHost) (i : Nat) (nodeIP : InAddr) (socketFd : Int32) :
    SetupHost :=
  let added := ntAddconn (topologyGetNodeIDfromip nodeIP) socketFd host.nt
  { host with
    nt := added.2
    connecting := if added.1 < 0 then .returned (-1) else .turn (i + 1)
    sockets := host.sockets ++ [(socketFd, nodeIP)] }

/-- `waitNbrs` behind a successful `accept`; a failed `nt_addconn` is only printed. -/
def SetupHost.accepts (host : SetupHost) (peer : InAddr) (socketFd : Int32) : SetupHost :=
  { host with
    nt := (ntAddconn (topologyGetNodeIDfromip peer) socketFd host.nt).2
    counter := host.counter - 1
    pending := host.pending.erase peer
    sockets := host.sockets ++ [(socketFd, peer)] }

def SetupHost.queues (host : SetupHost) (client : InAddr) : SetupHost :=
  { host with pending := host.pending ++ [client] }

inductive SetupEvent where
  | connectTurn (nodeID socketFd : Int32)
  | acceptTurn (nodeID : Int32) (peer : InAddr) (socketFd : Int32)

namespace OverlayFile

variable (overlay : OverlayFile)

/-- One turn of the loop of `connectNbrs`, or its end. -/
def connectTurn (hosts : Setup) (myNodeID socketFd : Int32) : Option Setup :=
  let host := hosts myNodeID
  match host.connecting with
  | .returned _ => none
  | .turn i =>
      match host.nt[i]? with
      | none => some (Function.update hosts myNodeID { host with connecting := .returned 1 })
      | some entry =>
          if myNodeID > entry.nodeID then
            if host.Fresh socketFd then
              (overlay.nodes.find? fun nodeID => overlay.address nodeID = entry.nodeIP).map
                fun peer =>
                  let after := Function.update hosts myNodeID
                    (host.connects i entry.nodeIP socketFd)
                  Function.update after peer ((after peer).queues (overlay.address myNodeID))
            else none
          else some (Function.update hosts myNodeID { host with connecting := .turn (i + 1) })

/-- One turn of the loop of `waitNbrs`. -/
def acceptTurn (hosts : Setup) (myNodeID : Int32) (peer : InAddr) (socketFd : Int32) :
    Option Setup :=
  let host := hosts myNodeID
  if 0 < host.counter ∧ peer ∈ host.pending ∧ host.Fresh socketFd then
    some (Function.update hosts myNodeID (host.accepts peer socketFd))
  else none

def setupStep (hosts : Setup) : SetupEvent → Option Setup
  | .connectTurn nodeID socketFd => overlay.connectTurn hosts nodeID socketFd
  | .acceptTurn nodeID peer socketFd => acceptTurn hosts nodeID peer socketFd

def setupStart : Setup := fun nodeID =>
  ⟨ntEntries overlay.file nodeID, .turn 0,
    waitNbrsCounter (hostNodes overlay.file) nodeID, [], []⟩

/-- `connectNbrs` has returned and `waitNbrs` has accepted all it waits for. -/
def SetUp (hosts : Setup) : Prop :=
  ∀ nodeID ∈ overlay.nodes, (hosts nodeID).counter = 0 ∧
    ∃ status, (hosts nodeID).connecting = .returned status

def ConnectsTo (client server : Int32) : Prop :=
  ∃ entry ∈ ntEntries overlay.file client, client > entry.nodeID ∧
    entry.nodeIP = overlay.address server

instance (client server : Int32) : Decidable (overlay.ConnectsTo client server) :=
  inferInstanceAs (Decidable (∃ entry ∈ _, _))

theorem host_line_of_line {line : TopologyLine} (member : line ∈ hostNodes overlay.file) :
    ∃ hostLine ∈ overlay.file, hostLine.toTopologyLine = line :=
  List.mem_map.mp member

theorem lines_apart (line : TopologyLine) (member : line ∈ hostNodes overlay.file) :
    line.nodeID1 ≠ line.nodeID2 := by
  obtain ⟨hostLine, inFile, rfl⟩ := overlay.host_line_of_line member
  exact overlay.apart hostLine inFile

theorem mem_nbrs_iff (myNodeID nbr : Int32) :
    nbr ∈ overlay.nbrs myNodeID ↔ Linked (hostNodes overlay.file) myNodeID nbr :=
  nbr_array_linked_iff overlay.lines_apart myNodeID nbr

variable {overlay} {u v w : Int32}

theorem nbrs_symm (nbr : w ∈ overlay.nbrs u) : u ∈ overlay.nbrs w :=
  (overlay.mem_nbrs_iff w u).mpr (linked_symm ((overlay.mem_nbrs_iff u w).mp nbr))

theorem nbr_is_node (nbr : w ∈ overlay.nbrs u) : w ∈ overlay.nodes :=
  (linked_nodes u w ((overlay.mem_nbrs_iff u w).mp nbr)).2

theorem node_positive (node : u ∈ overlay.nodes) : 0 < u := by
  obtain ⟨line, member, ends⟩ := (mem_topology_nodes_iff _ _).mp node
  obtain ⟨hostLine, inFile, rfl⟩ := overlay.host_line_of_line member
  rcases ends with rfl | rfl
  · exact (overlay.positive hostLine inFile).1
  · exact (overlay.positive hostLine inFile).2

theorem address_injective (left : u ∈ overlay.nodes) (right : w ∈ overlay.nodes)
    (same : overlay.address u = overlay.address w) : u = w := by
  rw [← overlay.identified u left, ← overlay.identified w right, same]

theorem nbr_of_line_linked {line : TopologyLine} {myNodeID nbr : Int32}
    (found : nbrOfLine myNodeID line = some nbr) :
    line.nodeID1 = myNodeID ∧ line.nodeID2 = nbr ∨
      line.nodeID1 = nbr ∧ line.nodeID2 = myNodeID := by
  unfold nbrOfLine at found
  split_ifs at found with first second
  · exact Or.inl ⟨first, Option.some.inj found⟩
  · exact Or.inr ⟨Option.some.inj found, second.symm⟩

variable (overlay) in
theorem nbrs_nodup (myNodeID : Int32) : (overlay.nbrs myNodeID).Nodup := by
  rw [nbrs, ← nbr_array_eq]
  refine List.Pairwise.filterMap (nbrOfLine myNodeID) ?_ overlay.once
  intro line later different nbr found other foundLater same
  subst same
  rcases nbr_of_line_linked found with ends | ends <;>
    rcases nbr_of_line_linked foundLater with laterEnds | laterEnds <;>
    exact different (by simp [SamePair, ends, laterEnds])

theorem nbr_apart (nbr : w ∈ overlay.nbrs u) : u ≠ w := by
  obtain ⟨line, member, ends⟩ := (overlay.mem_nbrs_iff u w).mp nbr
  have apart := overlay.lines_apart line member
  rcases ends with ⟨rfl, rfl⟩ | ⟨rfl, rfl⟩
  · exact apart
  · exact apart.symm

theorem nbr_positive (nbr : w ∈ overlay.nbrs u) : 0 < w := node_positive (nbr_is_node nbr)

theorem nbr_of_ip (nbr : w ∈ overlay.nbrs u) :
    topologyGetNodeIDfromip (overlay.address w) = w :=
  overlay.identified w (nbr_is_node nbr)

variable (overlay) in
def table (myNodeID : Int32) (conns : Int32 → Int32) : List AddressedNbrEntry :=
  (overlay.nbrs myNodeID).map fun nbr => ⟨⟨nbr, conns nbr⟩, overlay.address nbr⟩

variable (overlay) in
theorem nt_entries_table (myNodeID : Int32) :
    ntEntries overlay.file myNodeID = overlay.table myNodeID fun _ => -1 := by
  have entries : ∀ line ∈ overlay.file, ntEntryOfLine myNodeID line =
      (nbrOfLine myNodeID line.toTopologyLine).map
        fun nbr => ⟨⟨nbr, -1⟩, overlay.address nbr⟩ := by
    intro line member
    have addresses := overlay.resolved line member
    unfold ntEntryOfLine nbrOfLine
    by_cases first : line.nodeID1 = myNodeID
    · simp [first, addresses]
    · by_cases second : line.nodeID2 = myNodeID
      · simp [first, second, addresses]
      · simp [first, second, Ne.symm second]
  rw [ntEntries, table, nbrs, ← nbr_array_eq, hostNodes, List.filterMap_map, List.map_filterMap]
  exact List.filterMap_congr entries

theorem add_conn_entries (address : Int32 → InAddr) (conns : Int32 → Int32) (nbrs : List Int32)
    (positive : ∀ nbr ∈ nbrs, 0 < nbr) (distinct : nbrs.Nodup) (nodeID conn : Int32)
    (member : nodeID ∈ nbrs) :
    ntAddconn nodeID conn (nbrs.map fun nbr => ⟨⟨nbr, conns nbr⟩, address nbr⟩) =
      (1, nbrs.map fun nbr => ⟨⟨nbr, Function.update conns nodeID conn nbr⟩, address nbr⟩) := by
  induction nbrs with
  | nil => cases member
  | cons nbr nbrs ih =>
      have notEmpty : ¬ nbr ≤ 0 := Int32.not_le.mpr (positive nbr (by simp))
      rw [List.map_cons, ntAddconn, List.map_cons]
      simp only [if_neg notEmpty]
      by_cases here : nbr = nodeID
      · subst here
        have others : ∀ other ∈ nbrs, Function.update conns nbr conn other = conns other :=
          fun other later => Function.update_of_ne (by
            rintro rfl
            exact (List.nodup_cons.mp distinct).1 later) _ _
        rw [if_pos rfl, Function.update_self]
        exact congrArg (fun rest => (1, _ :: rest))
          (List.map_congr_left fun other later => by rw [others other later])
      · have later : nodeID ∈ nbrs := (List.mem_cons.mp member).resolve_left (Ne.symm here)
        rw [if_neg here, ih (fun other inRest => positive other (by simp [inRest]))
          (List.nodup_cons.mp distinct).2 later, Function.update_of_ne here]

theorem add_conn_table (conns : Int32 → Int32) (conn : Int32) (nbr : w ∈ overlay.nbrs u) :
    ntAddconn w conn (overlay.table u conns) =
      (1, overlay.table u (Function.update conns w conn)) :=
  add_conn_entries overlay.address conns (overlay.nbrs u) (fun _ member => nbr_positive member)
    (overlay.nbrs_nodup u) w conn nbr

end OverlayFile

/-- The loop is past its turn `i`. -/
def ConnectNbrs.Passed (connecting : ConnectNbrs) (i : Nat) : Prop :=
  match connecting with
  | .turn next => i < next
  | .returned _ => True

/-- The node has the descriptors `conns`, -1 for a neighbour without connection. -/
structure SetupHost.Knows (overlay : OverlayFile) (myNodeID : Int32) (host : SetupHost)
    (conns : Int32 → Int32) : Prop where
  table : host.nt = overlay.table myNodeID conns
  peer : ∀ nbr ∈ overlay.nbrs myNodeID, conns nbr ≠ -1 →
    (conns nbr, overlay.address nbr) ∈ host.sockets
  descriptors : (host.sockets.map Prod.fst).Nodup
  passed : ∀ (i : Nat) (nbr : Int32), (overlay.nbrs myNodeID)[i]? = some nbr → nbr < myNodeID →
    (conns nbr ≠ -1 ↔ host.connecting.Passed i)
  succeeded : ∀ status, host.connecting = .returned status → status = 1
  pendingOnce : host.pending.Nodup
  pendingFrom : ∀ peer ∈ host.pending, ∃ nbr ∈ overlay.nbrs myNodeID, myNodeID < nbr ∧
    overlay.address nbr = peer ∧ conns nbr = -1
  waits : host.counter = (overlay.nbrs myNodeID).countP fun nbr => myNodeID < nbr ∧ conns nbr = -1

namespace SetupHost.Knows

variable {overlay : OverlayFile} {myNodeID nbr socketFd : Int32} {host : SetupHost}
  {conns : Int32 → Int32} {i : Nat}

theorem starts (overlay : OverlayFile) (myNodeID : Int32) :
    (overlay.setupStart myNodeID).Knows overlay myNodeID fun _ => -1 := by
  constructor
  case table => exact overlay.nt_entries_table myNodeID
  case peer => exact fun _ _ known => absurd rfl known
  case descriptors => exact List.nodup_nil
  case passed => simp [OverlayFile.setupStart, ConnectNbrs.Passed]
  case succeeded =>
    intro status returned
    cases returned
  case pendingOnce => exact List.nodup_nil
  case pendingFrom => simp [OverlayFile.setupStart]
  case waits => simp [OverlayFile.setupStart, waitNbrsCounter, OverlayFile.nbrs]

theorem finishes (knows : host.Knows overlay myNodeID conns) (turn : host.connecting = .turn i)
    (ended : (overlay.nbrs myNodeID)[i]? = none) :
    ({ host with connecting := .returned 1 } : SetupHost).Knows overlay myNodeID conns := by
  refine { knows with passed := ?_, succeeded := ?_ }
  · intro j nbr held smaller
    have before : j < i := by
      have inside := (List.getElem?_eq_some_iff.mp held).1
      have outside := List.getElem?_eq_none_iff.mp ended
      omega
    rw [knows.passed j nbr held smaller, turn]
    simp [ConnectNbrs.Passed, before]
  · intro status returned
    cases returned
    rfl

theorem skips (knows : host.Knows overlay myNodeID conns) (turn : host.connecting = .turn i)
    (held : (overlay.nbrs myNodeID)[i]? = some nbr) (larger : ¬ nbr < myNodeID) :
    ({ host with connecting := .turn (i + 1) } : SetupHost).Knows overlay myNodeID conns := by
  refine { knows with passed := ?_, succeeded := ?_ }
  · intro j other otherHeld smaller
    have different : j ≠ i := by
      rintro rfl
      rw [held] at otherHeld
      cases otherHeld
      exact larger smaller
    rw [knows.passed j other otherHeld smaller, turn]
    simp only [ConnectNbrs.Passed]
    omega
  · intro status returned
    cases returned

theorem queues (knows : host.Knows overlay myNodeID conns) (member : nbr ∈ overlay.nbrs myNodeID)
    (larger : myNodeID < nbr) (free : conns nbr = -1)
    (fresh : overlay.address nbr ∉ host.pending) :
    (host.queues (overlay.address nbr)).Knows overlay myNodeID conns := by
  refine { knows with pendingOnce := ?_, pendingFrom := ?_ }
  · exact knows.pendingOnce.append (List.nodup_singleton _) (List.disjoint_singleton.mpr fresh)
  · intro peer inPending
    rcases List.mem_append.mp inPending with old | new
    · exact knows.pendingFrom peer old
    · exact ⟨nbr, member, larger, (List.mem_singleton.mp new).symm, free⟩

theorem added (knows : host.Knows overlay myNodeID conns) (member : nbr ∈ overlay.nbrs myNodeID) :
    ntAddconn (topologyGetNodeIDfromip (overlay.address nbr)) socketFd host.nt =
      (1, overlay.table myNodeID (Function.update conns nbr socketFd)) := by
  rw [OverlayFile.nbr_of_ip member, knows.table, OverlayFile.add_conn_table conns socketFd member]

theorem peer_added (knows : host.Knows overlay myNodeID conns) (other : Int32)
    (member : other ∈ overlay.nbrs myNodeID)
    (known : Function.update conns nbr socketFd other ≠ -1) :
    (Function.update conns nbr socketFd other, overlay.address other) ∈
      host.sockets ++ [(socketFd, overlay.address nbr)] := by
  by_cases same : other = nbr
  · subst same
    simp
  · rw [Function.update_of_ne same] at known ⊢
    exact List.mem_append_left _ (knows.peer other member known)

theorem descriptors_added (knows : host.Knows overlay myNodeID conns)
    (fresh : host.Fresh socketFd) (peer : InAddr) :
    ((host.sockets ++ [(socketFd, peer)]).map Prod.fst).Nodup := by
  rw [List.map_append]
  exact knows.descriptors.append (List.nodup_singleton _) (List.disjoint_singleton.mpr fresh.2)

theorem connects (knows : host.Knows overlay myNodeID conns) (turn : host.connecting = .turn i)
    (held : (overlay.nbrs myNodeID)[i]? = some nbr) (smaller : nbr < myNodeID)
    (fresh : host.Fresh socketFd) :
    (host.connects i (overlay.address nbr) socketFd).Knows overlay myNodeID
      (Function.update conns nbr socketFd) := by
  have member := List.mem_of_getElem? held
  have did : host.connects i (overlay.address nbr) socketFd =
      { host with
        nt := overlay.table myNodeID (Function.update conns nbr socketFd)
        connecting := .turn (i + 1)
        sockets := host.sockets ++ [(socketFd, overlay.address nbr)] } := by
    rw [SetupHost.connects, knows.added member]
    rfl
  have connected := fresh.connected
  rw [did]
  constructor
  case table => rfl
  case peer => exact knows.peer_added
  case descriptors => exact knows.descriptors_added fresh _
  case passed =>
    intro j other otherHeld otherSmaller
    by_cases same : other = nbr
    · subst same
      have sameTurn : j = i :=
        (List.getElem?_inj (List.getElem?_eq_some_iff.mp otherHeld).1
          (overlay.nbrs_nodup myNodeID)).mp (otherHeld.trans held.symm)
      simp [connected, sameTurn, ConnectNbrs.Passed]
    · have different : j ≠ i := by
        rintro rfl
        rw [held] at otherHeld
        exact same (Option.some.inj otherHeld).symm
      rw [Function.update_of_ne same, knows.passed j other otherHeld otherSmaller, turn]
      simp only [ConnectNbrs.Passed]
      omega
  case succeeded =>
    intro status returned
    cases returned
  case pendingOnce => exact knows.pendingOnce
  case pendingFrom =>
    intro peer inPending
    obtain ⟨other, otherMember, larger, isPeer, free⟩ := knows.pendingFrom peer inPending
    have different : other ≠ nbr := by
      rintro rfl
      exact absurd smaller (Int32.lt_asymm larger)
    exact ⟨other, otherMember, larger, isPeer, by rwa [Function.update_of_ne different]⟩
  case waits =>
    refine knows.waits.trans (List.countP_congr fun other _ => ?_)
    by_cases same : other = nbr
    · subst same
      simp [Int32.lt_asymm smaller]
    · simp [Function.update_of_ne same]

theorem count_struck {nodeIDs : List Int32} (distinct : nodeIDs.Nodup) {nodeID : Int32}
    (member : nodeID ∈ nodeIDs) (before after : Int32 → Bool) (counted : before nodeID = true)
    (struck : after nodeID = false) (others : ∀ other ≠ nodeID, before other = after other) :
    nodeIDs.countP after = nodeIDs.countP before - 1 := by
  have rest : (nodeIDs.erase nodeID).countP after = (nodeIDs.erase nodeID).countP before :=
    List.countP_congr fun other inRest => by
      rw [others other (distinct.mem_erase_iff.mp inRest).1]
  rw [(List.perm_cons_erase member).countP_eq after, (List.perm_cons_erase member).countP_eq before,
    List.countP_cons_of_neg (by simp [struck]), List.countP_cons_of_pos counted, rest,
    Nat.add_sub_cancel]

theorem accepts (knows : host.Knows overlay myNodeID conns) (member : nbr ∈ overlay.nbrs myNodeID)
    (larger : myNodeID < nbr) (free : conns nbr = -1) (fresh : host.Fresh socketFd) :
    (host.accepts (overlay.address nbr) socketFd).Knows overlay myNodeID
      (Function.update conns nbr socketFd) := by
  have did : host.accepts (overlay.address nbr) socketFd =
      { host with
        nt := overlay.table myNodeID (Function.update conns nbr socketFd)
        counter := host.counter - 1
        pending := host.pending.erase (overlay.address nbr)
        sockets := host.sockets ++ [(socketFd, overlay.address nbr)] } := by
    rw [SetupHost.accepts, knows.added member]
  have connected := fresh.connected
  rw [did]
  constructor
  case table => rfl
  case peer => exact knows.peer_added
  case descriptors => exact knows.descriptors_added fresh _
  case passed =>
    intro j other held smaller
    have different : other ≠ nbr := by
      rintro rfl
      exact absurd smaller (Int32.lt_asymm larger)
    rw [Function.update_of_ne different]
    exact knows.passed j other held smaller
  case succeeded => exact knows.succeeded
  case pendingOnce => exact knows.pendingOnce.erase _
  case pendingFrom =>
    intro peer inPending
    obtain ⟨notAccepted, wasPending⟩ := knows.pendingOnce.mem_erase_iff.mp inPending
    obtain ⟨other, otherMember, otherLarger, isPeer, otherFree⟩ := knows.pendingFrom peer wasPending
    have different : other ≠ nbr := by
      rintro rfl
      exact notAccepted isPeer.symm
    exact ⟨other, otherMember, otherLarger, isPeer, by rwa [Function.update_of_ne different]⟩
  case waits =>
    rw [knows.waits]
    refine (count_struck (overlay.nbrs_nodup myNodeID) member _ _ ?_ ?_ ?_).symm
    · simp [larger, free]
    · simp [connected]
    · intro other different
      simp [Function.update_of_ne different]

end SetupHost.Knows

namespace OverlayFile

variable (overlay : OverlayFile)

/-- Every node knows its descriptors, and a node has been connected to exactly when the
connection is in its table or waits to be accepted. -/
structure Consistent (hosts : Setup) (conn : Int32 → Int32 → Int32) : Prop where
  knows : ∀ nodeID, (hosts nodeID).Knows overlay nodeID (conn nodeID)
  arrived : ∀ nodeID, ∀ nbr ∈ overlay.nbrs nodeID, nodeID < nbr →
    (conn nbr nodeID ≠ -1 ↔
      (conn nodeID nbr ≠ -1 ∨ overlay.address nbr ∈ (hosts nodeID).pending))

theorem start_consistent : overlay.Consistent overlay.setupStart fun _ _ => -1 where
  knows := SetupHost.Knows.starts overlay
  arrived := by simp [setupStart]

variable {overlay} {hosts next : Setup} {conn : Int32 → Int32 → Int32} {u v w socketFd : Int32}

theorem update_pair_other {client server : Int32} (different : u = client → w ≠ server) :
    Function.update conn client (Function.update (conn client) server socketFd) u w = conn u w := by
  by_cases same : u = client
  · subst same
    rw [Function.update_self, Function.update_of_ne (different rfl)]
  · rw [Function.update_of_ne same]

theorem Consistent.turns (consistent : overlay.Consistent hosts conn) {host : SetupHost}
    (knows : host.Knows overlay v (conn v)) (pending : host.pending = (hosts v).pending) :
    overlay.Consistent (Function.update hosts v host) conn where
  knows := by
    intro nodeID
    by_cases same : nodeID = v
    · subst same
      rwa [Function.update_self]
    · rw [Function.update_of_ne same]
      exact consistent.knows nodeID
  arrived := by
    intro nodeID nbr member larger
    rw [consistent.arrived nodeID nbr member larger]
    by_cases same : nodeID = v
    · subst same
      rw [Function.update_self, pending]
    · rw [Function.update_of_ne same]

theorem find_address (node : w ∈ overlay.nodes) :
    (overlay.nodes.find? fun nodeID => overlay.address nodeID = overlay.address w) = some w := by
  cases found : overlay.nodes.find? fun nodeID => overlay.address nodeID = overlay.address w with
  | none =>
      have absent := List.find?_eq_none.mp found w node
      simp at absent
  | some other =>
      have sameAddress : overlay.address other = overlay.address w := by
        simpa using List.find?_some found
      rw [address_injective (List.mem_of_find?_eq_some found) node sameAddress]

theorem Consistent.connects (consistent : overlay.Consistent hosts conn) {i : Nat}
    (turn : (hosts v).connecting = .turn i) (held : (overlay.nbrs v)[i]? = some w)
    (smaller : w < v) (fresh : (hosts v).Fresh socketFd) :
    overlay.Consistent
      (Function.update
        (Function.update hosts v ((hosts v).connects i (overlay.address w) socketFd))
        w ((hosts w).queues (overlay.address v)))
      (Function.update conn v (Function.update (conn v) w socketFd)) := by
  have nbr := List.mem_of_getElem? held
  have back := nbrs_symm nbr
  have apart : w ≠ v := Int32.ne_of_lt smaller
  have unconnected : conn v w = -1 := by
    have passed := (consistent.knows v).passed i w held smaller
    rw [turn] at passed
    simpa [ConnectNbrs.Passed] using passed
  have notArrived := consistent.arrived w v back smaller
  rw [unconnected] at notArrived
  have free : conn w v = -1 := by simpa using fun connected => notArrived.mpr (Or.inl connected)
  have notPending : overlay.address v ∉ (hosts w).pending := fun waiting =>
    notArrived.mpr (Or.inr waiting) rfl
  constructor
  case knows =>
    intro nodeID
    by_cases isServer : nodeID = w
    · subst isServer
      rw [Function.update_self, Function.update_of_ne apart]
      exact (consistent.knows nodeID).queues back smaller free notPending
    · rw [Function.update_of_ne isServer]
      by_cases isClient : nodeID = v
      · subst isClient
        rw [Function.update_self, Function.update_self]
        exact (consistent.knows nodeID).connects turn held smaller fresh
      · rw [Function.update_of_ne isClient, Function.update_of_ne isClient]
        exact consistent.knows nodeID
  case arrived =>
    intro nodeID other member larger
    by_cases opened : nodeID = w ∧ other = v
    · obtain ⟨rfl, rfl⟩ := opened
      rw [Function.update_self, Function.update_self, Function.update_self]
      simp [SetupHost.queues, fresh.connected]
    · have toServer : other = v → nodeID ≠ w := fun isClient isServer => opened ⟨isServer, isClient⟩
      have toClient : nodeID = v → other ≠ w := by
        rintro rfl rfl
        exact Int32.lt_asymm smaller larger
      rw [update_pair_other toServer, update_pair_other toClient,
        consistent.arrived nodeID other member larger]
      refine or_congr_right ?_
      by_cases isServer : nodeID = w
      · subst isServer
        have otherAddress : overlay.address other ≠ overlay.address v := fun same =>
          opened ⟨rfl, address_injective (nbr_is_node member) (nbr_is_node back) same⟩
        rw [Function.update_self]
        simp [SetupHost.queues, otherAddress]
      · rw [Function.update_of_ne isServer]
        by_cases isClient : nodeID = v
        · subst isClient
          rw [Function.update_self]
          rfl
        · rw [Function.update_of_ne isClient]

theorem Consistent.accepts (consistent : overlay.Consistent hosts conn)
    (nbr : w ∈ overlay.nbrs u) (larger : u < w) (free : conn u w = -1)
    (waiting : overlay.address w ∈ (hosts u).pending) (fresh : (hosts u).Fresh socketFd) :
    overlay.Consistent
      (Function.update hosts u ((hosts u).accepts (overlay.address w) socketFd))
      (Function.update conn u (Function.update (conn u) w socketFd)) where
  knows := by
    intro nodeID
    by_cases same : nodeID = u
    · subst same
      rw [Function.update_self, Function.update_self]
      exact (consistent.knows nodeID).accepts nbr larger free fresh
    · rw [Function.update_of_ne same, Function.update_of_ne same]
      exact consistent.knows nodeID
  arrived := by
    intro nodeID other member otherLarger
    have fromServer : other = u → nodeID ≠ w := by
      rintro rfl rfl
      exact Int32.lt_asymm larger otherLarger
    rw [update_pair_other fromServer, consistent.arrived nodeID other member otherLarger]
    by_cases same : nodeID = u
    · subst same
      rw [Function.update_self, Function.update_self]
      by_cases accepted : other = w
      · subst accepted
        simp [waiting, fresh.connected]
      · have otherAddress : overlay.address other ≠ overlay.address w := fun sameAddress =>
          accepted (address_injective (nbr_is_node member) (nbr_is_node nbr) sameAddress)
        simp [SetupHost.accepts, Function.update_of_ne accepted, List.mem_erase_of_ne otherAddress]
    · rw [Function.update_of_ne same, Function.update_of_ne same]

theorem connect_turn_consistent (consistent : overlay.Consistent hosts conn)
    (turned : overlay.connectTurn hosts v socketFd = some next) :
    ∃ after, overlay.Consistent next after := by
  have knows := consistent.knows v
  rw [connectTurn] at turned
  cases turn : (hosts v).connecting with
  | returned status => simp [turn] at turned
  | turn i =>
      have entry : (hosts v).nt[i]? = (overlay.nbrs v)[i]?.map
          fun nbr => ⟨⟨nbr, conn v nbr⟩, overlay.address nbr⟩ := by
        rw [knows.table, table, List.getElem?_map]
      cases held : (overlay.nbrs v)[i]? with
      | none =>
          simp only [turn, entry, held, Option.map_none, Option.some.injEq] at turned
          rw [← turned]
          exact ⟨conn, consistent.turns (knows.finishes turn held) rfl⟩
      | some nbr =>
          simp only [turn, entry, held, Option.map_some] at turned
          have node := nbr_is_node (List.mem_of_getElem? held)
          split_ifs at turned with smaller fresh
          · have apart : nbr ≠ v := Int32.ne_of_lt smaller
            rw [find_address node, Option.map_some, Function.update_of_ne apart,
              Option.some.injEq] at turned
            rw [← turned]
            exact ⟨_, consistent.connects turn held smaller fresh⟩
          · rw [Option.some.injEq] at turned
            rw [← turned]
            exact ⟨conn, consistent.turns (knows.skips turn held smaller) rfl⟩

theorem accept_turn_consistent (consistent : overlay.Consistent hosts conn) {peer : InAddr}
    (turned : acceptTurn hosts u peer socketFd = some next) :
    ∃ after, overlay.Consistent next after := by
  rw [acceptTurn] at turned
  split_ifs at turned with accepted
  obtain ⟨_, waiting, fresh⟩ := accepted
  obtain ⟨nbr, member, larger, rfl, free⟩ := (consistent.knows u).pendingFrom peer waiting
  rw [← Option.some.inj turned]
  exact ⟨_, consistent.accepts member larger free waiting fresh⟩

theorem setup_step_consistent (event : SetupEvent)
    (consistent : ∃ conn, overlay.Consistent hosts conn)
    (stepped : overlay.setupStep hosts event = some next) :
    ∃ after, overlay.Consistent next after := by
  obtain ⟨conn, consistent⟩ := consistent
  cases event with
  | connectTurn nodeID socketFd => exact connect_turn_consistent consistent stepped
  | acceptTurn nodeID peer socketFd => exact accept_turn_consistent consistent stepped

theorem waits_for_clients (nodeID : Int32) (node : nodeID ∈ overlay.nodes) :
    waitNbrsCounter (hostNodes overlay.file) nodeID =
      (overlay.nodes.toFinset.filter fun client => overlay.ConnectsTo client nodeID).card := by
  have clients : (overlay.nodes.toFinset.filter fun client => overlay.ConnectsTo client nodeID) =
      ((overlay.nbrs nodeID).filter fun nbr => nodeID < nbr).toFinset := by
    ext client
    simp only [Finset.mem_filter, List.mem_toFinset, List.mem_filter, decide_eq_true_eq,
      ConnectsTo, nt_entries_table, table, List.mem_map, exists_exists_and_eq_and]
    constructor
    · rintro ⟨_, server, member, smaller, sameAddress⟩
      have same := address_injective (nbr_is_node member) node sameAddress
      subst same
      exact ⟨nbrs_symm member, smaller⟩
    · rintro ⟨member, larger⟩
      exact ⟨nbr_is_node member, nodeID, nbrs_symm member, larger, rfl⟩
  rw [clients, List.toFinset_card_of_nodup ((overlay.nbrs_nodup nodeID).filter _),
    ← List.countP_eq_length_filter]
  rfl

theorem Consistent.all_connected (consistent : overlay.Consistent hosts conn)
    (done : overlay.SetUp hosts) (node : u ∈ overlay.nodes) (nbr : w ∈ overlay.nbrs u) :
    conn u w ≠ -1 := by
  obtain ⟨accepted, status, returned⟩ := done u node
  rcases Int32.lt_or_lt_of_ne (nbr_apart nbr) with larger | smaller
  · have none := (consistent.knows u).waits
    rw [accepted, eq_comm, List.countP_eq_zero] at none
    simpa [larger] using none w nbr
  · obtain ⟨i, held⟩ := List.mem_iff_getElem?.mp nbr
    rw [(consistent.knows u).passed i w held smaller, returned]
    trivial

/-- The table has an entry for every neighbour with the descriptor of the connection
to it, and no descriptor stands for two connections. -/
structure AllConnected (overlay : OverlayFile) (myNodeID : Int32) (host : SetupHost) : Prop where
  nodes : host.nt.map (fun entry => entry.nodeID) = overlay.nbrs myNodeID
  connected : ∀ entry ∈ host.nt, entry.conn ≠ -1 ∧
    (entry.conn, overlay.address entry.nodeID) ∈ host.sockets
  descriptors : (host.sockets.map Prod.fst).Nodup
  succeeded : host.connecting = .returned 1

/-- Every node accepts as many connections as are made to it, and every order of the
turns connects every entry to its neighbour. -/
theorem setup_consistent (overlay : OverlayFile) :
    (∀ nodeID ∈ overlay.nodes, waitNbrsCounter (hostNodes overlay.file) nodeID =
      (overlay.nodes.toFinset.filter fun client => overlay.ConnectsTo client nodeID).card) ∧
    ∀ (events : List SetupEvent) (last : Setup),
      events.foldlM overlay.setupStep overlay.setupStart = some last → overlay.SetUp last →
      ∀ nodeID ∈ overlay.nodes, AllConnected overlay nodeID (last nodeID) := by
  refine ⟨waits_for_clients, fun events last run done nodeID node => ?_⟩
  obtain ⟨conn, consistent⟩ := PartialRuns.fold_keeps overlay.setupStep
    (fun hosts => ∃ conn, overlay.Consistent hosts conn) events
    (fun event _ before after kept stepped => setup_step_consistent event kept stepped)
    ⟨_, overlay.start_consistent⟩ run
  have knows := consistent.knows nodeID
  constructor
  case nodes => rw [knows.table, table, List.map_map]; exact List.map_id _
  case connected =>
    intro entry member
    rw [knows.table, table] at member
    obtain ⟨nbr, isNbr, rfl⟩ := List.mem_map.mp member
    have connected := consistent.all_connected done node isNbr
    exact ⟨connected, knows.peer nbr isNbr connected⟩
  case descriptors => exact knows.descriptors
  case succeeded =>
    obtain ⟨_, status, returned⟩ := done nodeID node
    rw [returned, knows.succeeded status returned]

def triangleLines : List HostLine :=
  [⟨⟨1, 2, 4⟩, ⟨10, 0, 0, 1⟩, ⟨10, 0, 0, 2⟩⟩, ⟨⟨3, 1, 2⟩, ⟨10, 0, 0, 3⟩, ⟨10, 0, 0, 1⟩⟩,
    ⟨⟨2, 3, 5⟩, ⟨10, 0, 0, 2⟩, ⟨10, 0, 0, 3⟩⟩]

def triangle : OverlayFile where
  file := triangleLines
  address nodeID := ⟨10, 0, 0, nodeID.toInt.toNat.toUInt8⟩
  resolved := by decide
  identified := by
    intro nodeID node
    have nodes : topologyNodes (hostNodes triangleLines) = [1, 2, 3] := by decide
    rw [nodes] at node
    simp only [List.mem_cons, List.not_mem_nil, or_false] at node
    rcases node with rfl | rfl | rfl <;> rfl
  positive := by decide
  apart := by decide
  once := by decide

def triangleEvents : List SetupEvent :=
  [.connectTurn 2 4, .connectTurn 3 4, .connectTurn 3 5, .connectTurn 1 0,
    .acceptTurn 1 ⟨10, 0, 0, 3⟩ 4, .acceptTurn 2 ⟨10, 0, 0, 3⟩ 5, .acceptTurn 1 ⟨10, 0, 0, 2⟩ 5,
    .connectTurn 2 0, .connectTurn 1 0, .connectTurn 1 0, .connectTurn 2 0, .connectTurn 3 0]

theorem triangle_connected :
    ∃ last, triangleEvents.foldlM triangle.setupStep triangle.setupStart = some last ∧
      triangle.SetUp last ∧
      ∀ nodeID ∈ triangle.nodes, AllConnected triangle nodeID (last nodeID) := by
  have ends : (triangleEvents.foldlM triangle.setupStep triangle.setupStart).map
      (fun last => triangle.nodes.map fun nodeID =>
        ((last nodeID).counter, (last nodeID).connecting)) =
      some [(0, .returned 1), (0, .returned 1), (0, .returned 1)] := by
    decide +kernel
  obtain ⟨last, run, counters⟩ := Option.map_eq_some_iff.mp ends
  have done : triangle.SetUp last := by
    intro nodeID node
    have atEnd := List.mem_map_of_mem
      (f := fun nodeID => ((last nodeID).counter, (last nodeID).connecting)) node
    rw [counters] at atEnd
    have returned : ((last nodeID).counter, (last nodeID).connecting) = (0, .returned 1) := by
      simpa using atEnd
    exact ⟨(Prod.mk.inj returned).1, 1, (Prod.mk.inj returned).2⟩
  exact ⟨last, run, done, (setup_consistent triangle).2 triangleEvents last run done⟩

end OverlayFile

end MiniOverlay
