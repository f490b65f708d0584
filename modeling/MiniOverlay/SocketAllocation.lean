import Mathlib.Data.Fintype.Card
import MiniOverlay.ClientSockets

/-!
# Opening, closing and finding client sockets

`mrt_client_sock` and `mrt_client_close` scan `p_client_tcb_table` on their own. What
they return is enough to say which sockets are open, and the table agrees with it after
any run: the slots with a TCB are the open sockets, each with its port.
-/

namespace MiniOverlay

open LinkedHeap SlotTable

set_option autoImplicit false

abbrev OpenSockets := Fin maxTransportConnections → Option UInt32

def OpenSockets.opened (sockets : OpenSockets) (clientPort : UInt32) (socketFd : Int) :
    OpenSockets :=
  fun index => if (index : Int) = socketFd then some clientPort else sockets index

def OpenSockets.closed (sockets : OpenSockets) (sockfd value : Int) : OpenSockets :=
  fun index => if (index : Int) = sockfd ∧ value = 1 then none else sockets index

def OpenSockets.count (sockets : OpenSockets) : Nat :=
  (Finset.univ.filter fun index => sockets index ≠ none).card

def ClientEvent.track (myNodeID : Int32) (tables : ClientTable) (sockets : OpenSockets) :
    ClientEvent → OpenSockets
  | .sock clientPort svrPortNum =>
      sockets.opened clientPort (mrtClientSockTurn tables myNodeID clientPort svrPortNum).2
  | .close sockfd =>
      match mrtClientClose tables sockfd with
      | some result => sockets.closed sockfd result.2
      | none => sockets
  | .call _ _ => sockets
  | .segment _ _ _ => sockets

def ClientEvent.NewPort (sockets : OpenSockets) : ClientEvent → Prop
  | .sock clientPort _ => ∀ index, sockets index ≠ some clientPort
  | .close _ => True
  | .call _ _ => True
  | .segment _ _ _ => True

/-- The tables and the open sockets after any events; the last argument says that no port
was used twice at a time. -/
inductive SocketRun (myNodeID : Int32) : ClientTable → OpenSockets → Prop → Prop where
  | init : SocketRun myNodeID (fun _ => none) (fun _ => none) True
  | step {tables next : ClientTable} {sockets : OpenSockets} {unique : Prop} (event : ClientEvent)
      (effects : List ClientEffect) (before : SocketRun myNodeID tables sockets unique)
      (stepped : clientTableStep myNodeID tables event = some (next, effects)) :
      SocketRun myNodeID next (event.track myNodeID tables sockets)
        (unique ∧ event.NewPort sockets)

theorem any_cells (client : Client) : client.Keeps fun _ => True := fun _ _ _ => trivial

theorem kept_port {client after : Client} {effects : List ClientEffect}
    (kept : Kept (fun _ => True) client after effects) :
    after.tcb.clientPortNum = client.tcb.clientPortNum :=
  congrArg ClientEnds.clientPortNum kept.ends

theorem segment_port {now : Nat → Timeval} {client after : Client} {sourceNodeID : Int32}
    {seg : Seg} {effects : List ClientEffect}
    (handled : clientSeghandler now client sourceNodeID seg = some (after, effects)) :
    after.tcb.clientPortNum = client.tcb.clientPortNum := by
  rcases client_handled_cases now sourceNodeID seg handled (any_cells client) with kept | ⟨_, moves⟩
  · exact kept_port kept
  · cases moves with
    | connects _ _ moved => rw [moved]
    | closes _ moved => rw [moved]

theorem disconnect_wake_port {client : Client} {finished : Seg} {retry : Nat}
    {result : Client × DisconnectTurn × List ClientEffect}
    (turned : mrtClientDisconnectWake client finished retry = some result) :
    result.1.tcb.clientPortNum = client.tcb.clientPortNum := by
  cases disconnect_wakes turned with
  | empties after _ destroyed =>
      have port := kept_port (destroy_kept (any_cells _) destroyed)
      exact port
  | waits _ _ => rfl
  | givesUp _ _ => rfl

theorem party_step_port {party next : Party} {event : PartyEvent} {effects : List ClientEffect}
    (stepped : party.callStep event = some (next, effects)) : next.portNum = party.portNum := by
  cases event with
  | connect nodeID serverPort =>
      cases caller : party.caller with
      | returned =>
          simp only [Party.callStep, caller, Party.step, mrtClientConnect] at stepped
          cases state : party.client.tcb.state <;> rw [state] at stepped <;> cases stepped <;> rfl
      | _ =>
          simp only [Party.callStep, caller] at stepped
          cases stepped
  | connectWake =>
      simp only [Party.callStep, Party.step] at stepped
      cases caller : party.caller <;> rw [caller] at stepped <;> cases stepped
      rfl
  | disconnect =>
      simp only [Party.callStep, Party.step] at stepped
      cases caller : party.caller <;> rw [caller] at stepped <;> try cases stepped
      simp only [mrtClientDisconnect] at stepped
      cases state : party.client.tcb.state <;> rw [state] at stepped <;> cases stepped <;> rfl
  | disconnectWake =>
      simp only [Party.callStep, Party.step] at stepped
      cases caller : party.caller <;> rw [caller] at stepped <;> try cases stepped
      obtain ⟨⟨after, turn, sends⟩, turned, stepped⟩ := Option.bind_eq_some_iff.mp stepped
      have port := disconnect_wake_port turned
      cases turn <;> cases stepped <;> exact port
  | send now data =>
      obtain ⟨⟨value, after, sends⟩, sent, stepped⟩ := Option.bind_eq_some_iff.mp stepped
      cases stepped
      exact kept_port (client_send_kept (fun _ _ _ => trivial) now data sent (any_cells _)
        fun _ _ _ => trivial)
  | timeout now =>
      obtain ⟨⟨after, sends⟩, sent, stepped⟩ := Option.bind_eq_some_iff.mp stepped
      cases stepped
      exact kept_port (timeout_kept now (any_cells _) sent)
  | segment now sourceNodeID seg =>
      obtain ⟨⟨after, sends⟩, handled, stepped⟩ := Option.bind_eq_some_iff.mp stepped
      cases stepped
      exact segment_port handled

theorem opened_at (sockets : OpenSockets) (clientPort : UInt32)
    (socketFd : Fin maxTransportConnections) :
    sockets.opened clientPort (socketFd : Int) =
      Function.update sockets socketFd (some clientPort) := by
  funext index
  by_cases here : index = socketFd
  · rw [here, Function.update_self, OpenSockets.opened, if_pos rfl]
  · have apart : (index : Int) ≠ socketFd := fun same => here (Fin.ext (by omega))
    rw [Function.update_of_ne here, OpenSockets.opened, if_neg apart]

theorem opened_failed (sockets : OpenSockets) (clientPort : UInt32) :
    sockets.opened clientPort (-1) = sockets := by
  funext index
  have apart : (index : Int) ≠ -1 := by omega
  rw [OpenSockets.opened, if_neg apart]

theorem closed_at (sockets : OpenSockets) (sockfd : Fin maxTransportConnections) :
    sockets.closed (sockfd : Int) 1 = Function.update sockets sockfd none := by
  funext index
  by_cases here : index = sockfd
  · rw [here, Function.update_self, OpenSockets.closed, if_pos ⟨rfl, rfl⟩]
  · have apart : ¬ ((index : Int) = sockfd ∧ (1 : Int) = 1) := fun same => here (Fin.ext (by omega))
    rw [Function.update_of_ne here, OpenSockets.closed, if_neg apart]

theorem closed_failed (sockets : OpenSockets) (sockfd : Int) {value : Int} (failed : value ≠ 1) :
    sockets.closed sockfd value = sockets := by
  funext index
  rw [OpenSockets.closed, if_neg fun both => failed both.2]

theorem sock_tracks {tables : ClientTable} {sockets : OpenSockets}
    (tracks : Tracks Party.portNum tables sockets) (myNodeID : Int32)
    (clientPort svrPortNum : UInt32) :
    Tracks Party.portNum (mrtClientSockTurn tables myNodeID clientPort svrPortNum).1
      (sockets.opened clientPort (mrtClientSockTurn tables myNodeID clientPort svrPortNum).2) := by
  unfold mrtClientSockTurn
  cases createTCBTable tables with
  | none =>
      rw [opened_failed]
      exact tracks
  | some socketFd =>
      rw [opened_at]
      exact tracks_set tracks socketFd (some (newSocket myNodeID clientPort svrPortNum))

theorem close_turn_cases (tables : ClientTable) {sockfd : Fin maxTransportConnections}
    {party : Party} (held : tables sockfd = some party) :
    (party.client.tcb.state = .closed ∧
      mrtClientClose tables sockfd = some (Function.update tables sockfd none, 1)) ∨
    (party.client.tcb.state ≠ .closed ∧ mrtClientClose tables sockfd = some (tables, -1)) := by
  simp only [mrtClientClose, held, Option.bind_eq_bind, Option.bind_some]
  cases party.client.tcb.state <;> simp

theorem close_tracks {tables : ClientTable} {sockets : OpenSockets}
    (tracks : Tracks Party.portNum tables sockets) (sockfd : Fin maxTransportConnections)
    {result : ClientTable × Int} (closes : mrtClientClose tables sockfd = some result) :
    Tracks Party.portNum result.1 (sockets.closed sockfd result.2) := by
  have called := closes
  obtain ⟨party, held, _⟩ := Option.bind_eq_some_iff.mp called
  rcases close_turn_cases tables held with ⟨_, closed⟩ | ⟨_, refused⟩
  · obtain rfl := Option.some.inj (closed.symm.trans closes)
    rw [closed_at]
    exact tracks_set tracks sockfd none
  · obtain rfl := Option.some.inj (refused.symm.trans closes)
    have failed : (-1 : Int) ≠ 1 := by decide
    rw [closed_failed sockets sockfd failed]
    exact tracks

theorem event_tracks {myNodeID : Int32} {tables next : ClientTable} {sockets : OpenSockets}
    {event : ClientEvent} {effects : List ClientEffect}
    (tracks : Tracks Party.portNum tables sockets)
    (stepped : clientTableStep myNodeID tables event = some (next, effects)) :
    Tracks Party.portNum next (event.track myNodeID tables sockets) := by
  cases event with
  | sock clientPort svrPortNum =>
      cases stepped
      exact sock_tracks tracks myNodeID clientPort svrPortNum
  | call sockfd event =>
      obtain ⟨_, same | ⟨party, after, held, called, same⟩⟩ := call_turn_cases stepped
      · cases same
        exact tracks
      · cases same
        exact tracks_change tracks held (party_step_port called)
  | close sockfd =>
      obtain ⟨result, closes, same⟩ := Option.map_eq_some_iff.mp stepped
      cases same
      rw [ClientEvent.track, closes]
      exact close_tracks tracks sockfd closes
  | segment now sourceNodeID seg =>
      rcases turn_cases stepped with same | ⟨index, party, after, held, handled, same⟩
      · cases same
        exact tracks
      · cases same
        exact tracks_change tracks held (segment_port handled)

theorem run_tracks {myNodeID : Int32} {tables : ClientTable} {sockets : OpenSockets} {unique : Prop}
    (run : SocketRun myNodeID tables sockets unique) : Tracks Party.portNum tables sockets := by
  induction run with
  | init => exact fun _ => rfl
  | step event effects before stepped ih => exact event_tracks ih stepped

def OpenSockets.OnePort (sockets : OpenSockets) : Prop :=
  ∀ index other clientPort, sockets index = some clientPort → sockets other = some clientPort →
    index = other

theorem one_port_update {sockets : OpenSockets} (once : sockets.OnePort) (clientPort : UInt32)
    (new : ∀ index, sockets index ≠ some clientPort) (socketFd : Fin maxTransportConnections) :
    OpenSockets.OnePort (Function.update sockets socketFd (some clientPort)) := by
  intro index other port held held'
  by_cases here : index = socketFd
  · subst here
    rw [Function.update_self] at held
    by_cases there : other = index
    · exact there.symm
    · rw [Function.update_of_ne there] at held'
      exact absurd (held'.trans held.symm) (new other)
  · rw [Function.update_of_ne here] at held
    by_cases there : other = socketFd
    · rw [there, Function.update_self] at held'
      exact absurd (held.trans held'.symm) (new index)
    · rw [Function.update_of_ne there] at held'
      exact once index other port held held'

theorem one_port_closed {sockets : OpenSockets} (once : sockets.OnePort) (sockfd value : Int) :
    (sockets.closed sockfd value).OnePort := by
  have before (slot : Fin maxTransportConnections) (port : UInt32)
      (held : sockets.closed sockfd value slot = some port) : sockets slot = some port := by
    rw [OpenSockets.closed] at held
    split_ifs at held
    exact held
  intro index other port held held'
  exact once index other port (before index port held) (before other port held')

theorem track_one_port {myNodeID : Int32} {tables : ClientTable} {sockets : OpenSockets}
    {event : ClientEvent} (once : sockets.OnePort) (new : event.NewPort sockets) :
    (event.track myNodeID tables sockets).OnePort := by
  cases event with
  | sock clientPort svrPortNum =>
      rw [ClientEvent.track, mrtClientSockTurn]
      cases createTCBTable tables with
      | none =>
          rw [opened_failed]
          exact once
      | some socketFd =>
          rw [opened_at]
          exact one_port_update once clientPort new socketFd
  | close sockfd =>
      rw [ClientEvent.track]
      cases mrtClientClose tables sockfd with
      | none => exact once
      | some result => exact one_port_closed once sockfd result.2
  | call sockfd event => exact once
  | segment now sourceNodeID seg => exact once

theorem run_one_port {myNodeID : Int32} {tables : ClientTable} {sockets : OpenSockets}
    {unique : Prop} (run : SocketRun myNodeID tables sockets unique) (isUnique : unique) :
    sockets.OnePort := by
  induction run with
  | init =>
      intro index other port held
      cases held
  | step event effects before stepped ih =>
      obtain ⟨sofar, new⟩ := isUnique
      exact track_one_port (ih sofar) new

/-- `mrt_client_sock` takes the lowest socket ID that is not open and fails, changing
nothing, exactly when all are open. -/
structure OpensLowest (tables : ClientTable) (sockets : OpenSockets)
    (result : ClientTable × Int) : Prop where
  lowest : ∀ index : Fin maxTransportConnections, result.2 = index ↔
    sockets index = none ∧ ∀ lower < index, sockets lower ≠ none
  full : result.2 = -1 ↔ sockets.count = maxTransportConnections
  failed : result.2 = -1 → result.1 = tables

/-- `mrt_client_close` empties the slot exactly when the TCB is in CLOSED, and changes
nothing when it fails. -/
structure ClosesWhenClosed (tables : ClientTable) (sockfd : Fin maxTransportConnections)
    (state : ClientState) (result : ClientTable × Int) : Prop where
  value : result.2 = if state = .closed then 1 else -1
  freed : result.1 sockfd = none ↔ state = .closed
  others : ∀ index, index ≠ sockfd → result.1 index = tables index
  failed : result.2 = -1 → result.1 = tables

theorem count_full_iff (sockets : OpenSockets) :
    sockets.count = maxTransportConnections ↔ ∀ index, sockets index ≠ none := by
  have all := Finset.card_filter_eq_iff (s := Finset.univ) (p := fun index => sockets index ≠ none)
  simpa [OpenSockets.count] using all

theorem sock_opens_lowest {tables : ClientTable} {sockets : OpenSockets}
    (tracks : Tracks Party.portNum tables sockets) (myNodeID : Int32)
    (clientPort svrPortNum : UInt32) :
    OpensLowest tables sockets (mrtClientSockTurn tables myNodeID clientPort svrPortNum) := by
  have isEmpty (index : Fin maxTransportConnections) :
      (tables index).isNone = true ↔ sockets index = none := by
    rw [Option.isNone_iff_eq_none, tracks_empty_iff tracks]
  have search := find_lowest_iff
    (fun index : Fin maxTransportConnections => (tables index).isNone)
  unfold mrtClientSockTurn
  cases found : createTCBTable tables with
  | none =>
      have full : ∀ index, sockets index ≠ none := fun index empty =>
        List.find?_eq_none.mp found index (List.mem_finRange index) ((isEmpty index).mpr empty)
      refine ⟨fun index => ?_, ?_, fun _ => rfl⟩
      · have apart : (-1 : Int) ≠ index := by omega
        exact iff_of_false apart fun lowest => full index lowest.1
      · exact iff_of_true rfl ((count_full_iff sockets).mpr full)
  | some socketFd =>
      obtain ⟨empty, lowest⟩ := (search socketFd).mp found
      refine ⟨fun index => ?_, ?_, fun failed => ?_⟩
      · have same : ((socketFd : Nat) : Int) = index ↔ socketFd = index := by
          rw [Fin.ext_iff]
          omega
        have finds := search index
        simp only [isEmpty] at finds
        rw [same, ← finds]
        constructor
        · rintro rfl
          exact found
        · exact fun other => Option.some.inj (found.symm.trans other)
      · have apart : ((socketFd : Nat) : Int) ≠ -1 := by omega
        refine iff_of_false apart fun full => ?_
        exact (count_full_iff sockets).mp full socketFd ((isEmpty socketFd).mp empty)
      · have apart : ((socketFd : Nat) : Int) ≠ -1 := by omega
        exact absurd failed apart

theorem close_when_closed (tables : ClientTable) {sockfd : Fin maxTransportConnections}
    {party : Party} (held : tables sockfd = some party) :
    ∃ result, mrtClientClose tables sockfd = some result ∧
      ClosesWhenClosed tables sockfd party.client.tcb.state result := by
  rcases close_turn_cases tables held with ⟨closed, closes⟩ | ⟨notClosed, refuses⟩
  · refine ⟨_, closes, by rw [if_pos closed], ?_, ?_, fun failed => ?_⟩
    · exact iff_of_true (Function.update_self ..) closed
    · exact fun index other => Function.update_of_ne other _ _
    · have apart : (1 : Int) ≠ -1 := by decide
      exact absurd failed apart
  · refine ⟨_, refuses, by rw [if_neg notClosed], ?_, fun _ _ => rfl, fun _ => rfl⟩
    have occupied : tables sockfd ≠ none := by simp [held]
    exact iff_of_false occupied notClosed

/-- After any calls, timers and segments a new socket gets the lowest free ID, a socket is
closed exactly in CLOSED, calls that fail change nothing, and as long as no port was used
twice at a time `fetch_client_TCB` finds the open socket of a port. -/
theorem client_sockets_allocated (myNodeID : Int32) (tables : ClientTable)
    (sockets : OpenSockets) (unique : Prop) (run : SocketRun myNodeID tables sockets unique) :
    (∀ clientPort svrPortNum,
      OpensLowest tables sockets (mrtClientSockTurn tables myNodeID clientPort svrPortNum)) ∧
    (∀ sockfd, sockets sockfd ≠ none → ∃ party result, tables sockfd = some party ∧
      mrtClientClose tables sockfd = some result ∧
        ClosesWhenClosed tables sockfd party.client.tcb.state result) ∧
    (unique → ∀ clientPort,
      (∀ index, fetchClientTCB tables clientPort = some index ↔
        sockets index = some clientPort) ∧
      (fetchClientTCB tables clientPort = none ↔ ∀ index, sockets index ≠ some clientPort)) := by
  have tracks := run_tracks run
  refine ⟨sock_opens_lowest tracks myNodeID, fun sockfd isOpen => ?_, fun isUnique clientPort => ?_⟩
  · cases held : tables sockfd with
    | none => exact absurd ((tracks_empty_iff tracks sockfd).mp held) isOpen
    | some party =>
        obtain ⟨result, closes, right⟩ := close_when_closed tables held
        exact ⟨party, result, rfl, closes, right⟩
  · have distinct : DistinctKeys Party.portNum tables := by
      intro index other wanted held held'
      rw [tracks] at held held'
      exact run_one_port run isUnique index other wanted held held'
    constructor
    · intro index
      rw [fetchClientTCB, fetch_eq_some_iff distinct, tracks]
    · rw [fetchClientTCB, fetch_none_iff]
      simp only [tracks _]

/-- Two sockets are opened, the first one connects, and the second is closed again. -/
theorem second_socket_closed :
    ∃ tables sockets unique, SocketRun 1 tables sockets unique ∧ unique ∧
      sockets firstSlot = some 100 ∧ sockets secondSlot = none ∧
      OpensLowest tables sockets (mrtClientSockTurn tables 1 300 0) ∧
      (∃ party result, tables firstSlot = some party ∧ party.client.tcb.state = .synsent ∧
        mrtClientClose tables firstSlot = some result ∧
          ClosesWhenClosed tables firstSlot party.client.tcb.state result) ∧
      fetchClientTCB tables 100 = some firstSlot ∧ fetchClientTCB tables 200 = none := by
  have start : SocketRun 1 (fun _ => none) (fun _ => none) True := SocketRun.init
  have first := start.step (.sock 100 0) [] rfl
  have both := first.step (.sock 200 0) [] rfl
  have connecting := both.step (.call firstSlot (.connect 2 300)) _ rfl
  have closed := connecting.step (.close secondSlot) _ rfl
  obtain ⟨opens, closes, finds⟩ := client_sockets_allocated 1 _ _ _ closed
  have firstNew : ∀ index : Fin maxTransportConnections, (none : Option UInt32) ≠ some 100 := by
    simp
  have secondNew : ∀ index,
      ClientEvent.track 1 (fun _ => none) (fun _ => none) (.sock 100 0) index ≠ some 200 := by
    decide
  have found := finds ⟨⟨⟨⟨trivial, firstNew⟩, secondNew⟩, trivial⟩, trivial⟩
  refine ⟨_, _, _, closed, ⟨⟨⟨⟨trivial, firstNew⟩, secondNew⟩, trivial⟩, trivial⟩, rfl, rfl,
    opens 300 0, ?_, ((found 100).1 firstSlot).mpr rfl, (found 200).2.mpr (by decide)⟩
  obtain ⟨party, result, held, closing⟩ := closes firstSlot (by decide)
  refine ⟨party, result, held, ?_, closing⟩
  cases held
  rfl

end MiniOverlay
