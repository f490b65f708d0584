import MiniOverlay.Handshake
import MiniOverlay.SendBufferInvariant
import MiniOverlay.StreamSend

/-!
# Connecting again

A socket goes through any number of connections. `mrt_client_disconnect` empties
the send buffer and starts the numbers anew when a FINACK has closed the TCB;
when it gives up after its last retry it only closes the TCB, and the next
connection announces the number 0 over whatever was left.
-/

namespace MiniOverlay

open LinkedHeap FixedByteCodec

set_option autoImplicit false

/-- One event of a socket whose calls may follow each other in any order: a
connection can be made again after every call. -/
def Party.callStep (party : Party) (event : PartyEvent) : Option (Party × List ClientEffect) :=
  match event with
  | .connect nodeID serverPort =>
      match party.caller with
      | .returned => Party.step ⟨party.client, .fresh⟩ (.connect nodeID serverPort)
      | .fresh => none
      | .connecting _ => none
      | .disconnecting _ _ => none
  | event => party.step event

/-- The buffer is empty, and the SYN announces the number of the next byte. -/
structure StartsFresh (client : Client) : Prop where
  buffer : FreshBuffer client.tcb
  announced : ∀ nodeID serverPort after clientSyn effects,
    mrtClientConnect client nodeID serverPort = some (after, clientSyn, effects) →
      clientSyn.header.seqNum = client.tcb.nextSeqNum

def Party.ConnectsFresh (party : Party) : Prop :=
  party.caller = .returned → party.client.tcb.state = .closed → StartsFresh party.client

def AlwaysConnectsFresh : Party → List PartyEvent → Prop
  | party, [] => party.ConnectsFresh
  | party, event :: events =>
      party.ConnectsFresh ∧ ∀ next effects, party.callStep event = some (next, effects) →
        AlwaysConnectsFresh next events

/-- `mrt_client_disconnect` has waited for the last time without a FINACK. -/
def Party.GivesUp (party : Party) : PartyEvent → Prop
  | .disconnectWake => ∃ finished retry, party.caller = .disconnecting finished retry ∧
      party.client.tcb.state ≠ .closed ∧ finMaxRetry ≤ retry + 1
  | _ => False

/-- Whenever `mrt_client_disconnect` gives up in a run, nothing was queued. -/
def GivesUpFresh : Party → List PartyEvent → Prop
  | _, [] => True
  | party, event :: events =>
      (party.GivesUp event → FreshBuffer party.client.tcb) ∧
        ∀ next effects, party.callStep event = some (next, effects) → GivesUpFresh next events

inductive Party.Between (party : Party) : Prop where
  | returned (caller : party.caller = .returned) (state : party.client.tcb.state ≠ .finwait)
      (fresh : party.client.tcb.state = .closed → FreshBuffer party.client.tcb)
  | connecting (clientSyn : Seg) (caller : party.caller = .connecting clientSyn)
      (state : party.client.tcb.state ≠ .finwait) (notClosed : party.client.tcb.state ≠ .closed)
  | disconnecting (finished : Seg) (retry : Nat)
      (caller : party.caller = .disconnecting finished retry)

theorem starts_fresh {client : Client} (fresh : FreshBuffer client.tcb) : StartsFresh client := by
  refine ⟨fresh, ?_⟩
  intro nodeID serverPort after clientSyn effects connected
  unfold mrtClientConnect at connected
  cases state : client.tcb.state <;> rw [state] at connected <;> cases connected
  exact fresh.next.symm

theorem between_connects_fresh {party : Party} (between : party.Between) : party.ConnectsFresh := by
  intro caller closed
  cases between with
  | returned _ _ fresh => exact starts_fresh (fresh closed)
  | connecting clientSyn connecting _ _ =>
      rw [caller] at connecting
      cases connecting
  | disconnecting finished retry disconnecting =>
      rw [caller] at disconnecting
      cases disconnecting

theorem between_after {party : Party} (between : party.Between) (after : Client)
    (finwait : after.tcb.state = .finwait → party.client.tcb.state = .finwait)
    (closed : after.tcb.state = .closed → party.client.tcb.state = .finwait ∨
      party.client.tcb.state = .closed ∧ after.tcb = party.client.tcb) :
    Party.Between ⟨after, party.caller⟩ := by
  cases between with
  | returned caller state fresh =>
      have sameCaller : (Party.mk after party.caller).caller = .returned := caller
      apply Party.Between.returned sameCaller
      · exact fun waiting => state (finwait waiting)
      · intro isClosed
        rcases closed isClosed with waiting | ⟨wasClosed, same⟩
        · exact absurd waiting state
        · change FreshBuffer after.tcb
          rw [same]
          exact fresh wasClosed
  | connecting clientSyn caller state notClosed =>
      have sameCaller : (Party.mk after party.caller).caller = .connecting clientSyn := caller
      apply Party.Between.connecting clientSyn sameCaller
      · exact fun waiting => state (finwait waiting)
      · intro isClosed
        rcases closed isClosed with waiting | ⟨wasClosed, _⟩
        · exact state waiting
        · exact notClosed wasClosed
  | disconnecting finished retry caller =>
      exact Party.Between.disconnecting finished retry caller

theorem timeout_loop_tcb (now : Nat → Timeval) (turns : Nat) (client after : Client) (buffer : Ptr)
    (effects : List ClientEffect)
    (sent : sendBufferTimeoutLoop now turns client buffer = some (after, effects)) :
    after.tcb = client.tcb := by
  induction turns generalizing client buffer after effects with
  | zero =>
      cases sent
      rfl
  | succ turns ih =>
      obtain ⟨cell, heap, sends, _, _, rest, _⟩ := timeout_loop_turn sent
      exact ih ⟨heap, client.tcb⟩ after cell.next sends rest

theorem send_between {party : Party} (between : party.Between) (now : Nat → Timeval)
    (data : List Byte) {value : Int} {after : Client} {effects : List ClientEffect}
    (sent : mrtClientSend now party.client data = some (value, after, effects)) :
    Party.Between ⟨after, party.caller⟩ := by
  have everything : party.client.Keeps fun _ => True := fun _ _ _ => trivial
  have kept := client_send_kept (fun _ _ _ => trivial) now data sent everything
    fun _ _ _ => trivial
  have state : after.tcb.state = party.client.tcb.state := congrArg ClientEnds.state kept.ends
  apply between_after between after
  · exact fun waiting => state.symm.trans waiting
  · intro isClosed
    rw [state] at isClosed
    simp only [mrtClientSend, isClosed] at sent
    cases sent
    exact Or.inr ⟨isClosed, rfl⟩

theorem segment_between {party : Party} (between : party.Between) (now : Nat → Timeval)
    (sourceNodeID : Int32) (seg : Seg) {after : Client} {effects : List ClientEffect}
    (handled : clientSeghandler now party.client sourceNodeID seg = some (after, effects)) :
    Party.Between ⟨after, party.caller⟩ := by
  have everything : party.client.Keeps fun _ => True := fun _ _ _ => trivial
  rcases client_handled_cases now sourceNodeID seg handled everything with kept | ⟨_, moves⟩
  · have state : after.tcb.state = party.client.tcb.state := congrArg ClientEnds.state kept.ends
    apply between_after between after
    · exact fun waiting => state.symm.trans waiting
    · intro isClosed
      rw [state] at isClosed
      simp only [clientSeghandler, isClosed] at handled
      cases handled
      exact Or.inr ⟨isClosed, rfl⟩
  · cases moves with
    | connects synsent _ moved =>
        apply between_after between after
        · intro waiting
          rw [moved] at waiting
          cases waiting
        · intro isClosed
          rw [moved] at isClosed
          cases isClosed
    | closes finwait moved =>
        exact between_after between after (fun _ => finwait) fun _ => Or.inl finwait

theorem connect_between {party next : Party} (between : party.Between) (nodeID : Int32)
    (serverPort : UInt32) {effects : List ClientEffect}
    (stepped : party.callStep (.connect nodeID serverPort) = some (next, effects)) :
    next.Between := by
  cases between with
  | returned caller state fresh =>
      simp only [Party.callStep, caller, Party.step, mrtClientConnect] at stepped
      cases before : party.client.tcb.state <;> rw [before] at stepped
      case closed =>
        cases stepped
        exact Party.Between.connecting _ rfl (by simp) (by simp)
      all_goals
        cases stepped
        exact Party.Between.returned rfl state fresh
  | connecting clientSyn caller _ _ =>
      simp only [Party.callStep, caller] at stepped
      cases stepped
  | disconnecting finished retry caller =>
      simp only [Party.callStep, caller] at stepped
      cases stepped

theorem connect_wake_between {party next : Party} (between : party.Between)
    {effects : List ClientEffect} (stepped : party.callStep .connectWake = some (next, effects)) :
    next.Between := by
  simp only [Party.callStep, Party.step] at stepped
  cases between with
  | returned caller _ _ =>
      rw [caller] at stepped
      cases stepped
  | connecting clientSyn caller state notClosed =>
      rw [caller] at stepped
      cases stepped
      exact Party.Between.returned rfl state fun closed => absurd closed notClosed
  | disconnecting finished retry caller =>
      rw [caller] at stepped
      cases stepped

theorem disconnect_between {party next : Party} (between : party.Between)
    {effects : List ClientEffect} (stepped : party.callStep .disconnect = some (next, effects)) :
    next.Between := by
  simp only [Party.callStep, Party.step] at stepped
  cases between with
  | returned caller state fresh =>
      simp only [caller, mrtClientDisconnect] at stepped
      cases before : party.client.tcb.state <;> rw [before] at stepped
      case connected =>
        cases stepped
        exact Party.Between.disconnecting _ 0 rfl
      all_goals
        cases stepped
        exact Party.Between.returned caller state fresh
  | connecting clientSyn caller _ _ =>
      rw [caller] at stepped
      cases stepped
  | disconnecting finished retry caller =>
      rw [caller] at stepped
      cases stepped

theorem destroy_fresh {client after : Client} (next : client.tcb.nextSeqNum = 0)
    (destroyed : sendBufferDestroy client = some after) :
    FreshBuffer after.tcb ∧ after.tcb.state = client.tcb.state := by
  obtain ⟨heap, _, destroyed⟩ := Option.bind_eq_some_iff.mp destroyed
  by_cases empty : client.tcb.sendBufTail = none
  · rw [if_pos empty] at destroyed
    cases destroyed
    exact ⟨⟨rfl, rfl, rfl, rfl, next⟩, rfl⟩
  · rw [if_neg empty] at destroyed
    obtain ⟨last, _, destroyed⟩ := Option.bind_eq_some_iff.mp destroyed
    cases destroyed
    exact ⟨⟨rfl, rfl, rfl, rfl, next⟩, rfl⟩

theorem disconnect_wake_cases {client : Client} {finished : Seg} {retry : Nat}
    {result : Client × DisconnectTurn × List ClientEffect}
    (turned : mrtClientDisconnectWake client finished retry = some result) :
    (result.2.1 = .returns 1 ∧ FreshBuffer result.1.tcb ∧ result.1.tcb.state = .closed) ∨
    (client.tcb.state ≠ .closed ∧ retry + 1 < finMaxRetry ∧ result.1 = client ∧
      result.2.1 = .waits (retry + 1)) ∨
    (client.tcb.state ≠ .closed ∧ finMaxRetry ≤ retry + 1 ∧ result.2.1 = .returns (-1) ∧
      result.1 = ⟨client.heap, { client.tcb with state := .closed }⟩) := by
  cases disconnect_wakes turned with
  | empties after closed destroyed =>
      obtain ⟨fresh, state⟩ := destroy_fresh rfl destroyed
      exact Or.inl ⟨rfl, fresh, state.trans closed⟩
  | waits notClosed more => exact Or.inr (Or.inl ⟨notClosed, more, rfl, rfl⟩)
  | givesUp notClosed last => exact Or.inr (Or.inr ⟨notClosed, last, rfl, rfl⟩)

theorem fresh_closed {table : ClientTcb} (fresh : FreshBuffer table) :
    FreshBuffer { table with state := .closed } :=
  ⟨fresh.head, fresh.unSent, fresh.tail, fresh.unAck, fresh.next⟩

theorem disconnect_wake_between {party next : Party} (between : party.Between)
    {effects : List ClientEffect}
    (meets : party.GivesUp .disconnectWake → FreshBuffer party.client.tcb)
    (stepped : party.callStep .disconnectWake = some (next, effects)) : next.Between := by
  simp only [Party.callStep, Party.step] at stepped
  cases between with
  | returned caller _ _ =>
      rw [caller] at stepped
      cases stepped
  | connecting clientSyn caller _ _ =>
      rw [caller] at stepped
      cases stepped
  | disconnecting finished retry caller =>
      rw [caller] at stepped
      obtain ⟨⟨after, turn, sends⟩, turned, stepped⟩ := Option.bind_eq_some_iff.mp stepped
      rcases disconnect_wake_cases turned with
        ⟨rfl, fresh, closed⟩ | ⟨_, _, _, rfl⟩ | ⟨notClosed, last, rfl, rfl⟩
      · cases stepped
        apply Party.Between.returned rfl
        · intro waiting
          rw [closed] at waiting
          cases waiting
        · exact fun _ => fresh
      · cases stepped
        exact Party.Between.disconnecting finished (retry + 1) rfl
      · cases stepped
        have fresh := meets ⟨finished, retry, caller, notClosed, last⟩
        exact Party.Between.returned rfl (by simp) fun _ => fresh_closed fresh

theorem call_step_between {party next : Party} {event : PartyEvent} {effects : List ClientEffect}
    (between : party.Between) (meets : party.GivesUp event → FreshBuffer party.client.tcb)
    (stepped : party.callStep event = some (next, effects)) : next.Between := by
  cases event with
  | connect nodeID serverPort => exact connect_between between nodeID serverPort stepped
  | connectWake => exact connect_wake_between between stepped
  | disconnect => exact disconnect_between between stepped
  | disconnectWake => exact disconnect_wake_between between meets stepped
  | send now data =>
      obtain ⟨result, sent, stepped⟩ := Option.bind_eq_some_iff.mp stepped
      cases stepped
      exact send_between between now data sent
  | timeout now =>
      obtain ⟨result, sent, stepped⟩ := Option.bind_eq_some_iff.mp stepped
      cases stepped
      have same := timeout_loop_tcb now _ party.client result.1 _ result.2 sent
      apply between_after between result.1
      · rw [same]
        exact fun waiting => waiting
      · rw [same]
        exact fun closed => Or.inr ⟨closed, rfl⟩
  | segment now sourceNodeID seg =>
      obtain ⟨result, handled, stepped⟩ := Option.bind_eq_some_iff.mp stepped
      cases stepped
      exact segment_between between now sourceNodeID seg handled

theorem gives_up_connects_fresh {party : Party} {event : PartyEvent} (gives : party.GivesUp event)
    (fresh : ∀ next effects, party.callStep event = some (next, effects) → next.ConnectsFresh) :
    FreshBuffer party.client.tcb := by
  cases event with
  | disconnectWake =>
      obtain ⟨finished, retry, caller, notClosed, last⟩ := gives
      have stepped : party.callStep .disconnectWake = some
          (⟨⟨party.client.heap, { party.client.tcb with state := .closed }⟩, .returned⟩,
            [.mnpSendseg party.client.tcb.svrNodeID.toInt32 finished]) := by
        simp only [Party.callStep, Party.step, caller, mrtClientDisconnectWake, if_neg notClosed,
          if_neg (Nat.not_lt.mpr last)]
        rfl
      have buffer := (fresh _ _ stepped rfl rfl).buffer
      exact ⟨buffer.head, buffer.unSent, buffer.tail, buffer.unAck, buffer.next⟩
  | connect nodeID serverPort => cases gives
  | connectWake => cases gives
  | disconnect => cases gives
  | send now data => cases gives
  | timeout now => cases gives
  | segment now sourceNodeID seg => cases gives

theorem always_head {party : Party} {events : List PartyEvent}
    (always : AlwaysConnectsFresh party events) : party.ConnectsFresh := by
  cases events with
  | nil => exact always
  | cons event events => exact always.1

theorem connects_fresh_of_between (events : List PartyEvent) (party : Party)
    (between : party.Between) :
    AlwaysConnectsFresh party events ↔ GivesUpFresh party events := by
  induction events generalizing party with
  | nil => exact iff_of_true (between_connects_fresh between) trivial
  | cons event events ih =>
      constructor
      · rintro ⟨_, later⟩
        have meets (gives : party.GivesUp event) : FreshBuffer party.client.tcb :=
          gives_up_connects_fresh gives fun next effects stepped =>
            always_head (later next effects stepped)
        refine ⟨meets, fun next effects stepped => ?_⟩
        exact (ih next (call_step_between between meets stepped)).mp (later next effects stepped)
      · rintro ⟨meets, later⟩
        refine ⟨between_connects_fresh between, fun next effects stepped => ?_⟩
        exact (ih next (call_step_between between meets stepped)).mpr (later next effects stepped)

def newSocket (myNodeID : Int32) (clientPort svrPortNum : UInt32) : Party :=
  ⟨mrtClientSock myNodeID clientPort svrPortNum, .returned⟩

/-- In a run of calls and segments every connection starts fresh exactly when
`mrt_client_disconnect` only gives up on connections that have queued nothing. -/
theorem always_connects_fresh_iff (myNodeID : Int32) (clientPort svrPortNum : UInt32)
    (events : List PartyEvent) :
    AlwaysConnectsFresh (newSocket myNodeID clientPort svrPortNum) events ↔
      GivesUpFresh (newSocket myNodeID clientPort svrPortNum) events := by
  apply connects_fresh_of_between
  apply Party.Between.returned rfl
  · intro waiting
    cases waiting
  · exact fun _ => ⟨rfl, rfl, rfl, rfl, rfl⟩

theorem wakes_give_up (client : Client) (finished : Seg) (turns retry : Nat)
    (waiting : client.tcb.state = .finwait) (stale : ¬ FreshBuffer client.tcb)
    (last : retry + (turns + 1) = finMaxRetry) :
    ¬ GivesUpFresh ⟨client, .disconnecting finished retry⟩
      (List.replicate (turns + 1) .disconnectWake) := by
  have notClosed : client.tcb.state ≠ .closed := by
    rw [waiting]
    simp
  induction turns generalizing retry with
  | zero =>
      intro fresh
      exact stale (fresh.1 ⟨finished, retry, rfl, notClosed, Nat.le_of_eq last.symm⟩)
  | succ turns ih =>
      intro fresh
      rw [List.replicate_succ] at fresh
      have more : retry + 1 < finMaxRetry := by omega
      have stepped : Party.callStep ⟨client, .disconnecting finished retry⟩ .disconnectWake =
          some (⟨client, .disconnecting finished (retry + 1)⟩,
            [.mnpSendseg client.tcb.svrNodeID.toInt32 finished]) := by
        simp only [Party.callStep, Party.step, mrtClientDisconnectWake, if_neg notClosed,
          if_pos more]
        rfl
      exact ih (retry + 1) (by omega) (fresh.2 _ _ stepped)

def serverSynack : Seg :=
  { Seg.cleared with
    header := { MrtHdr.cleared with type := SegType.synack, srcPort := 200, destPort := 100 } }

/-- Connect to port 200 of node 2, send one whole segment, and disconnect without
ever getting a FINACK. -/
def unansweredDisconnect : List PartyEvent :=
  [.connect 2 200, .segment (fun _ => ⟨0, 0⟩) 2 serverSynack, .connectWake,
    .send (fun _ => ⟨0, 0⟩) (List.replicate maxSegLen 7), .disconnect] ++
    List.replicate finMaxRetry .disconnectWake

theorem unanswered_disconnect_stale :
    ¬ AlwaysConnectsFresh (newSocket 1 100 200) unansweredDisconnect := by
  intro always
  have between : (newSocket 1 100 200).Between := by
    apply Party.Between.returned rfl
    · intro waiting
      cases waiting
    · exact fun _ => ⟨rfl, rfl, rfl, rfl, rfl⟩
  have fresh := (connects_fresh_of_between _ _ between).mp always
  have afterConnect := fresh.2 _ _ rfl
  have afterSynack := afterConnect.2 _ _ rfl
  have afterWake : GivesUpFresh ⟨establishedClient, .returned⟩ _ := afterSynack.2 _ _ rfl
  obtain ⟨client, effects, call, ends, buffered⟩ := whole_segment_buffered (fun _ => ⟨0, 0⟩)
    establishedClient (List.replicate maxSegLen 7) established_client_holds rfl
    List.length_replicate
  have afterSend := afterWake.2 ⟨client, .returned⟩ effects (by
    simp only [Party.callStep, Party.step]
    rw [call]
    rfl)
  have connected : client.tcb.state = .connected := congrArg ClientEnds.state ends
  let finished := client.tcb.newSeg SegType.fin 0 []
  have disconnected : Party.callStep ⟨client, .returned⟩ .disconnect = some
      (⟨⟨client.heap, { client.tcb with state := .finwait }⟩, .disconnecting finished 0⟩,
        [.mnpSendseg client.tcb.svrNodeID.toInt32 finished]) := by
    simp only [Party.callStep, Party.step, mrtClientDisconnect, connected, finished]
  have afterDisconnect := afterSend.2 _ _ disconnected
  apply wakes_give_up _ finished 4 0 rfl _ rfl afterDisconnect
  exact fun stale => buffered stale.head

end MiniOverlay
