import Mathlib.Logic.Relation
import MiniOverlay.Handshake

/-!
# The handshake between sends and assignments

`mrt_client_connect` and `mrt_client_disconnect` send their segment before they assign the
new state, and the handler of the server answers in `SVR_LISTENING` before it assigns
`SVR_CONNECTED`. Nothing is locked in between, so a segment can be answered while the state
is still the old one. A network is settled by making the assignments that are due, and the
settled network keeps the invariant of the events.
-/

namespace MiniOverlay

open LinkedHeap FixedByteCodec

set_option autoImplicit false

def Client.inState (client : Client) (state : ClientState) : Client :=
  ⟨client.heap, { client.tcb with state := state }⟩

/-- Where the thread is that calls: between `mnp_sendseg` and the assignment of
`CLIENT_SYNSENT` or `CLIENT_FINWAIT`, or at neither place. -/
inductive Standing where
  | outside
  | behindSyn (clientSyn : Seg)
  | behindFin (finished : Seg)

structure SplitParty where
  party : Party
  standing : Standing

def SplitParty.settled (split : SplitParty) : Party :=
  match split.standing with
  | .outside => split.party
  | .behindSyn clientSyn => ⟨split.party.client.inState .synsent, .connecting clientSyn⟩
  | .behindFin finished => ⟨split.party.client.inState .finwait, .disconnecting finished 0⟩

def SplitParty.begin (party after : Party) : SplitParty :=
  match after.caller with
  | .connecting clientSyn =>
      ⟨⟨after.client.inState party.client.tcb.state, party.caller⟩, .behindSyn clientSyn⟩
  | .disconnecting finished _ =>
      ⟨⟨after.client.inState party.client.tcb.state, party.caller⟩, .behindFin finished⟩
  | .fresh => ⟨after, .outside⟩
  | .returned => ⟨after, .outside⟩

inductive SplitPartyEvent where
  | assigns
  | does (event : PartyEvent)

def SplitParty.elsewhere (split : SplitParty) (event : PartyEvent) :
    Option (SplitParty × List ClientEffect) := do
  let result ← split.party.step event
  return (⟨result.1, split.standing⟩, result.2)

def SplitParty.begins (split : SplitParty) (event : PartyEvent) :
    Option (SplitParty × List ClientEffect) :=
  match split.standing with
  | .outside => do
      let result ← split.party.step event
      return (.begin split.party result.1, result.2)
  | .behindSyn _ => none
  | .behindFin _ => none

def SplitParty.continues (split : SplitParty) (event : PartyEvent) :
    Option (SplitParty × List ClientEffect) :=
  match split.standing with
  | .outside => split.elsewhere event
  | .behindSyn _ => none
  | .behindFin _ => none

/-- A thread behind a send does nothing but the assignment; the handler, the timer and
threads that call `mrt_client_send` go on. -/
def SplitParty.step (split : SplitParty) :
    SplitPartyEvent → Option (SplitParty × List ClientEffect)
  | .assigns =>
      match split.standing with
      | .outside => none
      | .behindSyn _ => some (⟨split.settled, .outside⟩, [])
      | .behindFin _ => some (⟨split.settled, .outside⟩, [])
  | .does (.connect nodeID serverPort) => split.begins (.connect nodeID serverPort)
  | .does .disconnect => split.begins .disconnect
  | .does .connectWake => split.continues .connectWake
  | .does .disconnectWake => split.continues .disconnectWake
  | .does (.send now data) => split.elsewhere (.send now data)
  | .does (.timeout now) => split.elsewhere (.timeout now)
  | .does (.segment now sourceNodeID segmentBuffer) =>
      split.elsewhere (.segment now sourceNodeID segmentBuffer)

def ServerTcb.inState (table : ServerTcb) (state : ServerState) : ServerTcb :=
  { table with state := state }

/-- `answered` is the handler between `segment_recv` and the assignment of
`SVR_CONNECTED`. -/
structure SplitServer where
  party : ServerParty
  answered : Bool

def SplitServer.settled (split : SplitServer) : ServerParty :=
  if split.answered then { split.party with table := split.party.table.inState .connected }
  else split.party

inductive SplitServerEvent where
  | assigns
  | does (event : ServerEvent)

def SplitServer.elsewhere (split : SplitServer) (event : ServerEvent) :
    Option (SplitServer × List ServerEffect) := do
  let result ← split.party.step event
  return (⟨result.1, split.answered⟩, result.2)

def SplitServer.handles (split : SplitServer) (sourceNodeID : Int32) (segmentBuffer : Seg) :
    Option (SplitServer × List ServerEffect) :=
  if split.answered then none
  else do
    let result ← split.party.step (.segment sourceNodeID segmentBuffer)
    if split.party.table.state = .listening then
      return (⟨{ result.1 with table := result.1.table.inState .listening }, true⟩, result.2)
    else return (⟨result.1, false⟩, result.2)

def SplitServer.step (split : SplitServer) :
    SplitServerEvent → Option (SplitServer × List ServerEffect)
  | .assigns => if split.answered then some (⟨split.settled, false⟩, []) else none
  | .does (.segment sourceNodeID segmentBuffer) => split.handles sourceNodeID segmentBuffer
  | .does .accept => split.elsewhere .accept
  | .does (.recv length) => split.elsewhere (.recv length)
  | .does (.recvTurn length) => split.elsewhere (.recvTurn length)
  | .does .closewait => split.elsewhere .closewait

variable {ι : Type}

structure SplitOverlay (ι : Type) where
  server : SplitServer
  clients : ι → SplitParty
  flight : List Packet

def SplitOverlay.settled (net : SplitOverlay ι) : Overlay ι where
  server := net.server.settled
  clients client := (net.clients client).settled
  flight := net.flight

def SplitOverlay.actual (net : SplitOverlay ι) : Overlay ι where
  server := net.server.party
  clients client := (net.clients client).party
  flight := net.flight

def SplitOverlay.withServer (net : SplitOverlay ι) (sockets : Sockets ι) (server : SplitServer)
    (effects : List ServerEffect) : SplitOverlay ι :=
  { net with
    server := server
    flight := net.flight ++ (serverSentSegs effects).map (Packet.mk sockets.serverNodeID) }

def SplitOverlay.withClient [DecidableEq ι] (net : SplitOverlay ι) (sockets : Sockets ι)
    (client : ι) (party : SplitParty) (effects : List ClientEffect) : SplitOverlay ι :=
  { net with
    clients := Function.update net.clients client party
    flight := net.flight ++ (sentSegs effects).map (Packet.mk (sockets.nodeID client)) }

def SplitServerEvent.Enabled (net : SplitOverlay ι) (sockets : Sockets ι) :
    SplitServerEvent → Prop
  | .assigns => True
  | .does event => event.Enabled net.actual sockets

def SplitPartyEvent.Enabled (net : SplitOverlay ι) (sockets : Sockets ι) (client : ι) :
    SplitPartyEvent → Prop
  | .assigns => True
  | .does event => event.Enabled net.actual sockets client

inductive SplitOverlay.Step [DecidableEq ι] (sockets : Sockets ι) (net : SplitOverlay ι) :
    SplitOverlay ι → Prop where
  | server (event : SplitServerEvent) (after : SplitServer) (effects : List ServerEffect)
      (enabled : event.Enabled net sockets)
      (stepped : net.server.step event = some (after, effects)) :
      SplitOverlay.Step sockets net (net.withServer sockets after effects)
  | client (client : ι) (event : SplitPartyEvent) (after : SplitParty)
      (effects : List ClientEffect) (enabled : event.Enabled net sockets client)
      (stepped : (net.clients client).step event = some (after, effects)) :
      SplitOverlay.Step sockets net (net.withClient sockets client after effects)

abbrev SplitOverlay.Reaches [DecidableEq ι] (sockets : Sockets ι) :
    SplitOverlay ι → SplitOverlay ι → Prop :=
  Relation.ReflTransGen (SplitOverlay.Step sockets)

structure SplitOverlay.Initial (sockets : Sockets ι) (net : SplitOverlay ι) : Prop where
  actual : net.actual.Initial sockets
  answered : net.server.answered = false
  standing : ∀ client, (net.clients client).standing = .outside

/-- `mrt_client_disconnect` has sent its FIN and not assigned `CLIENT_FINWAIT`. -/
def SplitParty.BehindFin (split : SplitParty) : Prop :=
  ∃ finished, split.standing = .behindFin finished

/-- The server's TCB names the client, in `SVR_CONNECTED` or in `SVR_LISTENING` with the
handler between its answer and the assignment. -/
structure SplitServer.Serves (sockets : Sockets ι) (split : SplitServer) (client : ι) :
    Prop where
  node : split.party.table.clientNodeID = (sockets.nodeID client).toUInt32
  port : split.party.table.clientPortNum = sockets.port client
  state : split.party.table.state = .connected ∨
    split.answered = true ∧ split.party.table.state = .listening

structure SplitOverlay.Agrees (sockets : Sockets ι) (net : SplitOverlay ι) : Prop where
  serves : ∀ client, net.actual.clientState client = .connected →
    ¬ (net.clients client).BehindFin → net.server.Serves sockets client
  one : ∀ left right, net.actual.clientState left = .connected →
    net.actual.clientState right = .connected → ¬ (net.clients left).BehindFin →
    ¬ (net.clients right).BehindFin → left = right

def SplitParty.Stands (split : SplitParty) : Prop :=
  match split.standing with
  | .outside => True
  | .behindSyn _ => split.party.client.tcb.state = .closed
  | .behindFin _ => split.party.client.tcb.state = .connected

theorem begin_settled {party after : Party} {event : PartyEvent} {effects : List ClientEffect}
    (begins : event = .disconnect ∨ ∃ nodeID serverPort, event = .connect nodeID serverPort)
    (stepped : party.step event = some (after, effects)) :
    (SplitParty.begin party after).settled = after ∧ (SplitParty.begin party after).Stands := by
  rcases begins with rfl | ⟨nodeID, serverPort, rfl⟩
  · cases caller : party.caller with
    | returned =>
        cases state : party.client.tcb.state with
        | connected =>
            simp only [Party.step, caller, mrtClientDisconnect, state] at stepped
            cases stepped
            exact ⟨rfl, state⟩
        | closed =>
            simp only [Party.step, caller, mrtClientDisconnect, state] at stepped
            cases stepped
            simp [SplitParty.begin, caller, SplitParty.settled, SplitParty.Stands]
        | synsent =>
            simp only [Party.step, caller, mrtClientDisconnect, state] at stepped
            cases stepped
            simp [SplitParty.begin, caller, SplitParty.settled, SplitParty.Stands]
        | finwait =>
            simp only [Party.step, caller, mrtClientDisconnect, state] at stepped
            cases stepped
            simp [SplitParty.begin, caller, SplitParty.settled, SplitParty.Stands]
    | fresh => simp [Party.step, caller] at stepped
    | connecting clientSyn => simp [Party.step, caller] at stepped
    | disconnecting finished retry => simp [Party.step, caller] at stepped
  · cases caller : party.caller with
    | fresh =>
        cases state : party.client.tcb.state with
        | closed =>
            simp only [Party.step, caller, mrtClientConnect, state] at stepped
            cases stepped
            exact ⟨rfl, state⟩
        | connected =>
            simp only [Party.step, caller, mrtClientConnect, state] at stepped
            cases stepped
            exact ⟨rfl, trivial⟩
        | synsent =>
            simp only [Party.step, caller, mrtClientConnect, state] at stepped
            cases stepped
            exact ⟨rfl, trivial⟩
        | finwait =>
            simp only [Party.step, caller, mrtClientConnect, state] at stepped
            cases stepped
            exact ⟨rfl, trivial⟩
    | connecting clientSyn => simp [Party.step, caller] at stepped
    | returned => simp [Party.step, caller] at stepped
    | disconnecting finished retry => simp [Party.step, caller] at stepped

theorem kept_in_state {keep : Seg → Prop} {client after : Client} {effects : List ClientEffect}
    (kept : Kept keep client after effects) (state : ClientState) :
    Kept keep (client.inState state) (after.inState state) effects := by
  refine ⟨?_, kept.cells, kept.sends⟩
  exact congrArg (fun ends : ClientEnds => { ends with state := state }) kept.ends

/-- What the other threads of a client do while its state is `CLIENT_CLOSED` or
`CLIENT_CONNECTED`. -/
theorem elsewhere_kept {keep : Seg → Prop}
    (renumber : ∀ seg seqNum, keep seg → keep (seg.withSeqNum seqNum))
    {split after : SplitParty} {event : PartyEvent} {effects : List ClientEffect}
    (still : split.party.client.tcb.state ≠ .synsent ∧ split.party.client.tcb.state ≠ .finwait)
    (cells : split.party.client.Keeps keep)
    (new : ∀ seg, Bufferable split.party.client.tcb.clientPortNum seg → keep seg)
    (behind : split.standing ≠ .outside)
    (stepped : split.step (.does event) = some (after, effects)) :
    Kept keep split.party.client after.party.client effects ∧
      after.party.caller = split.party.caller ∧ after.standing = split.standing := by
  have busy : split.begins event = none ∧ split.continues event = none := by
    cases standing : split.standing with
    | outside => exact absurd standing behind
    | behindSyn clientSyn =>
        simp only [SplitParty.begins, SplitParty.continues, standing, and_self]
    | behindFin finished =>
        simp only [SplitParty.begins, SplitParty.continues, standing, and_self]
  cases event with
  | connect nodeID serverPort => cases busy.1.symm.trans stepped
  | connectWake => cases busy.2.symm.trans stepped
  | disconnect => cases busy.1.symm.trans stepped
  | disconnectWake => cases busy.2.symm.trans stepped
  | send now data =>
      obtain ⟨result, ran, stepped⟩ := Option.bind_eq_some_iff.mp stepped
      cases stepped
      obtain ⟨sent, called, ran⟩ := Option.bind_eq_some_iff.mp ran
      cases ran
      exact ⟨client_send_kept renumber now data called cells fun _ => new, rfl, rfl⟩
  | timeout now =>
      obtain ⟨result, ran, stepped⟩ := Option.bind_eq_some_iff.mp stepped
      cases stepped
      obtain ⟨sent, called, ran⟩ := Option.bind_eq_some_iff.mp ran
      cases ran
      exact ⟨timeout_kept now cells called, rfl, rfl⟩
  | segment now sourceNodeID segmentBuffer =>
      obtain ⟨result, ran, stepped⟩ := Option.bind_eq_some_iff.mp stepped
      cases stepped
      obtain ⟨sent, handled, ran⟩ := Option.bind_eq_some_iff.mp ran
      cases ran
      rcases client_handled_cases now sourceNodeID segmentBuffer handled cells with
        kept | ⟨_, ⟨synsent, _, _⟩ | ⟨finwait, _⟩⟩
      · exact ⟨kept, rfl, rfl⟩
      · exact absurd synsent still.1
      · exact absurd finwait still.2

structure SplitParty.Moves (port : UInt32) (split after : SplitParty) (event : SplitPartyEvent)
    (effects : List ClientEffect) : Prop where
  stands : after.Stands
  moves : split.settled.Moves port after.settled effects
  connects : after.settled.client.tcb.state = .connected →
    split.settled.client.tcb.state = .connected ∨
      ∃ does, event = .does does ∧ does.Connects split.settled

/-- The other threads of a client that is behind a send in the settled state `state`. -/
theorem behind_moves {port : UInt32} {split after : SplitParty} {event : PartyEvent}
    {effects : List ClientEffect} {caller : Caller} {state : ClientState}
    (settled : ∀ client : Client,
      SplitParty.settled ⟨⟨client, split.party.caller⟩, split.standing⟩ =
        ⟨client.inState state, caller⟩)
    (ok : split.settled.Ok port) (started : caller ≠ .fresh) (waiting : state ≠ .connected)
    (stands : ∀ client : Client, client.tcb.state = split.party.client.tcb.state →
      SplitParty.Stands ⟨⟨client, split.party.caller⟩, split.standing⟩)
    (still : split.party.client.tcb.state ≠ .synsent ∧ split.party.client.tcb.state ≠ .finwait)
    (behind : split.standing ≠ .outside)
    (stepped : split.step (.does event) = some (after, effects)) :
    split.Moves port after (.does event) effects := by
  have before : split.settled = ⟨split.party.client.inState state, caller⟩ :=
    settled split.party.client
  rw [before] at ok
  have samePort : split.party.client.tcb.clientPortNum = port := ok.clientPort
  obtain ⟨kept, sameCaller, sameStanding⟩ := elsewhere_kept
    bufferable_renumber still ok.cells (fun seg bufferable => ⟨started, samePort ▸ bufferable⟩)
    behind stepped
  obtain ⟨⟨client, own⟩, standing⟩ := after
  subst sameCaller sameStanding
  refine ⟨stands client (congrArg ClientEnds.state kept.ends), ?_, ?_⟩
  · rw [before, settled client]
    exact kept_moves ok (kept_in_state kept state)
  · intro connected
    rw [settled client] at connected
    exact absurd connected waiting

section Outside

variable {port : UInt32} {party : Party} {after : SplitParty} {event : PartyEvent}
  {effects : List ClientEffect} (ok : party.Ok port)
include ok

theorem begins_moves
    (begins : event = .disconnect ∨ ∃ nodeID serverPort, event = .connect nodeID serverPort)
    (begun : SplitParty.begins ⟨party, .outside⟩ event = some (after, effects)) :
    SplitParty.Moves port ⟨party, .outside⟩ after (.does event) effects := by
  obtain ⟨result, ran, begun⟩ := Option.bind_eq_some_iff.mp begun
  cases begun
  obtain ⟨settled, stands⟩ := begin_settled begins ran
  obtain ⟨moves, connects⟩ := party_moves ok ran
  rw [← settled] at moves connects
  exact ⟨stands, moves, fun connected =>
    (connects connected).imp_right fun now => ⟨event, rfl, now⟩⟩

theorem elsewhere_moves
    (went : SplitParty.elsewhere ⟨party, .outside⟩ event = some (after, effects)) :
    SplitParty.Moves port ⟨party, .outside⟩ after (.does event) effects := by
  obtain ⟨result, ran, same⟩ := Option.bind_eq_some_iff.mp went
  cases same
  obtain ⟨moves, connects⟩ := party_moves ok ran
  exact ⟨trivial, moves, fun connected =>
    (connects connected).imp_right fun now => ⟨event, rfl, now⟩⟩

theorem outside_moves
    (stepped : SplitParty.step ⟨party, .outside⟩ (.does event) = some (after, effects)) :
    SplitParty.Moves port ⟨party, .outside⟩ after (.does event) effects := by
  cases event with
  | connect nodeID serverPort =>
      exact begins_moves ok (.inr ⟨nodeID, serverPort, rfl⟩) stepped
  | disconnect => exact begins_moves ok (.inl rfl) stepped
  | connectWake => exact elsewhere_moves ok stepped
  | disconnectWake => exact elsewhere_moves ok stepped
  | send now data => exact elsewhere_moves ok stepped
  | timeout now => exact elsewhere_moves ok stepped
  | segment now sourceNodeID segmentBuffer => exact elsewhere_moves ok stepped

end Outside

theorem split_party_moves {port : UInt32} {split after : SplitParty} {event : SplitPartyEvent}
    {effects : List ClientEffect} (ok : split.settled.Ok port) (stands : split.Stands)
    (stepped : split.step event = some (after, effects)) :
    split.Moves port after event effects := by
  obtain ⟨party, standing⟩ := split
  cases event with
  | assigns =>
      have settles : after = ⟨SplitParty.settled ⟨party, standing⟩, .outside⟩ ∧ effects = [] := by
        cases standing <;> cases stepped <;> exact ⟨rfl, rfl⟩
      obtain ⟨rfl, rfl⟩ := settles
      exact ⟨trivial, kept_moves ok (kept_refl ok.cells), fun connected => .inl connected⟩
  | does event =>
      cases standing with
      | outside => exact outside_moves ok stepped
      | behindSyn clientSyn =>
          have closed : party.client.tcb.state = .closed := stands
          exact behind_moves (fun _ => rfl) ok (connecting_started clientSyn) (by simp)
            (fun _ same => same.trans closed) (by simp [closed]) (by simp) stepped
      | behindFin finished =>
          have connected : party.client.tcb.state = .connected := stands
          exact behind_moves (fun _ => rfl) ok (disconnecting_started finished 0)
            (by simp) (fun _ same => same.trans connected) (by simp [connected]) (by simp) stepped

structure SplitOverlay.Inv (sockets : Sockets ι) (net : SplitOverlay ι) : Prop where
  settled : net.settled.Inv sockets
  answered : net.server.answered = true → net.server.party.table.state = .listening
  standing : ∀ client, (net.clients client).Stands

/-- The handler accepts in `SVR_LISTENING`, whatever the segment is. -/
theorem listening_accepts {table after : ServerTcb} {sourceNodeID : Int32} {segmentBuffer : Seg}
    {effects : List ServerEffect} (listening : table.state = .listening)
    (handled : serverSeghandler table sourceNodeID segmentBuffer = some (after, effects)) :
    after.state = .connected := by
  simp only [serverSeghandler, listening] at handled
  cases handled
  rfl

section ServerEvent

variable {sockets : Sockets ι} {net : SplitOverlay ι} {after : SplitServer}
  {effects : List ServerEffect}

theorem server_assigns_inv (inv : net.Inv sockets)
    (stepped : net.server.step .assigns = some (after, effects)) :
    (net.withServer sockets after effects).Inv sockets := by
  simp only [SplitServer.step] at stepped
  split_ifs at stepped
  cases stepped
  refine ⟨?_, by simp [SplitOverlay.withServer], inv.standing⟩
  exact quiet_server_inv inv.settled net.server.settled rfl ⟨rfl, rfl, rfl⟩

theorem server_handles_inv (inv : net.Inv sockets) {sourceNodeID : Int32} {segmentBuffer : Seg}
    (enabled : ServerEvent.Enabled net.settled sockets (.segment sourceNodeID segmentBuffer))
    (stepped : net.server.handles sourceNodeID segmentBuffer = some (after, effects)) :
    (net.withServer sockets after effects).Inv sockets := by
  unfold SplitServer.handles at stepped
  split_ifs at stepped with answered listening
  · obtain ⟨result, ran, stepped⟩ := Option.bind_eq_some_iff.mp stepped
    cases stepped
    have settled : net.settled.server = net.server.party := if_neg answered
    have kept := server_event_inv inv.settled enabled (settled ▸ ran)
    obtain ⟨handled, taken, ran⟩ := Option.bind_eq_some_iff.mp ran
    cases ran
    have connected := listening_accepts listening taken
    refine ⟨?_, fun _ => rfl, inv.standing⟩
    have same : { handled.1 with state := ServerState.connected } = handled.1 := by
      rw [← connected]
    simpa [SplitOverlay.settled, SplitOverlay.withServer, SplitServer.settled,
      ServerTcb.inState, same, Overlay.withServer] using kept
  · obtain ⟨result, ran, stepped⟩ := Option.bind_eq_some_iff.mp stepped
    cases stepped
    have settled : net.settled.server = net.server.party := if_neg answered
    have kept := server_event_inv inv.settled enabled (settled ▸ ran)
    refine ⟨?_, by simp [SplitOverlay.withServer], inv.standing⟩
    simpa [SplitOverlay.settled, SplitOverlay.withServer, SplitServer.settled,
      Overlay.withServer] using kept

theorem answered_elsewhere_inv (inv : net.Inv sockets) (answered : net.server.answered = true)
    {event : ServerEvent} (other : ∀ sourceNodeID segmentBuffer,
      event ≠ .segment sourceNodeID segmentBuffer)
    (stepped : net.server.elsewhere event = some (after, effects)) :
    (net.withServer sockets after effects).Inv sockets := by
  have listening := inv.answered answered
  have settled : net.settled.server =
      { net.server.party with table := net.server.party.table.inState .connected } :=
    if_pos answered
  have quiet {party : ServerParty} (sleeping : party.sleeping = net.server.party.sleeping)
      (same : SameConnection net.server.party.table party.table) :
      (net.withServer sockets ⟨party, net.server.answered⟩ []).Inv sockets := by
    refine ⟨?_, fun _ => same.state.trans listening, inv.standing⟩
    have next : SplitServer.settled ⟨party, net.server.answered⟩ =
        { party with table := party.table.inState .connected } := if_pos answered
    show (net.settled.withServer sockets (SplitServer.settled ⟨party, net.server.answered⟩)
      []).Inv sockets
    rw [next]
    apply quiet_server_inv inv.settled
    · rw [settled]
      exact sleeping
    · rw [settled]
      exact ⟨rfl, same.node, same.port⟩
  obtain ⟨result, ran, stepped⟩ := Option.bind_eq_some_iff.mp stepped
  cases stepped
  cases event with
  | accept =>
      simp only [ServerParty.step, mrtServerAccept, listening] at ran
      cases ran
      exact quiet rfl ⟨rfl, rfl, rfl⟩
  | recv length =>
      obtain ⟨turn, turned, ran⟩ := Option.bind_eq_some_iff.mp ran
      cases ran
      exact quiet (received_sleeping _ _) (recv_same turned _)
  | recvTurn length =>
      obtain ⟨turn, turned, ran⟩ := Option.bind_eq_some_iff.mp ran
      cases ran
      exact quiet (received_sleeping _ _) (recv_turn_same turned _)
  | segment sourceNodeID segmentBuffer => exact absurd rfl (other sourceNodeID segmentBuffer)
  | closewait =>
      simp only [ServerParty.step] at ran
      split_ifs at ran with sleeping
      have waits : 0 < net.settled.server.sleeping := settled ▸ sleeping
      have closing := (inv.settled.sleeping waits).2
      rw [settled] at closing
      cases closing

theorem server_elsewhere_inv (inv : net.Inv sockets) {event : ServerEvent}
    (other : ∀ sourceNodeID segmentBuffer, event ≠ .segment sourceNodeID segmentBuffer)
    (stepped : net.server.elsewhere event = some (after, effects)) :
    (net.withServer sockets after effects).Inv sockets := by
  have enabled : event.Enabled net.settled sockets := by
    cases event with
    | segment sourceNodeID segmentBuffer => exact absurd rfl (other sourceNodeID segmentBuffer)
    | _ => trivial
  by_cases answered : net.server.answered = true
  · exact answered_elsewhere_inv inv answered other stepped
  · obtain ⟨result, ran, stepped⟩ := Option.bind_eq_some_iff.mp stepped
    cases stepped
    have settled : net.settled.server = net.server.party := if_neg answered
    have kept := server_event_inv inv.settled enabled (settled ▸ ran)
    refine ⟨?_, fun still => absurd still answered, inv.standing⟩
    simpa [SplitOverlay.settled, SplitOverlay.withServer, SplitServer.settled,
      Overlay.withServer, answered] using kept

theorem split_server_inv (inv : net.Inv sockets) {event : SplitServerEvent}
    (enabled : event.Enabled net sockets)
    (stepped : net.server.step event = some (after, effects)) :
    (net.withServer sockets after effects).Inv sockets := by
  cases event with
  | assigns => exact server_assigns_inv inv stepped
  | does event =>
      cases event with
      | segment sourceNodeID segmentBuffer => exact server_handles_inv inv enabled stepped
      | accept => exact server_elsewhere_inv inv (by simp) stepped
      | recv length => exact server_elsewhere_inv inv (by simp) stepped
      | recvTurn length => exact server_elsewhere_inv inv (by simp) stepped
      | closewait => exact server_elsewhere_inv inv (by simp) stepped

end ServerEvent

theorem settled_with_client [DecidableEq ι] (net : SplitOverlay ι) (sockets : Sockets ι)
    (client : ι) (party : SplitParty) (effects : List ClientEffect) :
    (net.withClient sockets client party effects).settled =
      net.settled.withClient sockets client party.settled effects := by
  simp only [SplitOverlay.settled, SplitOverlay.withClient, Overlay.withClient]
  congr 1
  exact Function.comp_update SplitParty.settled net.clients client party

theorem split_client_inv [DecidableEq ι] {sockets : Sockets ι} {net : SplitOverlay ι}
    (inv : net.Inv sockets) {client : ι} {event : SplitPartyEvent} {after : SplitParty}
    {effects : List ClientEffect} (enabled : event.Enabled net sockets client)
    (stepped : (net.clients client).step event = some (after, effects)) :
    (net.withClient sockets client after effects).Inv sockets := by
  have moved := split_party_moves (inv.settled.parties client) (inv.standing client) stepped
  refine ⟨?_, inv.answered, ?_⟩
  · rw [settled_with_client]
    apply client_moves_inv inv.settled moved.moves
    intro connected
    rcases moved.connects connected with before | ⟨does, rfl, now⟩
    · exact .inl before
    · have delivered : does.Enabled net.settled sockets client := by
        cases does <;> exact enabled
      exact .inr (connects_served inv.settled delivered now)
  · intro peer
    by_cases same : peer = client
    · rw [same, SplitOverlay.withClient]
      simpa using moved.stands
    · simpa [SplitOverlay.withClient, same] using inv.standing peer

theorem split_initial_inv {sockets : Sockets ι} {net : SplitOverlay ι}
    (initial : net.Initial sockets) : net.Inv sockets := by
  have outside (client : ι) : (net.clients client).settled = (net.clients client).party := by
    rw [SplitParty.settled, initial.standing client]
  have settled : net.settled = net.actual := by
    simp [SplitOverlay.settled, SplitOverlay.actual, SplitServer.settled, initial.answered,
      outside]
  refine ⟨?_, ?_, ?_⟩
  · rw [settled]
    exact initial_inv sockets net.actual initial.actual
  · intro answered
    rw [initial.answered] at answered
    cases answered
  · intro client
    rw [SplitParty.Stands, initial.standing client]
    trivial

theorem split_step_inv [DecidableEq ι] {sockets : Sockets ι} {net after : SplitOverlay ι}
    (inv : net.Inv sockets) (step : SplitOverlay.Step sockets net after) : after.Inv sockets := by
  cases step with
  | server event party effects enabled stepped => exact split_server_inv inv enabled stepped
  | client client event party effects enabled stepped =>
      exact split_client_inv inv enabled stepped

theorem split_reaches_inv [DecidableEq ι] {sockets : Sockets ι} {net after : SplitOverlay ι}
    (initial : net.Initial sockets) (reaches : SplitOverlay.Reaches sockets net after) :
    after.Inv sockets := by
  induction reaches with
  | refl => exact split_initial_inv initial
  | tail _ step ih => exact split_step_inv ih step

theorem inv_serves {sockets : Sockets ι} {net : SplitOverlay ι} (inv : net.Inv sockets)
    {client : ι} (connected : net.actual.clientState client = .connected)
    (before : ¬ (net.clients client).BehindFin) : net.server.Serves sockets client := by
  have outside : (net.clients client).settled = (net.clients client).party := by
    have stands := inv.standing client
    unfold SplitParty.Stands at stands
    unfold SplitParty.settled
    cases standing : (net.clients client).standing with
    | outside => rfl
    | behindSyn clientSyn =>
        rw [standing] at stands
        cases stands.symm.trans connected
    | behindFin finished => exact absurd ⟨finished, standing⟩ before
  have settled : net.settled.clientState client = .connected := by
    show (net.clients client).settled.client.tcb.state = .connected
    rw [outside]
    exact connected
  have serves : Serves sockets net.server.settled.table client :=
    inv.settled.serves client settled
  by_cases answered : net.server.answered = true
  · rw [SplitServer.settled, if_pos answered] at serves
    exact ⟨serves.node, serves.port, .inr ⟨answered, inv.answered answered⟩⟩
  · rw [SplitServer.settled, if_neg answered] at serves
    exact ⟨serves.node, serves.port, .inl serves.state⟩

/-- In every reachable state the server serves every connected client that is not behind its
FIN, so there is at most one. -/
theorem handshake_agrees [DecidableEq ι] (sockets : Sockets ι) (net after : SplitOverlay ι)
    (initial : net.Initial sockets) (reaches : SplitOverlay.Reaches sockets net after) :
    after.Agrees sockets := by
  have inv := split_reaches_inv initial reaches
  refine ⟨fun client => inv_serves inv, ?_⟩
  intro left right leftConnected rightConnected leftBefore rightBefore
  have leftServed := inv_serves inv leftConnected leftBefore
  have rightServed := inv_serves inv rightConnected rightBefore
  have node := congrArg UInt32.toInt32 (leftServed.node.symm.trans rightServed.node)
  rw [Int32.toInt32_toUInt32, Int32.toInt32_toUInt32] at node
  exact sockets.distinct left right node (leftServed.port.symm.trans rightServed.port)

def twoClients : Sockets Bool where
  serverNodeID := 2
  serverPort := 200
  nodeID client := if client then 3 else 1
  port _ := 100
  distinct := by decide

def quietOverlay : SplitOverlay Bool where
  server := ⟨⟨mrtServerSock 2 200 0 0 0 (padVector 4 []), 0⟩, false⟩
  clients client :=
    ⟨⟨mrtClientSock (twoClients.nodeID client) (twoClients.port client) 0, .fresh⟩, .outside⟩
  flight := []

theorem quiet_initial : quietOverlay.Initial twoClients :=
  ⟨⟨rfl, rfl, fun _ => ⟨0, rfl⟩, rfl⟩, rfl, fun _ => rfl⟩

def firstSegmentOf (type : UInt16) : Seg := (mrtClientSock 1 100 200).tcb.newSeg type 0 []

def offeredSynack : Seg := (mrtServerSock 2 200 1 100 0 (padVector 4 [])).newSeg SegType.synack 0

/-- The first client is connected by the answer of a server that still listens. -/
theorem first_client_is_served : ∃ after, SplitOverlay.Reaches twoClients quietOverlay after ∧
    after.actual.clientState false = .connected ∧
    after.actual.server.table.state = .listening ∧ after.Agrees twoClients := by
  have listens : SplitOverlay.Reaches twoClients quietOverlay _ :=
    Relation.ReflTransGen.refl.tail (.server (.does .accept) _ _ trivial rfl)
  have sends := listens.tail (.client false (.does (.connect 2 200)) _ _ ⟨rfl, rfl⟩ rfl)
  have waits := sends.tail (.client false .assigns _ _ trivial rfl)
  let clientSyn := firstSegmentOf SegType.syn
  have accepts := waits.tail
    (.server (.does (.segment 1 clientSyn)) _ _ ⟨List.mem_cons_self, rfl⟩ rfl)
  have sent : ⟨2, 1, offeredSynack⟩ ∈ [⟨1, 2, clientSyn⟩, (⟨2, 1, offeredSynack⟩ : Packet)] :=
    List.mem_cons_of_mem _ List.mem_cons_self
  have answered := accepts.tail
    (.client false (.does (.segment (fun _ => ⟨0, 0⟩) 2 offeredSynack)) _ _ ⟨sent, rfl⟩ rfl)
  exact ⟨_, answered, rfl, rfl, handshake_agrees twoClients quietOverlay _ quiet_initial answered⟩

/-- The second client connects while the first one is between its FIN and
`CLIENT_FINWAIT`. -/
theorem two_clients_connected : ∃ after, SplitOverlay.Reaches twoClients quietOverlay after ∧
    after.actual.clientState false = .connected ∧ after.actual.clientState true = .connected ∧
    ¬ after.actual.Agrees twoClients := by
  have listens : SplitOverlay.Reaches twoClients quietOverlay _ :=
    Relation.ReflTransGen.refl.tail (.server (.does .accept) _ _ trivial rfl)
  have sends := listens.tail (.client false (.does (.connect 2 200)) _ _ ⟨rfl, rfl⟩ rfl)
  have waits := sends.tail (.client false .assigns _ _ trivial rfl)
  let clientSyn := firstSegmentOf SegType.syn
  have accepts := waits.tail
    (.server (.does (.segment 1 clientSyn)) _ _ ⟨List.mem_cons_self, rfl⟩ rfl)
  have assigned := accepts.tail (.server .assigns _ _ trivial rfl)
  have sent : ⟨2, 1, offeredSynack⟩ ∈ [⟨1, 2, clientSyn⟩, (⟨2, 1, offeredSynack⟩ : Packet)] :=
    List.mem_cons_of_mem _ List.mem_cons_self
  have connects := assigned.tail
    (.client false (.does (.segment (fun _ => ⟨0, 0⟩) 2 offeredSynack)) _ _ ⟨sent, rfl⟩ rfl)
  have returns := connects.tail (.client false (.does .connectWake) _ _ trivial rfl)
  have finished := returns.tail (.client false (.does .disconnect) _ _ trivial rfl)
  let clientFin := firstSegmentOf SegType.fin
  have crossing : ⟨1, 2, clientFin⟩ ∈ [⟨1, 2, clientSyn⟩, (⟨2, 1, offeredSynack⟩ : Packet),
      ⟨1, 2, clientFin⟩] := List.mem_cons_of_mem _ (List.mem_cons_of_mem _ List.mem_cons_self)
  have closing := finished.tail
    (.server (.does (.segment 1 clientFin)) _ _ ⟨crossing, rfl⟩ rfl)
  have closed := closing.tail (.server (.does .closewait) _ _ trivial rfl)
  have again := closed.tail (.server (.does .accept) _ _ trivial rfl)
  have second := again.tail (.client true (.does (.connect 2 200)) _ _ ⟨rfl, rfl⟩ rfl)
  have secondWaits := second.tail (.client true .assigns _ _ trivial rfl)
  have secondAccepted := secondWaits.tail
    (.server (.does (.segment 3 clientSyn)) _ _
      ⟨List.mem_append_left _ (List.mem_append_right _ List.mem_cons_self), rfl⟩ rfl)
  have secondConnects := secondAccepted.tail
    (.client true (.does (.segment (fun _ => ⟨0, 0⟩) 2 offeredSynack)) _ _
      ⟨List.mem_append_right _ List.mem_cons_self, rfl⟩ rfl)
  refine ⟨_, secondConnects, rfl, rfl, fun agrees => ?_⟩
  cases agrees.one false true rfl rfl

end MiniOverlay
