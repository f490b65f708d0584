import Mathlib.Logic.Function.Basic
import Mathlib.Logic.Relation
import MiniOverlay.SocketTraffic

/-!
# The events of a handshake

One server socket and any number of clients that connect to it, each at most
once. An event is one call up to its next wait, the part of a call behind a wait,
or one segment in a handler; the network keeps every segment it was ever given.
Here is what each of them does once its assignments are made, and the invariant
that it keeps. Calls of `mrt_server_close` are left out.
-/

namespace MiniOverlay

open LinkedHeap FixedByteCodec

set_option autoImplicit false

inductive Caller where
  | fresh
  | connecting (clientSyn : Seg)
  | returned
  | disconnecting (finished : Seg) (retry : Nat)

theorem connecting_started (clientSyn : Seg) : Caller.connecting clientSyn ≠ .fresh := by
  intro same
  cases same

theorem returned_started : Caller.returned ≠ .fresh := by
  intro same
  cases same

theorem disconnecting_started (finished : Seg) (retry : Nat) :
    Caller.disconnecting finished retry ≠ .fresh := by
  intro same
  cases same

structure Party where
  client : Client
  caller : Caller

inductive PartyEvent where
  | connect (nodeID : Int32) (serverPort : UInt32)
  | connectWake
  | disconnect
  | disconnectWake
  | send (now : Nat → Timeval) (data : List Byte)
  | timeout (now : Nat → Timeval)
  | segment (now : Nat → Timeval) (sourceNodeID : Int32) (segmentBuffer : Seg)

/-- One event; `none` when the thread is elsewhere or behaviour is undefined. -/
def Party.step (party : Party) : PartyEvent → Option (Party × List ClientEffect)
  | .connect nodeID serverPort =>
      match party.caller with
      | .fresh =>
          match mrtClientConnect party.client nodeID serverPort with
          | some (client, clientSyn, effects) => some (⟨client, .connecting clientSyn⟩, effects)
          | none => some (⟨party.client, .returned⟩, [])
      | .connecting _ => none
      | .returned => none
      | .disconnecting _ _ => none
  | .connectWake =>
      match party.caller with
      | .connecting clientSyn =>
          some (⟨party.client, .returned⟩, (mrtClientConnectWake party.client clientSyn).2)
      | .fresh => none
      | .returned => none
      | .disconnecting _ _ => none
  | .disconnect =>
      match party.caller with
      | .returned =>
          match mrtClientDisconnect party.client with
          | some (client, finished, effects) =>
              some (⟨client, .disconnecting finished 0⟩, effects)
          | none => some (party, [])
      | .fresh => none
      | .connecting _ => none
      | .disconnecting _ _ => none
  | .disconnectWake =>
      match party.caller with
      | .disconnecting finished retry => do
          let turn ← mrtClientDisconnectWake party.client finished retry
          match turn.2.1 with
          | .waits retry => return (⟨turn.1, .disconnecting finished retry⟩, turn.2.2)
          | .returns _ => return (⟨turn.1, .returned⟩, turn.2.2)
      | .fresh => none
      | .connecting _ => none
      | .returned => none
  | .send now data => do
      let result ← mrtClientSend now party.client data
      return (⟨result.2.1, party.caller⟩, result.2.2)
  | .timeout now => do
      let result ← sendBufferTimeout now party.client
      return (⟨result.1, party.caller⟩, result.2)
  | .segment now sourceNodeID segmentBuffer => do
      let result ← clientSeghandler now party.client sourceNodeID segmentBuffer
      return (⟨result.1, party.caller⟩, result.2)

/-- `sleeping` counts the threads of `closewait` that have not changed the TCB yet. -/
structure ServerParty where
  table : ServerTcb
  sleeping : Nat

/-- `recvTurn` is a later turn of a call of `mrt_server_recv` that sleeps; it
does not test the state again. -/
inductive ServerEvent where
  | accept
  | recv (length : UInt32)
  | recvTurn (length : UInt32)
  | segment (sourceNodeID : Int32) (segmentBuffer : Seg)
  | closewait

def ServerParty.received (party : ServerParty) : RecvTurn → ServerParty
  | .sleeps => party
  | .returns _ _ table => { party with table := table }

def ServerParty.step (party : ServerParty) : ServerEvent → Option (ServerParty × List ServerEffect)
  | .accept =>
      match mrtServerAccept party.table with
      | some table => some ({ party with table := table }, [])
      | none => some (party, [])
  | .recv length => do
      let turn ← mrtServerRecv party.table length
      return (party.received turn, [])
  | .recvTurn length => do
      let turn ← mrtServerRecvTurn party.table length
      return (party.received turn, [])
  | .segment sourceNodeID segmentBuffer => do
      let result ← serverSeghandler party.table sourceNodeID segmentBuffer
      return (⟨result.1, party.sleeping + closewaitsStarted result.2⟩, result.2)
  | .closewait =>
      if 0 < party.sleeping then some (⟨closewait party.table, party.sleeping - 1⟩, []) else none

/-- The addresses of the server socket and of the clients, which are pairwise different. -/
structure Sockets (ι : Type) where
  serverNodeID : Int32
  serverPort : UInt32
  nodeID : ι → Int32
  port : ι → UInt32
  distinct : ∀ left right, nodeID left = nodeID right → port left = port right → left = right

/-- A segment on the network; `arg.nodeID` is the node it goes to. -/
structure Packet where
  sourceNodeID : Int32
  arg : SendsegArg

structure Overlay (ι : Type) where
  server : ServerParty
  clients : ι → Party
  flight : List Packet

variable {ι : Type}

def Overlay.withServer (net : Overlay ι) (sockets : Sockets ι) (server : ServerParty)
    (effects : List ServerEffect) : Overlay ι :=
  { net with
    server := server
    flight := net.flight ++ (serverSentSegs effects).map (Packet.mk sockets.serverNodeID) }

def Overlay.withClient [DecidableEq ι] (net : Overlay ι) (sockets : Sockets ι) (client : ι)
    (party : Party) (effects : List ClientEffect) : Overlay ι :=
  { net with
    clients := Function.update net.clients client party
    flight := net.flight ++ (sentSegs effects).map (Packet.mk (sockets.nodeID client)) }

def ServerEvent.Enabled (net : Overlay ι) (sockets : Sockets ι) : ServerEvent → Prop
  | .segment sourceNodeID segmentBuffer =>
      ⟨sourceNodeID, sockets.serverNodeID, segmentBuffer⟩ ∈ net.flight ∧
        segmentBuffer.header.destPort = sockets.serverPort
  | .accept => True
  | .recv _ => True
  | .recvTurn _ => True
  | .closewait => True

def PartyEvent.Enabled (net : Overlay ι) (sockets : Sockets ι) (client : ι) : PartyEvent → Prop
  | .connect nodeID serverPort =>
      nodeID = sockets.serverNodeID ∧ serverPort = sockets.serverPort
  | .segment _ sourceNodeID segmentBuffer =>
      ⟨sourceNodeID, sockets.nodeID client, segmentBuffer⟩ ∈ net.flight ∧
        segmentBuffer.header.destPort = sockets.port client
  | .connectWake => True
  | .disconnect => True
  | .disconnectWake => True
  | .send _ _ => True
  | .timeout _ => True

/-- A server socket that does not listen yet, clients as `mrt_client_sock` makes
them and nothing on the network. -/
structure Overlay.Initial (sockets : Sockets ι) (net : Overlay ι) : Prop where
  server : net.server.table.state = .closed
  sleeping : net.server.sleeping = 0
  clients : ∀ client, ∃ svrPortNum, net.clients client =
    ⟨mrtClientSock (sockets.nodeID client) (sockets.port client) svrPortNum, .fresh⟩
  flight : net.flight = []

def Overlay.clientState (net : Overlay ι) (client : ι) : ClientState :=
  (net.clients client).client.tcb.state

structure Serves (sockets : Sockets ι) (table : ServerTcb) (client : ι) : Prop where
  state : table.state = .connected
  node : table.clientNodeID = (sockets.nodeID client).toUInt32
  port : table.clientPortNum = sockets.port client

/-- The server serves every connected client, so there is at most one. -/
structure Overlay.Agrees (sockets : Sockets ι) (net : Overlay ι) : Prop where
  serves : ∀ client, net.clientState client = .connected →
    Serves sockets net.server.table client
  one : ∀ left right, net.clientState left = .connected → net.clientState right = .connected →
    left = right

structure Party.Left (party : Party) : Prop where
  started : party.caller ≠ .fresh
  notConnected : party.client.tcb.state ≠ .connected
  notSynsent : party.client.tcb.state ≠ .synsent

/-- What a client's thread and memory look like between two events. -/
structure Party.Ok (port : UInt32) (party : Party) : Prop where
  clientPort : party.client.tcb.clientPortNum = port
  cells : party.client.Keeps fun seg => party.caller ≠ .fresh ∧ Bufferable port seg
  fresh : party.caller = .fresh → party.client.tcb.state = .closed
  connecting : ∀ clientSyn, party.caller = .connecting clientSyn →
    clientSyn.header.srcPort = port ∧ clientSyn.header.type = SegType.syn
  disconnecting : ∀ finished retry, party.caller = .disconnecting finished retry →
    party.Left ∧ finished.header.srcPort = port ∧ finished.header.type = SegType.fin

/-- A segment that a client may have sent by the time it is in the given state. -/
structure Party.Sends (port : UInt32) (party : Party) (seg : Seg) : Prop where
  srcPort : seg.header.srcPort = port
  started : party.caller ≠ .fresh
  notSynack : seg.header.type ≠ SegType.synack
  fin : seg.header.type = SegType.fin → party.Left

structure Party.Moves (port : UInt32) (party after : Party) (effects : List ClientEffect) :
    Prop where
  ok : after.Ok port
  started : party.caller ≠ .fresh → after.caller ≠ .fresh
  left : party.Left → after.Left
  synsent : after.client.tcb.state = .synsent →
    party.caller = .fresh ∨ party.client.tcb.state = .synsent
  sends : ∀ arg ∈ sentSegs effects, Party.Sends port after arg.seg

theorem sends_syn {port : UInt32} {party : Party} {seg : Seg} (srcPort : seg.header.srcPort = port)
    (started : party.caller ≠ .fresh) (isSyn : seg.header.type = SegType.syn) :
    Party.Sends port party seg := by
  have notSynack : SegType.syn ≠ SegType.synack := by decide
  have notFin : SegType.syn ≠ SegType.fin := by decide
  exact ⟨srcPort, started, isSyn ▸ notSynack, fun isFin => absurd (isSyn.symm.trans isFin) notFin⟩

theorem sends_fin {port : UInt32} {party : Party} {seg : Seg} (srcPort : seg.header.srcPort = port)
    (left : party.Left) (isFin : seg.header.type = SegType.fin) : Party.Sends port party seg := by
  have notSynack : SegType.fin ≠ SegType.synack := by decide
  exact ⟨srcPort, left.started, isFin ▸ notSynack, fun _ => left⟩

theorem sends_bufferable {port : UInt32} {party : Party} {seg : Seg}
    (bufferable : Bufferable port seg) (started : party.caller ≠ .fresh) :
    Party.Sends port party seg := by
  have notSynack : seg.header.type ≠ SegType.synack := by
    rcases bufferable.type with type | type <;> rw [type] <;> decide
  have notFin : seg.header.type ≠ SegType.fin := by
    rcases bufferable.type with type | type <;> rw [type] <;> decide
  exact ⟨bufferable.srcPort, started, notSynack, fun isFin => absurd isFin notFin⟩

theorem kept_moves {port : UInt32} {party : Party} {after : Client} {effects : List ClientEffect}
    (ok : party.Ok port)
    (kept : Kept (fun seg => party.caller ≠ .fresh ∧ Bufferable port seg) party.client after
      effects) :
    party.Moves port ⟨after, party.caller⟩ effects := by
  have state : after.tcb.state = party.client.tcb.state := congrArg ClientEnds.state kept.ends
  have samePort : after.tcb.clientPortNum = party.client.tcb.clientPortNum :=
    congrArg ClientEnds.clientPortNum kept.ends
  have left : party.Left → Party.Left ⟨after, party.caller⟩ := by
    intro gone
    exact ⟨gone.started, state ▸ gone.notConnected, state ▸ gone.notSynsent⟩
  refine ⟨⟨samePort.trans ok.clientPort, kept.cells, fun fresh => state.trans (ok.fresh fresh),
    ok.connecting, ?_⟩, id, left, fun synsent => Or.inr (state ▸ synsent), ?_⟩
  · intro finished retry waits
    obtain ⟨gone, fin⟩ := ok.disconnecting finished retry waits
    exact ⟨left gone, fin⟩
  · intro arg member
    obtain ⟨started, bufferable⟩ := kept.sends arg member
    exact sends_bufferable bufferable started

theorem bufferable_renumber {port : UInt32} {caller : Caller} (seg : Seg) (seqNum : UInt32)
    (kept : caller ≠ .fresh ∧ Bufferable port seg) :
    caller ≠ .fresh ∧ Bufferable port (seg.withSeqNum seqNum) :=
  ⟨kept.1, kept.2.srcPort, kept.2.type⟩

theorem cells_started {port : UInt32} {party : Party} {caller : Caller} (ok : party.Ok port)
    (started : caller ≠ .fresh) :
    party.client.Keeps fun seg => caller ≠ .fresh ∧ Bufferable port seg := by
  intro ptr cell held
  exact ⟨started, (ok.cells ptr cell held).2⟩

theorem connect_moves {port : UInt32} {party after : Party} {nodeID : Int32} {serverPort : UInt32}
    {effects : List ClientEffect} (ok : party.Ok port)
    (stepped : party.step (.connect nodeID serverPort) = some (after, effects)) :
    party.Moves port after effects ∧ after.client.tcb.state = .synsent := by
  cases caller : party.caller with
  | fresh =>
      have closed := ok.fresh caller
      simp only [Party.step, caller, mrtClientConnect, closed] at stepped
      cases stepped
      have started := connecting_started
        ({ party.client.tcb with svrNodeID := nodeID.toUInt32, svrPortNum := serverPort }.newSeg
          SegType.syn 0 [])
      have cells := cells_started ok started
      refine ⟨⟨⟨ok.clientPort, cells, fun fresh => absurd fresh started, ?_, ?_⟩,
        fun _ => started, fun left => absurd caller left.started, fun _ => Or.inl caller, ?_⟩, rfl⟩
      · intro clientSyn same
        cases same
        exact ⟨ok.clientPort, rfl⟩
      · intro finished retry same
        cases same
      · intro arg member
        rw [List.mem_singleton.mp member]
        exact sends_syn ok.clientPort started rfl
  | connecting clientSyn => simp [Party.step, caller] at stepped
  | returned => simp [Party.step, caller] at stepped
  | disconnecting finished retry => simp [Party.step, caller] at stepped

theorem returned_moves {port : UInt32} {party : Party} {effects : List ClientEffect}
    (ok : party.Ok port)
    (sends : ∀ arg ∈ sentSegs effects,
      Party.Sends port ⟨party.client, .returned⟩ arg.seg) :
    party.Moves port ⟨party.client, .returned⟩ effects := by
  have cells := cells_started ok returned_started
  refine ⟨⟨ok.clientPort, cells, fun fresh => absurd fresh returned_started, ?_, ?_⟩,
    fun _ => returned_started, fun left => ⟨returned_started, left.notConnected, left.notSynsent⟩,
    fun synsent => Or.inr synsent, sends⟩
  · intro clientSyn same
    cases same
  · intro finished retry same
    cases same

theorem connect_wake_moves {port : UInt32} {party after : Party} {effects : List ClientEffect}
    (ok : party.Ok port) (stepped : party.step .connectWake = some (after, effects)) :
    party.Moves port after effects ∧ after.client.tcb.state = party.client.tcb.state := by
  cases caller : party.caller with
  | connecting clientSyn =>
      obtain ⟨srcPort, isSyn⟩ := ok.connecting clientSyn caller
      simp only [Party.step, caller] at stepped
      cases stepped
      refine ⟨returned_moves ok ?_, rfl⟩
      intro arg member
      unfold mrtClientConnectWake at member
      split_ifs at member with connected
      · rw [List.mem_singleton.mp member]
        exact sends_syn srcPort returned_started isSyn
      · cases member
  | fresh => simp [Party.step, caller] at stepped
  | returned => simp [Party.step, caller] at stepped
  | disconnecting finished retry => simp [Party.step, caller] at stepped

theorem left_moves {port : UInt32} {party after : Party} {effects : List ClientEffect}
    (finished : Seg) (clientPort : after.client.tcb.clientPortNum = port)
    (cells : after.client.Keeps fun seg => after.caller ≠ .fresh ∧ Bufferable port seg)
    (left : after.Left) (fin : finished.header.srcPort = port ∧ finished.header.type = SegType.fin)
    (caller : after.caller = .returned ∨ ∃ retry, after.caller = .disconnecting finished retry)
    (sends : ∀ arg ∈ sentSegs effects, arg.seg = finished) :
    party.Moves port after effects := by
  refine ⟨⟨clientPort, cells, fun fresh => absurd fresh left.started, ?_, ?_⟩,
    fun _ => left.started, fun _ => left, fun synsent => absurd synsent left.notSynsent, ?_⟩
  · intro clientSyn same
    rcases caller with returned | ⟨retry, waits⟩
    · rw [returned] at same
      cases same
    · rw [waits] at same
      cases same
  · intro other otherRetry same
    rcases caller with returned | ⟨retry, waits⟩
    · rw [returned] at same
      cases same
    · rw [waits] at same
      cases same
      exact ⟨left, fin⟩
  · intro arg member
    rw [sends arg member]
    exact sends_fin fin.1 left fin.2

theorem disconnect_moves {port : UInt32} {party after : Party} {effects : List ClientEffect}
    (ok : party.Ok port) (stepped : party.step .disconnect = some (after, effects)) :
    party.Moves port after effects ∧
      (after.client.tcb.state = party.client.tcb.state ∨ after.Left) := by
  cases caller : party.caller with
  | returned =>
      have stays : (party, ([] : List ClientEffect)) = (after, effects) →
          party.Moves port after effects ∧
            (after.client.tcb.state = party.client.tcb.state ∨ after.Left) := by
        intro same
        cases same
        exact ⟨kept_moves ok (kept_refl ok.cells), Or.inl rfl⟩
      cases state : party.client.tcb.state with
      | connected =>
          simp only [Party.step, caller, mrtClientDisconnect, state] at stepped
          cases stepped
          have started := disconnecting_started (party.client.tcb.newSeg SegType.fin 0 []) 0
          have left : Party.Left ⟨⟨party.client.heap, { party.client.tcb with state := .finwait }⟩,
              .disconnecting (party.client.tcb.newSeg SegType.fin 0 []) 0⟩ :=
            ⟨started, by simp, by simp⟩
          have cells := cells_started ok started
          refine ⟨left_moves (party.client.tcb.newSeg SegType.fin 0 []) ok.clientPort cells left
            ⟨ok.clientPort, rfl⟩ (Or.inr ⟨0, ?_⟩) ?_, Or.inr left⟩
          · simp only [ClientTcb.newSeg]
          · intro arg member
            rw [List.mem_singleton.mp member]
      | closed =>
          simp only [Party.step, caller, mrtClientDisconnect, state] at stepped
          exact state ▸ stays (Option.some.inj stepped)
      | synsent =>
          simp only [Party.step, caller, mrtClientDisconnect, state] at stepped
          exact state ▸ stays (Option.some.inj stepped)
      | finwait =>
          simp only [Party.step, caller, mrtClientDisconnect, state] at stepped
          exact state ▸ stays (Option.some.inj stepped)
  | fresh => simp [Party.step, caller] at stepped
  | connecting clientSyn => simp [Party.step, caller] at stepped
  | disconnecting finished retry => simp [Party.step, caller] at stepped

theorem disconnect_wake_moves {port : UInt32} {party after : Party} {effects : List ClientEffect}
    (ok : party.Ok port) (stepped : party.step .disconnectWake = some (after, effects)) :
    party.Moves port after effects ∧ after.Left := by
  cases caller : party.caller with
  | disconnecting finished retry =>
      obtain ⟨left, fin⟩ := ok.disconnecting finished retry caller
      have cells := cells_started ok returned_started
      have resent : ∀ arg ∈ sentSegs
          [ClientEffect.mnpSendseg party.client.tcb.svrNodeID.toInt32 finished],
          arg.seg = finished := by
        intro arg member
        rw [List.mem_singleton.mp member]
      simp only [Party.step, caller] at stepped
      obtain ⟨result, turned, stepped⟩ := Option.bind_eq_some_iff.mp stepped
      cases disconnect_wakes turned with
      | empties client closed destroys =>
          cases stepped
          have reset : Client.Keeps (fun seg => Caller.returned ≠ .fresh ∧ Bufferable port seg)
              ⟨party.client.heap, { party.client.tcb with
                nextSeqNum := 0
                svrNodeID := -1
                svrPortNum := 0 }⟩ := cells
          have kept := destroy_kept reset destroys
          have state : client.tcb.state = .closed :=
            (congrArg ClientEnds.state kept.ends).trans closed
          have samePort : client.tcb.clientPortNum = party.client.tcb.clientPortNum :=
            congrArg ClientEnds.clientPortNum kept.ends
          have leftAfter : Party.Left ⟨client, .returned⟩ :=
            ⟨returned_started, by simp [state], by simp [state]⟩
          refine ⟨left_moves finished (samePort.trans ok.clientPort) kept.cells leftAfter fin
            (Or.inl rfl) ?_, leftAfter⟩
          intro arg member
          cases member
      | waits _ _ =>
          cases stepped
          have started := disconnecting_started finished (retry + 1)
          have leftAfter : Party.Left ⟨party.client, .disconnecting finished (retry + 1)⟩ :=
            ⟨started, left.notConnected, left.notSynsent⟩
          have waiting := cells_started ok started
          exact ⟨left_moves finished ok.clientPort waiting leftAfter fin (Or.inr ⟨_, rfl⟩) resent,
            leftAfter⟩
      | givesUp _ _ =>
          cases stepped
          have leftAfter : Party.Left
              ⟨⟨party.client.heap, { party.client.tcb with state := .closed }⟩, .returned⟩ :=
            ⟨returned_started, by simp, by simp⟩
          exact ⟨left_moves finished ok.clientPort cells leftAfter fin (Or.inl rfl) resent,
            leftAfter⟩
  | fresh => simp [Party.step, caller] at stepped
  | connecting clientSyn => simp [Party.step, caller] at stepped
  | returned => simp [Party.step, caller] at stepped

def PartyEvent.Connects (party : Party) : PartyEvent → Prop
  | .segment _ _ segmentBuffer =>
      segmentBuffer.header.type = SegType.synack ∧ party.client.tcb.state = .synsent
  | _ => False

theorem segment_moves {port : UInt32} {party : Party} {after : Client} {now : Nat → Timeval}
    {sourceNodeID : Int32} {segmentBuffer : Seg} {effects : List ClientEffect} (ok : party.Ok port)
    (handled : clientSeghandler now party.client sourceNodeID segmentBuffer =
      some (after, effects)) :
    party.Moves port ⟨after, party.caller⟩ effects ∧
      (after.tcb.state = .connected → party.client.tcb.state = .connected ∨
        PartyEvent.Connects party (.segment now sourceNodeID segmentBuffer)) := by
  rcases client_handled_cases now sourceNodeID segmentBuffer handled ok.cells with
    kept | ⟨rfl, ⟨synsent, synack, rfl⟩ | ⟨finwait, rfl⟩⟩
  · have state : after.tcb.state = party.client.tcb.state := congrArg ClientEnds.state kept.ends
    exact ⟨kept_moves ok kept, fun connected => Or.inl (state ▸ connected)⟩
  · have started : party.caller ≠ .fresh := by
      intro fresh
      have closed := ok.fresh fresh
      rw [synsent] at closed
      cases closed
    refine ⟨⟨⟨ok.clientPort, ok.cells, fun fresh => absurd fresh started, ok.connecting, ?_⟩, id,
      fun left => absurd synsent left.notSynsent, fun _ => Or.inr synsent,
      nothing_sent⟩, fun _ => Or.inr ⟨synack, synsent⟩⟩
    intro finished retry waits
    exact absurd synsent (ok.disconnecting finished retry waits).1.notSynsent
  · have left : party.Left →
        Party.Left ⟨⟨party.client.heap, { party.client.tcb with state := .closed }⟩,
          party.caller⟩ := by
      intro gone
      exact ⟨gone.started, by simp, by simp⟩
    refine ⟨⟨⟨ok.clientPort, ok.cells, fun _ => rfl, ok.connecting, ?_⟩, id, left, ?_,
      nothing_sent⟩, ?_⟩
    · intro finished retry waits
      obtain ⟨gone, fin⟩ := ok.disconnecting finished retry waits
      exact ⟨left gone, fin⟩
    · intro synsent
      cases synsent
    · intro connected
      cases connected

theorem party_moves {port : UInt32} {party after : Party} {event : PartyEvent}
    {effects : List ClientEffect} (ok : party.Ok port)
    (stepped : party.step event = some (after, effects)) :
    party.Moves port after effects ∧
      (after.client.tcb.state = .connected →
        party.client.tcb.state = .connected ∨ event.Connects party) := by
  cases event with
  | connect nodeID serverPort =>
      obtain ⟨moves, synsent⟩ := connect_moves ok stepped
      refine ⟨moves, fun connected => ?_⟩
      rw [synsent] at connected
      cases connected
  | connectWake =>
      obtain ⟨moves, state⟩ := connect_wake_moves ok stepped
      exact ⟨moves, fun connected => Or.inl (state ▸ connected)⟩
  | disconnect =>
      obtain ⟨moves, state | left⟩ := disconnect_moves ok stepped
      · exact ⟨moves, fun connected => Or.inl (state ▸ connected)⟩
      · exact ⟨moves, fun connected => absurd connected left.notConnected⟩
  | disconnectWake =>
      obtain ⟨moves, left⟩ := disconnect_wake_moves ok stepped
      exact ⟨moves, fun connected => absurd connected left.notConnected⟩
  | send now data =>
      obtain ⟨result, sent, stepped⟩ := Option.bind_eq_some_iff.mp stepped
      cases stepped
      have kept := client_send_kept bufferable_renumber now data sent ok.cells (by
        intro connected seg bufferable
        refine ⟨fun fresh => ?_, ok.clientPort ▸ bufferable⟩
        rw [ok.fresh fresh] at connected
        cases connected)
      have state := congrArg ClientEnds.state kept.ends
      exact ⟨kept_moves ok kept, fun connected => Or.inl (state.symm.trans connected)⟩
  | timeout now =>
      obtain ⟨result, sent, stepped⟩ := Option.bind_eq_some_iff.mp stepped
      cases stepped
      have kept := timeout_kept now ok.cells sent
      have state := congrArg ClientEnds.state kept.ends
      exact ⟨kept_moves ok kept, fun connected => Or.inl (state.symm.trans connected)⟩
  | segment now sourceNodeID segmentBuffer =>
      obtain ⟨result, handled, stepped⟩ := Option.bind_eq_some_iff.mp stepped
      cases stepped
      exact segment_moves ok handled

structure Packet.From (sockets : Sockets ι) (client : ι) (packet : Packet) : Prop where
  node : packet.sourceNodeID = sockets.nodeID client
  port : packet.arg.seg.header.srcPort = sockets.port client

structure Packet.To (sockets : Sockets ι) (client : ι) (packet : Packet) : Prop where
  node : packet.arg.nodeID = sockets.nodeID client
  port : packet.arg.seg.header.destPort = sockets.port client

structure Packet.Accounts (sockets : Sockets ι) (net : Overlay ι) (packet : Packet) : Prop where
  syn : ∀ client, packet.From sockets client → packet.arg.seg.header.type = SegType.syn →
    (net.clients client).caller ≠ .fresh
  fin : ∀ client, packet.From sockets client → packet.arg.seg.header.type = SegType.fin →
    (net.clients client).Left
  synack : ∀ client, packet.To sockets client → packet.arg.seg.header.type = SegType.synack →
    (net.clients client).caller ≠ .fresh ∧
      (net.clientState client = .synsent → Serves sockets net.server.table client)

structure Overlay.Inv (sockets : Sockets ι) (net : Overlay ι) : Prop where
  sleeping : 0 < net.server.sleeping →
    net.server.sleeping = 1 ∧ net.server.table.state = .closewait
  parties : ∀ client, (net.clients client).Ok (sockets.port client)
  serves : ∀ client, net.clientState client = .connected →
    Serves sockets net.server.table client
  flight : ∀ packet ∈ net.flight, packet.Accounts sockets net

theorem initial_inv (sockets : Sockets ι) (net : Overlay ι) (initial : net.Initial sockets) :
    net.Inv sockets := by
  constructor
  · intro waits
    rw [initial.sleeping] at waits
    exact absurd waits (Nat.lt_irrefl 0)
  · intro client
    obtain ⟨svrPortNum, same⟩ := initial.clients client
    rw [same]
    refine ⟨rfl, everywhere_nil _, fun _ => rfl, ?_, ?_⟩
    · intro clientSyn caller
      cases caller
    · intro finished retry caller
      cases caller
  · intro client connected
    obtain ⟨svrPortNum, same⟩ := initial.clients client
    rw [Overlay.clientState, same] at connected
    cases connected
  · intro packet member
    rw [initial.flight] at member
    cases member

theorem serves_records {sockets : Sockets ι} {table : ServerTcb} {client : ι}
    {sourceNodeID : Int32} {segmentBuffer : Seg} (serves : Serves sockets table client)
    (records : Records table sourceNodeID segmentBuffer) (destNodeID : Int32) :
    Packet.From sockets client ⟨sourceNodeID, destNodeID, segmentBuffer⟩ := by
  have node := congrArg UInt32.toInt32 (records.node.symm.trans serves.node)
  rw [Int32.toInt32_toUInt32, Int32.toInt32_toUInt32] at node
  exact ⟨node, records.port.symm.trans serves.port⟩

theorem answers_to {sockets : Sockets ι} {table : ServerTcb} {client : ι} {sourceNodeID : Int32}
    {segmentBuffer : Seg} {arg : SendsegArg}
    (answers : Answers table sourceNodeID segmentBuffer arg)
    (records : Records table sourceNodeID segmentBuffer)
    (addressed : Packet.To sockets client ⟨sockets.serverNodeID, arg⟩) :
    Serves sockets table client := by
  have node : table.clientNodeID.toInt32 = sockets.nodeID client :=
    answers.node.symm.trans addressed.node
  have port : table.clientPortNum = sockets.port client := answers.port.symm.trans addressed.port
  have back := congrArg Int32.toUInt32 node
  rw [UInt32.toUInt32_toInt32] at back
  exact ⟨records.state, back, port⟩

theorem with_server_inv {sockets : Sockets ι} {net : Overlay ι} (inv : net.Inv sockets)
    (after : ServerParty) (effects : List ServerEffect)
    (sleeping : 0 < after.sleeping → after.sleeping = 1 ∧ after.table.state = .closewait)
    (keeps : ∀ client, Serves sockets net.server.table client → ¬ (net.clients client).Left →
      Serves sockets after.table client)
    (sends : ∀ arg ∈ serverSentSegs effects,
      Packet.Accounts sockets { net with server := after } ⟨sockets.serverNodeID, arg⟩) :
    (net.withServer sockets after effects).Inv sockets := by
  refine ⟨sleeping, inv.parties, ?_, ?_⟩
  · intro client connected
    exact keeps client (inv.serves client connected) fun left => left.notConnected connected
  · intro packet member
    rcases List.mem_append.mp member with old | new
    · have accounts := inv.flight packet old
      refine ⟨accounts.syn, accounts.fin, ?_⟩
      intro client addressed synack
      obtain ⟨started, serves⟩ := accounts.synack client addressed synack
      refine ⟨started, fun synsent => ?_⟩
      exact keeps client (serves synsent) fun left => left.notSynsent synsent
    · obtain ⟨arg, sent, rfl⟩ := List.mem_map.mp new
      have accounts := sends arg sent
      exact ⟨accounts.syn, accounts.fin, accounts.synack⟩

theorem server_segment_inv {sockets : Sockets ι} {net : Overlay ι} (inv : net.Inv sockets)
    {sourceNodeID : Int32} {segmentBuffer : Seg} {after : ServerTcb} {effects : List ServerEffect}
    (delivered : ⟨sourceNodeID, sockets.serverNodeID, segmentBuffer⟩ ∈ net.flight)
    (handled : ServerHandled net.server.table sourceNodeID segmentBuffer after effects) :
    (net.withServer sockets ⟨after, net.server.sleeping + closewaitsStarted effects⟩ effects).Inv
      sockets := by
  have accounts := inv.flight _ delivered
  apply with_server_inv inv
  · intro waits
    rcases handled.moves with ⟨listening, _, started⟩ | ⟨state, _, _, started⟩ |
      ⟨records, _, state, started⟩
    · rw [started] at waits
      have closing := (inv.sleeping waits).2
      rw [listening] at closing
      cases closing
    · rw [started] at waits ⊢
      exact ⟨(inv.sleeping waits).1, state.trans (inv.sleeping waits).2⟩
    · have none : net.server.sleeping = 0 := by
        by_contra waiting
        have closing := (inv.sleeping (Nat.pos_of_ne_zero waiting)).2
        rw [records.state] at closing
        cases closing
      exact ⟨by rw [none, started], state⟩
  · intro client serves stays
    rcases handled.moves with ⟨listening, _, _⟩ | ⟨state, node, port, _⟩ | ⟨records, fin, _, _⟩
    · have connected := serves.state
      rw [listening] at connected
      cases connected
    · exact ⟨state.trans serves.state, node.trans serves.node, port.trans serves.port⟩
    · exact absurd (accounts.fin client (serves_records serves records _) fin) stays
  · intro arg sent
    have answers := handled.answers arg sent
    refine ⟨fun _ _ isSyn => absurd isSyn answers.notSyn,
      fun _ _ isFin => absurd isFin answers.notFin, ?_⟩
    intro client addressed synack
    obtain ⟨isSyn, records⟩ := answers.synack synack
    have serves := answers_to answers records addressed
    exact ⟨accounts.syn client (serves_records serves records _) isSyn, fun _ => serves⟩

structure SameConnection (table after : ServerTcb) : Prop where
  state : after.state = table.state
  node : after.clientNodeID = table.clientNodeID
  port : after.clientPortNum = table.clientPortNum

theorem quiet_server_inv {sockets : Sockets ι} {net : Overlay ι} (inv : net.Inv sockets)
    (after : ServerParty) (sleeping : after.sleeping = net.server.sleeping)
    (same : SameConnection net.server.table after.table) :
    (net.withServer sockets after []).Inv sockets := by
  apply with_server_inv inv
  · intro waits
    rw [sleeping] at waits ⊢
    exact ⟨(inv.sleeping waits).1, same.state.trans (inv.sleeping waits).2⟩
  · intro client serves _
    exact ⟨same.state.trans serves.state, same.node.trans serves.node,
      same.port.trans serves.port⟩
  · intro arg sent
    cases sent

theorem recv_turn_same {table : ServerTcb} {length : UInt32} {turn : RecvTurn}
    (turned : mrtServerRecvTurn table length = some turn) (sleeping : Nat) :
    SameConnection table ((ServerParty.mk table sleeping).received turn).table := by
  rcases recv_turn_result turned with rfl | ⟨_, rfl⟩
  · exact ⟨rfl, rfl, rfl⟩
  · exact ⟨rfl, rfl, rfl⟩

theorem recv_same {table : ServerTcb} {length : UInt32} {turn : RecvTurn}
    (turned : mrtServerRecv table length = some turn) (sleeping : Nat) :
    SameConnection table ((ServerParty.mk table sleeping).received turn).table := by
  rcases recv_result turned with connected | rfl
  · exact recv_turn_same connected sleeping
  · exact ⟨rfl, rfl, rfl⟩

theorem received_sleeping (party : ServerParty) (turn : RecvTurn) :
    (party.received turn).sleeping = party.sleeping := by
  cases turn <;> rfl

theorem accept_inv {sockets : Sockets ι} {net : Overlay ι} (inv : net.Inv sockets)
    {after : ServerParty} {effects : List ServerEffect}
    (stepped : net.server.step .accept = some (after, effects)) :
    (net.withServer sockets after effects).Inv sockets := by
  simp only [ServerParty.step, mrtServerAccept] at stepped
  cases state : net.server.table.state <;> rw [state] at stepped
  case closed =>
    cases stepped
    apply with_server_inv inv
    · intro waits
      have closing := (inv.sleeping waits).2
      rw [state] at closing
      cases closing
    · intro client serves _
      have connected := serves.state
      rw [state] at connected
      cases connected
    · intro arg sent
      cases sent
  all_goals
    cases stepped
    exact quiet_server_inv inv net.server rfl ⟨rfl, rfl, rfl⟩

theorem closewait_inv {sockets : Sockets ι} {net : Overlay ι} (inv : net.Inv sockets)
    {after : ServerParty} {effects : List ServerEffect}
    (stepped : net.server.step .closewait = some (after, effects)) :
    (net.withServer sockets after effects).Inv sockets := by
  simp only [ServerParty.step] at stepped
  split_ifs at stepped with waiting
  cases stepped
  obtain ⟨one, closing⟩ := inv.sleeping waiting
  apply with_server_inv inv
  · intro waits
    have positive : 0 < net.server.sleeping - 1 := waits
    rw [one] at positive
    exact absurd positive (Nat.lt_irrefl 0)
  · intro client serves _
    have connected := serves.state
    rw [closing] at connected
    cases connected
  · intro arg sent
    cases sent

theorem server_event_inv {sockets : Sockets ι} {net : Overlay ι} (inv : net.Inv sockets)
    {event : ServerEvent} {after : ServerParty} {effects : List ServerEffect}
    (enabled : event.Enabled net sockets)
    (stepped : net.server.step event = some (after, effects)) :
    (net.withServer sockets after effects).Inv sockets := by
  cases event with
  | accept => exact accept_inv inv stepped
  | recv length =>
      obtain ⟨turn, turned, stepped⟩ := Option.bind_eq_some_iff.mp stepped
      cases stepped
      exact quiet_server_inv inv _ (received_sleeping _ _) (recv_same turned _)
  | recvTurn length =>
      obtain ⟨turn, turned, stepped⟩ := Option.bind_eq_some_iff.mp stepped
      cases stepped
      exact quiet_server_inv inv _ (received_sleeping _ _) (recv_turn_same turned _)
  | segment sourceNodeID segmentBuffer =>
      obtain ⟨result, handled, stepped⟩ := Option.bind_eq_some_iff.mp stepped
      cases stepped
      exact server_segment_inv inv enabled.1 (server_handled _ _ handled)
  | closewait => exact closewait_inv inv stepped

theorem connects_served {sockets : Sockets ι} {net : Overlay ι} (inv : net.Inv sockets)
    {client : ι} {event : PartyEvent} (enabled : event.Enabled net sockets client)
    (connects : event.Connects (net.clients client)) : Serves sockets net.server.table client := by
  cases event with
  | segment now sourceNodeID segmentBuffer =>
      obtain ⟨synack, synsent⟩ := connects
      have addressed : Packet.To sockets client
          ⟨sourceNodeID, sockets.nodeID client, segmentBuffer⟩ := ⟨rfl, enabled.2⟩
      exact ((inv.flight _ enabled.1).synack client addressed synack).2 synsent
  | connect nodeID serverPort => cases connects
  | connectWake => cases connects
  | disconnect => cases connects
  | disconnectWake => cases connects
  | send now data => cases connects
  | timeout now => cases connects

section ClientEvent

variable [DecidableEq ι] {sockets : Sockets ι} {net : Overlay ι} {client : ι} {after : Party}
  {effects : List ClientEffect}

theorem client_event_here :
    (net.withClient sockets client after effects).clients client = after := by
  simp only [Overlay.withClient, Function.update_self]

theorem client_event_other {peer : ι} (different : peer ≠ client) :
    (net.withClient sockets client after effects).clients peer = net.clients peer := by
  simp only [Overlay.withClient, Function.update_of_ne different]

theorem client_event_accounts {packet : Packet} (accounts : packet.Accounts sockets net)
    (moves : (net.clients client).Moves (sockets.port client) after effects) :
    packet.Accounts sockets (net.withClient sockets client after effects) := by
  constructor
  · intro peer origin isSyn
    by_cases same : peer = client
    · rw [same, client_event_here]
      exact moves.started (accounts.syn client (same ▸ origin) isSyn)
    · rw [client_event_other same]
      exact accounts.syn peer origin isSyn
  · intro peer origin isFin
    by_cases same : peer = client
    · rw [same, client_event_here]
      exact moves.left (accounts.fin client (same ▸ origin) isFin)
    · rw [client_event_other same]
      exact accounts.fin peer origin isFin
  · intro peer addressed synack
    obtain ⟨started, serves⟩ := accounts.synack peer addressed synack
    by_cases same : peer = client
    · rw [Overlay.clientState, same, client_event_here]
      rw [same] at started serves
      refine ⟨moves.started started, fun synsent => ?_⟩
      rcases moves.synsent synsent with fresh | before
      · exact absurd fresh started
      · exact serves before
    · rw [Overlay.clientState, client_event_other same]
      exact ⟨started, serves⟩

theorem client_event_sends {arg : SendsegArg} (sent : arg ∈ sentSegs effects)
    (moves : (net.clients client).Moves (sockets.port client) after effects) :
    Packet.Accounts sockets (net.withClient sockets client after effects)
      ⟨sockets.nodeID client, arg⟩ := by
  have sends := moves.sends arg sent
  have sender {peer : ι} (origin : Packet.From sockets peer ⟨sockets.nodeID client, arg⟩) :
      peer = client :=
    sockets.distinct peer client origin.node.symm (origin.port.symm.trans sends.srcPort)
  constructor
  · intro peer origin _
    rw [sender origin, client_event_here]
    exact sends.started
  · intro peer origin isFin
    rw [sender origin, client_event_here]
    exact sends.fin isFin
  · intro _ _ synack
    exact absurd synack sends.notSynack

theorem client_moves_inv (inv : net.Inv sockets)
    (moves : (net.clients client).Moves (sockets.port client) after effects)
    (connects : after.client.tcb.state = .connected →
      net.clientState client = .connected ∨ Serves sockets net.server.table client) :
    (net.withClient sockets client after effects).Inv sockets := by
  constructor
  · exact inv.sleeping
  · intro peer
    by_cases same : peer = client
    · rw [same, client_event_here]
      exact moves.ok
    · rw [client_event_other same]
      exact inv.parties peer
  · intro peer connected
    by_cases same : peer = client
    · rw [Overlay.clientState, same, client_event_here] at connected
      rw [same]
      rcases connects connected with before | now
      · exact inv.serves client before
      · exact now
    · rw [Overlay.clientState, client_event_other same] at connected
      exact inv.serves peer connected
  · intro packet member
    rcases List.mem_append.mp member with old | new
    · exact client_event_accounts (inv.flight packet old) moves
    · obtain ⟨arg, sent, rfl⟩ := List.mem_map.mp new
      exact client_event_sends sent moves

end ClientEvent

end MiniOverlay
