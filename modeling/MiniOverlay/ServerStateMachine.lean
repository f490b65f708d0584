import MiniOverlay.ServerSockets

/-!
# The documented state machine of the server

A listening server waits for a SYN; a connected one acts on its client's segments
and leaves on its client's FIN; in CLOSEWAIT the client's FIN is acknowledged
again. A segment for no socket is dropped. `seghandler` does less: it follows the
null pointer, accepts any type while it listens, and acknowledges a FIN of
anyone in CLOSEWAIT.
-/

namespace MiniOverlay

open SlotTable FixedByteCodec

set_option autoImplicit false

def ServerTcb.FromClient (table : ServerTcb) (sourceNodeID : Int32) (seg : Seg) : Prop :=
  table.clientPortNum = seg.header.srcPort ∧ table.clientNodeID = sourceNodeID.toUInt32

instance (table : ServerTcb) (sourceNodeID : Int32) (seg : Seg) :
    Decidable (table.FromClient sourceNodeID seg) :=
  inferInstanceAs (Decidable (_ ∧ _))

def ServerTcb.documentedState (table : ServerTcb) (sourceNodeID : Int32) (seg : Seg) :
    ServerState :=
  match table.state with
  | .listening => if seg.header.type = SegType.syn then .connected else .listening
  | .connected =>
      if table.FromClient sourceNodeID seg ∧ seg.header.type = SegType.fin then .closewait
      else .connected
  | .closewait => .closewait
  | .closed => .closed

def ServerTcb.peer (table : ServerTcb) : UInt32 × UInt32 :=
  (table.clientNodeID, table.clientPortNum)

def ServerTcb.documentedPeer (table : ServerTcb) (sourceNodeID : Int32) (seg : Seg) :
    UInt32 × UInt32 :=
  if table.state = .listening ∧ seg.header.type = SegType.syn then
    (sourceNodeID.toUInt32, seg.header.srcPort)
  else table.peer

structure DocumentedStep (table : ServerTcb) (sourceNodeID : Int32) (seg : Seg)
    (next : ServerTcb) (effects : List ServerEffect) : Prop where
  state : next.state = table.documentedState sourceNodeID seg
  peer : next.peer = table.documentedPeer sourceNodeID seg
  stranger : table.state = .connected → ¬ table.FromClient sourceNodeID seg →
    next = table ∧ effects = []
  finack : table.state = .closewait → effects =
    if table.FromClient sourceNodeID seg ∧ seg.header.type = SegType.fin then
      [table.reply SegType.finack 0] else []

/-- The turn has a result; it changes nothing when the port belongs to no TCB, and
only the TCB of the port otherwise, as documented. -/
def FollowsFsm (tables : ServerTable) (sourceNodeID : Int32) (seg : Seg) : Prop :=
  ∃ after effects, serverSeghandlerTurn tables sourceNodeID seg = some (after, effects) ∧
    match fetchServerTCB tables seg.header.destPort with
    | none => after = tables ∧ effects = []
    | some index =>
        (∀ other, other ≠ index → after other = tables other) ∧
          ∃ table next, tables index = some table ∧ after index = some next ∧
            DocumentedStep table sourceNodeID seg next effects

/-- The data of a segment that is stored lies inside the segment and fits behind
the bytes in the receive buffer. -/
def StoresInside (table : ServerTcb) (seg : Seg) : Prop :=
  seg.header.seqNum = table.expectSeqNum →
    (seg.header.length.toUInt32 + table.usedBufLen).toNat < receiveBufSize →
    seg.header.length.toNat ≤ maxSegLen ∧
      table.usedBufLen.toNat + seg.header.length.toNat ≤ table.recvBuf.length

/-- The segments on which the handler does what is documented for one TCB. -/
structure ExpectedSegment (table : ServerTcb) (sourceNodeID : Int32) (seg : Seg) : Prop where
  listening : table.state = .listening → seg.header.type = SegType.syn
  closewait : table.state = .closewait → seg.header.type = SegType.fin →
    table.FromClient sourceNodeID seg
  connected : table.state = .connected → table.FromClient sourceNodeID seg →
    seg.header.type = SegType.data → StoresInside table seg

theorem save_defined_iff (table : ServerTcb) (seg : Seg) :
    (saveTobuffer table seg).isSome ↔
      ((seg.header.length.toUInt32 + table.usedBufLen).toNat < receiveBufSize →
        seg.header.length.toNat ≤ maxSegLen ∧
          table.usedBufLen.toNat + seg.header.length.toNat ≤ table.recvBuf.length) := by
  unfold saveTobuffer
  split_ifs with room short
  · rw [imp_iff_right room, and_iff_right short, ← payload_length seg short]
    unfold copyTo
    split_ifs with fits <;> simp [fits]
  · rw [imp_iff_right room]
    simp [short]
  · exact ⟨fun _ below => absurd below room, fun _ => rfl⟩

theorem data_received_defined_iff (table : ServerTcb) (seg : Seg) :
    (dataReceived table seg).isSome ↔ StoresInside table seg := by
  unfold dataReceived StoresInside
  split_ifs with expected
  · simp only [expected, true_imp_iff]
    rw [← save_defined_iff]
    rcases save_cases table seg with undefined | refused | ⟨_, recvBuf, stored⟩
    · rw [undefined]
      rfl
    · rw [refused]
      rfl
    · rw [stored]
      rfl
  · simp [expected]

theorem data_received_keeps (table next : ServerTcb) (seg : Seg) (effects : List ServerEffect)
    (received : dataReceived table seg = some (next, effects)) :
    next.state = table.state ∧ next.peer = table.peer := by
  cases data_receives received with
  | repeated _ _ same _ =>
      subst same
      exact ⟨rfl, rfl⟩
  | refused _ _ same _ =>
      subst same
      exact ⟨rfl, rfl⟩
  | stored _ _ _ _ _ moved _ =>
      subst moved
      exact ⟨rfl, rfl⟩

theorem listening_step (table : ServerTcb) (sourceNodeID : Int32) (seg : Seg)
    (listening : table.state = .listening) :
    ∃ next effects, serverSeghandler table sourceNodeID seg = some (next, effects) ∧
      next.state = .connected ∧ next.peer = (sourceNodeID.toUInt32, seg.header.srcPort) := by
  simp only [serverSeghandler, listening]
  refine ⟨_, _, rfl, rfl, ?_⟩
  unfold segmentRecv
  split_ifs <;> rfl

theorem stranger_step (table : ServerTcb) (sourceNodeID : Int32) (seg : Seg)
    (connected : table.state = .connected) (stranger : ¬ table.FromClient sourceNodeID seg) :
    serverSeghandler table sourceNodeID seg = some (table, []) := by
  simp only [serverSeghandler, connected]
  exact if_neg stranger

theorem client_step (table : ServerTcb) (sourceNodeID : Int32) (seg : Seg)
    (connected : table.state = .connected) (fromClient : table.FromClient sourceNodeID seg) :
    serverSeghandler table sourceNodeID seg =
      if seg.header.type = SegType.syn then some (segmentRecv table seg)
      else if seg.header.type = SegType.data then dataReceived table seg
      else if seg.header.type = SegType.fin then
        some ((segmentRecv { table with state := .closewait } seg).1,
          .startClosewait :: (segmentRecv { table with state := .closewait } seg).2)
      else some (table, []) := by
  simp only [serverSeghandler, connected]
  exact if_pos fromClient

theorem closewait_step (table : ServerTcb) (sourceNodeID : Int32) (seg : Seg)
    (waiting : table.state = .closewait) :
    serverSeghandler table sourceNodeID seg =
      some (table,
        if seg.header.type = SegType.fin then [table.reply SegType.finack 0] else []) := by
  have notSyn : SegType.fin ≠ SegType.syn := by decide
  simp only [serverSeghandler, waiting]
  split_ifs with fin
  · simp only [segmentRecv, fin, notSyn, if_false, if_true]
  · rfl

theorem closed_step (table : ServerTcb) (sourceNodeID : Int32) (seg : Seg)
    (closed : table.state = .closed) :
    serverSeghandler table sourceNodeID seg = some (table, []) := by
  simp only [serverSeghandler, closed]

def StepDocumented (table : ServerTcb) (sourceNodeID : Int32) (seg : Seg) : Prop :=
  ∃ next effects, serverSeghandler table sourceNodeID seg = some (next, effects) ∧
    DocumentedStep table sourceNodeID seg next effects

theorem listening_documented_iff (table : ServerTcb) (sourceNodeID : Int32) (seg : Seg)
    (listening : table.state = .listening) :
    StepDocumented table sourceNodeID seg ↔ seg.header.type = SegType.syn := by
  obtain ⟨next, effects, handled, state, peer⟩ := listening_step table sourceNodeID seg listening
  constructor
  · rintro ⟨other, more, result, documented⟩
    rw [handled] at result
    cases result
    have expected := documented.state
    simp only [ServerTcb.documentedState, listening, state] at expected
    by_contra notSyn
    rw [if_neg notSyn] at expected
    cases expected
  · intro syn
    refine ⟨next, effects, handled, ?_, ?_, ?_, ?_⟩
    · simp only [ServerTcb.documentedState, listening, state, syn, if_true]
    · simp only [ServerTcb.documentedPeer, listening, peer, syn, and_self, if_true]
    · simp [listening]
    · simp [listening]

theorem connected_documented {table next : ServerTcb} {sourceNodeID : Int32} {seg : Seg}
    {effects : List ServerEffect} (connected : table.state = .connected)
    (fromClient : table.FromClient sourceNodeID seg) (peer : next.peer = table.peer)
    (state : next.state = if seg.header.type = SegType.fin then .closewait else .connected) :
    DocumentedStep table sourceNodeID seg next effects := by
  constructor
  · rw [state, ServerTcb.documentedState, connected]
    simp only [fromClient, true_and]
  · simpa [ServerTcb.documentedPeer, connected] using peer
  · intro _ stranger
    exact absurd fromClient stranger
  · simp [connected]

theorem client_documented_iff (table : ServerTcb) (sourceNodeID : Int32) (seg : Seg)
    (connected : table.state = .connected) (fromClient : table.FromClient sourceNodeID seg) :
    StepDocumented table sourceNodeID seg ↔
      (seg.header.type = SegType.data → StoresInside table seg) := by
  have step := client_step table sourceNodeID seg connected fromClient
  unfold StepDocumented
  rw [step]
  by_cases data : seg.header.type = SegType.data
  · have notSyn : SegType.data ≠ SegType.syn := by decide
    have notFin : SegType.data ≠ SegType.fin := by decide
    simp only [data, notSyn, if_false, if_true, true_imp_iff]
    rw [← data_received_defined_iff]
    constructor
    · rintro ⟨next, effects, received, _⟩
      rw [received]
      rfl
    · intro isSome
      obtain ⟨⟨next, effects⟩, received⟩ := Option.isSome_iff_exists.mp isSome
      obtain ⟨state, peer⟩ := data_received_keeps table next seg effects received
      refine ⟨next, effects, received, connected_documented connected fromClient peer ?_⟩
      rw [state, connected, data, if_neg notFin]
  · refine iff_of_true ?_ fun isData => absurd isData data
    by_cases syn : seg.header.type = SegType.syn
    · have notFin : SegType.syn ≠ SegType.fin := by decide
      have renewed : segmentRecv table seg =
          ({ table with expectSeqNum := seg.header.seqNum }, [table.reply SegType.synack 0]) :=
        if_pos syn
      rw [if_pos syn, renewed]
      refine ⟨_, _, rfl, connected_documented connected fromClient rfl ?_⟩
      rw [syn, if_neg notFin]
      exact connected
    · rw [if_neg syn, if_neg data]
      by_cases fin : seg.header.type = SegType.fin
      · have finished : segmentRecv { table with state := .closewait } seg =
            ({ table with state := .closewait }, [table.reply SegType.finack 0]) := by
          rw [segmentRecv, if_neg syn, if_pos fin]
          rfl
        rw [if_pos fin, finished]
        refine ⟨_, _, rfl, connected_documented connected fromClient rfl ?_⟩
        rw [if_pos fin]
      · rw [if_neg fin]
        refine ⟨table, [], rfl, connected_documented connected fromClient rfl ?_⟩
        rw [if_neg fin]
        exact connected

theorem stranger_documented (table : ServerTcb) (sourceNodeID : Int32) (seg : Seg)
    (connected : table.state = .connected) (stranger : ¬ table.FromClient sourceNodeID seg) :
    StepDocumented table sourceNodeID seg := by
  refine ⟨table, [], stranger_step table sourceNodeID seg connected stranger, ?_, ?_, ?_, ?_⟩
  · simp only [ServerTcb.documentedState, connected, stranger, false_and, if_false]
  · simp only [ServerTcb.documentedPeer, connected, reduceCtorEq, false_and, if_false]
  · intro _ _
    exact ⟨rfl, rfl⟩
  · simp [connected]

theorem closewait_documented_iff (table : ServerTcb) (sourceNodeID : Int32) (seg : Seg)
    (waiting : table.state = .closewait) :
    StepDocumented table sourceNodeID seg ↔
      (seg.header.type = SegType.fin → table.FromClient sourceNodeID seg) := by
  have step := closewait_step table sourceNodeID seg waiting
  constructor
  · rintro ⟨next, effects, result, documented⟩ fin
    rw [step] at result
    cases result
    have answer := documented.finack waiting
    by_contra stranger
    rw [if_pos fin, if_neg fun both => stranger both.1] at answer
    cases answer
  · intro answered
    refine ⟨table, _, step, ?_, ?_, ?_, ?_⟩
    · simp only [ServerTcb.documentedState, waiting]
    · simp only [ServerTcb.documentedPeer, waiting, reduceCtorEq, false_and, if_false]
    · simp [waiting]
    · intro _
      by_cases fin : seg.header.type = SegType.fin
      · rw [if_pos fin, if_pos ⟨answered fin, fin⟩]
      · rw [if_neg fin, if_neg fun both => fin both.2]

theorem closed_documented (table : ServerTcb) (sourceNodeID : Int32) (seg : Seg)
    (closed : table.state = .closed) : StepDocumented table sourceNodeID seg := by
  refine ⟨table, [], closed_step table sourceNodeID seg closed, ?_, ?_, ?_, ?_⟩
  · simp only [ServerTcb.documentedState, closed]
  · simp only [ServerTcb.documentedPeer, closed, reduceCtorEq, false_and, if_false]
  · simp [closed]
  · simp [closed]

theorem step_documented_iff (table : ServerTcb) (sourceNodeID : Int32) (seg : Seg) :
    StepDocumented table sourceNodeID seg ↔ ExpectedSegment table sourceNodeID seg := by
  cases state : table.state with
  | closed =>
      refine iff_of_true (closed_documented table sourceNodeID seg state) ?_
      constructor <;> simp [state]
  | listening =>
      rw [listening_documented_iff table sourceNodeID seg state]
      constructor
      · intro syn
        constructor
        · exact fun _ => syn
        · simp [state]
        · simp [state]
      · exact fun expected => expected.listening state
  | connected =>
      by_cases fromClient : table.FromClient sourceNodeID seg
      · rw [client_documented_iff table sourceNodeID seg state fromClient]
        constructor
        · intro stores
          constructor
          · simp [state]
          · simp [state]
          · exact fun _ _ => stores
        · exact fun expected => expected.connected state fromClient
      · refine iff_of_true (stranger_documented table sourceNodeID seg state fromClient) ?_
        constructor
        · simp [state]
        · simp [state]
        · exact fun _ isClient => absurd isClient fromClient
  | closewait =>
      rw [closewait_documented_iff table sourceNodeID seg state]
      constructor
      · intro answered
        constructor
        · simp [state]
        · exact fun _ => answered
        · simp [state]
      · exact fun expected => expected.closewait state

theorem dropped_port_not_followed (tables : ServerTable) (sourceNodeID : Int32) (seg : Seg)
    (absent : fetchServerTCB tables seg.header.destPort = none) :
    ¬ FollowsFsm tables sourceNodeID seg := by
  rintro ⟨after, effects, run, _⟩
  rw [turn_without_socket tables sourceNodeID seg absent] at run
  cases run

theorem follows_fsm_at_port (tables : ServerTable) (sourceNodeID : Int32) (seg : Seg)
    (index : Fin maxTransportConnections) (table : ServerTcb)
    (found : fetchServerTCB tables seg.header.destPort = some index)
    (held : tables index = some table) :
    FollowsFsm tables sourceNodeID seg ↔ StepDocumented table sourceNodeID seg := by
  unfold FollowsFsm
  rw [turn_with_socket tables sourceNodeID seg index table found held, found]
  constructor
  · rintro ⟨after, effects, run, _, table', next, held', afterHeld, documented⟩
    obtain ⟨⟨next', effects'⟩, handled, same⟩ := Option.map_eq_some_iff.mp run
    cases same
    rw [held] at held'
    cases held'
    rw [Function.update_self] at afterHeld
    cases afterHeld
    exact ⟨next', effects', handled, documented⟩
  · rintro ⟨next, effects, handled, documented⟩
    refine ⟨Function.update tables index (some next), effects, ?_, ?_, table, next, held,
      Function.update_self _ _ _, documented⟩
    · rw [handled]
      rfl
    · intro other apart
      exact Function.update_of_ne apart _ _

/-- The handler follows the documentation exactly when the port is open, a
listening socket gets a SYN, a FIN in CLOSEWAIT is the client's, and the data that
is stored fits. -/
theorem follows_fsm_iff (tables : ServerTable) (sourceNodeID : Int32) (seg : Seg) :
    FollowsFsm tables sourceNodeID seg ↔
      ∃ index table, fetchServerTCB tables seg.header.destPort = some index ∧
        tables index = some table ∧ ExpectedSegment table sourceNodeID seg := by
  cases found : fetchServerTCB tables seg.header.destPort with
  | none =>
      refine iff_of_false (dropped_port_not_followed tables sourceNodeID seg found) ?_
      rintro ⟨index, table, isOpen, _⟩
      cases isOpen
  | some index =>
      obtain ⟨table, held, _⟩ := fetched_table found
      rw [follows_fsm_at_port tables sourceNodeID seg index table found held,
        step_documented_iff table sourceNodeID seg]
      constructor
      · intro expected
        exact ⟨index, table, rfl, held, expected⟩
      · rintro ⟨other, table', sameIndex, held', expected⟩
        cases sameIndex
        rw [held] at held'
        cases held'
        exact expected

def oneSocket (state : ServerState) : ServerTable := fun index =>
  if index = firstSlot then some
    { svrNodeID := 1, svrPortNum := 200, clientNodeID := 2, clientPortNum := 100, state := state,
      expectSeqNum := 0, recvBuf := [0, 0, 0, 0], usedBufLen := 0 }
  else none

def lateFin (destPort : UInt32) : Seg :=
  { Seg.cleared with
    header := { MrtHdr.cleared with type := SegType.fin, srcPort := 300, destPort := destPort } }

/-- A late FIN of node 3 has no documented result on a port without a socket, while
listening, and in CLOSEWAIT. -/
theorem late_fin_not_followed :
    ¬ FollowsFsm (oneSocket .listening) 3 (lateFin 201) ∧
      ¬ FollowsFsm (oneSocket .listening) 3 (lateFin 200) ∧
      ¬ FollowsFsm (oneSocket .closewait) 3 (lateFin 200) := by
  refine ⟨dropped_port_not_followed _ _ _ (by decide), ?_, ?_⟩
  · rw [follows_fsm_at_port _ _ _ firstSlot _ (by decide) rfl, listening_documented_iff _ _ _ rfl]
    decide
  · rw [follows_fsm_at_port _ _ _ firstSlot _ (by decide) rfl, closewait_documented_iff _ _ _ rfl]
    decide

end MiniOverlay
