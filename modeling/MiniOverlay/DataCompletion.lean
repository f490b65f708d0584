import MiniOverlay.PartialRuns
import MiniOverlay.SequenceWrap

/-!
# The data phase can always finish

From every state of a connection the two programs can bring the stream to its end,
also when every segment in flight is lost now: a read that empties `recvBuf`, a timeout,
the first segment of the send buffer and its acknowledgement shorten the buffer by a
segment.
-/

namespace MiniOverlay

open LinkedHeap FixedByteCodec CumulativeAckWindow PartialRuns

set_option autoImplicit false

def Connection.lost (connection : Connection) : Connection :=
  { connection with toServer := [], toClient := [] }

abbrev Connection.Runs : Connection → List ConnectionEvent → Connection → Prop :=
  Guarded Connection.step fun connection event => event.Enabled connection

theorem holds_unique {client : Client} {sent unsent sent' unsent' : List Seg}
    (holds : Holds client sent unsent) (holds' : Holds client sent' unsent') :
    sent = sent' ∧ unsent = unsent' := by
  have lists := (holds_segs holds).symm.trans (holds_segs holds')
  have lengths := (holds_window holds).1.symm.trans (holds_window holds').1
  exact List.append_inj (Option.some.inj lists) lengths

theorem represents_segs {connection : Connection} {history : List Seg} {window : Window}
    (represents : Represents connection history window) (ordered : Ordered window)
    {sent unsent : List Seg} (holds : Holds connection.client sent unsent) :
    sent ++ unsent = history.drop window.acked := by
  obtain ⟨rfl, rfl⟩ := holds_unique represents.buffer holds
  exact buffer_split (Nat.le_trans ordered.acked ordered.received)
    (represents.count ▸ ordered.sent)

theorem found_of_drop {history rest : List Seg} {index : Nat} {first : Seg}
    (segs : history.drop index = first :: rest) : history[index]? = some first := by
  rw [← List.head?_drop, segs]
  rfl

theorem represents_lost {connection : Connection} {history : List Seg} {window : Window}
    (represents : Represents connection history window) :
    Represents connection.lost history window where
  peers := represents.peers
  wellFormed := represents.wellFormed
  count := represents.count
  queued := represents.queued
  buffer := represents.buffer
  next := represents.next
  data := fun _ member => nomatch member
  acks := fun _ member => nomatch member
  expect := represents.expect
  accepted := represents.accepted
  received := represents.received

def Connection.emptied (connection : Connection) : Connection :=
  { connection with
    server := connection.server.taken connection.server.usedBufLen
    delivered := connection.accepted }

theorem reading_runs {connection next after : Connection} {length : UInt32}
    {events : List ConnectionEvent} (stepped : connection.step (.recv length) = some next)
    (rest : next.Runs events after) : connection.Runs (.recv length :: events) after :=
  guarded_cons trivial stepped rest

theorem emptied_step {connection : Connection} {history : List Seg} {window : Window}
    (represents : Represents connection history window) :
    connection.step (.recv connection.server.usedBufLen) = some connection.emptied ∧
      Represents connection.emptied history window ∧
      RecvBuffer connection.emptied.server [] := by
  obtain ⟨held, buffer, delivered⟩ := represents.received
  have peers := represents.peers
  have all : connection.server.usedBufLen.toNat = held.length := buffer.used
  have kept := taken_buffer connection.server held connection.server.usedBufLen buffer
    (Nat.le_of_eq all)
  rw [List.drop_eq_nil_of_le (Nat.le_of_eq all.symm)] at kept
  refine ⟨?_, ?_, kept⟩
  · rcases recv_turn_cases connection.server held connection.server.usedBufLen buffer with
      sleeps | ⟨returns, _⟩
    · rw [mrtServerRecvTurn, if_neg (by simp)] at sleeps
      split_ifs at sleeps
      cases sleeps
    · rw [List.take_of_length_le (Nat.le_of_eq all.symm)] at returns
      simp only [Connection.step, mrtServerRecv, peers.serverState, returns]
      rw [Connection.emptied, ← delivered]
      rfl
  · exact {
      peers := ⟨peers.clientState, peers.serverState, peers.svrNodeID, peers.svrPortNum,
        peers.clientNodeID, peers.clientPortNum⟩
      wellFormed := represents.wellFormed
      count := represents.count
      queued := represents.queued
      buffer := represents.buffer
      next := represents.next
      data := represents.data
      acks := represents.acks
      expect := represents.expect
      accepted := represents.accepted
      received := ⟨[], kept, List.append_nil _⟩ }

/-- The state between the parts of a round: the segments still to be acknowledged are
`segs`, and `recvBuf` is empty. -/
structure MidRound (connection : Connection) (queued : List Byte) (segs : List Seg)
    (history : List Seg) (window : Window) : Prop where
  represents : Represents connection history window
  ordered : Ordered window
  queued : connection.queued = queued
  segs : history.drop window.acked = segs
  received : RecvBuffer connection.server []

/-- The window is full or everything was sent: how `sendBuffer_sending` leaves a client. -/
def Refilled (client : Client) : Prop :=
  gbnWindow ≤ client.tcb.unAckSegNum.toNat ∨ client.tcb.sendBufunSent = none

theorem sending_loop_refills (now : Nat → Timeval) (turns : Nat) {client after : Client}
    {effects : List ClientEffect} (enough : gbnWindow ≤ client.tcb.unAckSegNum.toNat + turns)
    (run : sendBufferSendingLoop now turns client = some (after, effects)) : Refilled after := by
  induction turns generalizing client after effects with
  | zero =>
      cases run
      exact Or.inl enough
  | succ turns ih =>
      rw [sendBufferSendingLoop] at run
      by_cases going : client.tcb.unAckSegNum.toNat < gbnWindow ∧ client.tcb.sendBufunSent ≠ none
      · simp only [if_pos going] at run
        obtain ⟨cell, _, run⟩ := Option.bind_eq_some_iff.mp run
        obtain ⟨heap, _, run⟩ := Option.bind_eq_some_iff.mp run
        obtain ⟨later, looped, run⟩ := Option.bind_eq_some_iff.mp run
        cases run
        have window : gbnWindow = 10 := rfl
        have counted : (client.tcb.unAckSegNum + 1).toNat = client.tcb.unAckSegNum.toNat + 1 := by
          rw [UInt32.toNat_add]
          apply Nat.mod_eq_of_lt
          have one : (1 : UInt32).toNat = 1 := rfl
          omega
        refine ih ?_ looped
        dsimp only
        rw [counted]
        omega
      · simp only [if_neg going] at run
        cases run
        rw [not_and_or, not_not] at going
        exact going.imp Nat.le_of_not_lt id

theorem sending_refills {now : Nat → Timeval} {client after : Client}
    {effects : List ClientEffect} (run : sendBufferSending now client = some (after, effects)) :
    Refilled after :=
  sending_loop_refills now gbnWindow (Nat.le_add_left _ _) run

theorem refilled_first {client : Client} {sent unsent rest : List Seg} {first : Seg}
    (holds : Holds client sent unsent) (refilled : Refilled client)
    (segs : sent ++ unsent = first :: rest) : first ∈ sent := by
  cases sent with
  | cons head tail =>
      rw [List.cons_append] at segs
      rw [(List.cons.inj segs).1]
      exact List.mem_cons_self
  | nil =>
      obtain ⟨sentCells, unsentCells, buffer, noCells, rfl⟩ := holds
      have none : sentCells = [] := List.map_eq_nil_iff.mp noCells
      rcases refilled with full | nothing
      · rw [buffer.unAck, none] at full
        exact absurd full (by decide)
      · rw [buffer.unSent] at nothing
        cases unsentCells with
        | nil => cases segs
        | cons => cases nothing

theorem first_resent {connection : Connection} {queued : List Byte} {first : Seg}
    {rest : List Seg} {history : List Seg} {window : Window} (now : Nat → Timeval)
    (middle : MidRound connection queued (first :: rest) history window)
    (refilled : Refilled connection.client) :
    ∃ after nodeID history' window', connection.Runs [.timeout now] after ∧
      MidRound after queued (first :: rest) history' window' ∧
      SendsegArg.mk nodeID first ∈ after.toServer := by
  have represents := middle.represents
  have all := represents_segs represents middle.ordered represents.buffer
  rw [middle.segs] at all
  obtain ⟨again, resends, run, holds, resent, _⟩ :=
    timeout_holds now connection.client _ _ represents.buffer
  obtain ⟨timeout, stepped, history', window', steps, timeoutRepresents⟩ :=
    timeout_simulates connection history window now represents middle.ordered
  have isTimeout : timeout = { connection with
      client := again, toServer := connection.toServer ++ sentSegs resends } := by
    simp only [Connection.step, run] at stepped
    exact (Option.some.inj stepped).symm
  subst isTimeout
  have timeoutOrdered := ordered_steps middle.ordered steps
  refine ⟨_, connection.client.tcb.svrNodeID.toInt32, history', window',
    guarded_cons trivial stepped (guarded_nil _),
    ⟨timeoutRepresents, timeoutOrdered, middle.queued, ?_, middle.received⟩, ?_⟩
  · rw [← represents_segs timeoutRepresents timeoutOrdered holds, all]
  · apply List.mem_append_right
    rw [resent]
    exact List.mem_map_of_mem (refilled_first represents.buffer refilled all)

/-- Whether the first segment is the expected one or an older one, the server answers, and
then it expects a byte behind that segment. -/
theorem first_handled {connection after : Connection} {queued : List Byte} {first : Seg}
    {rest : List Seg} {history : List Seg} {window : Window} {nodeID : Int32}
    (middle : MidRound connection queued (first :: rest) history window)
    (bounded : queued.length < 2 ^ 32)
    (stepped : connection.step (.data ⟨nodeID, first⟩) = some after) :
    after.client = connection.client ∧ after.queued = connection.queued ∧
      first.header.seqNum.toNat < after.server.expectSeqNum.toNat ∧
      after.dataack ∈ after.toClient := by
  have represents := middle.represents
  have found : history[window.acked]? = some first := found_of_drop middle.segs
  have inside := (List.getElem?_eq_some_iff.mp found).1
  have queueable := represents.wellFormed.queueable first (List.mem_of_getElem? found)
  have position := represents.wellFormed.numbered window.acked first found
  have room : connection.queued.length < 2 ^ 32 := middle.queued.symm ▸ bounded
  rcases data_received_cases connection.server [] first middle.received queueable.fits with
    ⟨unexpected, nothing, run⟩ | ⟨expected, nothing, _⟩ | ⟨_, saved, recvBuf, _, run⟩
  · simp only [Connection.step, run, nothing] at stepped
    obtain rfl := Option.some.inj stepped
    refine ⟨rfl, rfl, ?_, List.mem_append_right _ (List.mem_singleton.mpr rfl)⟩
    have newer : window.acked ≠ window.received := by
      intro same
      apply unexpected
      apply UInt32.toNat_inj.mp
      rw [position, represents.expect, same]
    have less := offset_lt represents.wellFormed
      (Nat.lt_of_le_of_ne middle.ordered.acked newer) inside
    rw [← position, ← represents.expect] at less
    exact less
  · have free : ([] : List Byte).length + first.header.length.toNat < receiveBufSize := by
      rw [List.length_nil, Nat.zero_add]
      exact Nat.lt_of_le_of_lt queueable.fits (by decide)
    obtain ⟨_, stored, _⟩ := save_fits connection.server [] first middle.received queueable.fits
      free
    rw [savedBytes, if_pos expected, stored] at nothing
    have empty : first.payload = [] := nothing
    have size := payload_length first queueable.fits
    rw [empty, List.length_nil] at size
    exact absurd queueable.nonempty (by simp [← size])
  · simp only [Connection.step, run, saved] at stepped
    obtain rfl := Option.some.inj stepped
    refine ⟨rfl, rfl, ?_, List.mem_append_right _ (List.mem_singleton.mpr rfl)⟩
    have total := represents_total represents
    have next := offset_succ found
    have below := offset_le_total history (window.acked + 1)
    have size := queueable.nonempty
    simp only [ServerTcb.saved, UInt32.toNat_add, UInt16.toNat_toUInt32]
    omega

theorem first_answered {connection : Connection} {queued : List Byte} {first : Seg}
    {rest : List Seg} {history : List Seg} {window : Window} {nodeID : Int32}
    (middle : MidRound connection queued (first :: rest) history window)
    (bounded : queued.length < 2 ^ 32)
    (inFlight : SendsegArg.mk nodeID first ∈ connection.toServer) :
    ∃ after history' window', connection.Runs [.data ⟨nodeID, first⟩] after ∧
      Represents after history' window' ∧ Ordered window' ∧ after.queued = queued ∧
      history'.drop window'.acked = first :: rest ∧ window'.acked < window'.received ∧
      after.dataack ∈ after.toClient := by
  have represents := middle.represents
  have queueable := represents.wellFormed.queueable first
    (List.mem_of_getElem? (found_of_drop middle.segs))
  obtain ⟨after, stepped, history', window', steps, afterRepresents⟩ :=
    data_simulates connection history window ⟨nodeID, first⟩ represents inFlight
      (middle.queued.symm ▸ bounded)
  have afterOrdered := ordered_steps middle.ordered steps
  have runs : connection.Runs [.data ⟨nodeID, first⟩] after :=
    guarded_cons ⟨inFlight, queueable.type⟩ stepped (guarded_nil _)
  obtain ⟨sameClient, sameQueued, behind, inFlightAck⟩ := first_handled middle bounded stepped
  have segs : history'.drop window'.acked = first :: rest := by
    have holds := represents.buffer
    rw [← sameClient] at holds
    rw [← represents_segs afterRepresents afterOrdered holds, ← middle.segs]
    exact represents_segs represents middle.ordered represents.buffer
  refine ⟨after, history', window', runs, afterRepresents, afterOrdered,
    sameQueued.trans middle.queued, segs, ?_, inFlightAck⟩
  rw [afterRepresents.wellFormed.numbered _ _ (found_of_drop segs), afterRepresents.expect]
    at behind
  by_contra older
  have order := offset_mono history' (Nat.le_of_not_lt older)
  omega

theorem answer_in_window {connection : Connection} {history : List Seg} {window : Window}
    (represents : Represents connection history window) (ordered : Ordered window)
    (answered : connection.dataack ∈ connection.toClient) : window.received ∈ window.acks := by
  obtain ⟨count, inWindow, ackNum, isAck, number⟩ := represents.acks _ answered
  have isExpected : connection.server.expectSeqNum = ackNum :=
    congrArg (fun seg => seg.header.ackNum) isAck
  have position := represents.expect
  rw [isExpected, number] at position
  have older := ordered.acks count inWindow
  have same : count = window.received := by
    by_contra other
    have inside := Nat.le_trans ordered.received (represents.count ▸ ordered.sent)
    have less := offset_lt represents.wellFormed (Nat.lt_of_le_of_ne older other) (by omega)
    omega
  rwa [← same]

theorem answer_handled {connection : Connection} {first : Seg} {rest history : List Seg}
    {window : Window} (now : Nat → Timeval) (represents : Represents connection history window)
    (ordered : Ordered window) (segs : history.drop window.acked = first :: rest) {client : Client}
    (run : sendBufferRecvAck connection.client connection.server.expectSeqNum = some client) :
    clientSeghandler now connection.client connection.server.svrNodeID.toInt32
      connection.dataack.seg = sendBufferSending now client := by
  have whole := represents_segs represents ordered represents.buffer
  obtain ⟨sentCells, unsentCells, buffer, sameSent, sameUnsent⟩ := represents.buffer
  have owns := buffer.owns
  have cellSegs : entrySegs (sentCells ++ unsentCells) = first :: rest := by
    rw [entry_segs_append, sameSent, sameUnsent, whole, segs]
  obtain ⟨entry, others, cells, isFirst, _⟩ := List.map_eq_cons_iff.mp cellSegs
  rw [cells] at owns
  have reached : entry.2.seg.header.seqNum ≤ connection.dataack.seg.header.ackNum := by
    rw [isFirst, UInt32.le_iff_toNat_le]
    change _ ≤ connection.server.expectSeqNum.toNat
    rw [represents.wellFormed.numbered _ _ (found_of_drop segs), represents.expect]
    exact offset_mono history ordered.acked
  have handler := dataack_handled
    ⟨now, connection.server.svrNodeID.toInt32, connection.dataack.seg⟩
    represents.peers.clientState (dataack_of_server represents.peers) rfl owns
  have number : connection.dataack.seg.header.ackNum = connection.server.expectSeqNum := rfl
  rw [if_pos reached, number, run] at handler
  exact handler

theorem first_acknowledged {connection : Connection} {first : Seg} {rest history : List Seg}
    {window : Window} (now : Nat → Timeval) (represents : Represents connection history window)
    (ordered : Ordered window) (segs : history.drop window.acked = first :: rest)
    (newer : window.acked < window.received) (answered : connection.dataack ∈ connection.toClient) :
    ∃ after history' window', connection.Runs [.ack now connection.dataack] after ∧
      Represents after history' window' ∧ Ordered window' ∧ after.queued = connection.queued ∧
      Refilled after.client ∧ (history'.drop window'.acked).length ≤ rest.length := by
  have inWindow := answer_in_window represents ordered answered
  have filled : (history.take window.sent).drop window.acked ++ history.drop window.sent ≠ [] := by
    rw [represents_segs represents ordered represents.buffer, segs]
    exact List.cons_ne_nil _ _
  obtain ⟨client, run, acknowledged⟩ := acknowledge_represents represents ordered window.received
    inWindow ordered.acked _ represents.expect filled
  have acknowledgedOrdered :=
    ordered_step ordered (Step.acknowledge window window.received inWindow ordered.acked)
  obtain ⟨last, effects, moved, later, sending, split, holds, _⟩ :=
    sending_holds now client _ _ acknowledged.buffer
  obtain ⟨after, sent, history', window', steps, afterRepresents⟩ :=
    sending_simulates _ history _ now acknowledged acknowledgedOrdered
  have afterOrdered := ordered_steps acknowledgedOrdered steps
  have isAfter : after = { connection with
      client := last, toServer := connection.toServer ++ sentSegs effects } := by
    simp only [Connection.step, sending] at sent
    exact (Option.some.inj sent).symm
  subst isAfter
  have stepped := dataack_step now represents.peers
  rw [answer_handled now represents ordered segs run, sending, Option.map_some] at stepped
  refine ⟨_, history', window', guarded_cons ⟨answered, rfl⟩ stepped (guarded_nil _),
    afterRepresents, afterOrdered, rfl, sending_refills sending, ?_⟩
  have total := congrArg List.length segs
  rw [← represents_segs afterRepresents afterOrdered holds, List.append_assoc, ← split,
    represents_segs acknowledged acknowledgedOrdered acknowledged.buffer]
  rw [List.length_drop, List.length_cons] at total
  have later : (history.drop window.received).length ≤ rest.length := by
    rw [List.length_drop]
    omega
  exact later

/-- An event of another thread than the one that calls `mrt_client_send`. -/
def ConnectionEvent.Background : ConnectionEvent → Prop
  | .queue _ => False
  | .sending _ => False
  | .timeout _ => True
  | .data _ => True
  | .ack _ _ => True
  | .recv _ => True

theorem round_shortens {connection : Connection} {first : Seg} {rest history : List Seg}
    {window : Window} (now : Nat → Timeval) (represents : Represents connection history window)
    (ordered : Ordered window) (bounded : connection.queued.length < 2 ^ 32)
    (refilled : Refilled connection.client) (segs : history.drop window.acked = first :: rest) :
    ∃ events after history' window',
      (events.length = 4 ∧ ∀ event ∈ events, event.Background) ∧ connection.Runs events after ∧
      Represents after history' window' ∧ Ordered window' ∧ after.queued = connection.queued ∧
      Refilled after.client ∧ (history'.drop window'.acked).length ≤ rest.length := by
  obtain ⟨reads, emptied, empty⟩ := emptied_step represents
  obtain ⟨sent, nodeID, _, _, sends, middle, inFlight⟩ :=
    first_resent now ⟨emptied, ordered, rfl, segs, empty⟩ refilled
  obtain ⟨answering, history', window', delivers, answered, answeredOrdered, sameQueued, segs',
    newer, inFlightAck⟩ := first_answered middle bounded inFlight
  obtain ⟨after, history'', window'', acknowledges, afterRepresents, afterOrdered, afterQueued,
    afterRefilled, shorter⟩ :=
    first_acknowledged now answered answeredOrdered segs' newer inFlightAck
  exact ⟨_, after, history'', window'', ⟨rfl, by simp [ConnectionEvent.Background]⟩,
    reading_runs reads (guarded_append sends (guarded_append delivers acknowledges)),
    afterRepresents, afterOrdered, afterQueued.trans sameQueued, afterRefilled, shorter⟩

theorem rounds_finish {connection : Connection} {history : List Seg} {window : Window}
    (now : Nat → Timeval) (represents : Represents connection history window)
    (ordered : Ordered window) (bounded : connection.queued.length < 2 ^ 32)
    (refilled : Refilled connection.client) :
    ∃ events after history' window',
      (events.length ≤ 4 * (history.drop window.acked).length ∧
        ∀ event ∈ events, event.Background) ∧
      connection.Runs events after ∧ Represents after history' window' ∧ Ordered window' ∧
      after.queued = connection.queued ∧ history'.drop window'.acked = [] := by
  induction size : (history.drop window.acked).length using Nat.strongRecOn
    generalizing connection history window with
  | _ size ih =>
      cases segs : history.drop window.acked with
      | nil =>
          exact ⟨[], connection, history, window, ⟨Nat.zero_le _, by simp⟩, guarded_nil _,
            represents, ordered, rfl, segs⟩
      | cons first rest =>
          obtain ⟨round, middle, history', window', ⟨four, others⟩, rounds, middleRepresents,
            middleOrdered, sameQueued, middleRefilled, shorter⟩ :=
            round_shortens now represents ordered bounded refilled segs
          rw [segs, List.length_cons] at size
          obtain ⟨events, after, history'', window'', ⟨few, background⟩, later, done⟩ :=
            ih _ (by omega) middleRepresents middleOrdered (sameQueued ▸ bounded) middleRefilled
              rfl
          refine ⟨round ++ events, after, history'', window'', ⟨?_, ?_⟩,
            guarded_append rounds later, done.1, done.2.1, done.2.2.1.trans sameQueued, done.2.2.2⟩
          · rw [List.length_append]
            omega
          · intro event member
            exact (List.mem_append.mp member).elim (others event) (background event)

theorem refilled_finishes {connection : Connection} {history : List Seg} {window : Window}
    (now : Nat → Timeval) (represents : Represents connection history window)
    (ordered : Ordered window) (bounded : connection.queued.length < 2 ^ 32)
    (refilled : Refilled connection.client) :
    ∃ events after,
      (events.length ≤ 4 * (history.drop window.acked).length + 1 ∧
        ∀ event ∈ events, event.Background) ∧
      connection.Runs events after ∧ Holds after.client [] [] ∧
      after.queued = connection.queued ∧ after.accepted = connection.queued ∧
      after.delivered = connection.queued := by
  obtain ⟨events, last, history', window', ⟨few, background⟩, rounds, lastRepresents, lastOrdered,
    sameQueued, done⟩ := rounds_finish now represents ordered bounded refilled
  obtain ⟨reads, emptied, _⟩ := emptied_step lastRepresents
  have everything : last.accepted = connection.queued := by
    have inside := List.drop_eq_nil_iff.mp done
    rw [lastRepresents.accepted,
      List.take_of_length_le (Nat.le_trans inside lastOrdered.acked), ← lastRepresents.queued]
    exact sameQueued
  have nothing := represents_segs emptied lastOrdered emptied.buffer
  rw [done] at nothing
  obtain ⟨noneSent, noneUnsent⟩ := List.append_eq_nil_iff.mp nothing
  have buffer := emptied.buffer
  rw [noneSent, noneUnsent] at buffer
  refine ⟨events ++ [_], last.emptied, ⟨?_, ?_⟩,
    guarded_append rounds (reading_runs reads (guarded_nil _)), buffer, sameQueued, everything,
    everything⟩
  · rw [List.length_append]
    exact Nat.succ_le_succ few
  · intro event member
    rcases List.mem_append.mp member with earlier | reading
    · exact background event earlier
    · rw [List.mem_singleton.mp reading]
      trivial

/-- Whatever a connection has reached, and when all its segments in flight are lost as
well, the two programs can bring every queued byte to the reader and empty the send
buffer, in four events for each segment in it and two more. -/
theorem data_phase_finishes (start connection : Connection) (established : Established start)
    (reached : start.Reaches connection) (bounded : connection.queued.length < 2 ^ 32)
    (now : Nat → Timeval) :
    ∃ segs events after, sendBufferSegs connection.client = some segs ∧
      events.length ≤ 4 * segs.length + 2 ∧ connection.lost.Runs events after ∧
      after.client.tcb.sendBufHead = none ∧ after.client.tcb.unAckSegNum = 0 ∧
      after.queued = connection.queued ∧ after.accepted = connection.queued ∧
      after.delivered = connection.queued := by
  obtain ⟨history, window, represents, ordered⟩ :=
    reaches_represents established reached bounded
  have lost := represents_lost represents
  obtain ⟨client, effects, moved, later, run, split, holds, _⟩ :=
    sending_holds now connection.lost.client _ _ lost.buffer
  obtain ⟨sending, stepped, history', window', steps, sendingRepresents⟩ :=
    sending_simulates connection.lost history window now lost ordered
  have isSending : sending = { connection.lost with
      client := client, toServer := connection.lost.toServer ++ sentSegs effects } := by
    simp only [Connection.step, run] at stepped
    exact (Option.some.inj stepped).symm
  subst isSending
  have sendingOrdered := ordered_steps ordered steps
  obtain ⟨events, after, ⟨few, _⟩, runs, empty, queued, accepted, delivered⟩ :=
    refilled_finishes now sendingRepresents sendingOrdered bounded (sending_refills run)
  have zero := (holds_window empty).1
  have none : after.client.tcb.sendBufHead = none := by
    rcases holds_head empty with ⟨head, _⟩ | ⟨_, _, _, _, filled⟩
    · exact head
    · cases filled
  have same : history'.drop window'.acked = history.drop window.acked := by
    rw [← represents_segs sendingRepresents sendingOrdered holds, List.append_assoc, ← split]
    exact represents_segs lost ordered lost.buffer
  refine ⟨history.drop window.acked, .sending now :: events, after, ?_, ?_,
    guarded_cons trivial stepped runs, none, UInt32.toNat_inj.mp zero, queued, accepted, delivered⟩
  · rw [holds_segs represents.buffer, represents_segs represents ordered represents.buffer]
  · rw [same] at few
    exact Nat.succ_le_succ few

/-- The segment with the byte is in flight, and lost. -/
theorem one_byte_finishes : ∃ connection, idleConnection.Reaches connection ∧
    connection.toServer.length = 1 ∧ connection.accepted = [] ∧
    ∃ events after, connection.lost.Runs events after ∧ after.delivered = [0] := by
  obtain ⟨connection, reached, _, _, toServer, _, queued, accepted⟩ := one_byte_sent
  obtain ⟨_, events, after, _, _, runs, _, _, _, _, delivered⟩ :=
    data_phase_finishes idleConnection connection idle_established reached
      (by rw [queued]; decide) stoppedClock
  rw [queued] at delivered
  exact ⟨connection, reached, by rw [toServer]; rfl, accepted, events, after, runs, delivered⟩

end MiniOverlay
