import MiniOverlay.ClientReconnect
import MiniOverlay.SegmentOwnership

/-!
# The retries of a disconnection

A whole call of `mrt_client_disconnect`, with everything that the other threads do to its
TCB during the waits: `seghandler` on the segments that come in and the timer's
`sendBuffer_timeout`. The call sends the FIN once and then again after each of at most
`FIN_MAX_RETRY` waits, and it always closes the TCB; only the FINACK that the handler takes
decides whether the buffer is freed or left behind.
-/

namespace MiniOverlay

open LinkedHeap FixedByteCodec

set_option autoImplicit false

inductive WaitItem where
  | segment (incoming : Incoming)
  | timeout (now : Nat → Timeval)

def Client.waitItem (client : Client) : WaitItem → Option Client
  | .segment incoming => client.handle incoming
  | .timeout now => (sendBufferTimeout now client).map Prod.fst

/-- The FINACK that `seghandler` takes in FINWAIT: it compares the node that sent it with
the port of the server. -/
def WaitItem.Closes (serverPort : UInt32) : WaitItem → Prop
  | .segment incoming =>
      incoming.segmentBuffer.header.type = SegType.finack ∧
        serverPort = incoming.sourceNodeID.toUInt32 ∧
        serverPort = incoming.segmentBuffer.header.srcPort
  | .timeout _ => False

instance (serverPort : UInt32) : DecidablePred (WaitItem.Closes serverPort)
  | .segment _ => inferInstanceAs (Decidable (_ ∧ _ ∧ _))
  | .timeout _ => inferInstanceAs (Decidable False)

/-- The loop over the waits, from the one numbered `retry` on. -/
def mrtClientDisconnectLoop (finished : Seg) (waits : Nat → List WaitItem) :
    Nat → Nat → Client → Option (Int × Client × List ClientEffect)
  | 0, _, _ => none
  | turns + 1, retry, client => do
      let woken ← (waits retry).foldlM Client.waitItem client
      let turn ← mrtClientDisconnectWake woken finished retry
      match turn.2.1 with
      | .returns value => return (value, turn.1, turn.2.2)
      | .waits next => do
          let later ← mrtClientDisconnectLoop finished waits turns next turn.1
          return (later.1, later.2.1, turn.2.2 ++ later.2.2)

/-- A whole call: the return value, the client when it returns and what the call itself
sends. -/
def mrtClientDisconnectCall (client : Client) (waits : Nat → List WaitItem) :
    Option (Int × Client × List ClientEffect) :=
  match mrtClientDisconnect client with
  | none => some (-1, client, [])
  | some (waiting, finished, effects) => do
      let result ← mrtClientDisconnectLoop finished waits finMaxRetry 0 waiting
      return (result.1, result.2.1, effects ++ result.2.2)

def ClosedDuring (serverPort : UInt32) (wait : List WaitItem) : Prop :=
  ∃ item ∈ wait, item.Closes serverPort

instance (serverPort : UInt32) (wait : List WaitItem) : Decidable (ClosedDuring serverPort wait) :=
  inferInstanceAs (Decidable (∃ item ∈ wait, item.Closes serverPort))

def ClientTcb.finArg (table : ClientTcb) : SendsegArg :=
  ⟨table.svrNodeID.toInt32, table.newSeg SegType.fin 0 []⟩

/-- How the call ends: with the first wait that a FINACK ends, with the cells of the buffer
freed and the numbers reset, or after the last wait with the buffer as it was. -/
inductive Disconnects (client : Client) (sent unsent : List Seg) (waits : Nat → List WaitItem) :
    Int × Client × List ClientEffect → Prop where
  | finished (wait : Nat) (after : Client) (effects : List ClientEffect)
      (nodes : List (Nat × SegBuf))
      (inTime : wait < finMaxRetry)
      (closing : ClosedDuring client.tcb.svrPortNum (waits wait))
      (before : ∀ earlier < wait, ¬ ClosedDuring client.tcb.svrPortNum (waits earlier))
      (fins : sentSegs effects = List.replicate (1 + wait) client.tcb.finArg)
      (closed : after.tcb.state = .closed)
      (fresh : FreshBuffer after.tcb)
      (owns : Owns client.heap client.tcb.sendBufHead nodes)
      (segs : entrySegs nodes = sent ++ unsent)
      (freed : (freedIn client.heap after.heap).Perm (addresses nodes)) :
      Disconnects client sent unsent waits (1, after, effects)
  | gaveUp (after : Client) (effects : List ClientEffect)
      (never : ∀ wait < finMaxRetry, ¬ ClosedDuring client.tcb.svrPortNum (waits wait))
      (fins : sentSegs effects = List.replicate (1 + finMaxRetry) client.tcb.finArg)
      (closed : after.tcb.state = .closed)
      (kept : Holds after sent unsent)
      (next : after.tcb.nextSeqNum = client.tcb.nextSeqNum)
      (freed : freedIn client.heap after.heap = []) :
      Disconnects client sent unsent waits (-1, after, effects)

/-- What the waits leave of the client that started to disconnect. -/
structure Waited (client after : Client) (sent unsent : List Seg) (state : ClientState) :
    Prop where
  holds : Holds after sent unsent
  tcb : after.tcb = { client.tcb with state := state }
  turnover : Turnover client after [] []

theorem turnover_state (client : Client) (state : ClientState) :
    Turnover client ⟨client.heap, { client.tcb with state := state }⟩ [] [] :=
  ⟨frees_refl client.heap, fun nodes owns => ⟨nodes, owns, List.append_nil _⟩⟩

theorem holds_state {client : Client} {sent unsent : List Seg} (state : ClientState)
    (holds : Holds client sent unsent) :
    Holds ⟨client.heap, { client.tcb with state := state }⟩ sent unsent := by
  obtain ⟨sentCells, unsentCells, buffer, sentSame, unsentSame⟩ := holds
  have moved : SendBuffer ⟨client.heap, { client.tcb with state := state }⟩ sentCells
      unsentCells := ⟨buffer.owns, buffer.unSent, buffer.tail, buffer.unAck, buffer.window⟩
  exact ⟨sentCells, unsentCells, moved, sentSame, unsentSame⟩

theorem Waited.trans {client middle after : Client} {sent unsent : List Seg}
    {state later : ClientState} (first : Waited client middle sent unsent state)
    (second : Waited middle after sent unsent later) : Waited client after sent unsent later := by
  refine ⟨second.holds, ?_, turnover_trans first.turnover second.turnover⟩
  rw [second.tcb, first.tcb]

theorem timeout_waited (now : Nat → Timeval) {client : Client} {sent unsent : List Seg}
    (holds : Holds client sent unsent) :
    ∃ after, client.waitItem (.timeout now) = some after ∧
      Waited client after sent unsent client.tcb.state := by
  obtain ⟨after, effects, run, afterHolds, _, sameTcb⟩ :=
    timeout_holds now client sent unsent holds
  obtain ⟨sentCells, unsentCells, buffer, _, _⟩ := holds
  refine ⟨after, ?_, afterHolds, sameTcb, timeout_turnover buffer run⟩
  rw [Client.waitItem, run, Option.map_some]

theorem item_waited (item : WaitItem) {client : Client} {sent unsent : List Seg}
    (holds : Holds client sent unsent)
    (state : client.tcb.state = .finwait ∨ client.tcb.state = .closed) :
    ∃ after, client.waitItem item = some after ∧ Waited client after sent unsent
      (if item.Closes client.tcb.svrPortNum then .closed else client.tcb.state) := by
  cases item with
  | timeout now =>
      rw [if_neg (by exact fun closes => closes)]
      exact timeout_waited now holds
  | segment incoming =>
      have same : Waited client client sent unsent client.tcb.state :=
        ⟨holds, rfl, turnover_refl client⟩
      have closed : Waited client ⟨client.heap, { client.tcb with state := .closed }⟩ sent unsent
          .closed := ⟨holds_state .closed holds, rfl, turnover_state client .closed⟩
      rcases state with finwait | isClosed
      · by_cases closes : (WaitItem.segment incoming).Closes client.tcb.svrPortNum
        · rw [if_pos closes]
          refine ⟨_, ?_, closed⟩
          simp only [Client.waitItem, Client.handle, clientSeghandler, finwait]
          exact congrArg (Option.map Prod.fst) (if_pos closes)
        · rw [if_neg closes]
          refine ⟨_, ?_, same⟩
          simp only [Client.waitItem, Client.handle, clientSeghandler, finwait]
          exact congrArg (Option.map Prod.fst) (if_neg closes)
      · rw [isClosed, ite_self]
        refine ⟨client, ?_, isClosed ▸ same⟩
        simp only [Client.waitItem, Client.handle, clientSeghandler, isClosed, Option.map_some]

theorem wait_waited (wait : List WaitItem) {client : Client} {sent unsent : List Seg}
    (holds : Holds client sent unsent)
    (state : client.tcb.state = .finwait ∨ client.tcb.state = .closed) :
    ∃ woken, wait.foldlM Client.waitItem client = some woken ∧ Waited client woken sent unsent
      (if ClosedDuring client.tcb.svrPortNum wait then .closed else client.tcb.state) := by
  induction wait generalizing client with
  | nil =>
      refine ⟨client, rfl, ?_⟩
      rw [if_neg (by simp [ClosedDuring])]
      exact ⟨holds, rfl, turnover_refl client⟩
  | cons item wait ih =>
      obtain ⟨middle, run, first⟩ := item_waited item holds state
      have port : middle.tcb.svrPortNum = client.tcb.svrPortNum := by rw [first.tcb]
      have middleState : middle.tcb.state =
          if item.Closes client.tcb.svrPortNum then .closed else client.tcb.state := by
        rw [first.tcb]
      have middleClosing : middle.tcb.state = .finwait ∨ middle.tcb.state = .closed := by
        rw [middleState]
        split_ifs
        · exact Or.inr rfl
        · exact state
      obtain ⟨woken, rest, second⟩ := ih first.holds middleClosing
      refine ⟨woken, ?_, ?_⟩
      · rw [List.foldlM_cons, run, Option.bind_eq_bind, Option.bind_some]
        exact rest
      · rw [port, middleState] at second
        have joined : (if ClosedDuring client.tcb.svrPortNum wait then ClientState.closed else
            if item.Closes client.tcb.svrPortNum then .closed else client.tcb.state) =
            if ClosedDuring client.tcb.svrPortNum (item :: wait) then .closed
            else client.tcb.state := by
          have either : ClosedDuring client.tcb.svrPortNum (item :: wait) ↔
              item.Closes client.tcb.svrPortNum ∨ ClosedDuring client.tcb.svrPortNum wait := by
            simp [ClosedDuring]
          by_cases now : item.Closes client.tcb.svrPortNum <;>
            by_cases later : ClosedDuring client.tcb.svrPortNum wait <;>
            simp [either, now, later]
        rw [joined] at second
        exact first.trans second

theorem fins_again {table : ClientTcb} {before : List ClientEffect} {count : Nat}
    (fins : sentSegs before = List.replicate count table.finArg) :
    sentSegs (before ++ [.mnpSendseg table.svrNodeID.toInt32 (table.newSeg SegType.fin 0 [])]) =
      List.replicate (count + 1) table.finArg := by
  rw [sentSegs, List.filterMap_append, ← sentSegs, fins, List.replicate_succ']
  rfl

theorem finish_disconnects {client waiting woken : Client} {sent unsent : List Seg}
    (holds : Holds client sent unsent) {waits : Nat → List WaitItem} (turns : Nat) {retry : Nat}
    {before : List ClientEffect}
    (inTime : retry < finMaxRetry)
    (earlier : ∀ wait < retry, ¬ ClosedDuring client.tcb.svrPortNum (waits wait))
    (closing : ClosedDuring client.tcb.svrPortNum (waits retry))
    (run : (waits retry).foldlM Client.waitItem waiting = some woken)
    (waited : Waited client woken sent unsent .closed)
    (fins : sentSegs before = List.replicate (1 + retry) client.tcb.finArg) :
    ∃ result, mrtClientDisconnectLoop (client.tcb.newSeg SegType.fin 0 []) waits (turns + 1)
        retry waiting = some result ∧
      Disconnects client sent unsent waits (result.1, result.2.1, before ++ result.2.2) := by
  obtain ⟨firstSent, firstUnsent, first, rfl, rfl⟩ := holds
  obtain ⟨sentCells, unsentCells, buffer, _, _⟩ := waited.holds
  obtain ⟨left, leftOwns, same⟩ := waited.turnover.list _ first.owns
  obtain rfl := chain_unique leftOwns.chain buffer.owns.chain
  rw [List.append_nil, List.nil_append] at same
  let closedTcb := { woken.tcb with nextSeqNum := 0, svrNodeID := -1, svrPortNum := 0 }
  have owns : Owns (Client.mk woken.heap closedTcb).heap
      (Client.mk woken.heap closedTcb).tcb.sendBufHead (sentCells ++ unsentCells) := buffer.owns
  obtain ⟨after, destroyed, _, frees⟩ := destroy_frees owns buffer.tail
  obtain ⟨fresh, state⟩ := destroy_fresh rfl destroyed
  have wokenClosed : woken.tcb.state = .closed := by rw [waited.tcb]
  have gone := freed_in_perm (frees_trans waited.turnover.frees frees)
  have turn : mrtClientDisconnectWake woken (client.tcb.newSeg SegType.fin 0 []) retry =
      some (after, .returns 1, []) := by
    rw [mrtClientDisconnectWake, if_pos wokenClosed, destroyed]
    rfl
  refine ⟨(1, after, []), ?_, ?_⟩
  · rw [mrtClientDisconnectLoop]
    simp only [run, turn, Option.bind_eq_bind, Option.bind_some]
    rfl
  · rw [List.append_nil]
    refine .finished retry after before (firstSent ++ firstUnsent) inTime closing earlier fins
      (state.trans wokenClosed) fresh first.owns List.map_append ?_
    rw [same]
    exact gone

theorem unfinished_turn {client woken : Client} {sent unsent : List Seg} (retry : Nat)
    (waited : Waited client woken sent unsent .finwait) :
    mrtClientDisconnectWake woken (client.tcb.newSeg SegType.fin 0 []) retry =
      let again := [ClientEffect.mnpSendseg client.tcb.svrNodeID.toInt32
        (client.tcb.newSeg SegType.fin 0 [])]
      if retry + 1 < finMaxRetry then some (woken, .waits (retry + 1), again)
      else some (⟨woken.heap, { woken.tcb with state := .closed }⟩, .returns (-1), again) := by
  have notClosed : woken.tcb.state ≠ .closed := by simp [waited.tcb]
  have node : woken.tcb.svrNodeID = client.tcb.svrNodeID := by rw [waited.tcb]
  rw [mrtClientDisconnectWake, if_neg notClosed, node]

theorem wait_cases {client waiting : Client} {sent unsent : List Seg}
    (waits : Nat → List WaitItem) (retry : Nat)
    (waited : Waited client waiting sent unsent .finwait) :
    ∃ woken, (waits retry).foldlM Client.waitItem waiting = some woken ∧
      Waited client woken sent unsent
        (if ClosedDuring client.tcb.svrPortNum (waits retry) then .closed else .finwait) := by
  have waitingState : waiting.tcb.state = .finwait := by rw [waited.tcb]
  have port : waiting.tcb.svrPortNum = client.tcb.svrPortNum := by rw [waited.tcb]
  obtain ⟨woken, run, during⟩ := wait_waited (waits retry) waited.holds (Or.inl waitingState)
  rw [port, waitingState] at during
  exact ⟨woken, run, waited.trans during⟩

theorem never_longer {serverPort : UInt32} {waits : Nat → List WaitItem} {retry : Nat}
    (earlier : ∀ wait < retry, ¬ ClosedDuring serverPort (waits wait))
    (unclosed : ¬ ClosedDuring serverPort (waits retry)) :
    ∀ wait < retry + 1, ¬ ClosedDuring serverPort (waits wait) := by
  intro wait bound
  rcases Nat.lt_succ_iff_lt_or_eq.mp bound with lower | rfl
  · exact earlier wait lower
  · exact unclosed

/-- The loop from the wait numbered `retry` on, behind the FINs that were sent before. -/
theorem loop_disconnects {client : Client} {sent unsent : List Seg} {waits : Nat → List WaitItem}
    (holds : Holds client sent unsent) (turns retry : Nat) {waiting : Client}
    {before : List ClientEffect}
    (budget : retry + (turns + 1) = finMaxRetry)
    (earlier : ∀ wait < retry, ¬ ClosedDuring client.tcb.svrPortNum (waits wait))
    (waited : Waited client waiting sent unsent .finwait)
    (fins : sentSegs before = List.replicate (1 + retry) client.tcb.finArg) :
    ∃ result, mrtClientDisconnectLoop (client.tcb.newSeg SegType.fin 0 []) waits (turns + 1)
        retry waiting = some result ∧
      Disconnects client sent unsent waits (result.1, result.2.1, before ++ result.2.2) := by
  induction turns generalizing retry waiting before with
  | zero =>
      obtain ⟨woken, run, during⟩ := wait_cases waits retry waited
      by_cases closing : ClosedDuring client.tcb.svrPortNum (waits retry)
      · rw [if_pos closing] at during
        exact finish_disconnects holds 0 (by omega) earlier closing run during fins
      · rw [if_neg closing] at during
        have last : ¬ retry + 1 < finMaxRetry := by omega
        have turn := unfinished_turn retry during
        rw [if_neg last] at turn
        have again := fins_again fins
        have never := never_longer earlier closing
        rw [Nat.add_assoc, budget] at again
        rw [budget] at never
        refine ⟨(-1, ⟨woken.heap, { woken.tcb with state := .closed }⟩, [_]), ?_,
          .gaveUp _ _ never again rfl (holds_state .closed during.holds) ?_ ?_⟩
        · simp only [mrtClientDisconnectLoop, run, turn, Option.bind_eq_bind, Option.bind_some]
          rfl
        · rw [during.tcb]
        · exact List.perm_nil.mp (freed_in_perm during.turnover.frees)
  | succ turns ih =>
      obtain ⟨woken, run, during⟩ := wait_cases waits retry waited
      by_cases closing : ClosedDuring client.tcb.svrPortNum (waits retry)
      · rw [if_pos closing] at during
        exact finish_disconnects holds (turns + 1) (by omega) earlier closing run during fins
      · rw [if_neg closing] at during
        have more : retry + 1 < finMaxRetry := by omega
        have turn := unfinished_turn retry during
        rw [if_pos more] at turn
        obtain ⟨result, rest, ends⟩ := ih (retry + 1) (by omega) (never_longer earlier closing)
          during (fins_again fins)
        refine ⟨(result.1, result.2.1, .mnpSendseg client.tcb.svrNodeID.toInt32
          (client.tcb.newSeg SegType.fin 0 []) :: result.2.2), ?_, ?_⟩
        · rw [mrtClientDisconnectLoop]
          simp only [run, turn, rest, Option.bind_eq_bind, Option.bind_some]
          rfl
        · rw [List.append_assoc] at ends
          exact ends

theorem call_disconnects {client : Client} {sent unsent : List Seg}
    (waits : Nat → List WaitItem) (connected : client.tcb.state = .connected)
    (holds : Holds client sent unsent) :
    ∃ result, mrtClientDisconnectCall client waits = some result ∧
      Disconnects client sent unsent waits result := by
  have waiting : Waited client ⟨client.heap, { client.tcb with state := .finwait }⟩ sent unsent
      .finwait := ⟨holds_state .finwait holds, rfl, turnover_state client .finwait⟩
  have none_earlier : ∀ wait < 0, ¬ ClosedDuring client.tcb.svrPortNum (waits wait) :=
    fun wait bound => absurd bound (Nat.not_lt_zero wait)
  have first : sentSegs [.mnpSendseg client.tcb.svrNodeID.toInt32
      (client.tcb.newSeg SegType.fin 0 [])] = List.replicate (1 + 0) client.tcb.finArg := rfl
  obtain ⟨result, run, ends⟩ := loop_disconnects holds 4 0 rfl none_earlier waiting first
  refine ⟨_, ?_, ends⟩
  simp only [mrtClientDisconnectCall, mrtClientDisconnect, connected]
  rw [finMaxRetry, run]
  rfl

def FinacksFromServer (table : ClientTcb) (waits : Nat → List WaitItem) : Prop :=
  ∀ wait incoming, WaitItem.segment incoming ∈ waits wait →
    incoming.segmentBuffer.header.type = SegType.finack →
      incoming.sourceNodeID.toUInt32 = table.svrNodeID

theorem server_finacks_ignored {table : ClientTcb} {waits : Nat → List WaitItem}
    (apart : table.svrNodeID ≠ table.svrPortNum) (fromServer : FinacksFromServer table waits)
    (wait : Nat) : ¬ ClosedDuring table.svrPortNum (waits wait) := by
  rintro ⟨item, member, closes⟩
  cases item with
  | timeout now => exact closes
  | segment incoming =>
      obtain ⟨finack, node, _⟩ := closes
      have server := fromServer wait incoming member finack
      exact apart (server.symm.trans node.symm)

/-- For a connected client with whatever is in its buffer, and whatever comes in during the
waits, `mrt_client_disconnect` ends in one of the two ways; with the FINACKs of a server
whose node and port have different numbers it gives up. -/
theorem disconnect_reports (client : Client) (sent unsent : List Seg)
    (waits : Nat → List WaitItem) (connected : client.tcb.state = .connected)
    (holds : Holds client sent unsent) :
    ∃ result, mrtClientDisconnectCall client waits = some result ∧
      Disconnects client sent unsent waits result ∧
      (client.tcb.svrNodeID ≠ client.tcb.svrPortNum → FinacksFromServer client.tcb waits →
        result.1 = -1) := by
  obtain ⟨result, run, ends⟩ := call_disconnects waits connected holds
  refine ⟨result, run, ends, ?_⟩
  intro apart fromServer
  cases ends with
  | finished wait after effects nodes inTime closing _ _ _ _ _ _ _ =>
      exact absurd closing (server_finacks_ignored apart fromServer wait)
  | gaveUp after effects _ _ _ _ _ _ => rfl

def namesakeFinack : Incoming where
  now := stoppedClock
  sourceNodeID := 200
  segmentBuffer :=
    { Seg.cleared with
      header := { MrtHdr.cleared with type := SegType.finack, srcPort := 200, destPort := 100 } }

def secondWait (wait : Nat) : List WaitItem :=
  if wait = 1 then [.timeout stoppedClock, .segment namesakeFinack] else []

theorem second_unsent_owns : Owns secondUnsent.heap secondUnsent.tcb.sendBufHead
    [(0, ⟨oneByteSegment, 0⟩), (1, ⟨oneByteSegment.withSeqNum 1, 0⟩)] :=
  ⟨⟨rfl, _, rfl, rfl, _, rfl, rfl⟩, by decide⟩

theorem second_unsent_holds :
    Holds secondUnsent [oneByteSegment] [oneByteSegment.withSeqNum 1] := by
  have buffer : SendBuffer secondUnsent [(0, ⟨oneByteSegment, 0⟩)]
      [(1, ⟨oneByteSegment.withSeqNum 1, 0⟩)] :=
    ⟨second_unsent_owns, rfl, rfl, rfl, by decide⟩
  exact ⟨_, _, buffer, rfl, rfl⟩

/-- With two segments in the buffer the call returns 1 and has freed the cells of both. -/
theorem second_wait_reported :
    ∃ after effects, mrtClientDisconnectCall secondUnsent secondWait = some (1, after, effects) ∧
      sentSegs effects = List.replicate 2 secondUnsent.tcb.finArg ∧
      (freedIn secondUnsent.heap after.heap).Perm [0, 1] := by
  obtain ⟨_, run, ends, _⟩ := disconnect_reports secondUnsent _ _ secondWait rfl
    second_unsent_holds
  have closing : ClosedDuring secondUnsent.tcb.svrPortNum (secondWait 1) := by decide
  cases ends with
  | gaveUp after effects never _ _ _ _ _ => exact absurd closing (never 1 (by decide))
  | finished wait after effects nodes _ closes before fins _ _ owns _ freed =>
      have second : wait = 1 := by
        rcases Nat.lt_trichotomy wait 1 with first | second | later
        · rw [Nat.lt_one_iff.mp first] at closes
          exact absurd closes (by decide)
        · exact second
        · exact absurd closing (before 1 later)
      rw [second] at fins
      rw [chain_unique owns.chain second_unsent_owns.chain] at freed
      exact ⟨after, effects, run, fins, freed⟩

end MiniOverlay
