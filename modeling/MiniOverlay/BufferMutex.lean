import MiniOverlay.CriticalSections
import MiniOverlay.SendBufferInvariant

/-!
# The mutex of the send buffer

The functions on the send buffer lock `bufMutex` for their whole body, and the
application threads, `seghandler` and the timers call them at any time. Here each
function goes through its body turn by turn, one turn for each round of its loop,
and the other threads allocate segments and change the state in between.
-/

namespace MiniOverlay

open LinkedHeap CriticalSections

set_option autoImplicit false

inductive SendBufferCall where
  | append (segmentBuffer : Ptr)
  | sending
  | timeout
  | recvAck (ackSeqnum : UInt32)
  | destroy
  deriving DecidableEq

/-- What is left of a function: it starts, or it is in its loop or behind it. -/
inductive SendBufferLocal where
  | starts (call : SendBufferCall)
  | appendFirst (segmentBuffer : Ptr)
  | appendBehind (segmentBuffer : Ptr)
  | timeoutLoop (turn : Nat) (buffer : Ptr)
  | recvAckLoop (ackSeqnum : UInt32)
  | destroyLoop (bufer : Ptr)
  | destroyEnd

/-- What threads do without the mutex: `malloc` and `memset` with the header of a new
segment, and changes of the connection's state. -/
inductive SendBufferOuter where
  | malloc (seg : Seg)
  | changeState (state : ClientState)

def sendBufferTurn (time : Timeval) (left : SendBufferLocal) (client : Client) :
    Option (Option SendBufferLocal × Client × List ClientEffect) :=
  let table := client.tcb
  match left with
  | .starts (.append segmentBuffer) => do
      let cell ← read client.heap segmentBuffer
      let seg := cell.val.seg.withSeqNum table.nextSeqNum
      let next := { table with nextSeqNum := table.nextSeqNum + seg.header.length.toUInt32 }
      if table.sendBufHead = none then
        let heap ← write client.heap segmentBuffer ⟨⟨seg, 0⟩, cell.next⟩
        return (some (.appendFirst segmentBuffer), ⟨heap, next⟩, [])
      else
        let heap ← write client.heap segmentBuffer ⟨⟨seg, cell.val.sentTime⟩, cell.next⟩
        return (some (.appendBehind segmentBuffer), ⟨heap, next⟩, [])
  | .appendFirst segmentBuffer =>
      some (none, ⟨client.heap, { table with
        sendBufHead := segmentBuffer
        sendBufunSent := segmentBuffer
        sendBufTail := segmentBuffer }⟩, [])
  | .appendBehind segmentBuffer => do
      let last ← read client.heap table.sendBufTail
      let heap ← write client.heap table.sendBufTail ⟨last.val, segmentBuffer⟩
      return (none, ⟨heap, { table with
        sendBufTail := segmentBuffer
        sendBufunSent :=
          if table.sendBufunSent = none then segmentBuffer else table.sendBufunSent }⟩, [])
  | .starts .sending =>
      if table.unAckSegNum.toNat < gbnWindow ∧ table.sendBufunSent ≠ none then do
        let cell ← read client.heap table.sendBufunSent
        let heap ← write client.heap table.sendBufunSent
          ⟨⟨cell.val.seg, time.stamp 1000⟩, cell.next⟩
        let timer := if table.unAckSegNum = 0 then [ClientEffect.startTimer] else []
        return (some (.starts .sending), ⟨heap, { table with
          unAckSegNum := table.unAckSegNum + 1
          sendBufunSent := if table.sendBufunSent ≠ table.sendBufTail then cell.next else none }⟩,
          .mnpSendseg table.svrNodeID.toInt32 cell.val.seg :: timer)
      else some (none, client, [])
  | .starts .timeout => some (some (.timeoutLoop 0 table.sendBufHead), client, [])
  | .timeoutLoop turn buffer =>
      if turn < table.unAckSegNum.toNat then do
        let cell ← read client.heap buffer
        let heap ← write client.heap buffer ⟨⟨cell.val.seg, time.stamp 10000⟩, cell.next⟩
        return (some (.timeoutLoop (turn + 1) cell.next), ⟨heap, table⟩,
          [.mnpSendseg table.svrNodeID.toInt32 cell.val.seg])
      else some (none, client, [])
  | .starts (.recvAck ackSeqnum) => do
      let tail ← read client.heap table.sendBufTail
      let table :=
        if ackSeqnum > tail.val.seg.header.seqNum then { table with sendBufTail := none } else table
      return (some (.recvAckLoop ackSeqnum), ⟨client.heap, table⟩, [])
  | .recvAckLoop ackSeqnum =>
      if table.sendBufHead = none then some (none, client, [])
      else do
        let cell ← read client.heap table.sendBufHead
        if cell.val.seg.header.seqNum < ackSeqnum then
          let heap ← free client.heap table.sendBufHead
          return (some (.recvAckLoop ackSeqnum), ⟨heap, { table with
            sendBufHead := cell.next
            unAckSegNum := table.unAckSegNum - 1 }⟩, [])
        else return (none, client, [])
  | .starts .destroy => some (some (.destroyLoop table.sendBufHead), client, [])
  | .destroyLoop bufer =>
      if bufer = table.sendBufTail then some (some .destroyEnd, client, [])
      else do
        let cell ← read client.heap bufer
        let heap ← free client.heap bufer
        return (some (.destroyLoop cell.next), ⟨heap, table⟩, [])
  | .destroyEnd => do
      let heap ← if table.sendBufTail = none then some client.heap
        else free client.heap table.sendBufTail
      return (none, ⟨heap, { table with
        sendBufunSent := none
        sendBufHead := none
        sendBufTail := none
        unAckSegNum := 0 }⟩, [])

def sendBufferOutside (outer : SendBufferOuter) (client : Client) : Client :=
  match outer with
  | .malloc seg => ⟨(alloc client.heap ⟨⟨seg, 0⟩, none⟩).1, client.tcb⟩
  | .changeState state => ⟨client.heap, { client.tcb with state := state }⟩

def sendBufferCalls :
    LockedCalls Client SendBufferCall SendBufferLocal SendBufferOuter Timeval ClientEffect where
  enter := .starts
  turn := sendBufferTurn
  outside := sendBufferOutside

/-- The clock of the turns still to come, which the loops count down. -/
def countdown (readings : Stream' Timeval) (turns : Nat) : Nat → Timeval :=
  fun turn => readings.get (turns - 1 - turn)

def SendBufferCall.whole (call : SendBufferCall) (readings : Stream' Timeval) (client : Client) :
    Option (Client × List ClientEffect) :=
  match call with
  | .append segmentBuffer => (sendBufferAppendSegment client segmentBuffer).map (·, [])
  | .sending => sendBufferSending (countdown readings gbnWindow) client
  | .timeout =>
      sendBufferTimeout (countdown readings.tail client.tcb.unAckSegNum.toNat) client
  | .recvAck ackSeqnum => (sendBufferRecvAck client ackSeqnum).map (·, [])
  | .destroy => (sendBufferDestroy client).map (·, [])

section Outside

variable {time : Timeval} {left : SendBufferLocal}
  {next : Option SendBufferLocal} {client after : Client} {effects : List ClientEffect}

section Grows

variable {Result : Type} {grow : Heap SegBuf → Heap SegBuf}

theorem bind_read_grows
    (reads : ∀ heap ptr cell, read heap ptr = some cell → read (grow heap) ptr = some cell)
    {heap : Heap SegBuf} {ptr : Ptr} {rest grown : Cell SegBuf → Option Result}
    {result last : Result} (ran : (read heap ptr).bind rest = some result)
    (later : ∀ cell, rest cell = some result → grown cell = some last) :
    (read (grow heap) ptr).bind grown = some last := by
  obtain ⟨cell, held, ran⟩ := Option.bind_eq_some_iff.mp ran
  rw [reads heap ptr cell held, Option.bind_some]
  exact later cell ran

theorem bind_store_grows
    (stores : ∀ heap ptr content after, store heap ptr content = some after →
      store (grow heap) ptr content = some (grow after))
    {heap : Heap SegBuf} {ptr : Ptr} {content : Option (Cell SegBuf)}
    {rest grown : Heap SegBuf → Option Result} {result last : Result}
    (ran : (store heap ptr content).bind rest = some result)
    (later : ∀ after, rest after = some result → grown (grow after) = some last) :
    (store (grow heap) ptr content).bind grown = some last := by
  obtain ⟨after, stored, ran⟩ := Option.bind_eq_some_iff.mp ran
  rw [stores heap ptr content after stored, Option.bind_some]
  exact later after ran

end Grows

theorem turn_grows (grow : Heap SegBuf → Heap SegBuf)
    (reads : ∀ heap ptr cell, read heap ptr = some cell → read (grow heap) ptr = some cell)
    (stores : ∀ heap ptr content after, store heap ptr content = some after →
      store (grow heap) ptr content = some (grow after))
    (turned : sendBufferTurn time left client = some (next, after, effects)) (state : ClientState) :
    sendBufferTurn time left ⟨grow client.heap, { client.tcb with state := state }⟩ =
      some (next, ⟨grow after.heap, { after.tcb with state := state }⟩, effects) := by
  cases left with
  | starts call =>
      cases call with
      | append segmentBuffer =>
          apply bind_read_grows reads turned
          intro cell turned
          by_cases empty : client.tcb.sendBufHead = none
          · rw [if_pos empty] at turned ⊢
            apply bind_store_grows stores turned
            intro heap turned
            cases turned
            rfl
          · rw [if_neg empty] at turned ⊢
            apply bind_store_grows stores turned
            intro heap turned
            cases turned
            rfl
      | sending =>
          simp only [sendBufferTurn] at turned ⊢
          by_cases ready : client.tcb.unAckSegNum.toNat < gbnWindow ∧
              client.tcb.sendBufunSent ≠ none
          · rw [if_pos ready] at turned ⊢
            apply bind_read_grows reads turned
            intro cell turned
            apply bind_store_grows stores turned
            intro heap turned
            cases turned
            rfl
          · rw [if_neg ready] at turned ⊢
            cases turned
            rfl
      | timeout =>
          cases turned
          rfl
      | recvAck ackSeqnum =>
          apply bind_read_grows reads turned
          intro tail turned
          cases turned
          dsimp only
          split
          · rfl
          · rfl
      | destroy =>
          cases turned
          rfl
  | appendFirst segmentBuffer =>
      cases turned
      rfl
  | appendBehind segmentBuffer =>
      apply bind_read_grows reads turned
      intro last turned
      apply bind_store_grows stores turned
      intro heap turned
      cases turned
      rfl
  | timeoutLoop turn buffer =>
      simp only [sendBufferTurn] at turned ⊢
      by_cases more : turn < client.tcb.unAckSegNum.toNat
      · rw [if_pos more] at turned ⊢
        apply bind_read_grows reads turned
        intro cell turned
        apply bind_store_grows stores turned
        intro heap turned
        cases turned
        rfl
      · rw [if_neg more] at turned ⊢
        cases turned
        rfl
  | recvAckLoop ackSeqnum =>
      simp only [sendBufferTurn] at turned ⊢
      by_cases empty : client.tcb.sendBufHead = none
      · rw [if_pos empty] at turned ⊢
        cases turned
        rfl
      · rw [if_neg empty] at turned ⊢
        apply bind_read_grows reads turned
        intro cell turned
        by_cases covered : cell.val.seg.header.seqNum < ackSeqnum
        · rw [if_pos covered] at turned ⊢
          apply bind_store_grows stores turned
          intro heap turned
          cases turned
          rfl
        · rw [if_neg covered] at turned ⊢
          cases turned
          rfl
  | destroyLoop bufer =>
      simp only [sendBufferTurn] at turned ⊢
      by_cases last : bufer = client.tcb.sendBufTail
      · rw [if_pos last] at turned ⊢
        cases turned
        rfl
      · rw [if_neg last] at turned ⊢
        apply bind_read_grows reads turned
        intro cell turned
        apply bind_store_grows stores turned
        intro heap turned
        cases turned
        rfl
  | destroyEnd =>
      simp only [sendBufferTurn] at turned ⊢
      by_cases empty : client.tcb.sendBufTail = none
      · rw [if_pos empty] at turned ⊢
        cases turned
        rfl
      · rw [if_neg empty] at turned ⊢
        apply bind_store_grows stores turned
        intro heap turned
        cases turned
        rfl

theorem turn_keeps_state (turned : sendBufferTurn time left client = some (next, after, effects)) :
    after.tcb.state = client.tcb.state := by
  have same := turn_grows id (fun _ _ _ held => held) (fun _ _ _ _ stored => stored) turned
    client.tcb.state
  have again : sendBufferTurn time left client = some (next,
      ⟨after.heap, { after.tcb with state := client.tcb.state }⟩, effects) := same
  have both := congrArg Prod.fst (congrArg Prod.snd (Option.some.inj (turned.symm.trans again)))
  exact congrArg (fun client => client.tcb.state) both

theorem turn_outside (outer : SendBufferOuter)
    (turned : sendBufferTurn time left client = some (next, after, effects)) :
    sendBufferTurn time left (sendBufferOutside outer client) =
      some (next, sendBufferOutside outer after, effects) := by
  cases outer with
  | malloc seg =>
      have grown := turn_grows (fun heap => (alloc heap ⟨⟨seg, 0⟩, none⟩).1)
        (fun _ _ _ held => read_alloc_old held _) (fun _ _ _ _ stored => store_alloc stored _)
        turned client.tcb.state
      have kept : { after.tcb with state := client.tcb.state } = after.tcb := by
        rw [← turn_keeps_state turned]
      rw [kept] at grown
      exact grown
  | changeState state =>
      exact turn_grows id (fun _ _ _ held => held) (fun _ _ _ _ stored => stored) turned state

end Outside

theorem finishes_silent_iff {readings : Stream' Timeval} {left next : SendBufferLocal}
    {client middle : Client} (turned : sendBufferTurn readings.head left client =
      some (some next, middle, [])) (after : Client) (effects : List ClientEffect) :
    Finishes sendBufferCalls readings left client after effects ↔
      Finishes sendBufferCalls readings.tail next middle after effects := by
  rw [finishes_more_iff turned]
  constructor
  · rintro ⟨later, rest, rfl⟩
    exact rest
  · intro rest
    exact ⟨effects, rest, rfl⟩

theorem finishes_end_iff {readings : Stream' Timeval} {left : SendBufferLocal}
    {client middle : Client} (turned : sendBufferTurn readings.head left client =
      some (none, middle, [])) (after : Client) (effects : List ClientEffect) :
    Finishes sendBufferCalls readings left client after effects ↔
      some (middle, []) = some (after, effects) := by
  rw [finishes_last_iff turned, Option.some.injEq, Prod.mk.injEq]

theorem finishes_fail_iff {readings : Stream' Timeval} {left : SendBufferLocal} {client : Client}
    (failed : sendBufferTurn readings.head left client = none) (after : Client)
    (effects : List ClientEffect) :
    Finishes sendBufferCalls readings left client after effects ↔ none = some (after, effects) := by
  apply iff_of_false
  · exact finishes_none failed after effects
  · simp

theorem finishes_append (readings : Stream' Timeval) (segmentBuffer : Ptr) (client after : Client)
    (effects : List ClientEffect) :
    Finishes sendBufferCalls readings (.starts (.append segmentBuffer)) client after effects ↔
      (sendBufferAppendSegment client segmentBuffer).map (·, []) = some (after, effects) := by
  unfold sendBufferAppendSegment
  cases held : read client.heap segmentBuffer with
  | none =>
      apply finishes_fail_iff
      simp [sendBufferTurn, held]
  | some cell =>
      simp only [Option.bind_eq_bind, Option.bind_some]
      by_cases empty : client.tcb.sendBufHead = none
      · rw [if_pos empty]
        cases written : write client.heap segmentBuffer
            ⟨⟨cell.val.seg.withSeqNum client.tcb.nextSeqNum, 0⟩, cell.next⟩ with
        | none =>
            apply finishes_fail_iff
            simp [sendBufferTurn, held, empty, written]
        | some heap =>
            rw [finishes_silent_iff (by simp only [sendBufferTurn, held, empty, written,
              Option.bind_eq_bind, Option.bind_some, if_pos]; rfl), finishes_end_iff rfl]
            rfl
      · rw [if_neg empty]
        cases written : write client.heap segmentBuffer
            ⟨⟨cell.val.seg.withSeqNum client.tcb.nextSeqNum, cell.val.sentTime⟩, cell.next⟩ with
        | none =>
            apply finishes_fail_iff
            simp [sendBufferTurn, held, empty, written]
        | some heap =>
            rw [finishes_silent_iff (by simp only [sendBufferTurn, held, if_neg empty, written,
              Option.bind_eq_bind, Option.bind_some]; rfl), Option.bind_some]
            cases last : read heap client.tcb.sendBufTail with
            | none =>
                apply finishes_fail_iff
                simp [sendBufferTurn, last]
            | some tail =>
                rw [Option.bind_some]
                cases linked : write heap client.tcb.sendBufTail ⟨tail.val, segmentBuffer⟩ with
                | none =>
                    apply finishes_fail_iff
                    simp [sendBufferTurn, last, linked]
                | some heap =>
                    rw [finishes_end_iff (by simp only [sendBufferTurn, last, linked,
                      Option.bind_eq_bind, Option.bind_some]; rfl)]
                    rfl

theorem countdown_first (readings : Stream' Timeval) (turns : Nat) :
    countdown readings (turns + 1) turns = readings.head := by
  rw [countdown, Nat.add_sub_cancel, Nat.sub_self, Stream'.head]

theorem countdown_later (readings : Stream' Timeval) {turns turn : Nat} (inside : turn < turns) :
    countdown readings (turns + 1) turn = countdown readings.tail turns turn := by
  rw [countdown, countdown, show turns + 1 - 1 - turn = turns - 1 - turn + 1 by omega]
  rfl

theorem sending_loop_clock {now other : Nat → Timeval} (turns : Nat)
    (same : ∀ turn < turns, now turn = other turn) (client : Client) :
    sendBufferSendingLoop now turns client = sendBufferSendingLoop other turns client := by
  induction turns generalizing client with
  | zero => rfl
  | succ turns ih =>
      have before := ih fun turn inside => same turn (Nat.lt_succ_of_lt inside)
      simp only [sendBufferSendingLoop, before, same turns (Nat.lt_succ_self turns)]

theorem timeout_loop_clock {now other : Nat → Timeval} (turns : Nat)
    (same : ∀ turn < turns, now turn = other turn) (client : Client) (buffer : Ptr) :
    sendBufferTimeoutLoop now turns client buffer =
      sendBufferTimeoutLoop other turns client buffer := by
  induction turns generalizing client buffer with
  | zero => rfl
  | succ turns ih =>
      have before := ih fun turn inside => same turn (Nat.lt_succ_of_lt inside)
      simp only [sendBufferTimeoutLoop, before, same turns (Nat.lt_succ_self turns)]

theorem finishes_sending (readings : Stream' Timeval) (turns : Nat) (client after : Client)
    (effects : List ClientEffect)
    (enough : gbnWindow ≤ client.tcb.unAckSegNum.toNat + turns) :
    Finishes sendBufferCalls readings (.starts .sending) client after effects ↔
      sendBufferSendingLoop (countdown readings turns) turns client = some (after, effects) := by
  induction turns generalizing readings client effects with
  | zero =>
      have full : ¬(client.tcb.unAckSegNum.toNat < gbnWindow ∧ client.tcb.sendBufunSent ≠ none) :=
        fun ready => by omega
      rw [finishes_end_iff (by simp only [sendBufferTurn, if_neg full]; rfl)]
      rfl
  | succ turns ih =>
      rw [sendBufferSendingLoop]
      by_cases ready : client.tcb.unAckSegNum.toNat < gbnWindow ∧ client.tcb.sendBufunSent ≠ none
      · rw [if_pos ready]
        cases held : read client.heap client.tcb.sendBufunSent with
        | none =>
            apply finishes_fail_iff
            simp only [sendBufferTurn, if_pos ready, held]
            rfl
        | some cell =>
            rw [Option.bind_eq_bind, Option.bind_some, countdown_first]
            cases written : write client.heap client.tcb.sendBufunSent
                ⟨⟨cell.val.seg, readings.head.stamp 1000⟩, cell.next⟩ with
            | none =>
                apply finishes_fail_iff
                simp only [sendBufferTurn, if_pos ready, held, Option.bind_eq_bind,
                  Option.bind_some, written]
                rfl
            | some heap =>
                have counted : (client.tcb.unAckSegNum + 1).toNat =
                    client.tcb.unAckSegNum.toNat + 1 := count_up rfl ready.1
                rw [finishes_more_iff (by simp only [sendBufferCalls, sendBufferTurn, if_pos ready,
                  held, Option.bind_eq_bind, Option.bind_some, written]; rfl)]
                simp only [Option.bind_eq_bind, Option.bind_some]
                rw [sending_loop_clock turns fun turn inside => countdown_later readings inside]
                constructor
                · rintro ⟨later, rest, rfl⟩
                  rw [ih _ _ _ (by rw [counted]; omega)] at rest
                  rw [rest]
                  rfl
                · intro whole
                  obtain ⟨⟨last, later⟩, loop, same⟩ := Option.bind_eq_some_iff.mp whole
                  cases same
                  exact ⟨later, (ih _ _ _ (by rw [counted]; omega)).mpr loop, rfl⟩
      · rw [if_neg ready, finishes_end_iff (by simp only [sendBufferTurn, if_neg ready]; rfl)]

theorem finishes_timeout (readings : Stream' Timeval) (turn turns : Nat) (client after : Client)
    (buffer : Ptr) (effects : List ClientEffect)
    (left : client.tcb.unAckSegNum.toNat = turn + turns) :
    Finishes sendBufferCalls readings (.timeoutLoop turn buffer) client after effects ↔
      sendBufferTimeoutLoop (countdown readings turns) turns client buffer =
        some (after, effects) := by
  induction turns generalizing readings turn client buffer effects with
  | zero =>
      have finished : ¬turn < client.tcb.unAckSegNum.toNat := by omega
      rw [finishes_end_iff (by simp only [sendBufferTurn, if_neg finished]; rfl)]
      rfl
  | succ turns ih =>
      have more : turn < client.tcb.unAckSegNum.toNat := by omega
      rw [sendBufferTimeoutLoop]
      cases held : read client.heap buffer with
      | none =>
          apply finishes_fail_iff
          simp only [sendBufferTurn, if_pos more, held]
          rfl
      | some cell =>
          rw [Option.bind_eq_bind, Option.bind_some, countdown_first]
          cases written : write client.heap buffer
              ⟨⟨cell.val.seg, readings.head.stamp 10000⟩, cell.next⟩ with
          | none =>
              apply finishes_fail_iff
              simp only [sendBufferTurn, if_pos more, held, Option.bind_eq_bind,
                Option.bind_some, written]
              rfl
          | some heap =>
              rw [finishes_more_iff (by simp only [sendBufferCalls, sendBufferTurn, if_pos more,
                held, Option.bind_eq_bind, Option.bind_some, written]; rfl)]
              simp only [Option.bind_eq_bind, Option.bind_some]
              rw [timeout_loop_clock turns fun turn inside => countdown_later readings inside]
              constructor
              · rintro ⟨later, rest, rfl⟩
                rw [ih readings.tail (turn + 1) ⟨heap, client.tcb⟩ _ _ (by
                  rw [left]
                  omega)] at rest
                rw [rest]
                rfl
              · intro whole
                obtain ⟨⟨last, later⟩, loop, same⟩ := Option.bind_eq_some_iff.mp whole
                cases same
                exact ⟨later, (ih readings.tail (turn + 1) ⟨heap, client.tcb⟩ _ _ (by
                  rw [left]
                  omega)).mpr loop, rfl⟩

def liveCells (heap : Heap SegBuf) : Nat := heap.countP Option.isSome

theorem live_cells_le (heap : Heap SegBuf) : liveCells heap ≤ heap.length := List.countP_le_length

theorem free_live_cells {heap after : Heap SegBuf} {ptr : Ptr}
    (freed : free heap ptr = some after) : liveCells after + 1 = liveCells heap := by
  cases ptr with
  | none => cases freed
  | some address =>
      cases held : read heap (some address) with
      | none => simp [free, store, held] at freed
      | some cell =>
          rw [free, store_of_read held] at freed
          cases freed
          have inside := address_lt held
          have live : heap[address] = some cell := by
            simpa [LinkedHeap.read, List.getElem?_eq_getElem inside] using held
          have anyLive : 0 < heap.countP Option.isSome :=
            List.countP_pos_iff.mpr ⟨_, List.getElem_mem inside, by rw [live]; rfl⟩
          rw [liveCells, List.countP_set inside, live]
          simp only [Option.isSome_some, Option.isSome_none, if_true, Bool.false_eq_true, if_false]
          unfold liveCells
          omega

theorem finishes_recv_ack (readings : Stream' Timeval) (ackSeqnum : UInt32) (turns : Nat)
    (client after : Client) (effects : List ClientEffect)
    (enough : liveCells client.heap < turns) :
    Finishes sendBufferCalls readings (.recvAckLoop ackSeqnum) client after effects ↔
      (sendBufferRecvAckLoop ackSeqnum turns client).map (·, []) = some (after, effects) := by
  induction turns generalizing readings client with
  | zero => cases enough
  | succ turns ih =>
      rw [sendBufferRecvAckLoop]
      by_cases empty : client.tcb.sendBufHead = none
      · rw [if_pos empty, finishes_end_iff (by simp only [sendBufferTurn, if_pos empty]; rfl)]
        rfl
      · rw [if_neg empty]
        cases held : read client.heap client.tcb.sendBufHead with
        | none =>
            apply finishes_fail_iff
            simp only [sendBufferTurn, if_neg empty, held]
            rfl
        | some cell =>
            rw [Option.bind_eq_bind, Option.bind_some]
            by_cases covered : cell.val.seg.header.seqNum < ackSeqnum
            · rw [if_pos covered]
              cases freed : free client.heap client.tcb.sendBufHead with
              | none =>
                  apply finishes_fail_iff
                  simp only [sendBufferTurn, if_neg empty, held,
                    Option.bind_eq_bind, Option.bind_some, if_pos covered, freed]
                  rfl
              | some heap =>
                  have fewer := free_live_cells freed
                  rw [finishes_silent_iff (by simp only [sendBufferTurn, if_neg empty, held,
                    Option.bind_eq_bind, Option.bind_some, if_pos covered, freed]; rfl)]
                  exact ih readings.tail _ (by
                    show liveCells heap < turns
                    omega)
            · rw [if_neg covered, finishes_end_iff (by simp only [sendBufferTurn, if_neg empty,
                held, Option.bind_eq_bind, Option.bind_some, if_neg covered]; rfl)]
              rfl

/-- What `sendBuffer_destroy` does behind its loop. -/
def destroyRest (tcb : ClientTcb) (heap : Heap SegBuf) : Option (Client × List ClientEffect) :=
  (if tcb.sendBufTail = none then some heap else free heap tcb.sendBufTail).map fun heap =>
    (⟨heap, { tcb with
      sendBufunSent := none
      sendBufHead := none
      sendBufTail := none
      unAckSegNum := 0 }⟩, [])

theorem finishes_destroy_end (readings : Stream' Timeval) (heap : Heap SegBuf) (tcb : ClientTcb)
    (after : Client) (effects : List ClientEffect) :
    Finishes sendBufferCalls readings .destroyEnd ⟨heap, tcb⟩ after effects ↔
      destroyRest tcb heap = some (after, effects) := by
  unfold destroyRest
  by_cases empty : tcb.sendBufTail = none
  · rw [if_pos empty, finishes_end_iff (by simp only [sendBufferTurn, if_pos empty]; rfl)]
    rfl
  · rw [if_neg empty]
    cases freed : free heap tcb.sendBufTail with
    | none =>
        apply finishes_fail_iff
        simp only [sendBufferTurn, if_neg empty, freed]
        rfl
    | some rest =>
        rw [finishes_end_iff (by simp only [sendBufferTurn, if_neg empty, freed]; rfl)]
        rfl

theorem finishes_destroy_loop (readings : Stream' Timeval) (turns : Nat) (heap : Heap SegBuf)
    (tcb : ClientTcb) (bufer : Ptr) (after : Client) (effects : List ClientEffect)
    (enough : liveCells heap < turns) :
    Finishes sendBufferCalls readings (.destroyLoop bufer) ⟨heap, tcb⟩ after effects ↔
      (sendBufferDestroyLoop tcb.sendBufTail turns heap bufer).bind (destroyRest tcb) =
        some (after, effects) := by
  induction turns generalizing readings heap bufer with
  | zero => cases enough
  | succ turns ih =>
      rw [sendBufferDestroyLoop]
      by_cases last : bufer = tcb.sendBufTail
      · rw [if_pos last, finishes_silent_iff (by simp only [sendBufferTurn, if_pos last]; rfl),
          Option.bind_some]
        exact finishes_destroy_end readings.tail heap tcb after effects
      · rw [if_neg last]
        cases held : read heap bufer with
        | none =>
            apply finishes_fail_iff
            simp only [sendBufferTurn, if_neg last, held]
            rfl
        | some cell =>
            rw [Option.bind_eq_bind, Option.bind_some]
            cases freed : free heap bufer with
            | none =>
                apply finishes_fail_iff
                simp only [sendBufferTurn, if_neg last, held, Option.bind_eq_bind,
                  Option.bind_some, freed]
                rfl
            | some rest =>
                have fewer := free_live_cells freed
                rw [finishes_silent_iff (by simp only [sendBufferTurn, if_neg last, held,
                  Option.bind_eq_bind, Option.bind_some, freed]; rfl)]
                exact ih readings.tail rest cell.next (by omega)

theorem destroy_eq (client : Client) : (sendBufferDestroy client).map (·, []) =
    (sendBufferDestroyLoop client.tcb.sendBufTail (client.heap.length + 1) client.heap
      client.tcb.sendBufHead).bind (destroyRest client.tcb) := by
  unfold sendBufferDestroy destroyRest
  cases looped : sendBufferDestroyLoop client.tcb.sendBufTail (client.heap.length + 1) client.heap
      client.tcb.sendBufHead with
  | none => simp only [looped, Option.bind_eq_bind, Option.bind_none, Option.map_none]
  | some heap =>
      simp only [looped, Option.bind_eq_bind, Option.bind_some]
      by_cases empty : client.tcb.sendBufTail = none
      · rw [if_pos empty, if_pos empty]
        rfl
      · rw [if_neg empty, if_neg empty]
        cases free heap client.tcb.sendBufTail with
        | none => rfl
        | some rest => rfl

theorem send_buffer_atomic : Atomic sendBufferCalls SendBufferCall.whole where
  commutes := by
    intro outer input left before next after effects turned
    exact turn_outside outer turned
  whole_iff := by
    intro readings call before after effects
    cases call with
    | append segmentBuffer => exact finishes_append readings segmentBuffer before after effects
    | sending =>
        exact finishes_sending readings gbnWindow before after effects (Nat.le_add_left ..)
    | timeout =>
        apply (finishes_silent_iff rfl after effects).trans
        exact finishes_timeout readings.tail 0 _ before after _ effects (Nat.zero_add _).symm
    | recvAck ackSeqnum =>
        rw [SendBufferCall.whole, sendBufferRecvAck]
        cases held : read before.heap before.tcb.sendBufTail with
        | none =>
            apply finishes_fail_iff
            simp only [sendBufferTurn, held]
            rfl
        | some tail =>
            apply (finishes_silent_iff (by simp only [sendBufferTurn, held]; rfl) after
              effects).trans
            exact finishes_recv_ack readings.tail ackSeqnum _ ⟨before.heap, _⟩ after effects
              (Nat.lt_succ_of_le (live_cells_le before.heap))
    | destroy =>
        apply (finishes_silent_iff rfl after effects).trans
        rw [SendBufferCall.whole, destroy_eq]
        exact finishes_destroy_loop readings.tail _ before.heap before.tcb _ after effects
          (Nat.lt_succ_of_le (live_cells_le before.heap))

variable {Thread : Type} [DecidableEq Thread]

abbrev SendBufferThreads (Thread : Type) := Threads Thread Client SendBufferLocal ClientEffect

abbrev SendBufferEvent (Thread : Type) := LockEvent Thread SendBufferCall SendBufferOuter Timeval

def sendBufferThreads (client : Client) : SendBufferThreads Thread := ⟨client, none, []⟩

def wholeCalls (client : Client)
    (serial : List (SerialEvent Thread SendBufferCall SendBufferOuter Timeval)) :
    Option (Client × List ClientEffect) :=
  serial.foldlM (serialStep sendBufferCalls SendBufferCall.whole) (client, [])

/-- Whatever order the turns of the threads come in, the connection is as after whole calls of
the functions one after the other, in the order in which they locked the mutex. A function
that holds it when it would be defined as a whole comes to its end, as the whole does. -/
theorem buffer_calls_serialise (start : Client) {events : List (SendBufferEvent Thread)}
    {last : SendBufferThreads Thread}
    (run : events.foldlM (step sendBufferCalls) (sendBufferThreads start) = some last) :
    ∃ serial client effects, wholeCalls start serial = some (client, effects) ∧
      serial.filterMap SerialEvent.outside? = outsides events ∧
      ((last = ⟨client, none, effects⟩ ∧
          entered events = serial.filterMap SerialEvent.entered?) ∨
        ∃ thread call, last.holder.map Prod.fst = some thread ∧
          entered events = serial.filterMap SerialEvent.entered? ++ [(thread, call)] ∧
          ((∀ readings, (call.whole readings client).isSome) → ∀ readings : Stream' Timeval,
            ∃ turns after sends clock,
              ((readings.take turns).map (LockEvent.turns thread)).foldlM (step sendBufferCalls)
                last = some ⟨after, none, effects ++ sends⟩ ∧
              call.whole clock client = some (after, sends))) := by
  obtain ⟨serial, client, effects, whole, outer, stands⟩ := run_serialises send_buffer_atomic run
  refine ⟨serial, client, effects, whole, outer, ?_⟩
  cases stands with
  | free idle same put all =>
      refine .inl ⟨?_, all⟩
      cases last
      cases idle
      cases same
      cases put
      rfl
  | inside thread call left inputs first holds reached put all =>
      refine .inr ⟨thread, call, congrArg (Option.map Prod.fst) holds, all,
        fun defined readings => ?_⟩
      obtain ⟨turns, after, later, finished, called⟩ :=
        inside_finishes send_buffer_atomic holds reached readings (defined _)
      rw [put, List.append_assoc] at finished
      exact ⟨turns, after, first ++ later, inputs ++ₛ readings, finished, called⟩

def twoThreads : List (SendBufferEvent Bool) :=
  [.outside true (.malloc oneByteSegment), .enters true (.append (some 0)), .turns true ⟨0, 0⟩,
    .outside false (.malloc oneByteSegment), .turns true ⟨0, 0⟩, .enters false .sending,
    .turns false ⟨0, 0⟩, .turns false ⟨0, 0⟩]

theorem two_threads_serialise : ∃ serial client effects,
    wholeCalls establishedClient serial = some (client, effects) ∧
      entered twoThreads = serial.filterMap SerialEvent.entered? ∧
      twoThreads.foldlM (step sendBufferCalls) (sendBufferThreads establishedClient) =
        some ⟨client, none, effects⟩ := by
  obtain ⟨last, run, idle⟩ : ∃ last, twoThreads.foldlM (step sendBufferCalls)
      (sendBufferThreads establishedClient) = some last ∧ last.holder = none := ⟨_, rfl, rfl⟩
  obtain ⟨serial, client, effects, whole, _, state⟩ := buffer_calls_serialise _ run
  rcases state with ⟨rfl, all⟩ | ⟨thread, call, held, _⟩
  · exact ⟨serial, client, effects, whole, all, run⟩
  · rw [idle] at held
    cases held

end MiniOverlay
