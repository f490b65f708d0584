import MiniOverlay.ClientStateMachine
import MiniOverlay.DataPhase

/-!
# The representation of the send buffer

Appending, sending, sending again and handling acknowledgements keep the pointers
and the counters of the send buffer in step. The list holds the segments that
were queued last, numbered by the bytes queued before them; an acknowledgement
that reaches no further than the first unsent segment removes sent segments only.
-/

namespace MiniOverlay

open LinkedHeap FixedByteCodec

set_option autoImplicit false

/-- Every segment is not empty and starts where the one before it ends, as natural
numbers. -/
def NumberedFrom : Nat → List Seg → Prop
  | _, [] => True
  | start, seg :: segs =>
      seg.header.seqNum.toNat = start ∧ 1 ≤ seg.header.length.toNat ∧
        NumberedFrom (start + seg.header.length.toNat) segs

theorem numbered_from_append (start : Nat) (segs more : List Seg) :
    NumberedFrom start (segs ++ more) ↔
      NumberedFrom start segs ∧ NumberedFrom (start + byteLength segs) more := by
  induction segs generalizing start with
  | nil => simp [NumberedFrom, byteLength]
  | cons seg segs ih => simp [NumberedFrom, byteLength, ih, and_assoc, Nat.add_assoc]

theorem numbered_from_ge {start : Nat} {segs : List Seg} (numbered : NumberedFrom start segs) :
    ∀ seg ∈ segs, start ≤ seg.header.seqNum.toNat := by
  induction segs generalizing start with
  | nil => simp
  | cons first segs ih =>
      obtain ⟨here, _, later⟩ := numbered
      intro seg member
      rcases List.mem_cons.mp member with rfl | behind
      · exact Nat.le_of_eq here.symm
      · have bound := ih later seg behind
        omega

theorem numbered_from_lt {start : Nat} {segs : List Seg} (numbered : NumberedFrom start segs) :
    ∀ seg ∈ segs, seg.header.seqNum.toNat < start + byteLength segs := by
  induction segs generalizing start with
  | nil => simp
  | cons first segs ih =>
      obtain ⟨here, nonempty, later⟩ := numbered
      intro seg member
      rw [byteLength]
      rcases List.mem_cons.mp member with rfl | behind
      · omega
      · have bound := ih later seg behind
        omega

theorem covered_prefix {start : Nat} {segs : List Seg} (numbered : NumberedFrom start segs)
    (ackSeqnum : UInt32) :
    ∃ gone kept, segs = gone ++ kept ∧ (∀ seg ∈ gone, seg.header.seqNum < ackSeqnum) ∧
      ∀ seg ∈ kept, ¬ seg.header.seqNum < ackSeqnum := by
  induction segs generalizing start with
  | nil => exact ⟨[], [], rfl, by simp, by simp⟩
  | cons first segs ih =>
      obtain ⟨here, _, later⟩ := numbered
      by_cases covers : first.header.seqNum < ackSeqnum
      · obtain ⟨gone, kept, split, covered, stops⟩ := ih later
        refine ⟨first :: gone, kept, by rw [split]; rfl, ?_, stops⟩
        intro seg member
        rcases List.mem_cons.mp member with rfl | behind
        · exact covers
        · exact covered seg behind
      · refine ⟨[], first :: segs, rfl, by simp, ?_⟩
        intro seg member
        rcases List.mem_cons.mp member with rfl | behind
        · exact covers
        · have bound := numbered_from_ge later seg behind
          rw [UInt32.lt_iff_toNat_lt] at covers ⊢
          omega

/-- An operation on the send buffer; a DATAACK comes through the segment handler. -/
inductive BufferEvent where
  | append (seg : Seg)
  | sending (now : Nat → Timeval)
  | timeout (now : Nat → Timeval)
  | dataack (now : Nat → Timeval) (sourceNodeID : Int32) (segmentBuffer : Seg)

def Client.bufferStep (client : Client) : BufferEvent → Option Client
  | .append seg => queueSegment client seg
  | .sending now => (sendBufferSending now client).map Prod.fst
  | .timeout now => (sendBufferTimeout now client).map Prod.fst
  | .dataack now sourceNodeID segmentBuffer =>
      (clientSeghandler now client sourceNodeID segmentBuffer).map Prod.fst

/-- The sequence number of the segment at `sendBufunSent`, or else the next one. -/
def firstUnsentSeqNum (client : Client) : UInt32 :=
  match read client.heap client.tcb.sendBufunSent with
  | some cell => cell.val.seg.header.seqNum
  | none => client.tcb.nextSeqNum

structure AcknowledgesSent (client : Client) (seg : Seg) : Prop where
  dataack : seg.header.type = SegType.dataack
  sent : seg.header.ackNum ≤ firstUnsentSeqNum client

def BufferEvent.Allowed (client : Client) : BufferEvent → Prop
  | .append seg => 1 ≤ seg.header.length.toNat
  | .sending _ => True
  | .timeout _ => True
  | .dataack _ _ segmentBuffer => AcknowledgesSent client segmentBuffer

def BufferEvent.bytes : BufferEvent → Nat
  | .append seg => seg.header.length.toNat
  | .sending _ => 0
  | .timeout _ => 0
  | .dataack _ _ _ => 0

structure FreshBuffer (table : ClientTcb) : Prop where
  head : table.sendBufHead = none
  unSent : table.sendBufunSent = none
  tail : table.sendBufTail = none
  unAck : table.unAckSegNum = 0
  next : table.nextSeqNum = 0

/-- The clients that operations lead to, with the bytes appended on the way. -/
inductive BufferReaches (start : Client) : Client → Nat → Prop where
  | start : BufferReaches start start 0
  | step {client after : Client} {bytes : Nat} (event : BufferEvent)
      (before : BufferReaches start client bytes) (allowed : event.Allowed client)
      (stepped : client.bufferStep event = some after) :
      BufferReaches start after (bytes + event.bytes)

def Numbers (client : Client) (sent unsent : List Seg) (bytes : Nat) : Prop :=
  Holds client sent unsent ∧ client.tcb.nextSeqNum.toNat = bytes ∧
    ∃ start, NumberedFrom start (sent ++ unsent) ∧ start + byteLength (sent ++ unsent) = bytes

theorem first_unsent_seq {client : Client} {sent unsent : List Seg}
    (holds : Holds client sent unsent) :
    firstUnsentSeqNum client =
      (unsent.head?.map fun seg => seg.header.seqNum).getD client.tcb.nextSeqNum := by
  obtain ⟨sentCells, unsentCells, buffer, rfl, rfl⟩ := holds
  rw [firstUnsentSeqNum, buffer.unSent]
  cases unsentCells with
  | nil => rfl
  | cons entry rest =>
      have held := owns_read buffer.owns
      have first : firstPtr (entry :: rest) = some entry.1 := rfl
      rw [first, held]
      rfl

theorem unsent_uncovered {client : Client} {sent unsent : List Seg} {bytes : Nat}
    (numbers : Numbers client sent unsent bytes) {ackSeqnum : UInt32}
    (bounded : ackSeqnum ≤ firstUnsentSeqNum client) :
    ∀ seg ∈ unsent, ¬ seg.header.seqNum < ackSeqnum := by
  obtain ⟨holds, _, start, numbered, _⟩ := numbers
  rw [first_unsent_seq holds] at bounded
  cases unsent with
  | nil => simp
  | cons first rest =>
      have behind := ((numbered_from_append _ _ _).mp numbered).2
      have least := numbered_from_ge behind
      have here := behind.1
      rw [List.head?_cons, Option.map_some, Option.getD_some, UInt32.le_iff_toNat_le] at bounded
      intro seg member
      have bound := least seg member
      rw [UInt32.lt_iff_toNat_lt]
      omega

theorem append_numbers {client : Client} {sent unsent : List Seg} {bytes : Nat}
    (numbers : Numbers client sent unsent bytes) (seg : Seg)
    (nonempty : 1 ≤ seg.header.length.toNat)
    (room : bytes + seg.header.length.toNat < UInt32.size) :
    ∃ after queued, queueSegment client seg = some after ∧
      Numbers after sent (unsent ++ [queued]) (bytes + seg.header.length.toNat) := by
  obtain ⟨holds, next, start, numbered, total⟩ := numbers
  obtain ⟨after, appended, afterHolds, afterNext, _⟩ := queue_holds client sent unsent seg holds
  have sum : (client.tcb.nextSeqNum + seg.header.length.toUInt32).toNat =
      bytes + seg.header.length.toNat := by
    rw [UInt32.toNat_add, UInt16.toNat_toUInt32, next]
    exact Nat.mod_eq_of_lt room
  refine ⟨after, _, appended, afterHolds, by rw [afterNext, sum], start, ?_, ?_⟩
  · rw [← List.append_assoc, numbered_from_append, total]
    exact ⟨numbered, next, nonempty, trivial⟩
  · rw [← List.append_assoc, byte_length_append, ← Nat.add_assoc, total]
    rfl

theorem sending_numbers (now : Nat → Timeval) {client : Client} {sent unsent : List Seg}
    {bytes : Nat} (numbers : Numbers client sent unsent bytes) :
    ∃ after effects moved rest, sendBufferSending now client = some (after, effects) ∧
      unsent = moved ++ rest ∧ Numbers after (sent ++ moved) rest bytes ∧
      (rest = [] ∨ gbnWindow ≤ (sent ++ moved).length) := by
  obtain ⟨holds, next, start, numbered, total⟩ := numbers
  obtain ⟨after, effects, moved, rest, run, rfl, afterHolds, _, _, seq, stop⟩ :=
    sending_holds now client sent unsent holds
  have same : sent ++ moved ++ rest = sent ++ (moved ++ rest) := List.append_assoc _ _ _
  refine ⟨after, effects, moved, rest, run, rfl, ⟨afterHolds, by rw [seq, next], start, ?_, ?_⟩,
    stop⟩
  · rw [same]
    exact numbered
  · rw [same]
    exact total

theorem timeout_numbers (now : Nat → Timeval) {client : Client} {sent unsent : List Seg}
    {bytes : Nat} (numbers : Numbers client sent unsent bytes) :
    ∃ after effects, sendBufferTimeout now client = some (after, effects) ∧
      Numbers after sent unsent bytes := by
  obtain ⟨holds, next, rest⟩ := numbers
  obtain ⟨after, effects, run, afterHolds, _, sameTcb⟩ := timeout_holds now client sent unsent holds
  exact ⟨after, effects, run, afterHolds, by rw [sameTcb, next], rest⟩

theorem recv_ack_numbers {client : Client} {sent unsent : List Seg} {bytes : Nat}
    (numbers : Numbers client sent unsent bytes) (filled : sent ++ unsent ≠ [])
    {ackSeqnum : UInt32} (bounded : ackSeqnum ≤ firstUnsentSeqNum client) :
    ∃ after gone kept, sendBufferRecvAck client ackSeqnum = some after ∧ sent = gone ++ kept ∧
      Numbers after kept unsent bytes := by
  have uncovered := unsent_uncovered numbers bounded
  obtain ⟨holds, next, start, numbered, total⟩ := numbers
  obtain ⟨gone, kept, rfl, covered, stops⟩ :=
    covered_prefix ((numbered_from_append _ _ _).mp numbered).1 ackSeqnum
  obtain ⟨after, run, afterHolds, _, seq⟩ := recv_ack_holds client gone kept unsent ackSeqnum holds
    filled covered (by
      intro seg member
      rcases List.mem_append.mp member with isSent | isUnsent
      · exact stops seg isSent
      · exact uncovered seg isUnsent)
  rw [List.append_assoc, numbered_from_append] at numbered
  rw [List.append_assoc, byte_length_append, ← Nat.add_assoc] at total
  exact ⟨after, gone, kept, run, rfl, afterHolds, by rw [seq, next], _, numbered.2, total⟩

theorem dataack_cases (now : Nat → Timeval) {client after : Client} (sourceNodeID : Int32)
    (seg : Seg) {effects : List ClientEffect} (dataack : seg.header.type = SegType.dataack)
    (handled : clientSeghandler now client sourceNodeID seg = some (after, effects)) :
    after = client ∧ effects = [] ∨
      client.tcb.sendBufHead ≠ none ∧ ∃ acknowledged,
        sendBufferRecvAck client seg.header.ackNum = some acknowledged ∧
          sendBufferSending now acknowledged = some (after, effects) := by
  cases client_handles handled with
  | nothing same quiet => exact Or.inl ⟨same, quiet⟩
  | acknowledges middle _ _ _ _ held _ acknowledged sent =>
      refine Or.inr ⟨?_, middle, acknowledged, sent⟩
      intro empty
      rw [empty] at held
      cases held
  | connects _ synack _ _ => exact absurd (dataack.symm.trans synack) (by decide)
  | closes _ finack _ _ => exact absurd (dataack.symm.trans finack) (by decide)

theorem dataack_handled {client : Client} (incoming : Incoming) {entry : Nat × SegBuf}
    {rest : List (Nat × SegBuf)} (connected : client.tcb.state = .connected)
    (server : client.tcb.FromServer incoming.sourceNodeID incoming.segmentBuffer)
    (dataack : incoming.segmentBuffer.header.type = SegType.dataack)
    (owns : Owns client.heap client.tcb.sendBufHead (entry :: rest)) :
    clientSeghandler incoming.now client incoming.sourceNodeID incoming.segmentBuffer =
      if entry.2.seg.header.seqNum ≤ incoming.segmentBuffer.header.ackNum then
        (sendBufferRecvAck client incoming.segmentBuffer.header.ackNum).bind
          (sendBufferSending incoming.now)
      else some (client, []) := by
  obtain ⟨head, held⟩ := owns_head owns
  simp only [clientSeghandler, connected, server.1, server.2, dataack, and_self, if_true, head,
    reduceCtorEq, if_false, held, Option.bind_eq_bind, Option.bind_some, ge_iff_le]

theorem from_server_of_ends {client other : Client} {sourceNodeID : Int32} {seg : Seg}
    (ends : other.tcb.ends = client.tcb.ends) (server : client.tcb.FromServer sourceNodeID seg) :
    other.tcb.FromServer sourceNodeID seg := by
  have node : other.tcb.svrNodeID = client.tcb.svrNodeID := congrArg ClientEnds.svrNodeID ends
  have port : other.tcb.svrPortNum = client.tcb.svrPortNum := congrArg ClientEnds.svrPortNum ends
  rw [ClientTcb.FromServer, node, port]
  exact server

/-- The list and numbers of a buffer into which `bytes` bytes were appended. -/
def KeepsNumbers (client : Client) (bytes : Nat) : Prop :=
  ∃ sent unsent, Numbers client sent unsent bytes

theorem numbers_filled {client : Client} {sent unsent : List Seg} {bytes : Nat}
    (numbers : Numbers client sent unsent bytes) (head : client.tcb.sendBufHead ≠ none) :
    sent ++ unsent ≠ [] := by
  intro empty
  rcases holds_head numbers.1 with ⟨none, _⟩ | ⟨_, cell, rest, _, cells⟩
  · exact head none
  · rw [empty] at cells
    cases cells

theorem fresh_numbers {client : Client} (fresh : FreshBuffer client.tcb) :
    Numbers client [] [] 0 := by
  refine ⟨holds_empty client fresh.head fresh.unSent fresh.tail fresh.unAck, ?_, 0, trivial, rfl⟩
  rw [fresh.next]
  rfl

theorem buffer_step_numbers {client after : Client} {bytes : Nat} {event : BufferEvent}
    (keeps : KeepsNumbers client bytes) (allowed : event.Allowed client)
    (room : bytes + event.bytes < UInt32.size) (stepped : client.bufferStep event = some after) :
    KeepsNumbers after (bytes + event.bytes) := by
  obtain ⟨sent, unsent, numbers⟩ := keeps
  cases event with
  | append seg =>
      obtain ⟨next, queued, run, nextNumbers⟩ := append_numbers numbers seg allowed room
      rw [Client.bufferStep, run] at stepped
      cases stepped
      exact ⟨_, _, nextNumbers⟩
  | sending now =>
      obtain ⟨next, effects, moved, rest, run, _, nextNumbers, _⟩ := sending_numbers now numbers
      rw [Client.bufferStep, run] at stepped
      cases stepped
      exact ⟨_, _, nextNumbers⟩
  | timeout now =>
      obtain ⟨next, effects, run, nextNumbers⟩ := timeout_numbers now numbers
      rw [Client.bufferStep, run] at stepped
      cases stepped
      exact ⟨_, _, nextNumbers⟩
  | dataack now sourceNodeID seg =>
      obtain ⟨⟨next, effects⟩, handled, same⟩ := Option.map_eq_some_iff.mp stepped
      cases same
      rcases dataack_cases now sourceNodeID seg allowed.dataack handled with
        ⟨rfl, _⟩ | ⟨head, acknowledged, run, sending⟩
      · exact ⟨_, _, numbers⟩
      · obtain ⟨shrunk, gone, kept, run', _, shrunkNumbers⟩ :=
          recv_ack_numbers numbers (numbers_filled numbers head) allowed.sent
        obtain rfl := Option.some.inj (run.symm.trans run')
        obtain ⟨last, effects', moved, rest, sending', _, lastNumbers, _⟩ :=
          sending_numbers now shrunkNumbers
        rw [sending] at sending'
        cases sending'
        exact ⟨_, _, lastNumbers⟩

theorem reaches_numbers {start client : Client} {bytes : Nat} (fresh : FreshBuffer start.tcb)
    (reaches : BufferReaches start client bytes) (fewer : bytes < UInt32.size) :
    KeepsNumbers client bytes := by
  induction reaches with
  | start => exact ⟨_, _, fresh_numbers fresh⟩
  | step event before allowed stepped ih =>
      exact buffer_step_numbers (ih (Nat.lt_of_le_of_lt (Nat.le_add_right _ _) fewer)) allowed fewer
        stepped

/-- The pointers, counters and numbers of a send buffer with these nodes. -/
structure BufferInvariant (client : Client) (nodes : List (Nat × SegBuf)) : Prop where
  list : Owns client.heap client.tcb.sendBufHead nodes
  empty : client.tcb.sendBufHead = none ↔ client.tcb.sendBufTail = none
  tail : client.tcb.sendBufTail = lastPtr nodes
  unSent : client.tcb.sendBufunSent = none ∨
    ∃ node ∈ nodes, client.tcb.sendBufunSent = some node.1
  unAck : client.tcb.unAckSegNum.toNat =
    (nodes.takeWhile fun node => decide (some node.1 ≠ client.tcb.sendBufunSent)).length
  window : client.tcb.unAckSegNum.toNat ≤ gbnWindow
  numbered : (entrySegs nodes).IsChain fun seg next =>
    next.header.seqNum.toNat = seg.header.seqNum.toNat + seg.header.length.toNat
  next : ∀ last ∈ (entrySegs nodes).getLast?,
    client.tcb.nextSeqNum.toNat = last.header.seqNum.toNat + last.header.length.toNat
  timeout : ∀ now, ∃ after effects, sendBufferTimeout now client = some (after, effects) ∧
    sentSegs effects = (entrySegs (nodes.take client.tcb.unAckSegNum.toNat)).map
      (SendsegArg.mk client.tcb.svrNodeID.toInt32)

theorem numbered_from_chain {start : Nat} {segs : List Seg} (numbered : NumberedFrom start segs) :
    segs.IsChain fun seg next =>
      next.header.seqNum.toNat = seg.header.seqNum.toNat + seg.header.length.toNat := by
  induction segs generalizing start with
  | nil => exact .nil
  | cons seg segs ih =>
      obtain ⟨here, _, later⟩ := numbered
      have tail := ih later
      cases segs with
      | nil => exact .singleton _
      | cons next segs => exact .cons_cons (by rw [later.1, here]) tail

theorem numbered_from_last {start : Nat} {segs : List Seg} (numbered : NumberedFrom start segs) :
    ∀ last ∈ segs.getLast?,
      start + byteLength segs = last.header.seqNum.toNat + last.header.length.toNat := by
  intro last member
  rcases List.eq_nil_or_concat' segs with rfl | ⟨front, final, rfl⟩
  · cases member
  · rw [List.getLast?_concat] at member
    obtain rfl := Option.some.inj member
    have here := ((numbered_from_append _ _ _).mp numbered).2.1
    rw [byte_length_append, here]
    simp [byteLength, Nat.add_assoc]

theorem head_none_iff_tail {client : Client} {sent unsent : List (Nat × SegBuf)}
    (buffer : SendBuffer client sent unsent) :
    client.tcb.sendBufHead = none ↔ client.tcb.sendBufTail = none := by
  rw [chain_first buffer.owns.chain, buffer.tail, firstPtr, lastPtr, Option.map_eq_none_iff,
    Option.map_eq_none_iff, List.head?_eq_none_iff, List.getLast?_eq_none_iff]

theorem numbers_invariant {client : Client} {sent unsent : List Seg} {bytes : Nat}
    (numbers : Numbers client sent unsent bytes) : ∃ nodes, BufferInvariant client nodes := by
  have timeout (now : Nat → Timeval) := timeout_holds now client sent unsent numbers.1
  obtain ⟨⟨sentCells, unsentCells, buffer, rfl, rfl⟩, next, start, numbered, total⟩ := numbers
  have segs : entrySegs (sentCells ++ unsentCells) =
      entrySegs sentCells ++ entrySegs unsentCells := List.map_append
  refine ⟨sentCells ++ unsentCells, buffer.owns, head_none_iff_tail buffer, buffer.tail, ?_, ?_, ?_,
    ?_, ?_, ?_⟩
  · rw [buffer.unSent]
    cases unsentCells with
    | nil => exact Or.inl rfl
    | cons entry rest => exact Or.inr ⟨entry, by simp, rfl⟩
  · rw [buffer.unAck, buffer.unSent, take_while_before buffer.owns.nodup]
  · rw [buffer.unAck]
    exact buffer.window
  · rw [segs]
    exact numbered_from_chain numbered
  · rw [segs]
    intro last member
    rw [next, ← total]
    exact numbered_from_last numbered last member
  · intro now
    obtain ⟨after, effects, run, _, sends, _⟩ := timeout now
    refine ⟨after, effects, run, ?_⟩
    rw [buffer.unAck, List.take_left]
    exact sends

def BufferEvent.Quiet (client : Client) : BufferEvent → Prop
  | .append _ => True
  | .sending _ => True
  | .timeout _ => True
  | .dataack _ sourceNodeID segmentBuffer =>
      ¬ PrintsEmptyBuffer client.tcb sourceNodeID segmentBuffer

theorem dataack_defined (now : Nat → Timeval) {client : Client} {sent unsent : List Seg}
    {bytes : Nat} (numbers : Numbers client sent unsent bytes) (sourceNodeID : Int32) (seg : Seg)
    (acknowledges : AcknowledgesSent client seg)
    (quiet : ¬ PrintsEmptyBuffer client.tcb sourceNodeID seg) :
    ∃ result, clientSeghandler now client sourceNodeID seg = some result := by
  by_cases connected : client.tcb.state = .connected
  · apply (connected_defined_iff now sourceNodeID seg connected (holds_readable numbers.1)).mpr
    refine ⟨quiet, fun cell _ _ held _ => ?_⟩
    have head : client.tcb.sendBufHead ≠ none := by
      intro empty
      rw [empty] at held
      cases held
    obtain ⟨shrunk, _, _, run, _, shrunkNumbers⟩ :=
      recv_ack_numbers numbers (numbers_filled numbers head) acknowledges.sent
    obtain ⟨last, effects, _, _, sending, _⟩ := sending_numbers now shrunkNumbers
    rw [run, Option.bind_some]
    exact ⟨_, sending⟩
  · exact unconnected_defined now sourceNodeID seg connected

theorem buffer_step_defined {client : Client} {bytes : Nat} (keeps : KeepsNumbers client bytes)
    (event : BufferEvent) (allowed : event.Allowed client) (quiet : event.Quiet client)
    (room : bytes + event.bytes < UInt32.size) :
    ∃ after, client.bufferStep event = some after := by
  obtain ⟨sent, unsent, numbers⟩ := keeps
  cases event with
  | append seg =>
      obtain ⟨next, queued, run, _⟩ := append_numbers numbers seg allowed room
      exact ⟨next, run⟩
  | sending now =>
      obtain ⟨next, effects, _, _, run, _⟩ := sending_numbers now numbers
      exact ⟨next, by rw [Client.bufferStep, run]; rfl⟩
  | timeout now =>
      obtain ⟨next, effects, run, _⟩ := timeout_numbers now numbers
      exact ⟨next, by rw [Client.bufferStep, run]; rfl⟩
  | dataack now sourceNodeID seg =>
      obtain ⟨result, handled⟩ := dataack_defined now numbers sourceNodeID seg allowed quiet
      exact ⟨result.1, by rw [Client.bufferStep, handled]; rfl⟩

/-- In every state that the operations reach, with fewer than 2^32 bytes appended,
the pointers and counters of the send buffer belong together, and no operation
follows a null or freed pointer. -/
theorem send_buffer_invariant (start client : Client) (bytes : Nat) (fresh : FreshBuffer start.tcb)
    (reaches : BufferReaches start client bytes) (fewer : bytes < UInt32.size) :
    (∃ nodes, BufferInvariant client nodes) ∧
      ∀ event : BufferEvent, event.Allowed client → event.Quiet client →
        bytes + event.bytes < UInt32.size → ∃ after, client.bufferStep event = some after := by
  have keeps := reaches_numbers fresh reaches fewer
  constructor
  · obtain ⟨sent, unsent, numbers⟩ := keeps
    exact numbers_invariant numbers
  · exact buffer_step_defined keeps

theorem established_buffer_fresh : FreshBuffer establishedClient.tcb := ⟨rfl, rfl, rfl, rfl, rfl⟩

def secondUnsent : Client :=
  ⟨[some ⟨⟨oneByteSegment, 0⟩, some 1⟩, some ⟨⟨oneByteSegment.withSeqNum 1, 0⟩, none⟩],
    { sentClient.tcb with
      nextSeqNum := 2
      sendBufunSent := some 1
      sendBufTail := some 1 }⟩

def firstAcked : Client :=
  ⟨[none, some ⟨⟨oneByteSegment.withSeqNum 1, 0⟩, none⟩],
    { sentClient.tcb with
      nextSeqNum := 2
      sendBufHead := some 1
      sendBufTail := some 1 }⟩

theorem second_unsent : BufferReaches establishedClient secondUnsent 2 := by
  have queued := BufferReaches.start.step (.append oneByteSegment) (Nat.le_refl 1)
    (rfl : establishedClient.bufferStep _ = some _)
  have sent := queued.step (.sending stoppedClock) trivial (rfl : _ = some sentClient)
  exact sent.step (.append oneByteSegment) (Nat.le_refl 1) rfl

theorem one_byte_dataack_allowed : AcknowledgesSent secondUnsent oneByteDataack := ⟨rfl, by decide⟩

theorem one_byte_dataack_handled :
    secondUnsent.bufferStep (.dataack stoppedClock 2 oneByteDataack) = some firstAcked := rfl

theorem first_acked_invariant :
    BufferReaches establishedClient firstAcked 2 ∧ (∃ nodes, BufferInvariant firstAcked nodes) ∧
      ∀ event : BufferEvent, event.Allowed firstAcked → event.Quiet firstAcked →
        2 + event.bytes < UInt32.size → ∃ after, firstAcked.bufferStep event = some after := by
  have reaches := second_unsent.step (.dataack stoppedClock 2 oneByteDataack)
    one_byte_dataack_allowed one_byte_dataack_handled
  exact ⟨reaches,
    send_buffer_invariant establishedClient firstAcked 2 established_buffer_fresh reaches
      (by decide)⟩

end MiniOverlay
