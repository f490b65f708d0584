import MiniOverlay.MrtClientSocket
import MiniOverlay.MrtServerSocket
import MiniOverlay.PartialRuns

/-!
# What the sockets send

Which segments a call or a segment handler can hand to the network, and what it
does to the state and the ends of its TCB. On the client's side this rests on a
property of every cell that is allocated for the send buffer, queued or not.
-/

namespace MiniOverlay

open LinkedHeap FixedByteCodec PartialRuns

set_option autoImplicit false

def Client.Keeps (keep : Seg → Prop) (client : Client) : Prop :=
  Everywhere (fun buffer : SegBuf => keep buffer.seg) client.heap

/-- The ends stay, and only segments with the property are allocated and sent. -/
structure Kept (keep : Seg → Prop) (client after : Client) (effects : List ClientEffect) :
    Prop where
  ends : after.tcb.ends = client.tcb.ends
  cells : after.Keeps keep
  sends : ∀ arg ∈ sentSegs effects, keep arg.seg

section SendBuffer

variable {keep : Seg → Prop}

theorem nothing_sent {keep : Seg → Prop} : ∀ arg ∈ sentSegs [], keep arg.seg := by
  intro arg member
  cases member

theorem kept_refl {client : Client} (cells : client.Keeps keep) : Kept keep client client [] :=
  ⟨rfl, cells, nothing_sent⟩

theorem Kept.trans {client middle after : Client} {first second : List ClientEffect}
    (left : Kept keep client middle first) (right : Kept keep middle after second) :
    Kept keep client after (first ++ second) := by
  refine ⟨right.ends.trans left.ends, right.cells, ?_⟩
  intro arg member
  rw [sentSegs, List.filterMap_append, List.mem_append] at member
  rcases member with earlier | later
  · exact left.sends arg earlier
  · exact right.sends arg later

theorem append_kept (renumber : ∀ seg seqNum, keep seg → keep (seg.withSeqNum seqNum))
    {client after : Client} {segmentBuffer : Ptr} (cells : client.Keeps keep)
    (appended : sendBufferAppendSegment client segmentBuffer = some after) :
    Kept keep client after [] := by
  simp only [sendBufferAppendSegment, Option.bind_eq_bind, Option.bind_eq_some_iff] at appended
  obtain ⟨cell, held, appended⟩ := appended
  have numbered := renumber _ client.tcb.nextSeqNum (cells _ cell held)
  by_cases empty : client.tcb.sendBufHead = none
  · rw [if_pos empty] at appended
    obtain ⟨heap, written, appended⟩ := Option.bind_eq_some_iff.mp appended
    cases appended
    exact ⟨rfl, everywhere_write cells written numbered, nothing_sent⟩
  · rw [if_neg empty] at appended
    obtain ⟨heap, written, appended⟩ := Option.bind_eq_some_iff.mp appended
    have numberedCells := everywhere_write cells written numbered
    obtain ⟨last, lastHeld, appended⟩ := Option.bind_eq_some_iff.mp appended
    obtain ⟨linked, linkWritten, appended⟩ := Option.bind_eq_some_iff.mp appended
    cases appended
    have lastKept := numberedCells _ last lastHeld
    exact ⟨rfl, everywhere_write numberedCells linkWritten lastKept,
      nothing_sent⟩

theorem queue_kept (renumber : ∀ seg seqNum, keep seg → keep (seg.withSeqNum seqNum))
    {client after : Client} {seg : Seg} (cells : client.Keeps keep) (kept : keep seg)
    (queued : queueSegment client seg = some after) : Kept keep client after [] := by
  have allocated : Client.Keeps keep ⟨(alloc client.heap ⟨⟨seg, 0⟩, none⟩).1, client.tcb⟩ :=
    everywhere_alloc cells _ kept
  have appended := append_kept renumber allocated queued
  exact ⟨appended.ends, appended.cells, appended.sends⟩

theorem sending_loop_kept (now : Nat → Timeval) (turns : Nat) (client after : Client)
    (effects : List ClientEffect)
    (sent : sendBufferSendingLoop now turns client = some (after, effects))
    (cells : client.Keeps keep) :
    Kept keep client after effects := by
  induction turns generalizing client after effects with
  | zero =>
      cases sent
      exact kept_refl cells
  | succ turns ih =>
      rcases sending_loop_cases sent with ⟨rfl, rfl⟩ | ⟨cell, heap, sends, held, written, loop, rfl⟩
      · exact kept_refl cells
      · have stamped := everywhere_write cells written (cells _ cell held)
        have rest := ih _ _ _ loop stamped
        refine ⟨rest.ends, rest.cells, ?_⟩
        intro arg member
        have split : arg = ⟨client.tcb.svrNodeID.toInt32, cell.val.seg⟩ ∨
            arg ∈ sentSegs sends := by
          split_ifs at member <;> simpa [sentSegs, ClientEffect.sent?] using member
        rcases split with rfl | inRest
        · exact cells _ cell held
        · exact rest.sends arg inRest

theorem sending_kept (now : Nat → Timeval) {client after : Client} {effects : List ClientEffect}
    (cells : client.Keeps keep) (sent : sendBufferSending now client = some (after, effects)) :
    Kept keep client after effects :=
  sending_loop_kept now gbnWindow client after effects sent cells

theorem timeout_loop_kept (now : Nat → Timeval) (turns : Nat) (client after : Client)
    (buffer : Ptr) (effects : List ClientEffect)
    (sent : sendBufferTimeoutLoop now turns client buffer = some (after, effects))
    (cells : client.Keeps keep) :
    Kept keep client after effects := by
  induction turns generalizing client after buffer effects with
  | zero =>
      cases sent
      exact kept_refl cells
  | succ turns ih =>
      obtain ⟨cell, heap, sends, held, written, loop, rfl⟩ := timeout_loop_turn sent
      have stamped := everywhere_write cells written (cells _ cell held)
      have rest := ih _ _ _ _ loop stamped
      refine ⟨rest.ends, rest.cells, ?_⟩
      intro arg member
      have split : arg = ⟨client.tcb.svrNodeID.toInt32, cell.val.seg⟩ ∨
          arg ∈ sentSegs sends := by
        simpa [sentSegs, ClientEffect.sent?] using member
      rcases split with rfl | inRest
      · exact cells _ cell held
      · exact rest.sends arg inRest

theorem timeout_kept (now : Nat → Timeval) {client after : Client} {effects : List ClientEffect}
    (cells : client.Keeps keep) (sent : sendBufferTimeout now client = some (after, effects)) :
    Kept keep client after effects :=
  timeout_loop_kept now _ client after _ effects sent cells

theorem recv_ack_loop_kept (ackSeqnum : UInt32) (turns : Nat) (client after : Client)
    (acknowledged : sendBufferRecvAckLoop ackSeqnum turns client = some after)
    (cells : client.Keeps keep) :
    Kept keep client after [] := by
  induction turns generalizing client with
  | zero => cases acknowledged
  | succ turns ih =>
      rw [sendBufferRecvAckLoop] at acknowledged
      split_ifs at acknowledged with empty
      · cases acknowledged
        exact kept_refl cells
      · obtain ⟨cell, _, acknowledged⟩ := Option.bind_eq_some_iff.mp acknowledged
        split_ifs at acknowledged with covered
        · obtain ⟨heap, freed, acknowledged⟩ := Option.bind_eq_some_iff.mp acknowledged
          have rest := ih _ acknowledged (everywhere_free cells freed)
          exact ⟨rest.ends, rest.cells, rest.sends⟩
        · cases acknowledged
          exact kept_refl cells

theorem recv_ack_kept {client after : Client} {ackSeqnum : UInt32} (cells : client.Keeps keep)
    (acknowledged : sendBufferRecvAck client ackSeqnum = some after) :
    Kept keep client after [] := by
  obtain ⟨tail, _, acknowledged⟩ := Option.bind_eq_some_iff.mp acknowledged
  have rest := recv_ack_loop_kept ackSeqnum _ _ after acknowledged cells
  refine ⟨rest.ends.trans ?_, rest.cells, rest.sends⟩
  split_ifs <;> rfl

theorem destroy_loop_everywhere (sendBufTail : Ptr) (turns : Nat) (heap after : Heap SegBuf)
    (buffer : Ptr) (cells : Everywhere (fun buffer : SegBuf => keep buffer.seg) heap)
    (destroyed : sendBufferDestroyLoop sendBufTail turns heap buffer = some after) :
    Everywhere (fun buffer : SegBuf => keep buffer.seg) after := by
  induction turns generalizing heap buffer with
  | zero => cases destroyed
  | succ turns ih =>
      rw [sendBufferDestroyLoop] at destroyed
      split_ifs at destroyed with last
      · cases destroyed
        exact cells
      · obtain ⟨cell, _, destroyed⟩ := Option.bind_eq_some_iff.mp destroyed
        obtain ⟨smaller, freed, destroyed⟩ := Option.bind_eq_some_iff.mp destroyed
        exact ih smaller cell.next (everywhere_free cells freed) destroyed

theorem destroy_kept {client after : Client} (cells : client.Keeps keep)
    (destroyed : sendBufferDestroy client = some after) : Kept keep client after [] := by
  obtain ⟨heap, front, destroyed⟩ := Option.bind_eq_some_iff.mp destroyed
  have frontCells := destroy_loop_everywhere _ _ _ _ _ cells front
  by_cases empty : client.tcb.sendBufTail = none
  · rw [if_pos empty] at destroyed
    cases destroyed
    exact ⟨rfl, frontCells, nothing_sent⟩
  · rw [if_neg empty] at destroyed
    obtain ⟨rest, last, destroyed⟩ := Option.bind_eq_some_iff.mp destroyed
    cases destroyed
    exact ⟨rfl, everywhere_free frontCells last, nothing_sent⟩

/-- A segment of `mrt_client_send`, the dropped one included. -/
structure Bufferable (clientPortNum : UInt32) (seg : Seg) : Prop where
  srcPort : seg.header.srcPort = clientPortNum
  type : seg.header.type = 0 ∨ seg.header.type = SegType.data

theorem send_turn_kept (renumber : ∀ seg seqNum, keep seg → keep (seg.withSeqNum seqNum))
    (data : List Byte) (segmentNumber index : Nat) {client after : Client}
    (turned : mrtClientSendTurn data segmentNumber client index = some after)
    (cells : client.Keeps keep) (new : ∀ seg, Bufferable client.tcb.clientPortNum seg → keep seg) :
    Kept keep client after [] := by
  unfold mrtClientSendTurn at turned
  by_cases last : index = segmentNumber - 1
  · rw [if_pos last] at turned
    cases turned
    exact ⟨rfl, everywhere_alloc cells _ (new _ ⟨rfl, Or.inl rfl⟩), nothing_sent⟩
  · rw [if_neg last] at turned
    obtain ⟨chunk, _, queued⟩ := Option.bind_eq_some_iff.mp turned
    exact queue_kept renumber cells (new _ ⟨rfl, Or.inr rfl⟩) queued

theorem send_turns_kept (renumber : ∀ seg seqNum, keep seg → keep (seg.withSeqNum seqNum))
    (data : List Byte) (segmentNumber : Nat) (indices : List Nat) {client after : Client}
    (turned : indices.foldlM (mrtClientSendTurn data segmentNumber) client = some after)
    (cells : client.Keeps keep) (new : ∀ seg, Bufferable client.tcb.clientPortNum seg → keep seg) :
    Kept keep client after [] := by
  apply fold_keeps (mrtClientSendTurn data segmentNumber) (Kept keep client · []) indices _
    (kept_refl cells) turned
  intro index _ before next kept turn
  have port : before.tcb.clientPortNum = client.tcb.clientPortNum :=
    congrArg ClientEnds.clientPortNum kept.ends
  exact kept.trans (send_turn_kept renumber data segmentNumber index turn kept.cells
    fun seg bufferable => new seg (port ▸ bufferable))

theorem client_send_kept (renumber : ∀ seg seqNum, keep seg → keep (seg.withSeqNum seqNum))
    (now : Nat → Timeval) (data : List Byte) {client after : Client} {value : Int}
    {effects : List ClientEffect}
    (sent : mrtClientSend now client data = some (value, after, effects))
    (cells : client.Keeps keep)
    (new : client.tcb.state = .connected →
      ∀ seg, Bufferable client.tcb.clientPortNum seg → keep seg) :
    Kept keep client after effects := by
  unfold mrtClientSend at sent
  cases state : client.tcb.state with
  | connected =>
      rw [state] at sent
      obtain ⟨queued, turned, sent⟩ := Option.bind_eq_some_iff.mp sent
      obtain ⟨result, sending, sent⟩ := Option.bind_eq_some_iff.mp sent
      cases sent
      have filled := send_turns_kept renumber data _ _ turned cells (new state)
      exact filled.trans (sending_kept now filled.cells sending)
  | closed =>
      rw [state] at sent
      cases sent
      exact kept_refl cells
  | synsent =>
      rw [state] at sent
      cases sent
      exact kept_refl cells
  | finwait =>
      rw [state] at sent
      cases sent
      exact kept_refl cells

inductive ClientMoves (client : Client) (segmentBuffer : Seg) (after : Client) : Prop where
  | connects (synsent : client.tcb.state = .synsent)
      (synack : segmentBuffer.header.type = SegType.synack)
      (moved : after = ⟨client.heap, { client.tcb with state := .connected }⟩)
  | closes (finwait : client.tcb.state = .finwait)
      (moved : after = ⟨client.heap, { client.tcb with state := .closed }⟩)

theorem client_handled_cases (now : Nat → Timeval) (sourceNodeID : Int32) (segmentBuffer : Seg)
    {client after : Client} {effects : List ClientEffect}
    (handled : clientSeghandler now client sourceNodeID segmentBuffer = some (after, effects))
    (cells : client.Keeps keep) :
    Kept keep client after effects ∨
      effects = [] ∧ ClientMoves client segmentBuffer after := by
  cases client_handles handled with
  | nothing same quiet =>
      subst same quiet
      exact Or.inl (kept_refl cells)
  | acknowledges middle _ _ _ _ _ _ acknowledged sent =>
      have shrunk := recv_ack_kept cells acknowledged
      exact Or.inl (shrunk.trans (sending_kept now shrunk.cells sent))
  | connects synsent synack moved quiet => exact Or.inr ⟨quiet, .connects synsent synack moved⟩
  | closes finwait _ moved quiet => exact Or.inr ⟨quiet, .closes finwait moved⟩

end SendBuffer

def serverSentSegs (effects : List ServerEffect) : List SendsegArg :=
  effects.filterMap ServerEffect.sent?

def closewaitsStarted (effects : List ServerEffect) : Nat := effects.count .startClosewait

/-- The connection is up and recorded for the sender of the segment. -/
structure Records (table : ServerTcb) (sourceNodeID : Int32) (segmentBuffer : Seg) : Prop where
  state : table.state = .connected
  node : table.clientNodeID = sourceNodeID.toUInt32
  port : table.clientPortNum = segmentBuffer.header.srcPort

/-- A reply to the recorded client; a SYNACK answers a SYN of that client. -/
structure Answers (table : ServerTcb) (sourceNodeID : Int32) (segmentBuffer : Seg)
    (arg : SendsegArg) : Prop where
  node : arg.nodeID = table.clientNodeID.toInt32
  port : arg.seg.header.destPort = table.clientPortNum
  notSyn : arg.seg.header.type ≠ SegType.syn
  notFin : arg.seg.header.type ≠ SegType.fin
  synack : arg.seg.header.type = SegType.synack →
    segmentBuffer.header.type = SegType.syn ∧ Records table sourceNodeID segmentBuffer

/-- What the server's segment handler does to the state and the recorded client. -/
inductive ServerMoves (table : ServerTcb) (sourceNodeID : Int32) (segmentBuffer : Seg)
    (after : ServerTcb) (closewaits : Nat) : Prop where
  | accepts (listening : table.state = .listening)
      (records : Records after sourceNodeID segmentBuffer) (none : closewaits = 0)
  | stays (state : after.state = table.state) (node : after.clientNodeID = table.clientNodeID)
      (port : after.clientPortNum = table.clientPortNum) (none : closewaits = 0)
  | finishes (records : Records table sourceNodeID segmentBuffer)
      (fin : segmentBuffer.header.type = SegType.fin) (state : after.state = .closewait)
      (one : closewaits = 1)

structure ServerHandled (table : ServerTcb) (sourceNodeID : Int32) (segmentBuffer : Seg)
    (after : ServerTcb) (effects : List ServerEffect) : Prop where
  moves : ServerMoves table sourceNodeID segmentBuffer after (closewaitsStarted effects)
  answers : ∀ arg ∈ serverSentSegs effects, Answers after sourceNodeID segmentBuffer arg

theorem answers_nothing (after : ServerTcb) (sourceNodeID : Int32) (segmentBuffer : Seg) :
    ∀ arg ∈ serverSentSegs [], Answers after sourceNodeID segmentBuffer arg := by
  intro arg member
  cases member

theorem answers_reply {table after : ServerTcb} {type : UInt16} {ackNum : UInt32}
    (sourceNodeID : Int32) (segmentBuffer : Seg) (node : after.clientNodeID = table.clientNodeID)
    (port : after.clientPortNum = table.clientPortNum)
    (other : type ≠ SegType.syn ∧ type ≠ SegType.fin ∧ type ≠ SegType.synack) :
    ∀ arg ∈ serverSentSegs [table.reply type ackNum],
      Answers after sourceNodeID segmentBuffer arg := by
  intro arg member
  rw [List.mem_singleton.mp member]
  exact ⟨by rw [node], port.symm, other.1, other.2.1, fun synack => absurd synack other.2.2⟩

theorem answers_syn {table after : ServerTcb} {sourceNodeID : Int32} {segmentBuffer : Seg}
    (ackNum : UInt32) (node : after.clientNodeID = table.clientNodeID)
    (port : after.clientPortNum = table.clientPortNum)
    (isSyn : segmentBuffer.header.type = SegType.syn)
    (records : Records after sourceNodeID segmentBuffer) :
    ∀ arg ∈ serverSentSegs [table.reply SegType.synack ackNum],
      Answers after sourceNodeID segmentBuffer arg := by
  intro arg member
  have notSyn : SegType.synack ≠ SegType.syn := by decide
  have notFin : SegType.synack ≠ SegType.fin := by decide
  rw [List.mem_singleton.mp member]
  exact ⟨by rw [node], port.symm, notSyn, notFin, fun _ => ⟨isSyn, records⟩⟩

theorem data_received_handled {table after : ServerTcb} {effects : List ServerEffect}
    (sourceNodeID : Int32) (dataIn : Seg)
    (handled : dataReceived table dataIn = some (after, effects)) :
    ServerHandled table sourceNodeID dataIn after effects := by
  have dataack : SegType.dataack ≠ SegType.syn ∧ SegType.dataack ≠ SegType.fin ∧
      SegType.dataack ≠ SegType.synack := by decide
  cases data_receives handled with
  | repeated _ _ same again =>
      subst same again
      exact ⟨.stays rfl rfl rfl rfl, answers_reply _ _ rfl rfl dataack⟩
  | refused _ _ same quiet =>
      subst same quiet
      exact ⟨.stays rfl rfl rfl rfl, answers_nothing _ _ _⟩
  | stored _ _ _ _ _ moved acknowledged =>
      subst moved acknowledged
      exact ⟨.stays rfl rfl rfl rfl, answers_reply _ _ rfl rfl dataack⟩

theorem listening_handled (table : ServerTcb) (sourceNodeID : Int32) (segmentBuffer : Seg)
    (listening : table.state = .listening) :
    ∃ after effects, serverSeghandler table sourceNodeID segmentBuffer = some (after, effects) ∧
      ServerHandled table sourceNodeID segmentBuffer after effects := by
  have finack : SegType.finack ≠ SegType.syn ∧ SegType.finack ≠ SegType.fin ∧
      SegType.finack ≠ SegType.synack := by decide
  simp only [serverSeghandler, listening]
  refine ⟨_, _, rfl, ?_⟩
  unfold segmentRecv
  by_cases isSyn : segmentBuffer.header.type = SegType.syn
  · simp only [if_pos isSyn]
    exact ⟨.accepts listening ⟨rfl, rfl, rfl⟩ rfl,
      answers_syn _ rfl rfl isSyn ⟨rfl, rfl, rfl⟩⟩
  by_cases isFin : segmentBuffer.header.type = SegType.fin
  · simp only [if_neg isSyn, if_pos isFin]
    exact ⟨.accepts listening ⟨rfl, rfl, rfl⟩ rfl, answers_reply _ _ rfl rfl finack⟩
  · simp only [if_neg isSyn, if_neg isFin]
    exact ⟨.accepts listening ⟨rfl, rfl, rfl⟩ rfl, answers_nothing _ _ _⟩

theorem server_handled {table after : ServerTcb} {effects : List ServerEffect}
    (sourceNodeID : Int32) (segmentBuffer : Seg)
    (handled : serverSeghandler table sourceNodeID segmentBuffer = some (after, effects)) :
    ServerHandled table sourceNodeID segmentBuffer after effects := by
  have finack : SegType.finack ≠ SegType.syn ∧ SegType.finack ≠ SegType.fin ∧
      SegType.finack ≠ SegType.synack := by decide
  cases state : table.state with
  | listening =>
      obtain ⟨_, _, result, spec⟩ := listening_handled table sourceNodeID segmentBuffer state
      rw [result] at handled
      cases handled
      exact spec
  | connected =>
      simp only [serverSeghandler, state, segmentRecv] at handled
      split_ifs at handled with here isSyn isData isFin
      · cases handled
        exact ⟨.stays state.symm rfl rfl rfl, answers_syn _ rfl rfl isSyn ⟨rfl, here.2, here.1⟩⟩
      · exact data_received_handled sourceNodeID segmentBuffer handled
      · cases handled
        exact ⟨.finishes ⟨state, here.2, here.1⟩ isFin rfl rfl,
          answers_reply _ _ rfl rfl finack⟩
      · cases handled
        exact ⟨.stays rfl rfl rfl rfl, answers_nothing _ _ _⟩
      · cases handled
        exact ⟨.stays rfl rfl rfl rfl, answers_nothing _ _ _⟩
  | closewait =>
      simp only [serverSeghandler, state, segmentRecv] at handled
      split_ifs at handled with isFin isSyn
      · cases handled
        rw [isFin] at isSyn
        exact absurd isSyn (by decide)
      · cases handled
        exact ⟨.stays rfl rfl rfl rfl, answers_reply _ _ rfl rfl finack⟩
      · cases handled
        exact ⟨.stays rfl rfl rfl rfl, answers_nothing _ _ _⟩
  | closed =>
      simp only [serverSeghandler, state] at handled
      cases handled
      exact ⟨.stays rfl rfl rfl rfl, answers_nothing _ _ _⟩

end MiniOverlay
