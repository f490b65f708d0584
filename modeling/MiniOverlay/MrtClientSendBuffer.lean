import MiniOverlay.LinkedHeap
import MiniOverlay.SegmentFormat

/-!
# The send buffer of a client connection

The list of `segBuf_t` behind `sendBufHead` in `client/mrt_client.c`: sent and
not yet acknowledged segments first, unsent ones after them. Every function
follows the pointers of the source on an explicit heap and has no result when it
would use a null or freed one. The specification of each says what it does to
the two parts of the list.
-/

namespace MiniOverlay

open LinkedHeap

set_option autoImplicit false

/-- `segBuf_t` without `next`, which is the cell's. -/
structure SegBuf where
  seg : Seg
  sentTime : UInt32
  deriving DecidableEq

inductive ClientState where
  | closed
  | synsent
  | connected
  | finwait
  deriving DecidableEq

structure ClientTcb where
  svrNodeID : UInt32
  svrPortNum : UInt32
  clientNodeID : UInt32
  clientPortNum : UInt32
  state : ClientState
  nextSeqNum : UInt32
  sendBufHead : Ptr
  sendBufunSent : Ptr
  sendBufTail : Ptr
  unAckSegNum : UInt32
  deriving DecidableEq

structure Client where
  heap : Heap SegBuf
  tcb : ClientTcb
  deriving DecidableEq

inductive ClientEffect where
  | mnpSendseg (destNodeID : Int32) (seg : Seg)
  | startTimer
  deriving DecidableEq

def ClientEffect.sent? : ClientEffect → Option SendsegArg
  | .mnpSendseg destNodeID seg => some ⟨destNodeID, seg⟩
  | .startTimer => none

def sentSegs (effects : List ClientEffect) : List SendsegArg :=
  effects.filterMap ClientEffect.sent?

def timersStarted (effects : List ClientEffect) : Nat := effects.count .startTimer

structure Timeval where
  tvSec : Int64
  tvUsec : Int64

def Timeval.stamp (factor : Int64) (time : Timeval) : UInt32 :=
  (time.tvSec * factor + time.tvUsec).toUInt64.toUInt32

def Seg.withSeqNum (seg : Seg) (seqNum : UInt32) : Seg :=
  { seg with header := { seg.header with seqNum := seqNum } }

def sendBufferAppendSegment (client : Client) (segmentBuffer : Ptr) : Option Client := do
  let table := client.tcb
  let cell ← read client.heap segmentBuffer
  let seg := cell.val.seg.withSeqNum table.nextSeqNum
  let nextSeqNum := table.nextSeqNum + seg.header.length.toUInt32
  if table.sendBufHead = none then
    let heap ← write client.heap segmentBuffer ⟨⟨seg, 0⟩, cell.next⟩
    return ⟨heap, { table with
      nextSeqNum := nextSeqNum
      sendBufHead := segmentBuffer
      sendBufunSent := segmentBuffer
      sendBufTail := segmentBuffer }⟩
  else
    let heap ← write client.heap segmentBuffer ⟨⟨seg, cell.val.sentTime⟩, cell.next⟩
    let last ← read heap table.sendBufTail
    let heap ← write heap table.sendBufTail ⟨last.val, segmentBuffer⟩
    return ⟨heap, { table with
      nextSeqNum := nextSeqNum
      sendBufTail := segmentBuffer
      sendBufunSent :=
        if table.sendBufunSent = none then segmentBuffer else table.sendBufunSent }⟩

/-- The loop of `sendBuffer_sending`. Every turn counts a further segment as
unacknowledged, so `GBN_WINDOW` turns are enough; `now` gives the clock. -/
def sendBufferSendingLoop (now : Nat → Timeval) :
    Nat → Client → Option (Client × List ClientEffect)
  | 0, client => some (client, [])
  | turns + 1, client =>
      let table := client.tcb
      if table.unAckSegNum.toNat < gbnWindow ∧ table.sendBufunSent ≠ none then do
        let cell ← read client.heap table.sendBufunSent
        let heap ← write client.heap table.sendBufunSent
          ⟨⟨cell.val.seg, (now turns).stamp 1000⟩, cell.next⟩
        let timer := if table.unAckSegNum = 0 then [ClientEffect.startTimer] else []
        let later ← sendBufferSendingLoop now turns ⟨heap, { table with
          unAckSegNum := table.unAckSegNum + 1
          sendBufunSent := if table.sendBufunSent ≠ table.sendBufTail then cell.next else none }⟩
        return (later.1, .mnpSendseg table.svrNodeID.toInt32 cell.val.seg :: (timer ++ later.2))
      else some (client, [])

def sendBufferSending (now : Nat → Timeval) (client : Client) :
    Option (Client × List ClientEffect) :=
  sendBufferSendingLoop now gbnWindow client

def sendBufferTimeoutLoop (now : Nat → Timeval) :
    Nat → Client → Ptr → Option (Client × List ClientEffect)
  | 0, client, _ => some (client, [])
  | turns + 1, client, buffer => do
      let cell ← read client.heap buffer
      let heap ← write client.heap buffer ⟨⟨cell.val.seg, (now turns).stamp 10000⟩, cell.next⟩
      let later ← sendBufferTimeoutLoop now turns ⟨heap, client.tcb⟩ cell.next
      return (later.1, .mnpSendseg client.tcb.svrNodeID.toInt32 cell.val.seg :: later.2)

def sendBufferTimeout (now : Nat → Timeval) (client : Client) :
    Option (Client × List ClientEffect) :=
  sendBufferTimeoutLoop now client.tcb.unAckSegNum.toNat client client.tcb.sendBufHead

/-- The loop of `sendBufferRecvAck`. Every turn frees a cell, so one turn more
than there are cells is enough. -/
def sendBufferRecvAckLoop (ackSeqnum : UInt32) : Nat → Client → Option Client
  | 0, _ => none
  | turns + 1, client =>
      let table := client.tcb
      if table.sendBufHead = none then some client
      else do
        let cell ← read client.heap table.sendBufHead
        if cell.val.seg.header.seqNum < ackSeqnum then
          let heap ← free client.heap table.sendBufHead
          sendBufferRecvAckLoop ackSeqnum turns ⟨heap, { table with
            sendBufHead := cell.next
            unAckSegNum := table.unAckSegNum - 1 }⟩
        else some client

def sendBufferRecvAck (client : Client) (ackSeqnum : UInt32) : Option Client := do
  let table := client.tcb
  let tail ← read client.heap table.sendBufTail
  let table :=
    if ackSeqnum > tail.val.seg.header.seqNum then { table with sendBufTail := none } else table
  sendBufferRecvAckLoop ackSeqnum (client.heap.length + 1) ⟨client.heap, table⟩

def sendBufferDestroyLoop (sendBufTail : Ptr) : Nat → Heap SegBuf → Ptr → Option (Heap SegBuf)
  | 0, _, _ => none
  | turns + 1, heap, buffer =>
      if buffer = sendBufTail then some heap
      else do
        let cell ← read heap buffer
        let heap ← free heap buffer
        sendBufferDestroyLoop sendBufTail turns heap cell.next

def sendBufferDestroy (client : Client) : Option Client := do
  let table := client.tcb
  let heap ← sendBufferDestroyLoop table.sendBufTail (client.heap.length + 1) client.heap
    table.sendBufHead
  let heap ← if table.sendBufTail = none then some heap else free heap table.sendBufTail
  return ⟨heap, { table with
    sendBufunSent := none
    sendBufHead := none
    sendBufTail := none
    unAckSegNum := 0 }⟩

def sendBufferSegs (client : Client) : Option (List Seg) :=
  (walk client.heap client.heap.length client.tcb.sendBufHead).map (List.map SegBuf.seg)

/-- `malloc` and `memset` of a `segBuf_t` that then gets the segment, and its
append: how the callers queue a segment. -/
def queueSegment (client : Client) (seg : Seg) : Option Client :=
  let segmentBuffer := alloc client.heap ⟨⟨seg, 0⟩, none⟩
  sendBufferAppendSegment ⟨segmentBuffer.1, client.tcb⟩ segmentBuffer.2

/-- The fields that say whose connection this is and in which state. -/
structure ClientEnds where
  svrNodeID : UInt32
  svrPortNum : UInt32
  clientNodeID : UInt32
  clientPortNum : UInt32
  state : ClientState
  deriving DecidableEq

def ClientTcb.ends (tcb : ClientTcb) : ClientEnds :=
  ⟨tcb.svrNodeID, tcb.svrPortNum, tcb.clientNodeID, tcb.clientPortNum, tcb.state⟩

structure SendBuffer (client : Client) (sent unsent : List (Nat × SegBuf)) : Prop where
  owns : Owns client.heap client.tcb.sendBufHead (sent ++ unsent)
  unSent : client.tcb.sendBufunSent = firstPtr unsent
  tail : client.tcb.sendBufTail = lastPtr (sent ++ unsent)
  unAck : client.tcb.unAckSegNum.toNat = sent.length
  window : sent.length ≤ gbnWindow

/-- The same as long as no acknowledgement has gone past what was sent, with a tail
pointer that may have been cleared. -/
structure Intact (client : Client) (sent unsent : List (Nat × SegBuf)) : Prop where
  owns : Owns client.heap client.tcb.sendBufHead (sent ++ unsent)
  unSent : client.tcb.sendBufunSent = firstPtr unsent
  tail : client.tcb.sendBufTail = none ∨ client.tcb.sendBufTail = lastPtr (sent ++ unsent)
  unAck : client.tcb.unAckSegNum.toNat = sent.length
  window : sent.length ≤ gbnWindow

theorem SendBuffer.intact {client : Client} {sent unsent : List (Nat × SegBuf)}
    (buffer : SendBuffer client sent unsent) : Intact client sent unsent :=
  ⟨buffer.owns, buffer.unSent, Or.inr buffer.tail, buffer.unAck, buffer.window⟩

theorem Intact.buffer {client : Client} {sent unsent : List (Nat × SegBuf)}
    (intact : Intact client sent unsent)
    (tail : client.tcb.sendBufTail = lastPtr (sent ++ unsent)) : SendBuffer client sent unsent :=
  ⟨intact.owns, intact.unSent, tail, intact.unAck, intact.window⟩

def labels (entries : List (Nat × SegBuf)) : List (Nat × Seg) :=
  entries.map fun entry => (entry.1, entry.2.seg)

def entrySegs (entries : List (Nat × SegBuf)) : List Seg := entries.map fun entry => entry.2.seg

def Holds (client : Client) (sent unsent : List Seg) : Prop :=
  ∃ sentCells unsentCells, SendBuffer client sentCells unsentCells ∧
    entrySegs sentCells = sent ∧ entrySegs unsentCells = unsent

theorem owns_segs {client : Client} {cells : List (Nat × SegBuf)}
    (owns : Owns client.heap client.tcb.sendBufHead cells) :
    sendBufferSegs client = some (entrySegs cells) := by
  have walked := walk_of_chain owns.chain (owns_length_le owns)
  simp only [sendBufferSegs, walked, Option.map_some, List.map_map, entrySegs]
  rfl

theorem holds_segs {client : Client} {sent unsent : List Seg}
    (holds : Holds client sent unsent) : sendBufferSegs client = some (sent ++ unsent) := by
  obtain ⟨sentCells, unsentCells, buffer, rfl, rfl⟩ := holds
  rw [owns_segs buffer.owns, entrySegs, List.map_append]
  rfl

def queuedCell (client : Client) (seg : Seg) : Cell SegBuf :=
  ⟨⟨seg.withSeqNum client.tcb.nextSeqNum, 0⟩, none⟩

theorem append_when_empty (client : Client) (address : Nat) (seg : Seg)
    (held : read client.heap (some address) = some ⟨⟨seg, 0⟩, none⟩)
    (empty : client.tcb.sendBufHead = none) :
    sendBufferAppendSegment client (some address) =
      some ⟨client.heap.set address (some (queuedCell client seg)), { client.tcb with
        nextSeqNum := client.tcb.nextSeqNum + seg.header.length.toUInt32
        sendBufHead := some address
        sendBufunSent := some address
        sendBufTail := some address }⟩ := by
  simp [sendBufferAppendSegment, held, write, store_of_read held, empty, queuedCell,
    Seg.withSeqNum]

theorem append_when_filled (client : Client) (address last : Nat) (seg : Seg)
    (cell : Cell SegBuf) (held : read client.heap (some address) = some ⟨⟨seg, 0⟩, none⟩)
    (filled : client.tcb.sendBufHead ≠ none) (tail : client.tcb.sendBufTail = some last)
    (lastHeld : read client.heap (some last) = some cell) (apart : last ≠ address) :
    sendBufferAppendSegment client (some address) =
      some ⟨(client.heap.set address (some (queuedCell client seg))).set last
          (some ⟨cell.val, some address⟩), { client.tcb with
        nextSeqNum := client.tcb.nextSeqNum + seg.header.length.toUInt32
        sendBufTail := some address
        sendBufunSent :=
          if client.tcb.sendBufunSent = none then some address
          else client.tcb.sendBufunSent }⟩ := by
  have kept : read (client.heap.set address (some (queuedCell client seg))) (some last) =
      some cell := by
    rw [read_set_other apart, lastHeld]
  simp only [sendBufferAppendSegment, held, write, Option.bind_eq_bind, Option.bind_some, filled,
    if_false, store_of_read held, tail, pure]
  rw [queuedCell] at kept ⊢
  simp only [kept, Option.bind_some, store_of_read kept]
  rfl

/-- What appending a cell does: it becomes the whole list or is linked behind the last
cell. -/
structure Appends (client after : Client) (cells : List (Nat × SegBuf)) (entry : Nat × SegBuf) :
    Prop where
  owns : Owns after.heap after.tcb.sendBufHead (cells ++ [entry])
  stays : ∀ address, Freed client.heap address → Freed after.heap address
  tail : after.tcb.sendBufTail = some entry.1
  unSent : after.tcb.sendBufunSent =
    if client.tcb.sendBufHead = none ∨ client.tcb.sendBufunSent = none then some entry.1
    else client.tcb.sendBufunSent
  unAck : after.tcb.unAckSegNum = client.tcb.unAckSegNum
  next : after.tcb.nextSeqNum = client.tcb.nextSeqNum + entry.2.seg.header.length.toUInt32
  ends : after.tcb.ends = client.tcb.ends

theorem append_cells (client : Client) (cells : List (Nat × SegBuf)) (address : Nat) (seg : Seg)
    (owns : Owns client.heap client.tcb.sendBufHead cells)
    (tail : client.tcb.sendBufTail = lastPtr cells)
    (held : read client.heap (some address) = some ⟨⟨seg, 0⟩, none⟩)
    (apart : address ∉ addresses cells) :
    ∃ after, sendBufferAppendSegment client (some address) = some after ∧
      Appends client after cells (address, (queuedCell client seg).val) := by
  have newRead := read_set_same (address_lt held) (some (queuedCell client seg))
  have head := chain_first owns.chain
  rcases List.eq_nil_or_concat' cells with rfl | ⟨front, last, rfl⟩
  · have empty : client.tcb.sendBufHead = none := head
    refine ⟨_, append_when_empty client address seg held empty, ?_, ?_, rfl, ?_, rfl, rfl, rfl⟩
    · exact ⟨⟨rfl, none, newRead, rfl⟩, List.nodup_singleton _⟩
    · exact fun other freed => freed_set freed held _
    · rw [if_pos (Or.inl empty)]
  · have lastHeld := owns_read owns
    have different : last.1 ≠ address := fun same => apart (by simp [addresses, same])
    have filled : client.tcb.sendBufHead ≠ none := by
      rw [head]
      cases front <;> simp [firstPtr]
    have moved : Owns (client.heap.set address (some (queuedCell client seg)))
        client.tcb.sendBufHead (front ++ [last]) :=
      ⟨chain_set owns.chain apart _, owns.nodup⟩
    have linked := owns_link last (address, (queuedCell client seg).val) moved newRead apart
    have lastKept : read (client.heap.set address (some (queuedCell client seg)))
        (some last.1) = some ⟨last.2, none⟩ := by
      rw [read_set_other different, lastHeld]
      rfl
    refine ⟨_, append_when_filled client address last.1 seg _ held filled
      (by rw [tail, last_ptr_concat]) lastHeld different, ?_, ?_, rfl, ?_, rfl, rfl, rfl⟩
    · rw [List.append_assoc]
      exact linked
    · exact fun other freed => freed_set (freed_set freed held _) lastKept _
    · simp only [filled, false_or]

theorem queue_cells (client : Client) (cells : List (Nat × SegBuf)) (seg : Seg)
    (owns : Owns client.heap client.tcb.sendBufHead cells)
    (tail : client.tcb.sendBufTail = lastPtr cells) :
    ∃ after, queueSegment client seg = some after ∧
      Appends client after cells (client.heap.length, (queuedCell client seg).val) := by
  have fresh : client.heap.length ∉ addresses cells := by
    intro member
    exact absurd (chain_address_lt owns.chain _ member) (Nat.lt_irrefl _)
  obtain ⟨after, appended, appends⟩ := append_cells
    ⟨(alloc client.heap ⟨⟨seg, 0⟩, none⟩).1, client.tcb⟩ cells client.heap.length seg
    (owns_alloc owns _) tail (read_alloc_new client.heap _) fresh
  exact ⟨after, appended, appends.owns, fun address freed =>
    appends.stays address (freed_alloc freed _), appends.tail, appends.unSent, appends.unAck,
    appends.next, appends.ends⟩

theorem Appends.first_unsent {client after : Client} {sent unsent : List (Nat × SegBuf)}
    {entry : Nat × SegBuf} (appends : Appends client after (sent ++ unsent) entry)
    (owns : Owns client.heap client.tcb.sendBufHead (sent ++ unsent))
    (unSent : client.tcb.sendBufunSent = firstPtr unsent) :
    after.tcb.sendBufunSent = firstPtr (unsent ++ [entry]) := by
  have empty : client.tcb.sendBufHead = none → firstPtr unsent = none := by
    intro none
    rw [chain_first owns.chain] at none
    cases sent <;> simp [firstPtr] at none ⊢
    exact none
  rw [appends.unSent, unSent, first_ptr_concat]
  by_cases nothing : firstPtr unsent = none
  · rw [if_pos (Or.inr nothing), if_pos nothing]
  · rw [if_neg (not_or.mpr ⟨fun none => nothing (empty none), nothing⟩), if_neg nothing]

theorem queue_holds (client : Client) (sent unsent : List Seg) (seg : Seg)
    (holds : Holds client sent unsent) :
    ∃ after, queueSegment client seg = some after ∧
      Holds after sent (unsent ++ [seg.withSeqNum client.tcb.nextSeqNum]) ∧
      after.tcb.nextSeqNum = client.tcb.nextSeqNum + seg.header.length.toUInt32 ∧
      after.tcb.ends = client.tcb.ends := by
  obtain ⟨sentCells, unsentCells, buffer, rfl, rfl⟩ := holds
  obtain ⟨after, queued, appends⟩ :=
    queue_cells client (sentCells ++ unsentCells) seg buffer.owns buffer.tail
  have unSent := appends.first_unsent buffer.owns buffer.unSent
  have owns := appends.owns
  rw [List.append_assoc] at owns
  refine ⟨after, queued, ⟨sentCells, _, ⟨owns, unSent, ?_, ?_, buffer.window⟩, rfl, ?_⟩,
    appends.next, appends.ends⟩
  · rw [appends.tail, ← List.append_assoc, last_ptr_concat]
  · rw [appends.unAck]
    exact buffer.unAck
  · simp [entrySegs, queuedCell]

theorem holds_empty (client : Client) (head : client.tcb.sendBufHead = none)
    (unSent : client.tcb.sendBufunSent = none) (tail : client.tcb.sendBufTail = none)
    (unAck : client.tcb.unAckSegNum = 0) : Holds client [] [] := by
  refine ⟨[], [], ⟨⟨head, List.nodup_nil⟩, unSent, tail, ?_, Nat.zero_le _⟩, rfl, rfl⟩
  rw [unAck]
  rfl

theorem holds_head {client : Client} {sent unsent : List Seg} (holds : Holds client sent unsent) :
    (client.tcb.sendBufHead = none ∧ sent ++ unsent = []) ∨
      client.tcb.sendBufHead ≠ none ∧ ∃ cell rest,
        read client.heap client.tcb.sendBufHead = some cell ∧
          sent ++ unsent = cell.val.seg :: rest := by
  obtain ⟨sentCells, unsentCells, buffer, rfl, rfl⟩ := holds
  have owns := buffer.owns
  rw [entrySegs, entrySegs, ← List.map_append]
  cases cells : sentCells ++ unsentCells with
  | nil =>
      rw [cells] at owns
      exact Or.inl ⟨owns.chain, rfl⟩
  | cons entry rest =>
      rw [cells] at owns
      obtain ⟨head, held⟩ := owns_head owns
      rw [head]
      exact Or.inr ⟨by simp, _, _, held, rfl⟩

theorem holds_window {client : Client} {sent unsent : List Seg}
    (holds : Holds client sent unsent) :
    client.tcb.unAckSegNum.toNat = sent.length ∧ sent.length ≤ gbnWindow := by
  obtain ⟨sentCells, unsentCells, buffer, rfl, rfl⟩ := holds
  have window := buffer.window
  rw [entrySegs, List.length_map]
  exact ⟨buffer.unAck, window⟩

theorem holds_unsent_nil_iff {client : Client} {sent unsent : List Seg}
    (holds : Holds client sent unsent) : client.tcb.sendBufunSent = none ↔ unsent = [] := by
  obtain ⟨sentCells, unsentCells, buffer, rfl, rfl⟩ := holds
  rw [buffer.unSent]
  cases unsentCells <;> simp [firstPtr, entrySegs]

/-- A turn of the loop of `sendBuffer_sending` ends the loop or stamps and sends the first
unsent cell. -/
theorem sending_loop_cases {now : Nat → Timeval} {turns : Nat} {client after : Client}
    {effects : List ClientEffect}
    (run : sendBufferSendingLoop now (turns + 1) client = some (after, effects)) :
    after = client ∧ effects = [] ∨ ∃ cell heap sends,
      read client.heap client.tcb.sendBufunSent = some cell ∧
      write client.heap client.tcb.sendBufunSent
        ⟨⟨cell.val.seg, (now turns).stamp 1000⟩, cell.next⟩ = some heap ∧
      sendBufferSendingLoop now turns ⟨heap, { client.tcb with
        unAckSegNum := client.tcb.unAckSegNum + 1
        sendBufunSent := if client.tcb.sendBufunSent ≠ client.tcb.sendBufTail then cell.next
          else none }⟩ = some (after, sends) ∧
      effects = .mnpSendseg client.tcb.svrNodeID.toInt32 cell.val.seg ::
        ((if client.tcb.unAckSegNum = 0 then [ClientEffect.startTimer] else []) ++ sends) := by
  rw [sendBufferSendingLoop] at run
  by_cases ready : client.tcb.unAckSegNum.toNat < gbnWindow ∧ client.tcb.sendBufunSent ≠ none
  · rw [if_pos ready] at run
    obtain ⟨cell, held, run⟩ := Option.bind_eq_some_iff.mp run
    obtain ⟨heap, written, run⟩ := Option.bind_eq_some_iff.mp run
    obtain ⟨⟨last, sends⟩, loop, run⟩ := Option.bind_eq_some_iff.mp run
    cases run
    exact Or.inr ⟨cell, heap, sends, held, written, loop, rfl⟩
  · rw [if_neg ready] at run
    cases run
    exact Or.inl ⟨rfl, rfl⟩

/-- A turn of the loop of `sendBuffer_timeout` stamps and sends the cell it is at. -/
theorem timeout_loop_turn {now : Nat → Timeval} {turns : Nat} {client after : Client}
    {buffer : Ptr} {effects : List ClientEffect}
    (run : sendBufferTimeoutLoop now (turns + 1) client buffer = some (after, effects)) :
    ∃ cell heap sends, read client.heap buffer = some cell ∧
      write client.heap buffer ⟨⟨cell.val.seg, (now turns).stamp 10000⟩, cell.next⟩ = some heap ∧
      sendBufferTimeoutLoop now turns ⟨heap, client.tcb⟩ cell.next = some (after, sends) ∧
      effects = .mnpSendseg client.tcb.svrNodeID.toInt32 cell.val.seg :: sends := by
  obtain ⟨cell, held, run⟩ := Option.bind_eq_some_iff.mp run
  obtain ⟨heap, written, run⟩ := Option.bind_eq_some_iff.mp run
  obtain ⟨⟨last, sends⟩, loop, run⟩ := Option.bind_eq_some_iff.mp run
  cases run
  exact ⟨cell, heap, sends, held, written, loop, rfl⟩

theorem count_up {count : UInt32} {cells : Nat} (same : count.toNat = cells)
    (room : cells < gbnWindow) : (count + 1).toNat = cells + 1 := by
  rw [UInt32.toNat_add, same]
  simp only [gbnWindow] at room
  simp
  omega

theorem timer_of_count {count : UInt32} {sent : List (Nat × SegBuf)}
    (same : count.toNat = sent.length) :
    timersStarted (if count = 0 then [ClientEffect.startTimer] else []) =
      if sent = [] then 1 else 0 := by
  have zero : count = 0 ↔ sent = [] := by
    rw [← UInt32.toNat_inj, same]
    exact List.length_eq_zero_iff
  by_cases nothing : sent = []
  · rw [if_pos (zero.mpr nothing), if_pos nothing]
    rfl
  · rw [if_neg fun counted => nothing (zero.mp counted), if_neg nothing]
    rfl

theorem Intact.advance {client : Client} {sent unsent : List (Nat × SegBuf)}
    {entry : Nat × SegBuf} (intact : Intact client sent (entry :: unsent)) :
    (if some entry.1 ≠ client.tcb.sendBufTail then firstPtr unsent else none) =
      firstPtr unsent := by
  rcases intact.tail with cleared | last
  · rw [cleared, if_pos (by simp)]
  · rw [last]
    exact advance_ptr intact.owns

def Client.stampUnsent (client : Client) (entry : Nat × SegBuf) (unsent : List (Nat × SegBuf))
    (sentTime : UInt32) : Client :=
  ⟨client.heap.set entry.1 (some ⟨⟨entry.2.seg, sentTime⟩, firstPtr unsent⟩),
    { client.tcb with
      unAckSegNum := client.tcb.unAckSegNum + 1
      sendBufunSent := firstPtr unsent }⟩

theorem Intact.stamp_unsent {client : Client} {sent unsent : List (Nat × SegBuf)}
    {entry : Nat × SegBuf} (intact : Intact client sent (entry :: unsent))
    (room : sent.length < gbnWindow) (sentTime : UInt32) :
    Intact (client.stampUnsent entry unsent sentTime)
      (sent ++ [(entry.1, ⟨entry.2.seg, sentTime⟩)]) unsent := by
  have sameLast : lastPtr (sent ++ [(entry.1, ⟨entry.2.seg, sentTime⟩)] ++ unsent) =
      lastPtr (sent ++ entry :: unsent) := by
    apply last_ptr_of_addresses
    simp [addresses]
  refine ⟨?_, rfl, ?_, ?_, ?_⟩
  · rw [List.append_assoc]
    exact owns_set_val intact.owns _
  · rw [sameLast]
    exact intact.tail
  · rw [List.length_append]
    exact count_up intact.unAck room
  · rw [List.length_append]
    exact room

theorem sending_turn (now : Nat → Timeval) (turns : Nat) (client : Client)
    (sent unsent : List (Nat × SegBuf)) (entry : Nat × SegBuf)
    (intact : Intact client sent (entry :: unsent)) (room : sent.length < gbnWindow) :
    ∃ next timer,
      Intact next (sent ++ [(entry.1, ⟨entry.2.seg, (now turns).stamp 1000⟩)]) unsent ∧
      next.tcb.sendBufTail = client.tcb.sendBufTail ∧ sentSegs timer = [] ∧
      timersStarted timer = (if sent = [] then 1 else 0) ∧
      next.tcb.ends = client.tcb.ends ∧ next.tcb.nextSeqNum = client.tcb.nextSeqNum ∧
      sendBufferSendingLoop now (turns + 1) client =
        (sendBufferSendingLoop now turns next).map fun later =>
          (later.1, .mnpSendseg client.tcb.svrNodeID.toInt32 entry.2.seg ::
            (timer ++ later.2)) := by
  have held := owns_read intact.owns
  have window : client.tcb.unAckSegNum.toNat < gbnWindow := intact.unAck ▸ room
  have unSent : client.tcb.sendBufunSent = some entry.1 := intact.unSent
  have advanced := intact.advance
  refine ⟨client.stampUnsent entry unsent ((now turns).stamp 1000),
    if client.tcb.unAckSegNum = 0 then [ClientEffect.startTimer] else [],
    intact.stamp_unsent room _, rfl, ?_, timer_of_count intact.unAck, rfl, rfl, ?_⟩
  · split <;> rfl
  · simp only [sendBufferSendingLoop, window, unSent, held, write, store_of_read held,
      advanced, Option.bind_eq_bind, Option.bind_some, ne_eq, reduceCtorEq, not_false_eq_true,
      and_self, if_true]
    rw [Option.map_eq_bind]
    rfl

theorem sending_stops (now : Nat → Timeval) (turns : Nat) (client : Client)
    (sent unsent : List (Nat × SegBuf)) (intact : Intact client sent unsent)
    (stopped : unsent = [] ∨ gbnWindow ≤ sent.length) :
    sendBufferSendingLoop now turns client = some (client, []) := by
  cases turns with
  | zero => rfl
  | succ turns =>
      have unAck := intact.unAck
      have unSent := intact.unSent
      have closed : ¬ (client.tcb.unAckSegNum.toNat < gbnWindow ∧
          client.tcb.sendBufunSent ≠ none) := by
        intro goes
        rcases stopped with rfl | full
        · exact goes.2 unSent
        · omega
      simp only [sendBufferSendingLoop, closed, if_false]

/-- What sending does to the cells: some of the unsent ones are moved to the sent
ones, handed to the MNP process and timed. -/
structure SendsCells (client after : Client) (effects : List ClientEffect) (turns : Nat)
    (sent unsent moved rest : List (Nat × SegBuf)) : Prop where
  intact : Intact after (sent ++ moved) rest
  cells : labels (moved ++ rest) = labels unsent
  count : moved.length = min turns (min (gbnWindow - sent.length) unsent.length)
  sends : sentSegs effects =
    (entrySegs moved).map (SendsegArg.mk client.tcb.svrNodeID.toInt32)
  timers : timersStarted effects = if sent = [] ∧ unsent ≠ [] ∧ turns ≠ 0 then 1 else 0
  tail : after.tcb.sendBufTail = client.tcb.sendBufTail
  ends : after.tcb.ends = client.tcb.ends
  next : after.tcb.nextSeqNum = client.tcb.nextSeqNum

theorem sends_nothing {client : Client} {turns : Nat} {sent unsent : List (Nat × SegBuf)}
    (intact : Intact client sent unsent)
    (stopped : turns = 0 ∨ unsent = [] ∨ gbnWindow ≤ sent.length) :
    SendsCells client client [] turns sent unsent [] unsent where
  intact := by rwa [List.append_nil]
  cells := rfl
  count := by
    rcases stopped with rfl | rfl | full
    · simp
    · simp
    · simp [Nat.sub_eq_zero_of_le full]
  sends := rfl
  timers := by
    rw [if_neg]
    · rfl
    rintro ⟨rfl, filled, goes⟩
    rcases stopped with none | nothing | full
    · exact goes none
    · exact filled nothing
    · exact absurd full (by decide)
  tail := rfl
  ends := rfl
  next := rfl

theorem sending_loop_cells (now : Nat → Timeval) (turns : Nat) (client : Client)
    (sent unsent : List (Nat × SegBuf)) (intact : Intact client sent unsent) :
    ∃ after effects moved rest, sendBufferSendingLoop now turns client = some (after, effects) ∧
      SendsCells client after effects turns sent unsent moved rest := by
  induction turns generalizing client sent unsent with
  | zero => exact ⟨client, [], [], unsent, rfl, sends_nothing intact (Or.inl rfl)⟩
  | succ turns ih =>
      by_cases stopped : unsent = [] ∨ gbnWindow ≤ sent.length
      · exact ⟨client, [], [], unsent, sending_stops now _ client sent unsent intact stopped,
          sends_nothing intact (Or.inr stopped)⟩
      · rw [not_or, Nat.not_le] at stopped
        obtain ⟨nonempty, room⟩ := stopped
        obtain ⟨entry, later, rfl⟩ := List.exists_cons_of_ne_nil nonempty
        obtain ⟨next, timer, nextIntact, nextTail, timerSends, started, nextEnds, nextSeq, step⟩ :=
          sending_turn now turns client sent later entry intact room
        obtain ⟨after, effects, moved, rest, run, facts⟩ := ih next _ _ nextIntact
        have sameNode : next.tcb.svrNodeID = client.tcb.svrNodeID :=
          congrArg ClientEnds.svrNodeID nextEnds
        let first : Nat × SegBuf := (entry.1, ⟨entry.2.seg, (now turns).stamp 1000⟩)
        refine ⟨after, _, first :: moved, rest, by rw [step, run]; rfl, ?_, ?_, ?_, ?_, ?_,
          facts.tail.trans nextTail, facts.ends.trans nextEnds, facts.next.trans nextSeq⟩
        · simpa using facts.intact
        · simpa [labels, first] using facts.cells
        · have count := facts.count
          simp only [List.length_append, List.length_cons, List.length_nil] at count ⊢
          omega
        · have sends := facts.sends
          rw [sameNode] at sends
          simp only [sentSegs] at sends timerSends ⊢
          simp [ClientEffect.sent?, entrySegs, first, sends, timerSends]
        · have none := facts.timers
          rw [if_neg (by simp)] at none
          simp only [timersStarted] at none started ⊢
          simp [List.count_append, started, none]

theorem labels_append (entries others : List (Nat × SegBuf)) :
    labels (entries ++ others) = labels entries ++ labels others :=
  List.map_append

theorem labels_segs (entries : List (Nat × SegBuf)) :
    (labels entries).map Prod.snd = entrySegs entries := by
  simp [entrySegs, labels]

theorem entry_segs_of_labels {entries others : List (Nat × SegBuf)}
    (same : labels entries = labels others) : entrySegs entries = entrySegs others := by
  rw [← labels_segs, same, labels_segs]

theorem addresses_of_labels {entries others : List (Nat × SegBuf)}
    (same : labels entries = labels others) : addresses entries = addresses others := by
  have first (entries : List (Nat × SegBuf)) :
      addresses entries = (labels entries).map Prod.fst := by
    simp [addresses, labels]
  rw [first, first, same]

theorem SendsCells.same_cells {client after : Client} {effects : List ClientEffect} {turns : Nat}
    {sent unsent moved rest : List (Nat × SegBuf)}
    (facts : SendsCells client after effects turns sent unsent moved rest) :
    labels (sent ++ moved ++ rest) = labels (sent ++ unsent) := by
  rw [List.append_assoc, labels_append, facts.cells, labels_append]

theorem SendsCells.window_filled {client after : Client} {effects : List ClientEffect}
    {sent unsent moved rest : List (Nat × SegBuf)}
    (facts : SendsCells client after effects gbnWindow sent unsent moved rest) :
    rest = [] ∨ (sent ++ moved).length = gbnWindow := by
  have count := facts.count
  have window := facts.intact.window
  have lengths := congrArg List.length facts.cells
  simp only [labels, List.length_map, List.length_append] at lengths window
  rw [List.length_append, ← List.length_eq_zero_iff]
  omega

theorem SendsCells.buffer {client after : Client} {effects : List ClientEffect} {turns : Nat}
    {sent unsent moved rest : List (Nat × SegBuf)}
    (facts : SendsCells client after effects turns sent unsent moved rest)
    (buffer : SendBuffer client sent unsent) : SendBuffer after (sent ++ moved) rest := by
  apply facts.intact.buffer
  rw [facts.tail, buffer.tail]
  apply last_ptr_of_addresses
  have same := addresses_of_labels facts.cells
  simp only [addresses, List.map_append] at same ⊢
  rw [List.append_assoc, same]

/-- `sendBuffer_sending` moves a front part of the unsent segments to the sent ones
and hands exactly these to the MNP process; it stops when nothing is left or the
window is full. -/
theorem sending_holds (now : Nat → Timeval) (client : Client) (sent unsent : List Seg)
    (holds : Holds client sent unsent) :
    ∃ after effects moved rest, sendBufferSending now client = some (after, effects) ∧
      unsent = moved ++ rest ∧ Holds after (sent ++ moved) rest ∧
      sentSegs effects = moved.map (SendsegArg.mk client.tcb.svrNodeID.toInt32) ∧
      after.tcb.ends = client.tcb.ends ∧ after.tcb.nextSeqNum = client.tcb.nextSeqNum ∧
      (rest = [] ∨ gbnWindow ≤ (sent ++ moved).length) := by
  obtain ⟨sentCells, unsentCells, buffer, rfl, rfl⟩ := holds
  obtain ⟨after, effects, moved, rest, run, facts⟩ :=
    sending_loop_cells now gbnWindow client sentCells unsentCells buffer.intact
  have segs := entry_segs_of_labels facts.cells
  rw [entrySegs, List.map_append] at segs
  refine ⟨after, effects, entrySegs moved, entrySegs rest, run, segs.symm,
    ⟨_, _, facts.buffer buffer, by simp [entrySegs], rfl⟩, facts.sends, facts.ends, facts.next, ?_⟩
  rcases facts.window_filled with nothing | full
  · exact Or.inl (congrArg entrySegs nothing)
  · apply Or.inr
    rw [← full]
    simp [entrySegs]

theorem timeout_loop_cells (now : Nat → Timeval) (client : Client)
    (done todo unsent : List (Nat × SegBuf)) (intact : Intact client (done ++ todo) unsent) :
    ∃ after effects again, sendBufferTimeoutLoop now todo.length client
        (firstPtr (todo ++ unsent)) = some (after, effects) ∧
      Intact after (done ++ again) unsent ∧ labels again = labels todo ∧
      sentSegs effects = (entrySegs todo).map (SendsegArg.mk client.tcb.svrNodeID.toInt32) ∧
      after.tcb = client.tcb := by
  induction todo generalizing client done with
  | nil => exact ⟨client, [], [], rfl, intact, rfl, rfl, rfl⟩
  | cons entry todo ih =>
      let stamped : Nat × SegBuf :=
        (entry.1, ⟨entry.2.seg, (now todo.length).stamp 10000⟩)
      have owns : Owns client.heap client.tcb.sendBufHead (done ++ entry :: (todo ++ unsent)) := by
        simpa using intact.owns
      have held := owns_read owns
      let next : Client :=
        ⟨client.heap.set entry.1 (some ⟨stamped.2, firstPtr (todo ++ unsent)⟩), client.tcb⟩
      have sameLast : lastPtr (done ++ [stamped] ++ todo ++ unsent) =
          lastPtr (done ++ entry :: todo ++ unsent) := by
        apply last_ptr_of_addresses
        simp [addresses, stamped]
      have nextIntact : Intact next ((done ++ [stamped]) ++ todo) unsent := by
        refine ⟨?_, intact.unSent, ?_, ?_, ?_⟩
        · simpa using owns_set_val owns stamped.2
        · rw [sameLast]
          exact intact.tail
        · simpa using intact.unAck
        · simpa using intact.window
      obtain ⟨after, effects, again, run, afterIntact, cells, sends, sameTcb⟩ :=
        ih next (done ++ [stamped]) nextIntact
      refine ⟨after, .mnpSendseg client.tcb.svrNodeID.toInt32 entry.2.seg :: effects,
        stamped :: again, ?_, by simpa using afterIntact, ?_, ?_, sameTcb⟩
      · have first : firstPtr (entry :: todo ++ unsent) = some entry.1 := rfl
        simp only [List.length_cons, sendBufferTimeoutLoop, first, held, write, store_of_read held,
          Option.bind_eq_bind, Option.bind_some]
        rw [run]
        rfl
      · simpa [labels, stamped] using cells
      · simp only [sentSegs] at sends ⊢
        simpa [ClientEffect.sent?, entrySegs] using sends

theorem timeout_cells (now : Nat → Timeval) (client : Client) (sent unsent : List (Nat × SegBuf))
    (intact : Intact client sent unsent) :
    ∃ after effects again, sendBufferTimeout now client = some (after, effects) ∧
      Intact after again unsent ∧ labels again = labels sent ∧
      sentSegs effects = (entrySegs sent).map (SendsegArg.mk client.tcb.svrNodeID.toInt32) ∧
      after.tcb = client.tcb := by
  obtain ⟨after, effects, again, run, afterIntact, cells, sends, sameTcb⟩ :=
    timeout_loop_cells now client [] sent unsent intact
  refine ⟨after, effects, again, ?_, afterIntact, cells, sends, sameTcb⟩
  rw [sendBufferTimeout, intact.unAck, chain_first intact.owns.chain]
  exact run

theorem timeout_holds (now : Nat → Timeval) (client : Client) (sent unsent : List Seg)
    (holds : Holds client sent unsent) :
    ∃ after effects, sendBufferTimeout now client = some (after, effects) ∧
      Holds after sent unsent ∧
      sentSegs effects = sent.map (SendsegArg.mk client.tcb.svrNodeID.toInt32) ∧
      after.tcb = client.tcb := by
  obtain ⟨sentCells, unsentCells, buffer, rfl, rfl⟩ := holds
  obtain ⟨after, effects, again, run, intact, cells, sends, sameTcb⟩ :=
    timeout_cells now client sentCells unsentCells buffer.intact
  have sameLast : lastPtr (again ++ unsentCells) = lastPtr (sentCells ++ unsentCells) := by
    apply last_ptr_of_addresses
    have same := addresses_of_labels cells
    simp only [addresses, List.map_append] at same ⊢
    rw [same]
  have afterBuffer := intact.buffer (by rw [sameTcb, buffer.tail, sameLast])
  exact ⟨after, effects, run, ⟨again, unsentCells, afterBuffer, entry_segs_of_labels cells, rfl⟩,
    sends, sameTcb⟩

theorem recv_ack_loop_stops (ackSeqnum : UInt32) (turns : Nat) {client : Client}
    {rest : List (Nat × SegBuf)} (owns : Owns client.heap client.tcb.sendBufHead rest)
    (stops : ∀ entry ∈ rest.head?, ¬ entry.2.seg.header.seqNum < ackSeqnum) :
    sendBufferRecvAckLoop ackSeqnum (turns + 1) client = some client := by
  cases rest with
  | nil =>
      have head : client.tcb.sendBufHead = none := owns.chain
      simp [sendBufferRecvAckLoop, head]
  | cons entry rest =>
      have held := owns_head owns
      have uncovered := stops entry rfl
      simp [sendBufferRecvAckLoop, held, uncovered]

theorem recv_ack_loop_turn {ackSeqnum : UInt32} (turns : Nat) {client : Client}
    {entry : Nat × SegBuf} {rest : List (Nat × SegBuf)}
    (owns : Owns client.heap client.tcb.sendBufHead (entry :: rest))
    (covered : entry.2.seg.header.seqNum < ackSeqnum) :
    sendBufferRecvAckLoop ackSeqnum (turns + 1) client =
      sendBufferRecvAckLoop ackSeqnum turns ⟨client.heap.set entry.1 none, { client.tcb with
        sendBufHead := firstPtr rest
        unAckSegNum := client.tcb.unAckSegNum - 1 }⟩ := by
  have head := owns_head owns
  simp only [sendBufferRecvAckLoop, head.1, head.2, covered, free, store_of_read head.2,
    Option.bind_eq_bind, Option.bind_some, reduceCtorEq, if_false, if_true]

theorem count_down (count : UInt32) (cells : Nat) :
    count - 1 - UInt32.ofNat cells = count - UInt32.ofNat (cells + 1) := by
  rw [UInt32.ofNat_add]
  grind

/-- The loop frees the cells in front of the first one that the acknowledgement
does not cover; the counter is an `unsigned int`. -/
theorem recv_ack_loop_cells (ackSeqnum : UInt32) (turns : Nat) (client : Client)
    (gone rest : List (Nat × SegBuf))
    (owns : Owns client.heap client.tcb.sendBufHead (gone ++ rest))
    (covered : ∀ entry ∈ gone, entry.2.seg.header.seqNum < ackSeqnum)
    (stops : ∀ entry ∈ rest.head?, ¬ entry.2.seg.header.seqNum < ackSeqnum)
    (enough : gone.length < turns) :
    ∃ heap, sendBufferRecvAckLoop ackSeqnum turns client =
        some ⟨heap, { client.tcb with
          sendBufHead := firstPtr rest
          unAckSegNum := client.tcb.unAckSegNum - UInt32.ofNat gone.length }⟩ ∧
      Owns heap (firstPtr rest) rest ∧
      (∀ address ∈ addresses gone, Freed heap address) ∧
      ∀ address, Freed client.heap address → Freed heap address := by
  obtain ⟨turns, rfl⟩ : ∃ less, turns = less + 1 := ⟨turns - 1, by omega⟩
  induction gone generalizing turns client with
  | nil =>
      have head : client.tcb.sendBufHead = firstPtr rest := chain_first owns.chain
      refine ⟨client.heap, ?_, head ▸ owns, by simp [addresses], fun _ freed => freed⟩
      rw [recv_ack_loop_stops ackSeqnum turns owns stops, ← head, List.length_nil]
      simp
  | cons entry gone ih =>
      have head := owns_head owns
      have first := recv_ack_loop_turn turns owns (covered entry (by simp))
      rw [List.length_cons] at enough
      obtain ⟨turns, rfl⟩ : ∃ less, turns = less + 1 := ⟨turns - 1, by omega⟩
      let next : Client := ⟨client.heap.set entry.1 none, { client.tcb with
        sendBufHead := firstPtr (gone ++ rest)
        unAckSegNum := client.tcb.unAckSegNum - 1 }⟩
      obtain ⟨heap, run, nextOwns, freed, stays⟩ := ih next (owns_free_head owns)
        (fun item member => covered item (by simp [member])) turns (by omega)
      refine ⟨heap, ?_, nextOwns, ?_, fun address gone =>
        stays address (freed_set gone head.2 none)⟩
      · rw [List.length_cons, ← count_down]
        exact first.trans run
      · intro address member
        rcases List.mem_cons.mp member with rfl | behind
        · exact stays _ (freed_free head.2)
        · exact freed address behind

/-- What an acknowledgement does that frees the cells of `gone` and leaves those of
`rest`; the tail pointer is cleared when the number covers the last cell. -/
structure Removes (ackSeqnum : UInt32) (client acknowledged : Client)
    (gone rest : List (Nat × SegBuf)) : Prop where
  owns : Owns acknowledged.heap acknowledged.tcb.sendBufHead rest
  freed : ∀ address ∈ addresses gone, Freed acknowledged.heap address
  stays : ∀ address, Freed client.heap address → Freed acknowledged.heap address
  tail : ∀ last ∈ (gone ++ rest).getLast?, acknowledged.tcb.sendBufTail =
    if last.2.seg.header.seqNum < ackSeqnum then none else client.tcb.sendBufTail
  unSent : acknowledged.tcb.sendBufunSent = client.tcb.sendBufunSent
  unAck : acknowledged.tcb.unAckSegNum = client.tcb.unAckSegNum - UInt32.ofNat gone.length
  ends : acknowledged.tcb.ends = client.tcb.ends
  next : acknowledged.tcb.nextSeqNum = client.tcb.nextSeqNum

theorem recv_ack_removes (client : Client) (gone rest : List (Nat × SegBuf)) (ackSeqnum : UInt32)
    (owns : Owns client.heap client.tcb.sendBufHead (gone ++ rest))
    (tail : client.tcb.sendBufTail = lastPtr (gone ++ rest)) (filled : gone ++ rest ≠ [])
    (covered : ∀ entry ∈ gone, entry.2.seg.header.seqNum < ackSeqnum)
    (stops : ∀ entry ∈ rest.head?, ¬ entry.2.seg.header.seqNum < ackSeqnum) :
    ∃ acknowledged, sendBufferRecvAck client ackSeqnum = some acknowledged ∧
      Removes ackSeqnum client acknowledged gone rest := by
  obtain ⟨front, last, split⟩ := (List.eq_nil_or_concat' _).resolve_left filled
  have lastRead : read client.heap client.tcb.sendBufTail = some ⟨last.2, none⟩ := by
    rw [tail, split, last_ptr_concat]
    rw [split] at owns
    exact owns_read owns
  let newTail := if last.2.seg.header.seqNum < ackSeqnum then none else client.tcb.sendBufTail
  have table : (if ackSeqnum > last.2.seg.header.seqNum then
      { client.tcb with sendBufTail := none } else client.tcb) =
      { client.tcb with sendBufTail := newTail } := by
    simp only [gt_iff_lt, newTail]
    split_ifs <;> rfl
  have fits := owns_length_le owns
  rw [List.length_append] at fits
  obtain ⟨heap, run, restOwns, freed, stays⟩ := recv_ack_loop_cells ackSeqnum
    (client.heap.length + 1) ⟨client.heap, { client.tcb with sendBufTail := newTail }⟩ gone rest
    owns covered stops (by omega)
  refine ⟨⟨heap, { client.tcb with
      sendBufTail := newTail
      sendBufHead := firstPtr rest
      unAckSegNum := client.tcb.unAckSegNum - UInt32.ofNat gone.length }⟩, ?_,
    ⟨restOwns, freed, stays, ?_, rfl, rfl, rfl, rfl⟩⟩
  · simp only [sendBufferRecvAck, lastRead, Option.bind_eq_bind, Option.bind_some, table]
    exact run
  · intro other member
    rw [split, List.getLast?_concat] at member
    obtain rfl := Option.some.inj member
    rfl

theorem removes_count {ackSeqnum : UInt32} {client acknowledged : Client}
    {gone rest : List (Nat × SegBuf)} (removes : Removes ackSeqnum client acknowledged gone rest)
    {kept : Nat} (unAck : client.tcb.unAckSegNum.toNat = gone.length + kept)
    (window : gone.length + kept ≤ gbnWindow) : acknowledged.tcb.unAckSegNum.toNat = kept := by
  rw [gbnWindow] at window
  have count : (UInt32.ofNat gone.length).toNat = gone.length :=
    UInt32.toNat_ofNat_of_lt' (by rw [UInt32.size]; omega)
  have fewer : UInt32.ofNat gone.length ≤ client.tcb.unAckSegNum := by
    rw [UInt32.le_iff_toNat_le, count, unAck]
    exact Nat.le_add_right _ _
  rw [removes.unAck, UInt32.toNat_sub_of_le _ _ fewer, count, unAck, Nat.add_sub_cancel_left]

theorem recv_ack_cells (client : Client) (gone kept unsent : List (Nat × SegBuf))
    (ackSeqnum : UInt32) (buffer : SendBuffer client (gone ++ kept) unsent)
    (filled : gone ++ kept ++ unsent ≠ [])
    (covered : ∀ entry ∈ gone, entry.2.seg.header.seqNum < ackSeqnum)
    (stops : ∀ entry ∈ kept ++ unsent, ¬ entry.2.seg.header.seqNum < ackSeqnum) :
    ∃ after, sendBufferRecvAck client ackSeqnum = some after ∧ SendBuffer after kept unsent ∧
      after.tcb.ends = client.tcb.ends ∧ after.tcb.nextSeqNum = client.tcb.nextSeqNum := by
  have owns := buffer.owns
  have tail := buffer.tail
  have unAck := buffer.unAck
  have window := buffer.window
  rw [List.append_assoc] at owns tail filled
  rw [List.length_append] at unAck window
  obtain ⟨after, run, removes⟩ := recv_ack_removes client gone (kept ++ unsent) ackSeqnum owns tail
    filled covered fun entry member => stops entry (List.mem_of_mem_head? member)
  refine ⟨after, run, ⟨removes.owns, removes.unSent.trans buffer.unSent, ?_,
    removes_count removes unAck window, by omega⟩, removes.ends, removes.next⟩
  rcases List.eq_nil_or_concat' (kept ++ unsent) with nothing | ⟨front, last, split⟩
  · rw [nothing, List.append_nil] at filled
    obtain ⟨front, last, rfl⟩ := (List.eq_nil_or_concat' gone).resolve_left filled
    rw [nothing, removes.tail last (by simp [nothing]), if_pos (covered last (by simp))]
    rfl
  · have isLast : last ∈ (gone ++ (kept ++ unsent)).getLast? := by
      rw [split, ← List.append_assoc, List.getLast?_concat]
      rfl
    rw [removes.tail last isLast, if_neg (stops last (by simp [split])), tail, split,
      ← List.append_assoc, last_ptr_concat, last_ptr_concat]

theorem recv_ack_holds (client : Client) (gone kept unsent : List Seg) (ackSeqnum : UInt32)
    (holds : Holds client (gone ++ kept) unsent) (filled : gone ++ kept ++ unsent ≠ [])
    (covered : ∀ seg ∈ gone, seg.header.seqNum < ackSeqnum)
    (stops : ∀ seg ∈ kept ++ unsent, ¬ seg.header.seqNum < ackSeqnum) :
    ∃ after, sendBufferRecvAck client ackSeqnum = some after ∧ Holds after kept unsent ∧
      after.tcb.ends = client.tcb.ends ∧ after.tcb.nextSeqNum = client.tcb.nextSeqNum := by
  obtain ⟨sentCells, unsentCells, buffer, segs, rfl⟩ := holds
  obtain ⟨goneCells, keptCells, rfl, rfl, rfl⟩ := List.map_eq_append_iff.mp segs
  have stopsCells : ∀ entry ∈ keptCells ++ unsentCells,
      ¬ entry.2.seg.header.seqNum < ackSeqnum := by
    intro entry member
    apply stops
    rw [entrySegs, ← List.map_append]
    exact List.mem_map_of_mem member
  have filledCells : goneCells ++ keptCells ++ unsentCells ≠ [] := by
    intro empty
    apply filled
    rw [entrySegs, ← List.map_append, ← List.map_append, empty]
    rfl
  obtain ⟨after, run, afterBuffer, ends, next⟩ := recv_ack_cells client goneCells keptCells
    unsentCells ackSeqnum buffer filledCells
    (fun entry member => covered _ (List.mem_map_of_mem member)) stopsCells
  exact ⟨after, run, ⟨keptCells, unsentCells, afterBuffer, rfl, rfl⟩, ends, next⟩

end MiniOverlay
