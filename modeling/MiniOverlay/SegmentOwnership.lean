import MiniOverlay.SendBufferInvariant

/-!
# Who frees a queued segment

A `segBuf_t` is in the list from `sendBufHead` until `sendBufferRecvAck` or
`sendBuffer_destroy` frees it. Freeing, reading or sending a cell that was freed has no
result, so operations that have one never do it; what remains is that no cell leaves the
list in another way.
-/

namespace MiniOverlay

open LinkedHeap

set_option autoImplicit false

/-- What a part of an operation does to the list: the cells of `gone` leave it at the front
and are freed, those of `new` come behind the others. -/
structure Turnover (client after : Client) (new gone : List Nat) : Prop where
  frees : Frees client.heap after.heap gone
  list : ∀ nodes, Owns client.heap client.tcb.sendBufHead nodes →
    ∃ left, Owns after.heap after.tcb.sendBufHead left ∧
      addresses nodes ++ new = gone ++ addresses left

theorem turnover_refl (client : Client) : Turnover client client [] [] :=
  ⟨frees_refl client.heap, fun nodes owns => ⟨nodes, owns, List.append_nil _⟩⟩

theorem turnover_trans {client middle after : Client} {gone more : List Nat}
    (first : Turnover client middle [] gone) (second : Turnover middle after [] more) :
    Turnover client after [] (gone ++ more) := by
  refine ⟨frees_trans first.frees second.frees, fun nodes owns => ?_⟩
  obtain ⟨some, someOwns, split⟩ := first.list nodes owns
  obtain ⟨left, leftOwns, splitAgain⟩ := second.list some someOwns
  refine ⟨left, leftOwns, ?_⟩
  rw [List.append_nil] at split splitAgain ⊢
  rw [split, splitAgain, List.append_assoc]

theorem append_frees {client after : Client} {segmentBuffer : Ptr}
    (appended : sendBufferAppendSegment client segmentBuffer = some after) :
    Frees client.heap after.heap [] := by
  obtain ⟨cell, _, appended⟩ := Option.bind_eq_some_iff.mp appended
  by_cases empty : client.tcb.sendBufHead = none
  · rw [if_pos empty] at appended
    obtain ⟨heap, written, appended⟩ := Option.bind_eq_some_iff.mp appended
    cases appended
    exact frees_write written
  · rw [if_neg empty] at appended
    obtain ⟨heap, written, appended⟩ := Option.bind_eq_some_iff.mp appended
    obtain ⟨last, _, appended⟩ := Option.bind_eq_some_iff.mp appended
    obtain ⟨linked, link, appended⟩ := Option.bind_eq_some_iff.mp appended
    cases appended
    exact frees_trans (frees_write written) (frees_write link)

theorem queue_turnover {client after : Client} {sent unsent : List (Nat × SegBuf)}
    (buffer : SendBuffer client sent unsent) {seg : Seg}
    (queued : queueSegment client seg = some after) :
    Turnover client after [client.heap.length] [] := by
  refine ⟨frees_trans (frees_alloc client.heap _) (append_frees queued), fun nodes owns => ?_⟩
  obtain rfl := chain_unique owns.chain buffer.owns.chain
  obtain ⟨next, run, appends⟩ := queue_cells client _ seg owns buffer.tail
  obtain rfl := Option.some.inj (queued.symm.trans run)
  exact ⟨_, appends.owns, by simp [addresses]⟩

theorem sending_loop_frees (now : Nat → Timeval) (turns : Nat) {client after : Client}
    {effects : List ClientEffect}
    (run : sendBufferSendingLoop now turns client = some (after, effects)) :
    Frees client.heap after.heap [] := by
  induction turns generalizing client effects with
  | zero =>
      cases run
      exact frees_refl _
  | succ turns ih =>
      rcases sending_loop_cases run with ⟨rfl, _⟩ | ⟨cell, heap, sends, _, written, later, _⟩
      · exact frees_refl _
      · exact frees_trans (frees_write written) (ih later)

theorem timeout_loop_frees (now : Nat → Timeval) (turns : Nat) {client after : Client}
    {buffer : Ptr} {effects : List ClientEffect}
    (run : sendBufferTimeoutLoop now turns client buffer = some (after, effects)) :
    Frees client.heap after.heap [] := by
  induction turns generalizing client buffer effects with
  | zero =>
      cases run
      exact frees_refl _
  | succ turns ih =>
      obtain ⟨cell, heap, sends, _, written, later, _⟩ := timeout_loop_turn run
      exact frees_trans (frees_write written) (ih later)

theorem sending_turnover {now : Nat → Timeval} {client after : Client}
    {effects : List ClientEffect} {sent unsent : List (Nat × SegBuf)}
    (buffer : SendBuffer client sent unsent)
    (sending : sendBufferSending now client = some (after, effects)) :
    Turnover client after [] [] := by
  refine ⟨sending_loop_frees now gbnWindow sending, fun nodes owns => ?_⟩
  obtain rfl := chain_unique owns.chain buffer.owns.chain
  obtain ⟨next, effects', moved, rest, run, facts⟩ :=
    sending_loop_cells now gbnWindow client sent unsent buffer.intact
  rw [sendBufferSending, run] at sending
  cases sending
  have same := addresses_of_labels facts.cells
  refine ⟨_, facts.intact.owns, ?_⟩
  simp only [addresses, List.map_append, List.append_nil, List.nil_append] at same ⊢
  rw [List.append_assoc, same]

theorem timeout_turnover {now : Nat → Timeval} {client after : Client}
    {effects : List ClientEffect} {sent unsent : List (Nat × SegBuf)}
    (buffer : SendBuffer client sent unsent)
    (again : sendBufferTimeout now client = some (after, effects)) :
    Turnover client after [] [] := by
  refine ⟨timeout_loop_frees now _ again, fun nodes owns => ?_⟩
  obtain rfl := chain_unique owns.chain buffer.owns.chain
  obtain ⟨next, effects', stamped, run, intact, cells, _⟩ :=
    timeout_cells now client sent unsent buffer.intact
  rw [run] at again
  cases again
  have same := addresses_of_labels cells
  refine ⟨_, intact.owns, ?_⟩
  simp only [addresses, List.map_append, List.append_nil, List.nil_append] at same ⊢
  rw [same]

/-- The loop of `sendBufferRecvAck` frees cells at the front of the list. -/
theorem recv_ack_loop_turnover (ackSeqnum : UInt32) (turns : Nat) {client after : Client}
    (run : sendBufferRecvAckLoop ackSeqnum turns client = some after)
    {nodes : List (Nat × SegBuf)} (owns : Owns client.heap client.tcb.sendBufHead nodes) :
    ∃ gone left, nodes = gone ++ left ∧ Owns after.heap after.tcb.sendBufHead left ∧
      Frees client.heap after.heap (addresses gone) := by
  induction turns generalizing client nodes with
  | zero => cases run
  | succ turns ih =>
      rw [sendBufferRecvAckLoop] at run
      by_cases empty : client.tcb.sendBufHead = none
      · rw [if_pos empty] at run
        cases run
        exact ⟨[], nodes, rfl, owns, frees_refl _⟩
      · rw [if_neg empty] at run
        obtain ⟨cell, held, run⟩ := Option.bind_eq_some_iff.mp run
        split_ifs at run with covered
        · obtain ⟨heap, freed, run⟩ := Option.bind_eq_some_iff.mp run
          cases nodes with
          | nil => exact absurd owns.chain empty
          | cons entry nodes =>
              obtain ⟨head, here⟩ := owns_head owns
              rw [head, free, store_of_read here] at freed
              cases freed
              rw [head, here] at held
              cases held
              obtain ⟨gone, left, rfl, leftOwns, frees⟩ := ih run (owns_free_head owns)
              exact ⟨entry :: gone, left, rfl, leftOwns, frees_trans (frees_free here) frees⟩
        · cases run
          exact ⟨[], nodes, rfl, owns, frees_refl _⟩

theorem recv_ack_turnover {client after : Client} {ackSeqnum : UInt32}
    {nodes : List (Nat × SegBuf)} (owns : Owns client.heap client.tcb.sendBufHead nodes)
    (acknowledged : sendBufferRecvAck client ackSeqnum = some after) :
    ∃ gone, Turnover client after [] gone := by
  obtain ⟨tail, _, run⟩ := Option.bind_eq_some_iff.mp acknowledged
  have sameHead : (if ackSeqnum > tail.val.seg.header.seqNum then
      { client.tcb with sendBufTail := none } else client.tcb).sendBufHead =
        client.tcb.sendBufHead := by
    split_ifs <;> rfl
  have cleared : Owns client.heap (if ackSeqnum > tail.val.seg.header.seqNum then
      { client.tcb with sendBufTail := none } else client.tcb).sendBufHead nodes := by
    rw [sameHead]
    exact owns
  obtain ⟨gone, left, split, leftOwns, frees⟩ := recv_ack_loop_turnover ackSeqnum _ run cleared
  refine ⟨addresses gone, frees, fun others otherOwns => ⟨left, leftOwns, ?_⟩⟩
  obtain rfl := chain_unique owns.chain otherOwns.chain
  rw [List.append_nil, split, addresses, List.map_append]
  rfl

/-- The loop of `sendBuffer_destroy` frees the cells in front of the one it is told to stop
at, and reaches that one. -/
theorem destroy_loop_frees (turns : Nat) (heap : Heap SegBuf) (buffer : Ptr)
    (front back : List (Nat × SegBuf)) (owns : Owns heap buffer (front ++ back))
    (enough : front.length < turns) :
    ∃ after, sendBufferDestroyLoop (firstPtr back) turns heap buffer = some after ∧
      Owns after (firstPtr back) back ∧ Frees heap after (addresses front) := by
  induction front generalizing turns heap buffer with
  | nil =>
      obtain ⟨turns, rfl⟩ := Nat.exists_eq_add_of_lt enough
      have here : buffer = firstPtr back := chain_first owns.chain
      rw [here] at owns ⊢
      exact ⟨heap, by rw [sendBufferDestroyLoop, if_pos rfl], owns, frees_refl _⟩
  | cons entry front ih =>
      obtain ⟨turns, rfl⟩ : ∃ less, turns = less + 1 := ⟨turns - 1, by omega⟩
      obtain ⟨rfl, held⟩ := owns_head owns
      have apart : some entry.1 ≠ firstPtr back := by
        have before := take_while_before owns.nodup
        rw [List.cons_append, List.takeWhile_cons] at before
        by_contra same
        simp [same] at before
      rw [List.length_cons] at enough
      obtain ⟨after, run, afterOwns, frees⟩ := ih turns (heap.set entry.1 none)
        (firstPtr (front ++ back)) (owns_free_head owns) (by omega)
      refine ⟨after, ?_, afterOwns, frees_trans (frees_free held) frees⟩
      rw [sendBufferDestroyLoop, if_neg apart]
      simp only [held, free, store_of_read held, Option.bind_eq_bind, Option.bind_some]
      exact run

structure EmptyBuffer (table : ClientTcb) : Prop where
  head : table.sendBufHead = none
  unSent : table.sendBufunSent = none
  tail : table.sendBufTail = none
  unAck : table.unAckSegNum = 0

def ClientTcb.emptied (table : ClientTcb) : ClientTcb :=
  { table with
    sendBufunSent := none
    sendBufHead := none
    sendBufTail := none
    unAckSegNum := 0 }

theorem destroy_frees {client : Client} {nodes : List (Nat × SegBuf)}
    (owns : Owns client.heap client.tcb.sendBufHead nodes)
    (tail : client.tcb.sendBufTail = lastPtr nodes) :
    ∃ destroyed, sendBufferDestroy client = some destroyed ∧ EmptyBuffer destroyed.tcb ∧
      Frees client.heap destroyed.heap (addresses nodes) := by
  have fits := owns_length_le owns
  rcases List.eq_nil_or_concat' nodes with rfl | ⟨front, last, rfl⟩
  · obtain ⟨after, run, _, frees⟩ := destroy_loop_frees (client.heap.length + 1) client.heap
      client.tcb.sendBufHead [] [] owns (by simp)
    have absent : client.tcb.sendBufTail = firstPtr ([] : List (Nat × SegBuf)) := tail
    refine ⟨⟨after, client.tcb.emptied⟩, ?_, ⟨rfl, rfl, rfl, rfl⟩, frees⟩
    simp only [sendBufferDestroy, absent, run, Option.bind_eq_bind, Option.bind_some]
    rfl
  · rw [List.length_append, List.length_singleton] at fits
    obtain ⟨after, run, lastOwns, frees⟩ := destroy_loop_frees (client.heap.length + 1)
      client.heap client.tcb.sendBufHead front [last] owns (by omega)
    obtain ⟨_, held⟩ := owns_head lastOwns
    have present : client.tcb.sendBufTail = some last.1 := by rw [tail, last_ptr_concat]
    have joined : addresses (front ++ [last]) = addresses front ++ [last.1] := by
      rw [addresses, List.map_append]
      rfl
    refine ⟨⟨after.set last.1 none, client.tcb.emptied⟩, ?_, ⟨rfl, rfl, rfl, rfl⟩, ?_⟩
    rotate_left
    · rw [joined]
      exact frees_trans frees (frees_free held)
    have stop : firstPtr [last] = some last.1 := rfl
    rw [stop] at run
    simp only [sendBufferDestroy, present, run, free, store_of_read held, Option.bind_eq_bind,
      Option.bind_some, reduceCtorEq, if_false]
    rfl

/-- The address that `malloc` gives a segment that is appended. -/
def BufferEvent.allocates (client : Client) : BufferEvent → List Nat
  | .append _ => [client.heap.length]
  | .sending _ => []
  | .timeout _ => []
  | .dataack _ _ _ => []

/-- The clients that operations lead to, with the bytes and the cells appended on the way and
the cells freed, in order. -/
inductive BufferHistory (start : Client) : Client → Nat → List Nat → List Nat → Prop where
  | start : BufferHistory start start 0 [] []
  | step {client after : Client} {bytes : Nat} {appended freed : List Nat} (event : BufferEvent)
      (before : BufferHistory start client bytes appended freed) (allowed : event.Allowed client)
      (stepped : client.bufferStep event = some after) :
      BufferHistory start after (bytes + event.bytes) (appended ++ event.allocates client)
        (freed ++ freedIn client.heap after.heap)

theorem history_reaches {start client : Client} {bytes : Nat} {appended freed : List Nat}
    (history : BufferHistory start client bytes appended freed) :
    BufferReaches start client bytes := by
  induction history with
  | start => exact .start
  | step event before allowed stepped ih => exact .step event ih allowed stepped

/-- Every cell that was appended is in the list or was freed, once. -/
structure Accounted (client : Client) (appended freed : List Nat) : Prop where
  shared : ∀ nodes, Owns client.heap client.tcb.sendBufHead nodes →
    appended.Perm (freed ++ addresses nodes)
  distinct : appended.Nodup
  allocated : ∀ address ∈ appended, address < client.heap.length

theorem event_turnover {client after : Client} {bytes : Nat} {event : BufferEvent}
    (keeps : KeepsNumbers client bytes) (allowed : event.Allowed client)
    (stepped : client.bufferStep event = some after) :
    ∃ gone, Turnover client after (event.allocates client) gone := by
  obtain ⟨sent, unsent, numbers⟩ := keeps
  obtain ⟨sentCells, unsentCells, buffer, _, _⟩ := numbers.1
  cases event with
  | append seg => exact ⟨[], queue_turnover buffer stepped⟩
  | sending now =>
      obtain ⟨⟨next, effects⟩, run, same⟩ := Option.map_eq_some_iff.mp stepped
      cases same
      exact ⟨[], sending_turnover buffer run⟩
  | timeout now =>
      obtain ⟨⟨next, effects⟩, run, same⟩ := Option.map_eq_some_iff.mp stepped
      cases same
      exact ⟨[], timeout_turnover buffer run⟩
  | dataack now sourceNodeID seg =>
      obtain ⟨⟨next, effects⟩, handled, same⟩ := Option.map_eq_some_iff.mp stepped
      cases same
      rcases dataack_cases now sourceNodeID seg allowed.dataack handled with
        ⟨rfl, _⟩ | ⟨head, acknowledged, run, sending⟩
      · exact ⟨[], turnover_refl _⟩
      · obtain ⟨gone, removed⟩ := recv_ack_turnover buffer.owns run
        obtain ⟨shrunk, _, _, run', _, shrunkNumbers⟩ :=
          recv_ack_numbers numbers (numbers_filled numbers head) allowed.sent
        obtain rfl := Option.some.inj (run.symm.trans run')
        obtain ⟨_, _, shrunkBuffer, _, _⟩ := shrunkNumbers.1
        exact ⟨gone ++ [], turnover_trans removed (sending_turnover shrunkBuffer sending)⟩

theorem allocates_fresh (client : Client) (event : BufferEvent) :
    (event.allocates client).Nodup ∧
      ∀ address ∈ event.allocates client, address = client.heap.length := by
  cases event <;> simp [BufferEvent.allocates]

theorem turnover_allocated {client after : Client} {new gone : List Nat}
    (turnover : Turnover client after new gone) {nodes : List (Nat × SegBuf)}
    (owns : Owns client.heap client.tcb.sendBufHead nodes) :
    ∀ address ∈ new, address < after.heap.length := by
  obtain ⟨left, leftOwns, split⟩ := turnover.list nodes owns
  intro address member
  have either : address ∈ gone ++ addresses left := by
    rw [← split]
    exact List.mem_append_right _ member
  rcases List.mem_append.mp either with isGone | isLeft
  · exact freed_lt ((turnover.frees.freed address).mpr (Or.inr isGone))
  · exact chain_address_lt leftOwns.chain address isLeft

theorem step_accounted {client after : Client} {bytes : Nat} {appended freed : List Nat}
    {event : BufferEvent} (accounted : Accounted client appended freed)
    (keeps : KeepsNumbers client bytes) (allowed : event.Allowed client)
    (stepped : client.bufferStep event = some after) :
    Accounted after (appended ++ event.allocates client)
      (freed ++ freedIn client.heap after.heap) := by
  obtain ⟨gone, turnover⟩ := event_turnover keeps allowed stepped
  obtain ⟨_, _, numbers⟩ := keeps
  obtain ⟨sentCells, unsentCells, buffer, _, _⟩ := numbers.1
  obtain ⟨left, leftOwns, split⟩ := turnover.list _ buffer.owns
  obtain ⟨once, fresh⟩ := allocates_fresh client event
  refine ⟨fun nodes owns => ?_, ?_, fun address member => ?_⟩
  · obtain rfl := chain_unique owns.chain leftOwns.chain
    calc
      (appended ++ event.allocates client).Perm
          (freed ++ addresses (sentCells ++ unsentCells) ++ event.allocates client) :=
        (accounted.shared _ buffer.owns).append_right _
      _ = freed ++ (gone ++ addresses nodes) := by rw [List.append_assoc, split]
      _ = freed ++ gone ++ addresses nodes := (List.append_assoc _ _ _).symm
      (freed ++ gone ++ addresses nodes).Perm
          (freed ++ freedIn client.heap after.heap ++ addresses nodes) :=
        ((freed_in_perm turnover.frees).symm.append_left freed).append_right _
  · refine List.nodup_append.mpr ⟨accounted.distinct, once, ?_⟩
    intro old isOld new isNew
    have bounded := accounted.allocated old isOld
    rw [fresh new isNew]
    exact Nat.ne_of_lt bounded
  · rcases List.mem_append.mp member with isOld | isNew
    · exact Nat.lt_of_lt_of_le (accounted.allocated address isOld) turnover.frees.length
    · exact turnover_allocated turnover buffer.owns address isNew

theorem fresh_accounted {start : Client} (fresh : FreshBuffer start.tcb) :
    Accounted start [] [] := by
  refine ⟨fun nodes owns => ?_, List.nodup_nil, by simp⟩
  have empty : Owns start.heap start.tcb.sendBufHead [] := ⟨fresh.head, List.nodup_nil⟩
  obtain rfl := chain_unique owns.chain empty.chain
  exact List.Perm.refl _

theorem history_accounted {start client : Client} {bytes : Nat} {appended freed : List Nat}
    (fresh : FreshBuffer start.tcb) (history : BufferHistory start client bytes appended freed)
    (fewer : bytes < UInt32.size) : Accounted client appended freed := by
  induction history with
  | start => exact fresh_accounted fresh
  | step event before allowed stepped ih =>
      have less := Nat.lt_of_le_of_lt (Nat.le_add_right _ _) fewer
      exact step_accounted (ih less) (reaches_numbers fresh (history_reaches before) less) allowed
        stepped

/-- What `sendBuffer_destroy` ends a run with: the buffer is empty, and the cells freed by now
are the ones that were appended, each of them once. -/
structure FreesAll (client destroyed : Client) (appended freed : List Nat) : Prop where
  empty : EmptyBuffer destroyed.tcb
  distinct : appended.Nodup
  once : (freed ++ freedIn client.heap destroyed.heap).Perm appended

theorem destroy_frees_all {client : Client} {bytes : Nat} {appended freed : List Nat}
    (keeps : KeepsNumbers client bytes) (accounted : Accounted client appended freed) :
    ∃ destroyed, sendBufferDestroy client = some destroyed ∧
      FreesAll client destroyed appended freed := by
  obtain ⟨_, _, numbers⟩ := keeps
  obtain ⟨sentCells, unsentCells, buffer, _, _⟩ := numbers.1
  obtain ⟨destroyed, run, empty, frees⟩ := destroy_frees buffer.owns buffer.tail
  refine ⟨destroyed, run, empty, accounted.distinct, ?_⟩
  calc
    (freed ++ freedIn client.heap destroyed.heap).Perm
        (freed ++ addresses (sentCells ++ unsentCells)) := (freed_in_perm frees).append_left freed
    List.Perm _ appended := (accounted.shared _ buffer.owns).symm

/-- After any operations every further one has a result, unless it prints the segment of an
empty buffer: no cell is freed twice, and none is sent or read after it was freed. So has
`sendBuffer_destroy`, and after it every appended cell was freed exactly once. -/
theorem segments_freed_once (start client : Client) (bytes : Nat) (appended freed : List Nat)
    (fresh : FreshBuffer start.tcb) (history : BufferHistory start client bytes appended freed)
    (fewer : bytes < UInt32.size) :
    (∀ event : BufferEvent, event.Allowed client → bytes + event.bytes < UInt32.size →
      (∃ after, client.bufferStep event = some after) ∨
        ¬ event.Quiet client ∧ client.tcb.sendBufHead = none) ∧
    ∃ destroyed, sendBufferDestroy client = some destroyed ∧
      FreesAll client destroyed appended freed := by
  have keeps := reaches_numbers fresh (history_reaches history) fewer
  refine ⟨fun event allowed room => ?_, ?_⟩
  · by_cases quiet : event.Quiet client
    · exact Or.inl (buffer_step_defined keeps event allowed quiet room)
    · refine Or.inr ⟨quiet, ?_⟩
      cases event with
      | dataack now sourceNodeID seg => exact (not_not.mp quiet).empty
      | append seg => exact absurd trivial quiet
      | sending now => exact absurd trivial quiet
      | timeout now => exact absurd trivial quiet
  · exact destroy_frees_all keeps (history_accounted fresh history fewer)

theorem first_acked_history : BufferHistory establishedClient firstAcked 2 [0, 1] [0] := by
  have queued := BufferHistory.start.step (.append oneByteSegment) (Nat.le_refl 1)
    (rfl : establishedClient.bufferStep _ = some _)
  have sent := queued.step (.sending stoppedClock) trivial (rfl : _ = some sentClient)
  have more := sent.step (.append oneByteSegment) (Nat.le_refl 1) (rfl : _ = some secondUnsent)
  exact more.step (.dataack stoppedClock 2 oneByteDataack) one_byte_dataack_allowed
    one_byte_dataack_handled

/-- A DATAACK freed the first of two segments, `sendBuffer_destroy` frees the other. -/
theorem first_acked_freed :
    BufferHistory establishedClient firstAcked 2 [0, 1] [0] ∧
      ∃ destroyed, sendBufferDestroy firstAcked = some destroyed ∧
        FreesAll firstAcked destroyed [0, 1] [0] :=
  ⟨first_acked_history, (segments_freed_once establishedClient firstAcked 2 _ _
    established_buffer_fresh first_acked_history (by decide)).2⟩

end MiniOverlay
