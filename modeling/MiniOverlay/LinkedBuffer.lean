import MiniOverlay.StrayAcknowledgement

/-!
# Pointers of the send buffer after any run

Whatever segments came in, the list at `sendBufHead` is in order, and `sendBufunSent`
is null, leads into it or leads to a cell that was freed. From this it follows which
segments `seghandler` can handle: it has no result exactly when it prints the number
of an empty buffer, when it reads a cleared tail pointer, and when an acknowledgement
opens the window over a freed cell.
-/

namespace MiniOverlay

open LinkedHeap FixedByteCodec

set_option autoImplicit false

inductive UnsentLeads (client : Client) (cells : List (Nat × SegBuf)) : Prop where
  | nowhere (unSent : client.tcb.sendBufunSent = none)
  | inside (address : Nat) (unSent : client.tcb.sendBufunSent = some address)
      (member : address ∈ addresses cells)
  | gone (address : Nat) (unSent : client.tcb.sendBufunSent = some address)
      (freed : Freed client.heap address)

structure LinkedBuffer (client : Client) (cells : List (Nat × SegBuf)) : Prop where
  owns : Owns client.heap client.tcb.sendBufHead cells
  tail : client.tcb.sendBufTail = none ∨ client.tcb.sendBufTail = lastPtr cells
  unSent : UnsentLeads client cells

def LinkedClient (client : Client) : Prop := ∃ cells, LinkedBuffer client cells

/-- The acknowledgement opens the window while `sendBufunSent` leads to a cell that is
freed, or was freed before. -/
def ReopensFreed (client : Client) (ackNum : UInt32) : Prop :=
  ∃ cells address, Owns client.heap client.tcb.sendBufHead cells ∧
    client.tcb.sendBufunSent = some address ∧
    (Freed client.heap address ∨ address ∈ addresses (cells.takeWhile (covers ackNum))) ∧
    (client.tcb.unAckSegNum -
      UInt32.ofNat (cells.takeWhile (covers ackNum)).length).toNat < gbnWindow

/-- Handling the segment follows no pointer to a cell that does not exist. -/
structure SafeFor (client : Client) (sourceNodeID : Int32) (seg : Seg) : Prop where
  message : ¬ PrintsEmptyBuffer client.tcb sourceNodeID seg
  tail : ReachesHead client sourceNodeID seg → client.tcb.sendBufTail ≠ none
  unSent : ReachesHead client sourceNodeID seg → ¬ ReopensFreed client seg.header.ackNum

theorem linked_fresh {client : Client} (fresh : FreshBuffer client.tcb) :
    LinkedBuffer client [] :=
  ⟨⟨fresh.head, List.nodup_nil⟩, Or.inl fresh.tail, .nowhere fresh.unSent⟩

theorem LinkedBuffer.pointers {client after : Client} {cells : List (Nat × SegBuf)}
    (buffer : LinkedBuffer client cells)
    (heap : ∀ entries, Owns client.heap client.tcb.sendBufHead entries →
      Owns after.heap client.tcb.sendBufHead entries)
    (stays : ∀ address, Freed client.heap address → Freed after.heap address)
    (same : SamePointers client.tcb after.tcb) : LinkedBuffer after cells := by
  refine ⟨?_, ?_, ?_⟩
  · rw [same.head]
    exact heap _ buffer.owns
  · rw [same.tail]
    exact buffer.tail
  · cases buffer.unSent with
    | nowhere unSent => exact .nowhere (same.unSent.trans unSent)
    | inside address unSent member => exact .inside address (same.unSent.trans unSent) member
    | gone address unSent freed => exact .gone address (same.unSent.trans unSent) (stays _ freed)

theorem LinkedBuffer.stamped {client : Client} {front back : List (Nat × SegBuf)}
    {entry : Nat × SegBuf} (buffer : LinkedBuffer client (front ++ entry :: back)) (val : SegBuf) :
    LinkedBuffer ⟨client.heap.set entry.1 (some ⟨val, firstPtr back⟩), client.tcb⟩
      (front ++ (entry.1, val) :: back) := by
  have held := owns_read buffer.owns
  have sameCells : addresses (front ++ (entry.1, val) :: back) =
      addresses (front ++ entry :: back) := by
    simp [addresses]
  refine ⟨owns_set_val buffer.owns val, ?_, ?_⟩
  · rw [last_ptr_of_addresses sameCells]
    exact buffer.tail
  · cases buffer.unSent with
    | nowhere unSent => exact .nowhere unSent
    | inside address unSent member => exact .inside address unSent (sameCells ▸ member)
    | gone address unSent freed => exact .gone address unSent (freed_set freed held _)

theorem linked_append {client after : Client} {cells : List (Nat × SegBuf)}
    (buffer : LinkedBuffer client cells) (seg : Seg)
    (queued : queueSegment client seg = some after) : LinkedClient after := by
  have tail : client.tcb.sendBufTail = lastPtr cells := by
    rcases buffer.tail with null | last
    · have empty := queued_tail queued null
      rw [chain_first buffer.owns.chain] at empty
      cases cells with
      | nil => exact null
      | cons entry rest => cases empty
    · exact last
  obtain ⟨after', queued', appends⟩ := queue_cells client cells seg buffer.owns tail
  obtain rfl := Option.some.inj (queued.symm.trans queued')
  let added : Nat × SegBuf := (client.heap.length, (queuedCell client seg).val)
  have newTail : after.tcb.sendBufTail = lastPtr (cells ++ [added]) := by
    rw [last_ptr_concat]
    exact appends.tail
  refine ⟨cells ++ [added], appends.owns, Or.inr newTail, ?_⟩
  have unSent := appends.unSent
  split_ifs at unSent with first
  · exact .inside added.1 unSent (by simp [addresses])
  · cases buffer.unSent with
    | nowhere none => exact absurd (Or.inr none) first
    | inside address held member =>
        exact .inside address (unSent.trans held) (by
          rw [addresses, List.map_append]
          exact List.mem_append_left _ member)
    | gone address held freed => exact .gone address (unSent.trans held) (appends.stays _ freed)

theorem LinkedBuffer.unsent_cell {client : Client} {cells : List (Nat × SegBuf)}
    (buffer : LinkedBuffer client cells) {cell : Cell SegBuf}
    (held : read client.heap client.tcb.sendBufunSent = some cell) :
    ∃ front entry back, cells = front ++ entry :: back ∧
      client.tcb.sendBufunSent = some entry.1 := by
  cases buffer.unSent with
  | nowhere unSent =>
      rw [unSent] at held
      cases held
  | inside address unSent member =>
      obtain ⟨entry, isCell, rfl⟩ := List.mem_map.mp member
      obtain ⟨front, back, split⟩ := List.append_of_mem isCell
      exact ⟨front, entry, back, split, unSent⟩
  | gone address unSent freed =>
      rw [unSent, freed_read freed] at held
      cases held

theorem linked_sending_loop (now : Nat → Timeval) (turns : Nat) {client after : Client}
    {cells : List (Nat × SegBuf)} {effects : List ClientEffect}
    (buffer : LinkedBuffer client cells)
    (run : sendBufferSendingLoop now turns client = some (after, effects)) :
    LinkedClient after := by
  induction turns generalizing client cells effects with
  | zero =>
      cases run
      exact ⟨cells, buffer⟩
  | succ turns ih =>
      rcases sending_loop_cases run with ⟨rfl, _⟩ | ⟨cell, heap, sends, held, written, loop, _⟩
      · exact ⟨cells, buffer⟩
      · obtain ⟨front, entry, back, rfl, unSent⟩ := buffer.unsent_cell held
        rw [unSent] at held written
        have here := owns_read buffer.owns
        obtain rfl := Option.some.inj (held.symm.trans here)
        rw [write, store_of_read held] at written
        cases written
        have stamped := buffer.stamped ⟨entry.2.seg, (now turns).stamp 1000⟩
        have advanced : (if client.tcb.sendBufunSent ≠ client.tcb.sendBufTail then firstPtr back
            else none) = firstPtr back := by
          rw [unSent]
          rcases buffer.tail with null | last
          · rw [null, if_pos (by simp)]
          · rw [last]
            exact advance_ptr buffer.owns
        let next : Client := ⟨client.heap.set entry.1
          (some ⟨⟨entry.2.seg, (now turns).stamp 1000⟩, firstPtr back⟩), { client.tcb with
            unAckSegNum := client.tcb.unAckSegNum + 1
            sendBufunSent := if client.tcb.sendBufunSent ≠ client.tcb.sendBufTail then
              firstPtr back else none }⟩
        have linked : LinkedBuffer next
            (front ++ (entry.1, ⟨entry.2.seg, (now turns).stamp 1000⟩) :: back) := by
          refine ⟨stamped.owns, stamped.tail, ?_⟩
          cases back with
          | nil => exact .nowhere advanced
          | cons second more => exact .inside second.1 advanced (by simp [addresses])
        exact ih linked loop

theorem linked_timeout_loop (now : Nat → Timeval) (turns : Nat) {client after : Client}
    {done todo : List (Nat × SegBuf)} {effects : List ClientEffect}
    (buffer : LinkedBuffer client (done ++ todo))
    (run : sendBufferTimeoutLoop now turns client (firstPtr todo) = some (after, effects)) :
    LinkedClient after := by
  induction turns generalizing client done todo effects with
  | zero =>
      cases run
      exact ⟨_, buffer⟩
  | succ turns ih =>
      obtain ⟨cell, heap, sends, held, written, loop, _⟩ := timeout_loop_turn run
      cases todo with
      | nil => cases held
      | cons entry todo =>
          have here := owns_read buffer.owns
          obtain rfl := Option.some.inj (held.symm.trans here)
          have first : firstPtr (entry :: todo) = some entry.1 := rfl
          rw [first] at held
          rw [write, first, store_of_read held] at written
          cases written
          have stamped := buffer.stamped ⟨entry.2.seg, (now turns).stamp 10000⟩
          rw [List.append_cons] at stamped
          exact ih stamped loop

theorem calls_keep_linked : KeptByCalls LinkedClient where
  table := fun client table same ⟨cells, buffer⟩ =>
    ⟨cells, buffer.pointers (fun _ owns => owns) (fun _ freed => freed) same⟩
  alloc := fun client cell ⟨cells, buffer⟩ =>
    ⟨cells, buffer.pointers (fun _ owns => owns_alloc owns cell)
      (fun _ freed => freed_alloc freed cell) ⟨rfl, rfl, rfl, rfl, rfl⟩⟩
  append := fun _ _ seg _ queued ⟨_, buffer⟩ => linked_append buffer seg queued
  sending := fun now _ _ _ run ⟨_, buffer⟩ => linked_sending_loop now gbnWindow buffer run
  timeout := fun now client _ _ run ⟨cells, buffer⟩ => by
    rw [sendBufferTimeout, chain_first buffer.owns.chain] at run
    have all : LinkedBuffer client ([] ++ cells) := buffer
    exact linked_timeout_loop now _ all run
  empty := fun _ fresh => ⟨[], linked_fresh fresh⟩

theorem linked_recv_ack {client : Client} {cells : List (Nat × SegBuf)}
    (buffer : LinkedBuffer client cells) (tail : client.tcb.sendBufTail ≠ none) (ackNum : UInt32) :
    ∃ acknowledged, sendBufferRecvAck client ackNum = some acknowledged ∧
      LinkedBuffer acknowledged (cells.dropWhile (covers ackNum)) ∧
      Removes ackNum client acknowledged (cells.takeWhile (covers ackNum))
        (cells.dropWhile (covers ackNum)) := by
  have last := buffer.tail.resolve_left tail
  have filled : cells ≠ [] := by
    rintro rfl
    exact tail last
  obtain ⟨acknowledged, run, removes⟩ :=
    recv_ack_covered client cells ackNum buffer.owns last filled
  have split : cells.takeWhile (covers ackNum) ++ cells.dropWhile (covers ackNum) = cells :=
    List.takeWhile_append_dropWhile
  have covered : ∀ entry ∈ cells.takeWhile (covers ackNum),
      entry.2.seg.header.seqNum < ackNum := by
    intro entry member
    simpa [covers] using List.mem_takeWhile_imp member
  refine ⟨acknowledged, run, ⟨removes.owns, ?_, ?_⟩, removes⟩
  · exact removes.tail_ends covered (split.symm ▸ last) (split.symm ▸ filled)
  · cases buffer.unSent with
    | nowhere unSent => exact .nowhere (removes.unSent.trans unSent)
    | inside address unSent member =>
        rw [← split, addresses, List.map_append] at member
        rcases List.mem_append.mp member with isGone | isKept
        · exact .gone address (removes.unSent.trans unSent) (removes.freed address isGone)
        · exact .inside address (removes.unSent.trans unSent) isKept
    | gone address unSent freed =>
        exact .gone address (removes.unSent.trans unSent) (removes.stays address freed)

theorem segment_linked {client after : Client} (linked : LinkedClient client) {now : Nat → Timeval}
    {sourceNodeID : Int32} {seg : Seg} {effects : List ClientEffect}
    (handled : clientSeghandler now client sourceNodeID seg = some (after, effects)) :
    LinkedClient after := by
  obtain ⟨cells, buffer⟩ := linked
  rcases handled_cases handled with ⟨heap, same, _⟩ | ⟨_, acknowledged, run, sending⟩
  · exact ⟨cells, buffer.pointers (fun _ owns => heap ▸ owns) (fun _ freed => heap ▸ freed) same⟩
  · obtain ⟨acknowledged', run', shrunk, _⟩ :=
      linked_recv_ack buffer (recv_ack_tail_held run) seg.header.ackNum
    obtain rfl := Option.some.inj (run.symm.trans run')
    exact linked_sending_loop now gbnWindow shrunk sending

def SendsFreed (client : Client) : Prop :=
  client.tcb.unAckSegNum.toNat < gbnWindow ∧
    ∃ address, client.tcb.sendBufunSent = some address ∧ Freed client.heap address

theorem sending_defined_iff (now : Nat → Timeval) {client : Client} {cells : List (Nat × SegBuf)}
    (buffer : LinkedBuffer client cells) :
    (∃ result, sendBufferSending now client = some result) ↔ ¬ SendsFreed client := by
  cases buffer.unSent with
  | nowhere unSent =>
      refine iff_of_true ⟨_, sending_idle now unSent⟩ ?_
      rintro ⟨_, address, held, _⟩
      rw [unSent] at held
      cases held
  | inside address unSent member =>
      obtain ⟨entry, isCell, rfl⟩ := List.mem_map.mp member
      obtain ⟨front, back, rfl⟩ := List.append_of_mem isCell
      have behind : Owns client.heap client.tcb.sendBufunSent (entry :: back) := by
        rw [unSent]
        exact owns_suffix buffer.owns
      refine iff_of_true (sending_loop_defined now gbnWindow client _ behind) ?_
      rintro ⟨_, other, held, freed⟩
      obtain rfl := Option.some.inj (unSent.symm.trans held)
      exact owns_not_freed buffer.owns member freed
  | gone address unSent freed =>
      rw [sending_freed now unSent freed]
      split_ifs with opens
      · refine iff_of_false ?_ (not_not.mpr ⟨opens, address, unSent, freed⟩)
        rintro ⟨_, absent⟩
        cases absent
      · exact iff_of_true ⟨_, rfl⟩ fun sends => opens sends.1

theorem reopens_freed_iff {client acknowledged : Client} {cells : List (Nat × SegBuf)}
    {ackNum : UInt32} (buffer : LinkedBuffer client cells)
    (removes : Removes ackNum client acknowledged (cells.takeWhile (covers ackNum))
      (cells.dropWhile (covers ackNum))) :
    SendsFreed acknowledged ↔ ReopensFreed client ackNum := by
  have split : cells.takeWhile (covers ackNum) ++ cells.dropWhile (covers ackNum) = cells :=
    List.takeWhile_append_dropWhile
  constructor
  · rintro ⟨opens, address, unSent, freed⟩
    rw [removes.unAck] at opens
    rw [removes.unSent] at unSent
    refine ⟨cells, address, buffer.owns, unSent, ?_, opens⟩
    cases buffer.unSent with
    | nowhere none =>
        rw [none] at unSent
        cases unSent
    | inside other held member =>
        obtain rfl := Option.some.inj (held.symm.trans unSent)
        rw [← split, addresses, List.map_append] at member
        rcases List.mem_append.mp member with isGone | isKept
        · exact Or.inr isGone
        · exact absurd freed (owns_not_freed removes.owns isKept)
    | gone other held freedBefore =>
        obtain rfl := Option.some.inj (held.symm.trans unSent)
        exact Or.inl freedBefore
  · rintro ⟨others, address, owns, unSent, leads, opens⟩
    obtain rfl := chain_unique owns.chain buffer.owns.chain
    rw [← removes.unAck] at opens
    exact ⟨opens, address, removes.unSent.trans unSent,
      leads.elim (removes.stays address) (removes.freed address)⟩

theorem LinkedBuffer.readable {client : Client} {cells : List (Nat × SegBuf)}
    (buffer : LinkedBuffer client cells) : client.tcb.sendBufHead = none ∨
      ∃ cell, read client.heap client.tcb.sendBufHead = some cell := by
  cases cells with
  | nil => exact Or.inl (chain_first buffer.owns.chain)
  | cons entry rest =>
      obtain ⟨head, held⟩ := owns_head buffer.owns
      exact Or.inr ⟨_, head ▸ held⟩

theorem reaching_defined_iff (now : Nat → Timeval) {client : Client}
    {cells : List (Nat × SegBuf)} (buffer : LinkedBuffer client cells) {sourceNodeID : Int32}
    {seg : Seg} (reaches : ReachesHead client sourceNodeID seg) :
    (∃ result, clientSeghandler now client sourceNodeID seg = some result) ↔
      client.tcb.sendBufTail ≠ none ∧ ¬ ReopensFreed client seg.header.ackNum := by
  obtain ⟨cell, held, reached⟩ := reaches.head
  cases cells with
  | nil =>
      rw [chain_first buffer.owns.chain] at held
      cases held
  | cons entry rest =>
      obtain ⟨head, first⟩ := owns_head buffer.owns
      rw [head, first] at held
      obtain rfl := Option.some.inj held
      let incoming : Incoming := ⟨now, sourceNodeID, seg⟩
      have handler := dataack_handled incoming reaches.connected reaches.server
        reaches.dataack buffer.owns
      rw [if_pos reached] at handler
      change (∃ result, clientSeghandler incoming.now client incoming.sourceNodeID
        incoming.segmentBuffer = some result) ↔ _
      rw [handler]
      by_cases tail : client.tcb.sendBufTail = none
      · refine iff_of_false ?_ fun safe => safe.1 tail
        rintro ⟨result, defined⟩
        obtain ⟨acknowledged, run, _⟩ := Option.bind_eq_some_iff.mp defined
        exact recv_ack_tail_held run tail
      · obtain ⟨acknowledged, run, shrunk, removes⟩ :=
          linked_recv_ack buffer tail seg.header.ackNum
        have same : incoming.segmentBuffer.header.ackNum = seg.header.ackNum := rfl
        rw [same, run, Option.bind_some, sending_defined_iff incoming.now shrunk,
          reopens_freed_iff buffer removes]
        exact ⟨fun kept => ⟨tail, kept⟩, fun safe => safe.2⟩

theorem elsewhere_defined_iff (now : Nat → Timeval) {client : Client}
    {cells : List (Nat × SegBuf)} (buffer : LinkedBuffer client cells) {sourceNodeID : Int32}
    {seg : Seg} (elsewhere : ¬ ReachesHead client sourceNodeID seg) :
    (∃ result, clientSeghandler now client sourceNodeID seg = some result) ↔
      ¬ PrintsEmptyBuffer client.tcb sourceNodeID seg := by
  by_cases connected : client.tcb.state = .connected
  · rw [connected_defined_iff now sourceNodeID seg connected buffer.readable]
    apply and_iff_left
    intro cell server dataack held reached
    exact absurd ⟨connected, server, dataack, cell, held, reached⟩ elsewhere
  · have quiet : ¬ PrintsEmptyBuffer client.tcb sourceNodeID seg :=
      fun prints => connected prints.connected
    exact iff_of_true (unconnected_defined now sourceNodeID seg connected) quiet

theorem handler_defined_iff (now : Nat → Timeval) {client : Client} (linked : LinkedClient client)
    (sourceNodeID : Int32) (seg : Seg) :
    (∃ result, clientSeghandler now client sourceNodeID seg = some result) ↔
      SafeFor client sourceNodeID seg := by
  obtain ⟨cells, buffer⟩ := linked
  by_cases reaches : ReachesHead client sourceNodeID seg
  · rw [reaching_defined_iff now buffer reaches]
    have noMessage : ¬ PrintsEmptyBuffer client.tcb sourceNodeID seg :=
      fun prints => prints.other ⟨reaches.server, reaches.dataack⟩
    exact ⟨fun ⟨tail, unSent⟩ => ⟨noMessage, fun _ => tail, fun _ => unSent⟩,
      fun safe => ⟨safe.tail reaches, safe.unSent reaches⟩⟩
  · rw [elsewhere_defined_iff now buffer reaches]
    exact ⟨fun noMessage => ⟨noMessage, fun here => absurd here reaches,
      fun here => absurd here reaches⟩, fun safe => safe.message⟩

end MiniOverlay
