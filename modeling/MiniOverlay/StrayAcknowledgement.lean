import MiniOverlay.SendBufferTimer
import MiniOverlay.SocketRuns

/-!
# Acknowledgements of what was not sent

`sendBufferRecvAck` frees cells up to the acknowledged number without a look at
`sendBufunSent`. A DATAACK whose number covers the first unsent segment frees it
with all in front of it: `sendBufunSent` leads to a freed cell and `unAck_segNum`
goes below zero. Any other DATAACK keeps the list, the pointer and the counter
together, also when sequence numbers wrap; a tail pointer that was cleared then is
read by the next one.
-/

namespace MiniOverlay

open LinkedHeap FixedByteCodec

set_option autoImplicit false

def Overtakes (client : Client) (ackNum : UInt32) : Prop :=
  ∃ front node back, Owns client.heap client.tcb.sendBufHead (front ++ node :: back) ∧
    client.tcb.sendBufunSent = some node.1 ∧
    ∀ entry ∈ front ++ [node], entry.2.seg.header.seqNum < ackNum

def ReadsNullTail (client : Client) (ackNum : UInt32) : Prop :=
  client.tcb.sendBufTail = none ∧ ∃ cell, read client.heap client.tcb.sendBufHead = some cell ∧
    cell.val.seg.header.seqNum ≤ ackNum

def unsentNodes (client : Client) (nodes : List (Nat × SegBuf)) : List (Nat × SegBuf) :=
  nodes.dropWhile fun node => decide (some node.1 ≠ client.tcb.sendBufunSent)

/-- The list, the pointer and the counter belong together after a step, and no unsent
segment has left the list. -/
def BufferKept (client after : Client) : Prop :=
  ∃ nodes left, Owns client.heap client.tcb.sendBufHead nodes ∧
    Owns after.heap after.tcb.sendBufHead left ∧
    (after.tcb.sendBufunSent = none ∨
      ∃ node ∈ left, after.tcb.sendBufunSent = some node.1) ∧
    after.tcb.unAckSegNum.toNat =
      (left.takeWhile fun node => decide (some node.1 ≠ after.tcb.sendBufunSent)).length ∧
    ∀ node ∈ unsentNodes client nodes, (node.1, node.2.seg) ∈ labels left

def KeepsBuffer (client : Client) (incoming : Incoming) : Prop :=
  ∃ after, client.handle incoming = some after ∧ BufferKept client after

def PartyEvent.Sound (party : Party) : PartyEvent → Prop
  | .segment _ sourceNodeID segmentBuffer =>
      ReachesHead party.client sourceNodeID segmentBuffer →
        ¬ Overtakes party.client segmentBuffer.header.ackNum
  | _ => True

/-- The states of a socket in runs without overtaking acknowledgements. -/
inductive SoundReaches (start : Party) : Party → Prop where
  | start : SoundReaches start start
  | step {party next : Party} (event : PartyEvent) (effects : List ClientEffect)
      (before : SoundReaches start party) (sound : event.Sound party)
      (stepped : party.callStep event = some (next, effects)) : SoundReaches start next

theorem end_seq_num (start : UInt32) (segs : List Seg) :
    endSeqNum start segs = start + UInt32.ofNat (byteLength segs) := by
  induction segs generalizing start with
  | nil => simp [endSeqNum, byteLength]
  | cons seg segs ih =>
      have length : seg.header.length.toUInt32 = UInt32.ofNat seg.header.length.toNat := by
        simp
      rw [endSeqNum, ih, byteLength, UInt32.ofNat_add, length, UInt32.add_assoc]

theorem numbered_unwrapped {start next : UInt32} {segs : List Seg}
    (numbered : Numbered start segs) (last : endSeqNum start segs = next)
    (nonempty : ∀ seg ∈ segs, 1 ≤ seg.header.length.toNat)
    (fits : byteLength segs ≤ next.toNat) :
    NumberedFrom start.toNat segs ∧ start.toNat + byteLength segs = next.toNat := by
  have bounded := next.toNat_lt
  have sum : start.toNat + byteLength segs = next.toNat := by
    rw [end_seq_num] at last
    have same := congrArg UInt32.toNat last
    have small := start.toNat_lt
    rw [UInt32.toNat_add, UInt32.toNat_ofNat'] at same
    omega
  have room : start.toNat + byteLength segs < UInt32.size := by
    rw [sum]
    exact bounded
  exact ⟨(numbered_from_of_numbered start segs numbered nonempty room).1, sum⟩

theorem numbered_wraps {start next : UInt32} {segs : List Seg} (numbered : Numbered start segs)
    (last : endSeqNum start segs = next) (nonempty : ∀ seg ∈ segs, 1 ≤ seg.header.length.toNat)
    (first later : Seg) (isFirst : first ∈ segs.head?) (isLater : later ∈ segs)
    (less : later.header.seqNum < first.header.seqNum) : next.toNat < byteLength segs := by
  by_contra fits
  obtain ⟨natural, _⟩ := numbered_unwrapped numbered last nonempty (Nat.le_of_not_lt fits)
  cases segs with
  | nil => cases isFirst
  | cons seg segs =>
      obtain rfl := Option.some.inj isFirst
      have least := numbered_from_ge natural later isLater
      rw [UInt32.lt_iff_toNat_lt, natural.1] at less
      omega

/-- The cells, pointers and counters of a buffer that was never overtaken. The tail
pointer is cleared only on a list in which the numbers wrap. -/
structure ConsistentBuffer (client : Client) (sent unsent : List (Nat × SegBuf)) : Prop where
  intact : Intact client sent unsent
  queueable : ∀ seg ∈ entrySegs (sent ++ unsent), Queueable seg
  numbered : ∃ start, Numbered start (entrySegs (sent ++ unsent)) ∧
    endSeqNum start (entrySegs (sent ++ unsent)) = client.tcb.nextSeqNum
  tail : client.tcb.sendBufTail = none → sent ++ unsent ≠ [] →
    client.tcb.nextSeqNum.toNat < byteLength (entrySegs (sent ++ unsent))

def Consistent (client : Client) : Prop := ∃ sent unsent, ConsistentBuffer client sent unsent

theorem Intact.pointers {client after : Client} {sent unsent : List (Nat × SegBuf)}
    (intact : Intact client sent unsent)
    (heap : ∀ entries, Owns client.heap client.tcb.sendBufHead entries →
      Owns after.heap client.tcb.sendBufHead entries)
    (same : SamePointers client.tcb after.tcb) : Intact after sent unsent := by
  refine ⟨?_, ?_, ?_, ?_, intact.window⟩
  · rw [same.head]
    exact heap _ intact.owns
  · rw [same.unSent]
    exact intact.unSent
  · rw [same.tail]
    exact intact.tail
  · rw [same.unAck]
    exact intact.unAck

theorem ConsistentBuffer.pointers {client after : Client} {sent unsent : List (Nat × SegBuf)}
    (buffer : ConsistentBuffer client sent unsent)
    (heap : ∀ entries, Owns client.heap client.tcb.sendBufHead entries →
      Owns after.heap client.tcb.sendBufHead entries)
    (same : SamePointers client.tcb after.tcb) : ConsistentBuffer after sent unsent := by
  refine ⟨buffer.intact.pointers heap same, buffer.queueable, ?_, ?_⟩
  · rw [same.next]
    exact buffer.numbered
  · rw [same.tail, same.next]
    exact buffer.tail

theorem consistent_fresh {client : Client} (fresh : FreshBuffer client.tcb) :
    ConsistentBuffer client [] [] := by
  have unAck : client.tcb.unAckSegNum.toNat = 0 := by
    rw [fresh.unAck]
    rfl
  refine ⟨⟨⟨fresh.head, List.nodup_nil⟩, fresh.unSent, Or.inl fresh.tail, unAck, Nat.zero_le _⟩,
    by simp [entrySegs], ⟨0, trivial, fresh.next.symm⟩, fun _ filled => absurd rfl filled⟩

theorem entry_segs_append (entries others : List (Nat × SegBuf)) :
    entrySegs (entries ++ others) = entrySegs entries ++ entrySegs others :=
  List.map_append

theorem append_intact {client after : Client} {sent unsent : List (Nat × SegBuf)}
    (intact : Intact client sent unsent) (seg : Seg)
    (queued : queueSegment client seg = some after) :
    ∃ added : Nat × SegBuf, added.2.seg = seg.withSeqNum client.tcb.nextSeqNum ∧
      Intact after sent (unsent ++ [added]) ∧
      Appends client after (sent ++ unsent) added := by
  have tail : client.tcb.sendBufTail = lastPtr (sent ++ unsent) := by
    rcases intact.tail with null | last
    · have empty := queued_tail queued null
      rw [chain_first intact.owns.chain] at empty
      have nothing : sent ++ unsent = [] := by
        cases cells : sent ++ unsent with
        | nil => rfl
        | cons entry rest =>
            rw [cells] at empty
            cases empty
      rw [null, nothing]
      rfl
    · exact last
  obtain ⟨after', queued', appends⟩ := queue_cells client (sent ++ unsent) seg intact.owns tail
  obtain rfl := Option.some.inj (queued.symm.trans queued')
  have owns := appends.owns
  rw [List.append_assoc] at owns
  refine ⟨_, rfl, ⟨owns, appends.first_unsent intact.owns intact.unSent, ?_, ?_, intact.window⟩,
    appends⟩
  · rw [← List.append_assoc, last_ptr_concat]
    exact Or.inr appends.tail
  · rw [appends.unAck]
    exact intact.unAck

theorem append_consistent {client after : Client} {sent unsent : List (Nat × SegBuf)}
    (buffer : ConsistentBuffer client sent unsent) (seg : Seg) (queueable : Queueable seg)
    (queued : queueSegment client seg = some after) :
    Consistent after ∧ after.tcb.ends = client.tcb.ends ∧
      after.tcb.nextSeqNum = client.tcb.nextSeqNum + seg.header.length.toUInt32 := by
  obtain ⟨added, isAdded, intact, appends⟩ := append_intact buffer.intact seg queued
  obtain ⟨start, numbered, last⟩ := buffer.numbered
  have next := appends.next
  rw [isAdded] at next
  have segs : entrySegs (sent ++ (unsent ++ [added])) =
      entrySegs (sent ++ unsent) ++ [seg.withSeqNum client.tcb.nextSeqNum] := by
    rw [← List.append_assoc, entry_segs_append, ← isAdded]
    rfl
  refine ⟨⟨sent, unsent ++ [added], intact, ?_, ⟨start, ?_, ?_⟩, ?_⟩, appends.ends, next⟩
  · rw [segs]
    intro other member
    rcases List.mem_append.mp member with old | new
    · exact buffer.queueable other old
    · rw [List.mem_singleton.mp new]
      exact ⟨queueable.type, queueable.nonempty, queueable.fits⟩
  · rw [segs, numbered_append, last]
    exact ⟨numbered, rfl, trivial⟩
  · rw [segs, end_seq_append, last, next]
    rfl
  · intro none
    rw [appends.tail] at none
    cases none

theorem ConsistentBuffer.relabel {client after : Client}
    {sent unsent sent' unsent' : List (Nat × SegBuf)} (buffer : ConsistentBuffer client sent unsent)
    (intact : Intact after sent' unsent')
    (cells : labels (sent' ++ unsent') = labels (sent ++ unsent))
    (tail : after.tcb.sendBufTail = client.tcb.sendBufTail)
    (next : after.tcb.nextSeqNum = client.tcb.nextSeqNum) :
    ConsistentBuffer after sent' unsent' := by
  have segs := entry_segs_of_labels cells
  refine ⟨intact, segs ▸ buffer.queueable, ?_, ?_⟩
  · rw [segs, next]
    exact buffer.numbered
  · intro null filled
    rw [segs, next]
    apply buffer.tail (tail ▸ null)
    intro nothing
    apply filled
    rw [nothing] at cells
    exact List.map_eq_nil_iff.mp cells

/-- A step after which the buffer is consistent and which leaves the connection and the
next number alone. -/
structure StaysConsistent (client after : Client) : Prop where
  consistent : Consistent after
  ends : after.tcb.ends = client.tcb.ends
  next : after.tcb.nextSeqNum = client.tcb.nextSeqNum

theorem sending_consistent {client after : Client} {sent unsent : List (Nat × SegBuf)}
    (buffer : ConsistentBuffer client sent unsent) (now : Nat → Timeval)
    {effects : List ClientEffect} (run : sendBufferSending now client = some (after, effects)) :
    StaysConsistent client after := by
  obtain ⟨after', effects', moved, rest, run', facts⟩ :=
    sending_loop_cells now gbnWindow client sent unsent buffer.intact
  obtain ⟨rfl, _⟩ := Prod.mk.inj (Option.some.inj (run.symm.trans run'))
  exact ⟨⟨_, _, buffer.relabel facts.intact facts.same_cells facts.tail facts.next⟩, facts.ends,
    facts.next⟩

theorem timeout_consistent {client after : Client} {sent unsent : List (Nat × SegBuf)}
    (buffer : ConsistentBuffer client sent unsent) (now : Nat → Timeval)
    {effects : List ClientEffect} (run : sendBufferTimeout now client = some (after, effects)) :
    StaysConsistent client after := by
  obtain ⟨after', effects', again, run', intact, cells, _, sameTcb⟩ :=
    timeout_cells now client sent unsent buffer.intact
  obtain ⟨rfl, _⟩ := Prod.mk.inj (Option.some.inj (run.symm.trans run'))
  refine ⟨⟨_, _, buffer.relabel intact ?_ (congrArg ClientTcb.sendBufTail sameTcb)
    (congrArg ClientTcb.nextSeqNum sameTcb)⟩, congrArg ClientTcb.ends sameTcb,
    congrArg ClientTcb.nextSeqNum sameTcb⟩
  rw [labels_append, cells, labels_append]

theorem calls_keep_consistent : KeptByCalls Consistent where
  table := fun client table same ⟨sent, unsent, buffer⟩ =>
    have after : ConsistentBuffer ⟨client.heap, table⟩ sent unsent :=
      buffer.pointers (fun _ owns => owns) same
    ⟨sent, unsent, after⟩
  alloc := fun client cell ⟨sent, unsent, buffer⟩ =>
    have after : ConsistentBuffer ⟨(alloc client.heap cell).1, client.tcb⟩ sent unsent :=
      buffer.pointers (fun _ owns => owns_alloc owns cell) ⟨rfl, rfl, rfl, rfl, rfl⟩
    ⟨sent, unsent, after⟩
  append := fun _ _ seg full queued ⟨_, _, buffer⟩ =>
    (append_consistent buffer seg (full_queueable full) queued).1
  sending := fun now _ _ _ run ⟨_, _, buffer⟩ => (sending_consistent buffer now run).consistent
  timeout := fun now _ _ _ run ⟨_, _, buffer⟩ => (timeout_consistent buffer now run).consistent
  empty := fun _ fresh => ⟨[], [], consistent_fresh fresh⟩

theorem covered_sent {client : Client} {sent unsent : List (Nat × SegBuf)}
    (intact : Intact client sent unsent) {ackNum : UInt32} (behind : ¬ Overtakes client ackNum) :
    ∃ gone kept, sent = gone ++ kept ∧ (sent ++ unsent).takeWhile (covers ackNum) = gone ∧
      (sent ++ unsent).dropWhile (covers ackNum) = kept ++ unsent := by
  have split : (sent ++ unsent).takeWhile (covers ackNum) ++
      (sent ++ unsent).dropWhile (covers ackNum) = sent ++ unsent :=
    List.takeWhile_append_dropWhile
  rcases List.append_eq_append_iff.mp split.symm with
    ⟨beyond, longer, same⟩ | ⟨kept, shorter, same⟩
  · cases beyond with
    | nil =>
        rw [List.append_nil] at longer
        exact ⟨sent, [], by simp, longer, by simpa using same.symm⟩
    | cons node more =>
        refine absurd ⟨sent, node, more ++ (sent ++ unsent).dropWhile (covers ackNum), ?_, ?_, ?_⟩
          behind
        · have cells : sent ++ node :: (more ++ (sent ++ unsent).dropWhile (covers ackNum)) =
              sent ++ unsent := by
            conv => rhs; rw [← split, longer]
            simp
          rw [cells]
          exact intact.owns
        · rw [intact.unSent, same]
          rfl
        · intro entry member
          have covered : entry ∈ (sent ++ unsent).takeWhile (covers ackNum) := by
            rw [longer]
            rcases List.mem_append.mp member with early | here
            · exact List.mem_append_left _ early
            · exact List.mem_append_right _ (by simp [List.mem_singleton.mp here])
          simpa [covers] using List.mem_takeWhile_imp covered
  · exact ⟨_, kept, shorter, rfl, same⟩

theorem Removes.tail_ends {ackNum : UInt32} {client acknowledged : Client}
    {gone rest : List (Nat × SegBuf)} (removes : Removes ackNum client acknowledged gone rest)
    (covered : ∀ entry ∈ gone, entry.2.seg.header.seqNum < ackNum)
    (last : client.tcb.sendBufTail = lastPtr (gone ++ rest)) (filled : gone ++ rest ≠ []) :
    acknowledged.tcb.sendBufTail = none ∨ acknowledged.tcb.sendBufTail = lastPtr rest := by
  cases final : rest.getLast? with
  | none =>
      obtain rfl := List.getLast?_eq_none_iff.mp final
      rw [List.append_nil] at filled
      obtain ⟨front, item, rfl⟩ := (List.eq_nil_or_concat' gone).resolve_left filled
      have newTail := removes.tail item (by rw [List.append_nil]; simp)
      rw [if_pos (covered item (by simp))] at newTail
      exact Or.inl newTail
  | some item =>
      obtain ⟨front, rfl⟩ := List.getLast?_eq_some_iff.mp final
      have newTail := removes.tail item (by rw [← List.append_assoc]; simp)
      split_ifs at newTail
      · exact Or.inl newTail
      · rw [newTail, last, ← List.append_assoc, last_ptr_concat, last_ptr_concat]
        exact Or.inr rfl

/-- An acknowledgement that does not overtake frees covered cells at the front of the
sent ones. -/
structure Shrinks (ackNum : UInt32) (client acknowledged : Client)
    (sent unsent gone kept : List (Nat × SegBuf)) : Prop where
  split : sent = gone ++ kept
  covered : ∀ entry ∈ gone, entry.2.seg.header.seqNum < ackNum
  stops : ∀ entry ∈ (kept ++ unsent).head?, ¬ entry.2.seg.header.seqNum < ackNum
  intact : Intact acknowledged kept unsent
  removes : Removes ackNum client acknowledged gone (kept ++ unsent)

theorem recv_ack_intact {client : Client} {sent unsent : List (Nat × SegBuf)}
    (intact : Intact client sent unsent) (filled : sent ++ unsent ≠ [])
    (tail : client.tcb.sendBufTail ≠ none) {ackNum : UInt32} (behind : ¬ Overtakes client ackNum) :
    ∃ acknowledged gone kept, sendBufferRecvAck client ackNum = some acknowledged ∧
      Shrinks ackNum client acknowledged sent unsent gone kept := by
  have last := intact.tail.resolve_left tail
  obtain ⟨acknowledged, run, removes⟩ :=
    recv_ack_covered client (sent ++ unsent) ackNum intact.owns last filled
  obtain ⟨gone, kept, rfl, isGone, isRest⟩ := covered_sent intact behind
  have stops := List.head?_dropWhile_not (covers ackNum) (gone ++ kept ++ unsent)
  rw [isRest] at stops
  rw [isGone, isRest] at removes
  have unAck := intact.unAck
  have window := intact.window
  rw [List.length_append] at unAck window
  have covered : ∀ entry ∈ gone, entry.2.seg.header.seqNum < ackNum := by
    intro entry member
    rw [← isGone] at member
    simpa [covers] using List.mem_takeWhile_imp member
  refine ⟨acknowledged, gone, kept, run, rfl, covered, ?_, ⟨removes.owns,
    removes.unSent.trans intact.unSent, ?_, removes_count removes unAck window, by omega⟩, removes⟩
  · intro entry first
    rw [Option.mem_def.mp first] at stops
    simpa [covers] using stops
  · rw [List.append_assoc] at last filled
    exact removes.tail_ends covered last filled

theorem recv_ack_consistent {client : Client} {sent unsent : List (Nat × SegBuf)}
    (buffer : ConsistentBuffer client sent unsent) (filled : sent ++ unsent ≠ [])
    (tail : client.tcb.sendBufTail ≠ none) {ackNum : UInt32} (behind : ¬ Overtakes client ackNum) :
    ∃ acknowledged gone kept, sendBufferRecvAck client ackNum = some acknowledged ∧
      sent = gone ++ kept ∧ ConsistentBuffer acknowledged kept unsent ∧
      Removes ackNum client acknowledged gone (kept ++ unsent) := by
  obtain ⟨acknowledged, gone, kept, run, rfl, _, stops, intact, removes⟩ :=
    recv_ack_intact buffer.intact filled tail behind
  obtain ⟨start, numbered, endNum⟩ := buffer.numbered
  rw [List.append_assoc, entry_segs_append, numbered_append] at numbered
  rw [List.append_assoc, entry_segs_append, end_seq_append] at endNum
  have queueable : ∀ seg ∈ entrySegs (kept ++ unsent), Queueable seg := by
    intro seg member
    apply buffer.queueable
    rw [List.append_assoc, entry_segs_append]
    exact List.mem_append_right _ member
  refine ⟨acknowledged, gone, kept, run, rfl, ⟨intact, queueable,
    ⟨_, numbered.2, endNum.trans removes.next.symm⟩, ?_⟩, removes⟩
  intro cleared rest
  obtain ⟨front, item, split⟩ := (List.eq_nil_or_concat' _).resolve_left rest
  have newTail := removes.tail item (by rw [split, ← List.append_assoc]; simp)
  rw [cleared] at newTail
  split_ifs at newTail with covered
  · obtain ⟨first, more, cells⟩ := List.exists_cons_of_ne_nil rest
    have reached : ackNum ≤ first.2.seg.header.seqNum :=
      UInt32.not_lt.mp (stops first (by rw [cells]; rfl))
    rw [removes.next]
    apply numbered_wraps numbered.2 endNum
      (fun seg member => (queueable seg member).nonempty) first.2.seg item.2.seg
    · rw [cells]
      rfl
    · apply List.mem_map_of_mem
      rw [split]
      simp
    · exact UInt32.lt_of_lt_of_le covered reached
  · exact absurd newTail.symm tail

theorem reached_filled {client : Client} {sent unsent : List (Nat × SegBuf)}
    (intact : Intact client sent unsent) {sourceNodeID : Int32} {seg : Seg}
    (reaches : ReachesHead client sourceNodeID seg) : sent ++ unsent ≠ [] := by
  intro empty
  obtain ⟨cell, held, _⟩ := reaches.head
  have head := chain_first intact.owns.chain
  rw [empty] at head
  rw [head] at held
  cases held

theorem recv_ack_tail_held {client acknowledged : Client} {ackNum : UInt32}
    (run : sendBufferRecvAck client ackNum = some acknowledged) :
    client.tcb.sendBufTail ≠ none := by
  intro null
  obtain ⟨cell, held, _⟩ := Option.bind_eq_some_iff.mp run
  rw [null] at held
  cases held

theorem segment_consistent {client after : Client} (consistent : Consistent client)
    {now : Nat → Timeval} {sourceNodeID : Int32} {seg : Seg} {effects : List ClientEffect}
    (behind : ReachesHead client sourceNodeID seg → ¬ Overtakes client seg.header.ackNum)
    (handled : clientSeghandler now client sourceNodeID seg = some (after, effects)) :
    Consistent after := by
  obtain ⟨sent, unsent, buffer⟩ := consistent
  rcases handled_cases handled with ⟨heap, same, _⟩ | ⟨reaches, acknowledged, run, sending⟩
  · exact ⟨sent, unsent, buffer.pointers (fun _ owns => heap ▸ owns) same⟩
  · obtain ⟨acknowledged', gone, kept, run', _, shrunk, _⟩ := recv_ack_consistent buffer
      (reached_filled buffer.intact reaches) (recv_ack_tail_held run) (behind reaches)
    obtain rfl := Option.some.inj (run.symm.trans run')
    exact (sending_consistent shrunk now sending).consistent

theorem sound_reaches_consistent {myNodeID : Int32} {clientPort svrPortNum : UInt32}
    {party : Party} (reaches : SoundReaches (newSocket myNodeID clientPort svrPortNum) party) :
    Consistent party.client := by
  induction reaches with
  | start => exact ⟨[], [], consistent_fresh ⟨rfl, rfl, rfl, rfl, rfl⟩⟩
  | step event effects _ sound stepped ih =>
      apply calls_keep_consistent.step ih _ stepped
      rintro now sourceNodeID seg after sends rfl handled
      exact segment_consistent ih sound handled

theorem buffer_kept {client after : Client} {gone kept unsent moved rest : List (Nat × SegBuf)}
    (before : Intact client (gone ++ kept) unsent) (intact : Intact after (kept ++ moved) rest)
    (cells : labels (moved ++ rest) = labels unsent) : BufferKept client after := by
  refine ⟨_, _, before.owns, intact.owns, ?_, ?_, ?_⟩
  · rw [intact.unSent]
    cases rest with
    | nil => exact Or.inl rfl
    | cons entry rest => exact Or.inr ⟨entry, by simp, rfl⟩
  · rw [intact.unAck, intact.unSent, take_while_before intact.owns.nodup]
  · intro node member
    rw [unsentNodes, before.unSent, drop_while_before before.owns.nodup] at member
    rw [List.append_assoc, labels_append, cells]
    exact List.mem_append_right _ (List.mem_map_of_mem member)

theorem sending_idle (now : Nat → Timeval) {client : Client}
    (unSent : client.tcb.sendBufunSent = none) :
    sendBufferSending now client = some (client, []) := by
  have turns : gbnWindow = 9 + 1 := rfl
  rw [sendBufferSending, turns, sendBufferSendingLoop, if_neg fun ready => ready.2 unSent]

/-- Sending goes nowhere when `sendBufunSent` leads to a freed cell: it would read the
cell, unless the counter is past the window. -/
theorem sending_freed (now : Nat → Timeval) {client : Client} {address : Nat}
    (unSent : client.tcb.sendBufunSent = some address) (freed : Freed client.heap address) :
    sendBufferSending now client =
      if client.tcb.unAckSegNum.toNat < gbnWindow then none else some (client, []) := by
  have turns : gbnWindow = 9 + 1 := rfl
  rw [sendBufferSending]
  conv => lhs; rw [turns]
  rw [sendBufferSendingLoop, unSent, freed_read freed]
  by_cases opens : client.tcb.unAckSegNum.toNat < gbnWindow
  · rw [if_pos ⟨opens, by simp⟩, if_pos opens]
    rfl
  · rw [if_neg fun ready => opens ready.1, if_neg opens]

theorem dataack_idle {client : Client} (incoming : Incoming)
    (connected : client.tcb.state = .connected)
    (server : client.tcb.FromServer incoming.sourceNodeID incoming.segmentBuffer)
    (dataack : incoming.segmentBuffer.header.type = SegType.dataack)
    (empty : client.tcb.sendBufHead = none) :
    clientSeghandler incoming.now client incoming.sourceNodeID incoming.segmentBuffer =
      some (client, []) := by
  simp only [clientSeghandler, connected, server.1, server.2, dataack, and_self, if_true, empty]

theorem overtaken_not_kept {client : Client} {sent unsent : List (Nat × SegBuf)}
    (intact : Intact client sent unsent) {incoming : Incoming}
    (connected : client.tcb.state = .connected)
    (server : client.tcb.FromServer incoming.sourceNodeID incoming.segmentBuffer)
    (dataack : incoming.segmentBuffer.header.type = SegType.dataack)
    (overtakes : Overtakes client incoming.segmentBuffer.header.ackNum) :
    ¬ KeepsBuffer client incoming := by
  rintro ⟨after, handled, nodes, left, owns, leftOwns, _, _, unsentLeft⟩
  obtain ⟨front, node, back, cells, unSent, covered⟩ := overtakes
  obtain rfl := chain_unique owns.chain cells.chain
  obtain ⟨result, handler, rfl⟩ := Option.map_eq_some_iff.mp handled
  obtain ⟨first, rest, split⟩ : ∃ first rest, front ++ node :: back = first :: rest :=
    List.exists_cons_of_ne_nil (by simp)
  have firstCovered : first.2.seg.header.seqNum < incoming.segmentBuffer.header.ackNum := by
    apply covered
    cases front with
    | nil => simp [(List.cons.inj split).1]
    | cons entry front => simp [(List.cons.inj split).1]
  rw [dataack_handled _ connected server dataack (split ▸ owns),
    if_pos (UInt32.le_of_lt firstCovered)] at handler
  obtain ⟨acknowledged, run, sending⟩ := Option.bind_eq_some_iff.mp handler
  have last := intact.tail.resolve_left (recv_ack_tail_held run)
  rw [← chain_unique owns.chain intact.owns.chain] at last
  obtain ⟨acknowledged', run', removes⟩ := recv_ack_covered client (front ++ node :: back)
    incoming.segmentBuffer.header.ackNum owns last (by simp)
  obtain rfl := Option.some.inj (run.symm.trans run')
  have gone : node.1 ∈ addresses ((front ++ node :: back).takeWhile
      (covers incoming.segmentBuffer.header.ackNum)) := by
    have joined : front ++ node :: back = front ++ [node] ++ back := by simp
    rw [joined, List.takeWhile_append_of_pos
      (by simpa [covers, -List.mem_append] using covered)]
    simp [addresses]
  have freed := removes.freed node.1 gone
  have stays : result.1 = acknowledged := by
    rw [sending_freed incoming.now (removes.unSent.trans unSent) freed] at sending
    split_ifs at sending
    cases sending
    rfl
  have isUnsent : node ∈ unsentNodes client (front ++ node :: back) := by
    have first : firstPtr (node :: back) = some node.1 := rfl
    rw [unsentNodes, unSent, ← first, drop_while_before owns.nodup]
    simp
  have member := List.mem_map_of_mem (f := Prod.fst) (unsentLeft node isUnsent)
  rw [stays] at leftOwns
  apply owns_not_freed leftOwns _ freed
  simpa [labels, addresses] using member

theorem established_reached :
    SoundReaches (newSocket 1 100 200) ⟨establishedClient, .returned⟩ := by
  have fresh : SoundReaches (newSocket 1 100 200) (newSocket 1 100 200) := .start
  have connecting := SoundReaches.step (.connect 2 200) _ fresh trivial rfl
  have answered := SoundReaches.step (.segment (fun _ => ⟨0, 0⟩) 2 serverSynack) _ connecting
    (fun reaches => absurd reaches.dataack (by decide)) rfl
  exact SoundReaches.step .connectWake _ answered trivial rfl

def strayDataack : Incoming where
  now := fun _ => ⟨0, 0⟩
  sourceNodeID := 2
  segmentBuffer :=
    { Seg.cleared with
      header := { MrtHdr.cleared with
        type := SegType.dataack, srcPort := 200, destPort := 100, ackNum := 0xFFFFFFFF } }

theorem full_byte_length {segs : List Seg} (full : ∀ seg ∈ segs, FullSegment seg) :
    byteLength segs = segs.length * maxSegLen := by
  induction segs with
  | nil => simp [byteLength]
  | cons seg segs ih =>
      rw [byteLength, full_length (full seg (by simp)),
        ih fun later member => full later (List.mem_cons_of_mem _ member), List.length_cons,
        Nat.add_mul, Nat.one_mul, Nat.add_comm]

theorem sent_behind {client : Client} {ackNum : UInt32}
    (sent : ackNum ≤ firstUnsentSeqNum client) : ¬ Overtakes client ackNum := by
  rintro ⟨front, node, back, owns, unSent, covered⟩
  have here := owns_read owns
  have below := covered node (List.mem_append_right _ (List.mem_singleton_self _))
  rw [firstUnsentSeqNum, unSent, here] at sent
  exact UInt32.not_le.mpr below sent

section Numbered

variable {client : Client} {sent back : List (Nat × SegBuf)} {node : Nat × SegBuf} {start : Nat}
  (intact : Intact client sent (node :: back))
  (numbered : NumberedFrom start (entrySegs (sent ++ node :: back)))
include intact numbered

theorem first_unsent_full (full : ∀ seg ∈ entrySegs sent, FullSegment seg) :
    (firstUnsentSeqNum client).toNat = start + sent.length * maxSegLen := by
  have first : firstPtr (node :: back) = some node.1 := rfl
  rw [firstUnsentSeqNum, intact.unSent, first, owns_read intact.owns]
  have split : entrySegs (sent ++ node :: back) =
      entrySegs sent ++ node.2.seg :: entrySegs back := by simp [entrySegs]
  rw [split, numbered_from_append, full_byte_length full, entrySegs, List.length_map] at numbered
  exact numbered.2.1

theorem greatest_overtakes
    (below : start + byteLength (entrySegs (sent ++ node :: back)) ≤ 0xFFFFFFFF) :
    Overtakes client 0xFFFFFFFF := by
  refine ⟨sent, node, back, intact.owns, intact.unSent, ?_⟩
  intro entry member
  have listed : entry ∈ sent ++ node :: back := by
    rcases List.mem_append.mp member with early | here
    · exact List.mem_append_left _ early
    · rw [List.mem_singleton.mp here]
      exact List.mem_append_right _ List.mem_cons_self
  have before := numbered_from_lt numbered _ (List.mem_map_of_mem listed)
  rw [UInt32.lt_iff_toNat_lt]
  exact Nat.lt_of_lt_of_le before below

end Numbered

theorem overfull_window : ∃ client,
    SoundReaches (newSocket 1 100 200) ⟨client, .returned⟩ ∧
      client.tcb.ends = establishedClient.tcb.ends ∧ client.tcb.sendBufTail ≠ none ∧
      firstUnsentSeqNum client = 14640 ∧ Overtakes client 0xFFFFFFFF := by
  obtain ⟨data, length⟩ : ∃ data : List Byte, data.length = (gbnWindow + 1) * maxSegLen :=
    ⟨List.replicate ((gbnWindow + 1) * maxSegLen) 7, List.length_replicate⟩
  have whole : data.length / maxSegLen = gbnWindow + 1 := by
    rw [length]
    exact Nat.mul_div_cancel _ (by decide)
  have indexable : Indexable data := by
    intro index inside
    rw [whole] at inside
    simp only [gbnWindow, maxSegLen, intMax] at inside ⊢
    omega
  obtain ⟨queued, added, call, holds, facts⟩ := client_send_turns (fun _ => ⟨0, 0⟩)
    establishedClient [] [] data established_client_holds rfl indexable
  obtain ⟨fewer, _, _, start, numbered, total⟩ := queued_numbers data
    (fresh_numbers established_buffer_fresh) (by rw [length]; decide) holds facts
  have count : added.length = gbnWindow + 1 := by
    have size := payload_byte_length added fun seg member => full_queueable (facts.full seg member)
    rw [facts.payload, whole, full_byte_length facts.full, ← length, List.take_length,
      length] at size
    exact (Nat.eq_of_mul_eq_mul_right (by decide) size).symm
  obtain ⟨sentCells, unsentCells, buffer, noneSent, segs⟩ := holds
  obtain rfl := List.map_eq_nil_iff.mp noneSent
  obtain ⟨after, effects, moved, rest, sending, sends⟩ := sending_loop_cells (fun _ => ⟨0, 0⟩)
    gbnWindow queued [] unsentCells buffer.intact
  have cells : entrySegs (moved ++ rest) = added :=
    (entry_segs_of_labels sends.cells).trans segs
  have unsentCount : unsentCells.length = gbnWindow + 1 := by
    rw [← count, ← List.nil_append added, ← segs, entrySegs, List.length_map]
  have movedCount : moved.length = gbnWindow := by
    rw [sends.count, unsentCount]
    rfl
  obtain ⟨node, back, rfl⟩ : ∃ node back, rest = node :: back := by
    apply List.exists_cons_of_ne_nil
    rintro rfl
    have same := congrArg List.length cells
    rw [List.append_nil, entrySegs, List.length_map, count, movedCount] at same
    omega
  rw [List.nil_append, List.nil_append, ← cells] at numbered
  rw [List.nil_append, List.nil_append, ← cells] at total
  refine ⟨after, .step (.send (fun _ => ⟨0, 0⟩) data) effects established_reached trivial ?_,
    sends.ends.trans facts.ends, ?_, ?_, greatest_overtakes sends.intact numbered ?_⟩
  · simp only [Party.callStep, Party.step]
    rw [call, show sendBufferSending (fun _ => ⟨0, 0⟩) queued = _ from sending]
    rfl
  · have filled : unsentCells ≠ [] := by
      rintro rfl
      cases unsentCount
    rw [sends.tail, buffer.tail]
    simpa [lastPtr] using filled
  · have full : ∀ seg ∈ entrySegs moved, FullSegment seg := by
      intro seg member
      apply facts.full seg
      rw [← cells, entrySegs, List.map_append]
      exact List.mem_append_left _ member
    have first := first_unsent_full sends.intact numbered full
    have beginning : start = 0 := by omega
    rw [List.nil_append, beginning, movedCount] at first
    exact UInt32.toNat_inj.mp first
  · rw [List.nil_append, total, cells, Nat.zero_add]
    rw [length] at fewer
    exact Nat.le_trans fewer (by decide)

theorem ignored_kept {client : Client} {sent unsent : List (Nat × SegBuf)}
    {incoming : Incoming} (intact : Intact client sent unsent)
    (handler : clientSeghandler incoming.now client incoming.sourceNodeID incoming.segmentBuffer =
      some (client, [])) : KeepsBuffer client incoming := by
  have nothingGone : Intact client ([] ++ sent) unsent := intact
  have nothingMoved : Intact client (sent ++ []) unsent := by
    rw [List.append_nil]
    exact intact
  exact ⟨client, Option.map_eq_some_iff.mpr ⟨_, handler, rfl⟩,
    buffer_kept nothingGone nothingMoved rfl⟩

section ServerDataack

variable {client : Client} {sent unsent : List (Nat × SegBuf)} {incoming : Incoming}
  (connected : client.tcb.state = .connected)
  (server : client.tcb.FromServer incoming.sourceNodeID incoming.segmentBuffer)
  (dataack : incoming.segmentBuffer.header.type = SegType.dataack)

include connected server dataack

theorem null_tail_not_kept (intact : Intact client sent unsent)
    (reads : ReadsNullTail client incoming.segmentBuffer.header.ackNum) :
    ¬ KeepsBuffer client incoming := by
  rintro ⟨after, handled, _⟩
  obtain ⟨null, cell, held, reached⟩ := reads
  obtain ⟨result, handler, _⟩ := Option.map_eq_some_iff.mp handled
  have filled := reached_filled intact ⟨connected, server, dataack, cell, held, reached⟩
  obtain ⟨entry, rest, cells⟩ := List.exists_cons_of_ne_nil filled
  have owns := intact.owns
  rw [cells] at owns
  obtain ⟨head, headHeld⟩ := owns_head owns
  rw [head, headHeld] at held
  obtain rfl := Option.some.inj held
  rw [dataack_handled _ connected server dataack owns, if_pos reached] at handler
  obtain ⟨acknowledged, run, _⟩ := Option.bind_eq_some_iff.mp handler
  exact recv_ack_tail_held run null

theorem behind_kept (buffer : ConsistentBuffer client sent unsent)
    (behind : ¬ Overtakes client incoming.segmentBuffer.header.ackNum)
    (tailed : ¬ ReadsNullTail client incoming.segmentBuffer.header.ackNum) :
    KeepsBuffer client incoming := by
  have intact := buffer.intact
  have owns := intact.owns
  cases cells : sent ++ unsent with
  | nil =>
      rw [cells] at owns
      exact ignored_kept intact (dataack_idle _ connected server dataack (chain_first owns.chain))
  | cons entry rest =>
      rw [cells] at owns
      have handler := dataack_handled _ connected server dataack owns
      by_cases reached : entry.2.seg.header.seqNum ≤ incoming.segmentBuffer.header.ackNum
      · obtain ⟨head, held⟩ := owns_head owns
        have tail : client.tcb.sendBufTail ≠ none := fun null =>
          tailed ⟨null, _, head ▸ held, reached⟩
        have filled : sent ++ unsent ≠ [] := by simp [cells]
        obtain ⟨acknowledged, gone, kept, run, rfl, shrunk, _⟩ :=
          recv_ack_consistent buffer filled tail behind
        obtain ⟨after, effects, moved, left, sending, facts⟩ :=
          sending_loop_cells incoming.now gbnWindow acknowledged kept unsent shrunk.intact
        rw [if_pos reached, run] at handler
        exact ⟨after, Option.map_eq_some_iff.mpr ⟨_, handler.trans sending, rfl⟩,
          buffer_kept intact facts.intact facts.cells⟩
      · rw [if_neg reached] at handler
        exact ignored_kept intact handler

end ServerDataack

/-- In runs without overtaking acknowledgements a DATAACK of the server keeps the buffer
exactly when it does not overtake and reads no cleared tail pointer. -/
theorem keeps_buffer_iff (myNodeID : Int32) (clientPort svrPortNum : UInt32) (party : Party)
    (reaches : SoundReaches (newSocket myNodeID clientPort svrPortNum) party)
    (connected : party.client.tcb.state = .connected) (incoming : Incoming)
    (server : party.client.tcb.FromServer incoming.sourceNodeID incoming.segmentBuffer)
    (dataack : incoming.segmentBuffer.header.type = SegType.dataack) :
    KeepsBuffer party.client incoming ↔
      ¬ Overtakes party.client incoming.segmentBuffer.header.ackNum ∧
        ¬ ReadsNullTail party.client incoming.segmentBuffer.header.ackNum := by
  obtain ⟨sent, unsent, buffer⟩ := sound_reaches_consistent reaches
  constructor
  · intro keeps
    exact ⟨fun overtakes =>
        overtaken_not_kept buffer.intact connected server dataack overtakes keeps,
      fun reads => null_tail_not_kept connected server dataack buffer.intact reads keeps⟩
  · rintro ⟨behind, tailed⟩
    exact behind_kept connected server dataack buffer behind tailed

def firstSegmentDataack : Incoming where
  now := stoppedClock
  sourceNodeID := 2
  segmentBuffer :=
    { Seg.cleared with
      header := { MrtHdr.cleared with
        type := SegType.dataack, srcPort := 200, destPort := 100, ackNum := 1464 } }

/-- With a full window and a segment unsent, it leaves a sound buffer. -/
theorem full_window_kept :
    ∃ party, SoundReaches (newSocket 1 100 200) party ∧
      firstUnsentSeqNum party.client = 14640 ∧ KeepsBuffer party.client firstSegmentDataack := by
  obtain ⟨client, reaches, ends, tailed, unsent, _⟩ := overfull_window
  have connected : client.tcb.state = .connected := congrArg ClientEnds.state ends
  refine ⟨_, reaches, unsent, (keeps_buffer_iff 1 100 200 _ reaches connected
    firstSegmentDataack (from_server_of_ends ends ⟨rfl, rfl⟩) rfl).mpr ⟨?_, ?_⟩⟩
  · apply sent_behind
    rw [unsent]
    decide
  · rintro ⟨cleared, _⟩
    exact tailed cleared

/-- With a segment unsent, it takes the segment out of the list. -/
theorem stray_dataack_corrupts :
    ∃ party, SoundReaches (newSocket 1 100 200) party ∧ party.client.tcb.state = .connected ∧
      party.client.tcb.FromServer strayDataack.sourceNodeID strayDataack.segmentBuffer ∧
      strayDataack.segmentBuffer.header.type = SegType.dataack ∧
      ¬ KeepsBuffer party.client strayDataack := by
  obtain ⟨client, reaches, ends, _, _, overtakes⟩ := overfull_window
  obtain ⟨sent, unsent, buffer⟩ := sound_reaches_consistent reaches
  have connected : client.tcb.state = .connected := congrArg ClientEnds.state ends
  have server : client.tcb.FromServer strayDataack.sourceNodeID strayDataack.segmentBuffer :=
    from_server_of_ends ends ⟨rfl, rfl⟩
  exact ⟨_, reaches, connected, server, rfl,
    overtaken_not_kept buffer.intact connected server rfl overtakes⟩

end MiniOverlay
