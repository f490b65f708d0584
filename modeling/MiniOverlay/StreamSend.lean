import MiniOverlay.MrtClientSocket
import MiniOverlay.PartialRuns

/-!
# What `mrt_client_send` queues

A call cuts its data into whole segments of `MAX_SEG_LEN` bytes and one last
piece, and queues only the whole ones. The segments that a sequence of calls
queues are numbered without gaps, and they carry the stream exactly when no call
has a last piece.
-/

namespace MiniOverlay

open LinkedHeap FixedByteCodec PartialRuns

set_option autoImplicit false

def Numbered : UInt32 → List Seg → Prop
  | _, [] => True
  | start, seg :: segs =>
      seg.header.seqNum = start ∧ Numbered (start + seg.header.length.toUInt32) segs

def endSeqNum : UInt32 → List Seg → UInt32
  | start, [] => start
  | start, seg :: segs => endSeqNum (start + seg.header.length.toUInt32) segs

theorem numbered_append (start : UInt32) (segs more : List Seg) :
    Numbered start (segs ++ more) ↔ Numbered start segs ∧ Numbered (endSeqNum start segs) more := by
  induction segs generalizing start with
  | nil => simp [Numbered, endSeqNum]
  | cons seg segs ih => simp [Numbered, endSeqNum, ih, and_assoc]

theorem end_seq_append (start : UInt32) (segs more : List Seg) :
    endSeqNum start (segs ++ more) = endSeqNum (endSeqNum start segs) more := by
  induction segs generalizing start with
  | nil => rfl
  | cons seg segs ih => exact ih _

def Consecutive (segs : List Seg) : Prop :=
  segs.IsChain fun seg next => next.header.seqNum = seg.header.seqNum + seg.header.length.toUInt32

theorem consecutive_of_numbered (start : UInt32) (segs : List Seg)
    (numbered : Numbered start segs) : Consecutive segs := by
  induction segs generalizing start with
  | nil => exact .nil
  | cons seg segs ih =>
      have tail := ih _ numbered.2
      cases segs with
      | nil => exact .singleton _
      | cons next segs => exact .cons_cons (numbered.1 ▸ numbered.2.1) tail

structure FullSegment (seg : Seg) : Prop where
  type : seg.header.type = SegType.data
  length : seg.header.length = UInt16.ofNat maxSegLen

theorem full_length {seg : Seg} (full : FullSegment seg) :
    seg.header.length.toNat = maxSegLen := by
  rw [full.length]
  rfl

/-- What one call adds to the list: the segments after its first `count` turns. -/
structure Queued (client after : Client) (data : List Byte) (count : Nat) (added : List Seg) :
    Prop where
  full : ∀ seg ∈ added, FullSegment seg
  numbered : Numbered client.tcb.nextSeqNum added
  next : after.tcb.nextSeqNum = endSeqNum client.tcb.nextSeqNum added
  payload : added.flatMap Seg.payload = data.take (count * maxSegLen)
  ends : after.tcb.ends = client.tcb.ends

theorem new_seg_payload (table : ClientTcb) (type : UInt16) (seqNum : UInt32) (chunk : List Byte)
    (length : chunk.length = maxSegLen) :
    ((table.newSeg type (UInt16.ofNat maxSegLen) chunk).withSeqNum seqNum).payload = chunk := by
  have taken := pad_vector_take maxSegLen chunk (Nat.le_of_eq length)
  rw [length] at taken
  exact taken

theorem send_turn_last (data : List Byte) (client : Client) (index : Nat) :
    mrtClientSendTurn data (index + 1) client index =
      some ⟨(alloc client.heap ⟨⟨client.tcb.newSeg 0
        (UInt16.ofNat (data.length % maxSegLen)) [], 0⟩, none⟩).1, client.tcb⟩ :=
  if_pos rfl

theorem send_turn_full (data : List Byte) (segments : Nat) (client : Client) (index : Nat)
    (early : index < segments) :
    mrtClientSendTurn data (segments + 1) client index =
      (copyChunk data index).bind fun chunk =>
        queueSegment client (client.tcb.newSeg SegType.data (UInt16.ofNat maxSegLen) chunk) := by
  have notLast : index ≠ segments + 1 - 1 := by omega
  exact if_neg notLast

theorem send_turns (data : List Byte) (client : Client) (sent unsent : List Seg)
    (holds : Holds client sent unsent) (segments count : Nat) (early : count ≤ segments)
    (inside : count * maxSegLen ≤ data.length)
    (indexed : ∀ index, index < count → index * maxSegLen ≤ intMax) :
    ∃ after added, (List.range count).foldlM (mrtClientSendTurn data (segments + 1)) client =
        some after ∧ Holds after sent (unsent ++ added) ∧
      Queued client after data count added := by
  induction count with
  | zero =>
      refine ⟨client, [], rfl, by simpa using holds, ?_⟩
      exact ⟨by simp, trivial, rfl, by simp, rfl⟩
  | succ count ih =>
      have grows : (count + 1) * maxSegLen = count * maxSegLen + maxSegLen := Nat.succ_mul _ _
      have shorter : count * maxSegLen ≤ data.length := by omega
      obtain ⟨before, added, run, beforeHolds, queued⟩ := ih (by omega) shorter
        fun index below => indexed index (by omega)
      have chunkOk : copyChunk data count =
          some ((data.drop (count * maxSegLen)).take maxSegLen) :=
        if_pos ⟨indexed count (by omega), inside⟩
      have chunkLength : ((data.drop (count * maxSegLen)).take maxSegLen).length = maxSegLen := by
        rw [List.length_take, List.length_drop]
        omega
      obtain ⟨after, appended, afterHolds, next, ends⟩ := queue_holds before sent (unsent ++ added)
        (before.tcb.newSeg SegType.data (UInt16.ofNat maxSegLen)
          ((data.drop (count * maxSegLen)).take maxSegLen)) beforeHolds
      refine ⟨after, _, ?_, by rwa [List.append_assoc] at afterHolds, ?_⟩
      · rw [List.range_succ, List.foldlM_append, run]
        simp only [Option.bind_eq_bind, Option.bind_some, List.foldlM_cons, List.foldlM_nil]
        rw [send_turn_full data segments before count (by omega), chunkOk, Option.bind_some,
          appended]
        rfl
      · constructor
        · intro seg member
          rcases List.mem_append.mp member with earlier | last
          · exact queued.full seg earlier
          · rw [List.mem_singleton.mp last]
            exact ⟨rfl, rfl⟩
        · rw [numbered_append, ← queued.next]
          exact ⟨queued.numbered, rfl, trivial⟩
        · rw [next, end_seq_append, ← queued.next]
          rfl
        · rw [List.flatMap_append, queued.payload, List.flatMap_singleton,
            new_seg_payload _ _ _ _ chunkLength, Nat.add_mul, Nat.one_mul, List.take_add]
        · exact ends.trans queued.ends

/-- The whole segments of a call can be indexed with an `int`. -/
def Indexable (data : List Byte) : Prop :=
  ∀ index, index < data.length / maxSegLen → index * maxSegLen ≤ intMax

theorem holds_alloc {client : Client} {sent unsent : List Seg} (holds : Holds client sent unsent)
    (cell : Cell SegBuf) : Holds ⟨(alloc client.heap cell).1, client.tcb⟩ sent unsent := by
  obtain ⟨sentCells, unsentCells, buffer, segs⟩ := holds
  exact ⟨sentCells, unsentCells, ⟨owns_alloc buffer.owns cell, buffer.unSent, buffer.tail,
    buffer.unAck, buffer.window⟩, segs⟩

theorem client_send_turns (now : Nat → Timeval) (client : Client) (sent unsent : List Seg)
    (data : List Byte) (holds : Holds client sent unsent)
    (connected : client.tcb.state = .connected) (indexable : Indexable data) :
    ∃ queued added, mrtClientSend now client data =
        (sendBufferSending now queued).map (Prod.mk 1) ∧
      Holds queued sent (unsent ++ added) ∧
      Queued client queued data (data.length / maxSegLen) added := by
  obtain ⟨queued, added, run, queuedHolds, facts⟩ := send_turns data client sent unsent holds
    (data.length / maxSegLen) (data.length / maxSegLen) (Nat.le_refl _)
    (Nat.div_mul_le_self _ _) indexable
  let last : Client := ⟨(alloc queued.heap ⟨⟨queued.tcb.newSeg 0
    (UInt16.ofNat (data.length % maxSegLen)) [], 0⟩, none⟩).1, queued.tcb⟩
  refine ⟨last, added, ?_, holds_alloc queuedHolds _, facts.full, facts.numbered, facts.next,
    facts.payload, facts.ends⟩
  have turns : (List.range (data.length / maxSegLen + 1)).foldlM
      (mrtClientSendTurn data (data.length / maxSegLen + 1)) client = some last := by
    rw [List.range_succ, List.foldlM_append, run]
    simp only [Option.bind_eq_bind, Option.bind_some, List.foldlM_cons, List.foldlM_nil]
    rw [send_turn_last]
    rfl
  simp only [mrtClientSend, connected, turns, Option.bind_eq_bind, Option.bind_some,
    Option.map_eq_bind]
  rfl

theorem client_send_queues (now : Nat → Timeval) (client : Client) (sent unsent : List Seg)
    (data : List Byte) (holds : Holds client sent unsent)
    (connected : client.tcb.state = .connected) (indexable : Indexable data) :
    ∃ after effects sent' unsent' added, mrtClientSend now client data = some (1, after, effects) ∧
      Holds after sent' unsent' ∧ sent' ++ unsent' = sent ++ unsent ++ added ∧
      Queued client after data (data.length / maxSegLen) added := by
  obtain ⟨queued, added, call, queuedHolds, facts⟩ :=
    client_send_turns now client sent unsent data holds connected indexable
  obtain ⟨after, effects, moved, rest, sending, split, afterHolds, _, ends, next, _⟩ :=
    sending_holds now queued sent (unsent ++ added) queuedHolds
  refine ⟨after, effects, sent ++ moved, rest, added, ?_, afterHolds, ?_, ?_⟩
  · rw [call, sending]
    rfl
  · rw [List.append_assoc, ← split, List.append_assoc]
  · exact ⟨facts.full, facts.numbered, next.trans facts.next, facts.payload,
      ends.trans facts.ends⟩

theorem client_send_overflows (now : Nat → Timeval) (client : Client) (data : List Byte)
    (connected : client.tcb.state = .connected) (past : ¬ Indexable data) :
    mrtClientSend now client data = none := by
  simp only [Indexable, not_forall] at past
  obtain ⟨index, early, large⟩ := past
  have fails : ∀ state, mrtClientSendTurn data (data.length / maxSegLen + 1) state index =
      none := by
    intro state
    have noChunk : copyChunk data index = none := if_neg fun fits => large fits.1
    rw [send_turn_full data _ state index early, noChunk, Option.bind_none]
  have turns := fold_fails (mrtClientSendTurn data (data.length / maxSegLen + 1))
    (List.range (data.length / maxSegLen + 1)) index (List.mem_range.mpr (by omega)) fails client
  simp only [mrtClientSend, connected, turns]
  rfl

def mrtClientSends (now : Nat → Nat → Timeval) : Client → List (List Byte) → Option Client
  | client, [] => some client
  | client, data :: calls => do
      let result ← mrtClientSend (now calls.length) client data
      if result.1 = 1 then mrtClientSends now result.2.1 calls else none

/-- The segments behind those that were already there carry exactly the data of
the calls. -/
def PreservesStream (now : Nat → Nat → Timeval) (client : Client) (calls : List (List Byte)) :
    Prop :=
  ∃ after before added, sendBufferSegs client = some before ∧
    mrtClientSends now client calls = some after ∧ sendBufferSegs after = some (before ++ added) ∧
    added.flatMap Seg.payload = calls.flatten ∧
    (∀ seg ∈ added, seg.header.type = SegType.data ∧ 1 ≤ seg.header.length.toNat ∧
      seg.header.length.toNat ≤ maxSegLen) ∧
    Consecutive added

theorem client_sends_queue (now : Nat → Nat → Timeval) (calls : List (List Byte)) (client : Client)
    (sent unsent : List Seg) (holds : Holds client sent unsent)
    (connected : client.tcb.state = .connected) (indexable : ∀ data ∈ calls, Indexable data) :
    ∃ after sent' unsent' added, mrtClientSends now client calls = some after ∧
      Holds after sent' unsent' ∧ sent' ++ unsent' = sent ++ unsent ++ added ∧
      (∀ seg ∈ added, FullSegment seg) ∧ Numbered client.tcb.nextSeqNum added ∧
      added.flatMap Seg.payload =
        calls.flatMap fun data => data.take (data.length / maxSegLen * maxSegLen) := by
  induction calls generalizing client sent unsent with
  | nil =>
      exact ⟨client, sent, unsent, [], rfl, holds, by simp, by simp, trivial, rfl⟩
  | cons data calls ih =>
      obtain ⟨next, effects, sent1, unsent1, added1, call, nextHolds, split1, queued⟩ :=
        client_send_queues (now calls.length) client sent unsent data holds connected
          (indexable data (by simp))
      have nextConnected : next.tcb.state = .connected :=
        (congrArg ClientEnds.state queued.ends).trans connected
      obtain ⟨after, sent2, unsent2, added2, run, afterHolds, split2, full, numbered, payload⟩ :=
        ih next sent1 unsent1 nextHolds nextConnected fun item member =>
          indexable item (by simp [member])
      refine ⟨after, sent2, unsent2, added1 ++ added2, ?_, afterHolds, ?_, ?_, ?_, ?_⟩
      · simp only [mrtClientSends, call, Option.bind_eq_bind, Option.bind_some, if_true]
        exact run
      · rw [split2, split1, List.append_assoc]
      · intro seg member
        rcases List.mem_append.mp member with first | later
        · exact queued.full seg first
        · exact full seg later
      · rw [numbered_append, ← queued.next]
        exact ⟨queued.numbered, numbered⟩
      · rw [List.flatMap_append, queued.payload, payload, List.flatMap_cons]

theorem client_sends_overflow (now : Nat → Nat → Timeval) (calls : List (List Byte))
    (client : Client) (sent unsent : List Seg) (holds : Holds client sent unsent)
    (connected : client.tcb.state = .connected) (bad : List Byte) (member : bad ∈ calls)
    (past : ¬ Indexable bad) : mrtClientSends now client calls = none := by
  induction calls generalizing client sent unsent with
  | nil => cases member
  | cons data calls ih =>
      by_cases fits : Indexable data
      · obtain ⟨next, effects, sent1, unsent1, added1, call, nextHolds, _, queued⟩ :=
          client_send_queues (now calls.length) client sent unsent data holds connected fits
        have nextConnected : next.tcb.state = .connected :=
          (congrArg ClientEnds.state queued.ends).trans connected
        have later : bad ∈ calls := by
          rcases List.mem_cons.mp member with rfl | later
          · exact absurd fits past
          · exact later
        have rest := ih next sent1 unsent1 nextHolds nextConnected later
        simp only [mrtClientSends, call, Option.bind_eq_bind, Option.bind_some, if_true]
        exact rest
      · simp only [mrtClientSends, client_send_overflows _ client data connected fits]
        rfl

/-- The longest data of whole segments whose last index is still an `int`. -/
def sendLimit : Nat := 1466861 * maxSegLen

theorem indexable_iff (data : List Byte) (whole : maxSegLen ∣ data.length) :
    Indexable data ↔ data.length ≤ sendLimit := by
  obtain ⟨segments, length⟩ := whole
  simp only [Indexable, length, sendLimit, maxSegLen, intMax]
  constructor
  · intro all
    by_contra past
    have last := all (segments - 1) (by omega)
    omega
  · intro bounded index early
    omega

theorem take_flatten_length_le (calls : List (List Byte)) (count : List Byte → Nat) :
    (calls.flatMap fun data => data.take (count data)).length ≤ calls.flatten.length := by
  induction calls with
  | nil => simp
  | cons data calls ih =>
      rw [List.flatMap_cons, List.flatten_cons, List.length_append, List.length_append,
        List.length_take]
      omega

theorem whole_of_take_flatten (calls : List (List Byte)) (count : List Byte → Nat)
    (same : (calls.flatMap fun data => data.take (count data)) = calls.flatten) :
    ∀ data ∈ calls, data.length ≤ count data := by
  induction calls with
  | nil => simp
  | cons data calls ih =>
      rw [List.flatMap_cons, List.flatten_cons] at same
      have lengths := congrArg List.length same
      have tail := take_flatten_length_le calls count
      rw [List.length_append, List.length_append, List.length_take] at lengths
      have head : data.length ≤ count data := by omega
      rw [List.take_of_length_le head] at same
      intro item member
      rcases List.mem_cons.mp member with rfl | later
      · exact head
      · exact ih (List.append_cancel_left same) item later

theorem whole_of_preserves (now : Nat → Nat → Timeval) (calls : List (List Byte))
    (client : Client) (sent unsent : List Seg) (holds : Holds client sent unsent)
    (connected : client.tcb.state = .connected) (preserves : PreservesStream now client calls) :
    ∀ data ∈ calls, maxSegLen ∣ data.length ∧ data.length ≤ sendLimit := by
  obtain ⟨after, before, added, held, run, afterHeld, payload, _, _⟩ := preserves
  have indexable : ∀ data ∈ calls, Indexable data := by
    intro data member
    by_contra past
    rw [client_sends_overflow now calls client sent unsent holds connected data member past]
      at run
    cases run
  obtain ⟨after', sent', unsent', added', run', afterHolds, split, _, _, payload'⟩ :=
    client_sends_queue now calls client sent unsent holds connected indexable
  obtain rfl := Option.some.inj (run.symm.trans run')
  have sameAdded : added = added' := by
    rw [holds_segs holds] at held
    rw [holds_segs afterHolds, split, ← Option.some.inj held] at afterHeld
    exact (List.append_cancel_left (Option.some.inj afterHeld)).symm
  rw [← sameAdded, payload] at payload'
  intro data member
  have whole := whole_of_take_flatten calls _ payload'.symm data member
  have divides : maxSegLen ∣ data.length := by
    have cut := Nat.div_mul_le_self data.length maxSegLen
    exact ⟨data.length / maxSegLen, by rw [Nat.mul_comm]; omega⟩
  exact ⟨divides, (indexable_iff data divides).mp (indexable data member)⟩

/-- Sending preserves the stream exactly when every call sends whole segments,
and not more of them than an `int` can index. -/
theorem preserves_stream_iff (now : Nat → Nat → Timeval) (calls : List (List Byte))
    (client : Client) (sent unsent : List Seg) (holds : Holds client sent unsent)
    (connected : client.tcb.state = .connected) :
    PreservesStream now client calls ↔
      ∀ data ∈ calls, maxSegLen ∣ data.length ∧ data.length ≤ sendLimit := by
  refine ⟨whole_of_preserves now calls client sent unsent holds connected, fun whole => ?_⟩
  obtain ⟨after, sent', unsent', added, run, afterHolds, split, full, numbered, payload⟩ :=
    client_sends_queue now calls client sent unsent holds connected fun data member =>
      (indexable_iff data (whole data member).1).mpr (whole data member).2
  refine ⟨after, sent ++ unsent, added, holds_segs holds, run, ?_, ?_, ?_,
    consecutive_of_numbered _ _ numbered⟩
  · rw [holds_segs afterHolds, split]
  · rw [payload, ← List.flatMap_id]
    apply List.flatMap_congr
    intro data member
    rw [Nat.div_mul_cancel (whole data member).1, List.take_length]
    rfl
  · intro seg member
    rw [full_length (full seg member)]
    exact ⟨(full seg member).type, by decide, Nat.le_refl _⟩

theorem whole_segment_buffered (now : Nat → Timeval) (client : Client) (data : List Byte)
    (holds : Holds client [] []) (connected : client.tcb.state = .connected)
    (whole : data.length = maxSegLen) :
    ∃ after effects, mrtClientSend now client data = some (1, after, effects) ∧
      after.tcb.ends = client.tcb.ends ∧ after.tcb.sendBufHead ≠ none := by
  obtain ⟨after, effects, sent, unsent, added, call, afterHolds, split, facts⟩ :=
    client_send_queues now client [] [] data holds connected
      ((indexable_iff data ⟨1, by rw [whole, Nat.mul_one]⟩).mpr (by rw [whole]; decide))
  refine ⟨after, effects, call, facts.ends, ?_⟩
  intro none
  have payload := congrArg List.length facts.payload
  rcases holds_head afterHolds with ⟨_, nothing⟩ | ⟨head, _⟩
  · rw [split, List.nil_append, List.nil_append] at nothing
    rw [nothing, List.length_take, whole] at payload
    exact absurd payload (by decide)
  · exact head none

theorem established_client_holds : Holds establishedClient [] [] :=
  holds_empty establishedClient rfl rfl rfl rfl

theorem preserves_whole_segment :
    PreservesStream (fun _ _ => ⟨0, 0⟩) establishedClient [List.replicate maxSegLen 7] := by
  refine (preserves_stream_iff _ _ establishedClient [] [] established_client_holds rfl).mpr ?_
  intro data member
  rw [List.mem_singleton.mp member, List.length_replicate]
  decide

/-- The six bytes of `hello` and its terminator: nothing is queued. -/
theorem hello_not_preserved :
    ¬ PreservesStream (fun _ _ => ⟨0, 0⟩) establishedClient [[104, 101, 108, 108, 111, 0]] := by
  intro preserves
  have whole := whole_of_preserves _ _ establishedClient [] [] established_client_holds rfl
    preserves [104, 101, 108, 108, 111, 0] (by simp)
  exact absurd whole.1 (by decide)

end MiniOverlay
