import MiniOverlay.SendBufferInvariant

/-!
# The order of acknowledgements

A DATAACK of the server either changes nothing or removes the covered cells and
fills the window again, and what is left then depends on the list and on the
number acknowledged only. So a sequence of DATAACKs leaves what the greatest of
them leaves alone, in any order and any number of times; the numbers need not even
be boundaries of segments.
-/

namespace MiniOverlay

open LinkedHeap PartialRuns

set_option autoImplicit false

def Incoming.ackNum (incoming : Incoming) : Nat := incoming.segmentBuffer.header.ackNum.toNat

/-- A DATAACK from the server that acknowledges nothing that was not sent. -/
structure Incoming.Acknowledges (client : Client) (incoming : Incoming) : Prop where
  server : client.tcb.FromServer incoming.sourceNodeID incoming.segmentBuffer
  sent : AcknowledgesSent client incoming.segmentBuffer

/-- The same segments with the same first unsent one and the same counter. -/
structure SameSendBuffer (left right : Client) : Prop where
  segs : sendBufferSegs left = sendBufferSegs right
  unSent : left.tcb.sendBufunSent = right.tcb.sendBufunSent
  unAck : left.tcb.unAckSegNum = right.tcb.unAckSegNum

def uncovered (ackNum : Nat) (list : List (Nat × Seg)) : List (Nat × Seg) :=
  list.dropWhile fun entry => entry.2.header.seqNum.toNat < ackNum

theorem uncovered_of_le {ackNum : Nat} {list : List (Nat × Seg)}
    (least : ∀ entry ∈ list.head?, ackNum ≤ entry.2.header.seqNum.toNat) :
    uncovered ackNum list = list := by
  cases list with
  | nil => rfl
  | cons entry list =>
      have first := least entry rfl
      rw [uncovered, List.dropWhile_cons_of_neg (by simpa using first)]

theorem uncovered_append {ackNum : Nat} {front back : List (Nat × Seg)}
    (covered : ∀ entry ∈ front, entry.2.header.seqNum.toNat < ackNum)
    (stops : ∀ entry ∈ back, ackNum ≤ entry.2.header.seqNum.toNat) :
    uncovered ackNum (front ++ back) = back := by
  rw [uncovered, List.dropWhile_append_of_pos (by simpa using covered)]
  exact uncovered_of_le fun entry member => stops entry (List.mem_of_mem_head? member)

theorem uncovered_uncovered (first second : Nat) (list : List (Nat × Seg)) :
    uncovered second (uncovered first list) = uncovered (max first second) list := by
  induction list with
  | nil => rfl
  | cons entry list ih =>
      by_cases covered : entry.2.header.seqNum.toNat < first
      · have both : entry.2.header.seqNum.toNat < max first second :=
          lt_of_lt_of_le covered (le_max_left _ _)
        simp only [uncovered] at ih ⊢
        rw [List.dropWhile_cons_of_pos (by simpa using covered),
          List.dropWhile_cons_of_pos (by simpa using both), ih]
      · have stays : uncovered first (entry :: list) = entry :: list := by
          apply uncovered_of_le
          simpa using covered
        rw [stays]
        rw [Nat.not_lt] at covered
        by_cases reached : entry.2.header.seqNum.toNat < second
        · rw [max_eq_right (le_of_lt (lt_of_le_of_lt covered reached))]
        · rw [Nat.not_lt] at reached
          rw [uncovered_of_le (by simpa using reached),
            uncovered_of_le (by simp [covered, reached])]

theorem uncovered_drop (ackNum : Nat) (list : List (Nat × Seg)) :
    ∃ count, uncovered ackNum list = list.drop count := by
  obtain ⟨front, split⟩ := List.dropWhile_suffix (l := list)
    fun entry => decide (entry.2.header.seqNum.toNat < ackNum)
  refine ⟨front.length, ?_⟩
  conv => rhs; rw [← split]
  rw [List.drop_left]
  rfl

theorem split_at_limit {Entry : Type} (front back : List Entry) (limit : Nat)
    (full : front.length = min limit (front ++ back).length) :
    (front ++ back).take limit = front ∧ (front ++ back).drop limit = back := by
  rw [List.length_append] at full
  by_cases exact_ : front.length = limit
  · rw [← exact_, List.take_left, List.drop_left]
    exact ⟨rfl, rfl⟩
  · have nothing : back = [] := List.length_eq_zero_iff.mp (by omega)
    rw [nothing, List.append_nil]
    exact ⟨List.take_of_length_le (by omega), List.drop_of_length_le (by omega)⟩

/-- The cells behind `sendBufHead` and the unsent ones among them. -/
def Labelled (client : Client) (sent unsent : List (Nat × Seg)) : Prop :=
  ∃ sentCells unsentCells, SendBuffer client sentCells unsentCells ∧
    labels sentCells = sent ∧ labels unsentCells = unsent

theorem first_ptr_of_labels {entries others : List (Nat × SegBuf)}
    (same : labels entries = labels others) : firstPtr entries = firstPtr others := by
  have first (entries : List (Nat × SegBuf)) : firstPtr entries = (addresses entries).head? := by
    simp [firstPtr, addresses]
  rw [first, first, addresses_of_labels same]

theorem labelled_same {left right : Client} {sent unsent : List (Nat × Seg)}
    (labelled : Labelled left sent unsent) (labelled' : Labelled right sent unsent) :
    SameSendBuffer left right := by
  obtain ⟨sentCells, unsentCells, buffer, rfl, rfl⟩ := labelled
  obtain ⟨sentCells', unsentCells', buffer', sameSent, sameUnsent⟩ := labelled'
  have holds : Holds left (entrySegs sentCells) (entrySegs unsentCells) :=
    ⟨_, _, buffer, rfl, rfl⟩
  have holds' : Holds right (entrySegs sentCells) (entrySegs unsentCells) :=
    ⟨_, _, buffer', entry_segs_of_labels sameSent, entry_segs_of_labels sameUnsent⟩
  constructor
  · rw [holds_segs holds, holds_segs holds']
  · rw [buffer.unSent, buffer'.unSent, first_ptr_of_labels sameUnsent]
  · rw [← UInt32.toNat_inj, (holds_window holds).1, (holds_window holds').1]

def Settled (list : List (Nat × Seg)) (ends : ClientEnds) (ackNum : Nat) (client : Client) :
    Prop :=
  Labelled client ((uncovered ackNum list).take gbnWindow)
      ((uncovered ackNum list).drop gbnWindow) ∧
    client.tcb.ends = ends

def Growing (list : List (Nat × Seg)) : Prop :=
  list.Pairwise fun entry later => entry.2.header.seqNum.toNat < later.2.header.seqNum.toNat

theorem numbered_from_growing {start : Nat} (list : List (Nat × Seg))
    (numbered : NumberedFrom start (list.map Prod.snd)) : Growing list := by
  induction list generalizing start with
  | nil => exact List.Pairwise.nil
  | cons entry list ih =>
      obtain ⟨here, nonempty, later⟩ := numbered
      refine List.pairwise_cons.mpr ⟨?_, ih later⟩
      intro other member
      have bound := numbered_from_ge later other.2 (List.mem_map_of_mem member)
      omega

theorem sent_split {sent unsent : List (Nat × SegBuf)} (growing : Growing (labels (sent ++ unsent)))
    (ackSeqnum : UInt32) (unreached : ∀ entry ∈ unsent, ¬ entry.2.seg.header.seqNum < ackSeqnum) :
    ∃ gone kept, sent = gone ++ kept ∧
      (∀ entry ∈ gone, entry.2.seg.header.seqNum < ackSeqnum) ∧
      ∀ entry ∈ kept ++ unsent, ¬ entry.2.seg.header.seqNum < ackSeqnum := by
  induction sent with
  | nil => exact ⟨[], [], rfl, by simp, unreached⟩
  | cons first sent ih =>
      obtain ⟨least, later⟩ := List.pairwise_cons.mp growing
      by_cases covers : first.2.seg.header.seqNum < ackSeqnum
      · obtain ⟨gone, kept, rfl, covered, stops⟩ := ih later
        exact ⟨first :: gone, kept, rfl, by simpa [covers] using covered, stops⟩
      · refine ⟨[], first :: sent, rfl, by simp, ?_⟩
        intro entry member
        rcases List.mem_cons.mp member with rfl | behind
        · exact covers
        · have greater : first.2.seg.header.seqNum.toNat < entry.2.seg.header.seqNum.toNat :=
            least (entry.1, entry.2.seg) (List.mem_map_of_mem behind)
          rw [UInt32.lt_iff_toNat_lt] at covers ⊢
          omega

theorem uncovered_cells {gone kept : List (Nat × SegBuf)} {ackSeqnum : UInt32}
    (covered : ∀ entry ∈ gone, entry.2.seg.header.seqNum < ackSeqnum)
    (stops : ∀ entry ∈ kept, ¬ entry.2.seg.header.seqNum < ackSeqnum) :
    uncovered ackSeqnum.toNat (labels (gone ++ kept)) = labels kept := by
  rw [labels_append]
  apply uncovered_append
  · intro item member
    obtain ⟨cell, inside, rfl⟩ := List.mem_map.mp member
    exact UInt32.lt_iff_toNat_lt.mp (covered cell inside)
  · intro item member
    obtain ⟨cell, inside, rfl⟩ := List.mem_map.mp member
    exact UInt32.le_iff_toNat_le.mp (UInt32.not_lt.mp (stops cell inside))

theorem dataack_settles {client : Client} {sent unsent : List (Nat × Seg)} {incoming : Incoming}
    (labelled : Labelled client sent unsent) (connected : client.tcb.state = .connected)
    (growing : Growing (sent ++ unsent))
    (server : client.tcb.FromServer incoming.sourceNodeID incoming.segmentBuffer)
    (dataack : incoming.segmentBuffer.header.type = SegType.dataack)
    (unreached : ∀ entry ∈ unsent, incoming.ackNum ≤ entry.2.header.seqNum.toNat)
    (reaches : ∃ head ∈ (sent ++ unsent).head?, head.2.header.seqNum.toNat ≤ incoming.ackNum) :
    ∃ next, client.handle incoming = some next ∧
      Settled (sent ++ unsent) client.tcb.ends incoming.ackNum next := by
  obtain ⟨sentCells, unsentCells, buffer, rfl, rfl⟩ := labelled
  rw [← labels_append] at growing reaches ⊢
  have unreachedCells : ∀ entry ∈ unsentCells,
      ¬ entry.2.seg.header.seqNum < incoming.segmentBuffer.header.ackNum := by
    intro entry member
    rw [UInt32.not_lt, UInt32.le_iff_toNat_le]
    exact unreached (entry.1, entry.2.seg) (List.mem_map_of_mem member)
  obtain ⟨gone, kept, rfl, covered, stops⟩ := sent_split growing _ unreachedCells
  obtain ⟨head, isHead, reached⟩ := reaches
  cases cells : gone ++ kept ++ unsentCells with
  | nil =>
      rw [cells] at isHead
      cases isHead
  | cons entry rest =>
      rw [cells] at isHead
      obtain rfl := Option.some.inj isHead
      have filled : gone ++ kept ++ unsentCells ≠ [] := by simp [cells]
      have handled := dataack_handled _ connected server dataack (cells ▸ buffer.owns)
      rw [if_pos (UInt32.le_iff_toNat_le.mpr reached)] at handled
      obtain ⟨acknowledged, run, shrunk, ends, _⟩ := recv_ack_cells client gone kept unsentCells
        incoming.segmentBuffer.header.ackNum buffer filled covered stops
      obtain ⟨next, effects, moved, left, sending, facts⟩ :=
        sending_loop_cells incoming.now gbnWindow acknowledged kept unsentCells shrunk.intact
      rw [run, Option.bind_some, sendBufferSending, sending] at handled
      have remaining : uncovered incoming.ackNum (labels (entry :: rest)) =
          labels (kept ++ moved) ++ labels left :=
        calc
          uncovered incoming.ackNum (labels (entry :: rest)) =
              uncovered incoming.ackNum (labels (gone ++ (kept ++ unsentCells))) := by
            rw [← cells, List.append_assoc]
          _ = labels (kept ++ unsentCells) := uncovered_cells covered stops
          _ = labels (kept ++ moved) ++ labels left := by
            rw [← facts.same_cells, labels_append (kept ++ moved)]
      have count : (labels (kept ++ moved)).length =
          min gbnWindow (labels (kept ++ moved) ++ labels left).length := by
        have window : (kept ++ moved).length ≤ gbnWindow := facts.intact.window
        rw [List.length_append, labels, List.length_map]
        rcases facts.window_filled with rfl | full
        · exact (Nat.min_eq_right window).symm
        · rw [full, Nat.min_eq_left (Nat.le_add_right _ _)]
      obtain ⟨front, back⟩ := split_at_limit _ _ gbnWindow count
      refine ⟨next, by rw [Client.handle, handled]; rfl, ⟨_, _, facts.buffer shrunk, ?_, ?_⟩,
        facts.ends.trans ends⟩
      · rw [remaining, front]
      · rw [remaining, back]

theorem dataack_elsewhere {client : Client} {incoming : Incoming}
    (elsewhere : client.tcb.state ≠ .connected)
    (dataack : incoming.segmentBuffer.header.type = SegType.dataack) :
    client.handle incoming = some client := by
  have notSynack : SegType.dataack ≠ SegType.synack := by decide
  have notFinack : SegType.dataack ≠ SegType.finack := by decide
  cases state : client.tcb.state with
  | connected => exact absurd state elsewhere
  | synsent =>
      simp only [Client.handle, clientSeghandler, state, dataack, notSynack, false_and, if_false,
        Option.map_some]
  | finwait =>
      simp only [Client.handle, clientSeghandler, state, dataack, notFinack, false_and, if_false,
        Option.map_some]
  | closed => simp only [Client.handle, clientSeghandler, state, Option.map_some]

theorem dataack_stale {client : Client} {sent unsent : List (Nat × Seg)} {incoming : Incoming}
    (labelled : Labelled client sent unsent)
    (server : client.tcb.FromServer incoming.sourceNodeID incoming.segmentBuffer)
    (dataack : incoming.segmentBuffer.header.type = SegType.dataack)
    (connected : client.tcb.state = .connected)
    (stale : ∀ head ∈ (sent ++ unsent).head?, incoming.ackNum < head.2.header.seqNum.toNat) :
    client.handle incoming = some client := by
  obtain ⟨sentCells, unsentCells, buffer, rfl, rfl⟩ := labelled
  rw [← labels_append] at stale
  cases cells : sentCells ++ unsentCells with
  | nil =>
      have empty : client.tcb.sendBufHead = none := by
        have head := chain_first buffer.owns.chain
        rwa [cells] at head
      simp only [Client.handle, clientSeghandler, connected, server.1, server.2, dataack, and_self,
        if_true, empty, Option.map_some]
  | cons entry rest =>
      rw [cells] at stale
      have below : incoming.ackNum < entry.2.seg.header.seqNum.toNat := stale _ rfl
      have low : ¬ entry.2.seg.header.seqNum ≤ incoming.segmentBuffer.header.ackNum := by
        rw [UInt32.le_iff_toNat_le]
        exact Nat.not_le.mpr below
      rw [Client.handle, dataack_handled _ connected server dataack (cells ▸ buffer.owns),
        if_neg low]
      rfl

theorem settled_step {client : Client} {sent unsent : List (Nat × Seg)} {incoming : Incoming}
    {ackNum : Nat} {state : Client} (connected : client.tcb.state = .connected)
    (window : sent.length ≤ gbnWindow) (growing : Growing (sent ++ unsent))
    (server : client.tcb.FromServer incoming.sourceNodeID incoming.segmentBuffer)
    (dataack : incoming.segmentBuffer.header.type = SegType.dataack)
    (unreached : ∀ entry ∈ unsent, incoming.ackNum ≤ entry.2.header.seqNum.toNat)
    (settled : Settled (sent ++ unsent) client.tcb.ends ackNum state) :
    ∃ next, state.handle incoming = some next ∧
      Settled (sent ++ unsent) client.tcb.ends (max ackNum incoming.ackNum) next := by
  obtain ⟨labelled, ends⟩ := settled
  obtain ⟨count, dropped⟩ := uncovered_drop ackNum (sent ++ unsent)
  have together : (uncovered ackNum (sent ++ unsent)).take gbnWindow ++
      (uncovered ackNum (sent ++ unsent)).drop gbnWindow = uncovered ackNum (sent ++ unsent) :=
    List.take_append_drop _ _
  have stateConnected : state.tcb.state = .connected :=
    (congrArg ClientEnds.state ends).trans connected
  have stateServer := from_server_of_ends ends server
  by_cases reaches : ∃ head ∈ (uncovered ackNum (sent ++ unsent)).head?,
      head.2.header.seqNum.toNat ≤ incoming.ackNum
  · rw [← together] at reaches
    obtain ⟨next, handled, nextSettled⟩ := dataack_settles labelled stateConnected
      (by
        rw [together, dropped]
        exact growing.sublist (List.drop_sublist _ _))
      stateServer dataack
      (by
        intro entry member
        apply unreached
        rw [dropped, List.drop_drop] at member
        have behind := (List.drop_sublist_drop_left (sent ++ unsent)
          (show sent.length ≤ count + gbnWindow by omega)).subset member
        rwa [List.drop_left] at behind) reaches
    rw [together, ends] at nextSettled
    refine ⟨next, handled, ?_⟩
    simpa only [Settled, uncovered_uncovered] using nextSettled
  · have stale : ∀ head ∈ (uncovered ackNum (sent ++ unsent)).head?,
        incoming.ackNum < head.2.header.seqNum.toNat := by
      intro head isHead
      by_contra reached
      exact reaches ⟨head, isHead, Nat.not_lt.mp reached⟩
    have same : uncovered (max ackNum incoming.ackNum) (sent ++ unsent) =
        uncovered ackNum (sent ++ unsent) := by
      rw [← uncovered_uncovered]
      exact uncovered_of_le fun head isHead => Nat.le_of_lt (stale head isHead)
    rw [← together] at stale
    refine ⟨state, dataack_stale labelled stateServer dataack stateConnected stale, ?_, ends⟩
    rw [same]
    exact labelled

/-- What a sequence with this greatest number leaves: nothing moved, or a state that
the number determines. -/
def AckOutcome (client : Client) (moves : Nat → Prop) (settled : Nat → Client → Prop)
    (greatest : Option Nat) (last : Client) : Prop :=
  (∀ ackNum ∈ greatest, ¬ moves ackNum) ∧ last = client ∨
    ∃ ackNum ∈ greatest, moves ackNum ∧ settled ackNum last

theorem unmoved_outcome {client : Client} (items : List Incoming)
    (each : ∀ incoming ∈ items, client.handle incoming = some client)
    (settled : Nat → Client → Prop) :
    ∃ last, items.foldlM Client.handle client = some last ∧
      AckOutcome client (fun _ => False) settled (items.map Incoming.ackNum).max? last := by
  obtain ⟨last, run, same⟩ := fold_runs Client.handle (fun state => state = client) items
    (fun incoming member before same => ⟨client, by rw [same, each incoming member], rfl⟩) rfl
  exact ⟨last, run, Or.inl ⟨fun _ _ moved => moved, same⟩⟩

theorem reaching_outcome {client : Client} {sent unsent : List (Nat × Seg)} {head : Nat × Seg}
    (labelled : Labelled client sent unsent) (connected : client.tcb.state = .connected)
    (growing : Growing (sent ++ unsent)) (window : sent.length ≤ gbnWindow)
    (isHead : (sent ++ unsent).head? = some head) (items : List Incoming)
    (matching : ∀ incoming ∈ items, incoming.Acknowledges client)
    (unreached : ∀ incoming ∈ items, ∀ entry ∈ unsent,
      incoming.ackNum ≤ entry.2.header.seqNum.toNat) :
    ∃ last, items.foldlM Client.handle client = some last ∧
      AckOutcome client (fun ackNum => head.2.header.seqNum.toNat ≤ ackNum)
        (Settled (sent ++ unsent) client.tcb.ends) (items.map Incoming.ackNum).max? last := by
  obtain ⟨last, run, outcome⟩ := fold_greatest Client.handle Incoming.ackNum
    head.2.header.seqNum.toNat (Settled (sent ++ unsent) client.tcb.ends) items client
    (fun incoming member low => by
      have acknowledges := matching incoming member
      apply dataack_stale labelled acknowledges.server acknowledges.sent.dataack connected
      intro first isFirst
      obtain rfl := Option.some.inj (isHead.symm.trans isFirst)
      exact low)
    (fun incoming member reached => by
      have acknowledges := matching incoming member
      exact dataack_settles labelled connected growing acknowledges.server
        acknowledges.sent.dataack (unreached incoming member) ⟨head, isHead, reached⟩)
    (fun incoming member ackNum state _ settled => by
      have acknowledges := matching incoming member
      exact settled_step connected window growing acknowledges.server
        acknowledges.sent.dataack (unreached incoming member) settled)
  refine ⟨last, run, ?_⟩
  rcases outcome with ⟨lower, unmoved⟩ | result
  · exact Or.inl ⟨fun ackNum isGreatest => Nat.not_le.mpr (lower ackNum isGreatest), unmoved⟩
  · exact Or.inr result

theorem dataacks_determined {client : Client} {sent unsent : List Seg} {bytes : Nat}
    (numbers : Numbers client sent unsent bytes) :
    ∃ (moves : Nat → Prop) (settled : Nat → Client → Prop),
      (∀ ackNum left right, settled ackNum left → settled ackNum right →
        SameSendBuffer left right) ∧
      ∀ items : List Incoming, (∀ incoming ∈ items, incoming.Acknowledges client) →
        ∃ last, items.foldlM Client.handle client = some last ∧
          AckOutcome client moves settled (items.map Incoming.ackNum).max? last := by
  have uncovering {ackSeqnum : UInt32} := @unsent_uncovered _ _ _ _ numbers ackSeqnum
  obtain ⟨⟨sentCells, unsentCells, buffer, rfl, rfl⟩, _, start, numbered, _⟩ := numbers
  let list := labels sentCells ++ labels unsentCells
  have labelled : Labelled client (labels sentCells) (labels unsentCells) :=
    ⟨_, _, buffer, rfl, rfl⟩
  have growing : Growing list := by
    apply @numbered_from_growing start
    rw [List.map_append, labels_segs, labels_segs]
    exact numbered
  have same (ackNum : Nat) (left right : Client) (first : Settled list client.tcb.ends ackNum left)
      (second : Settled list client.tcb.ends ackNum right) : SameSendBuffer left right :=
    labelled_same first.1 second.1
  have unreached {incoming : Incoming} (acknowledges : incoming.Acknowledges client) :
      ∀ entry ∈ labels unsentCells, incoming.ackNum ≤ entry.2.header.seqNum.toNat := by
    intro entry member
    obtain ⟨cell, inside, rfl⟩ := List.mem_map.mp member
    have stops := uncovering acknowledges.sent.sent cell.2.seg (List.mem_map_of_mem inside)
    exact UInt32.le_iff_toNat_le.mp (UInt32.not_lt.mp stops)
  by_cases connected : client.tcb.state = .connected
  · cases cells : list.head? with
    | none =>
        refine ⟨fun _ => False, Settled list client.tcb.ends, same, ?_⟩
        intro items matching
        apply unmoved_outcome items
        intro incoming member
        have acknowledges := matching incoming member
        apply dataack_stale labelled acknowledges.server acknowledges.sent.dataack connected
        intro head isHead
        rw [cells] at isHead
        cases isHead
    | some head =>
        have window : (labels sentCells).length ≤ gbnWindow := by
          rw [labels, List.length_map]
          exact buffer.window
        exact ⟨_, _, same, fun items matching =>
          reaching_outcome labelled connected growing window cells items matching
            fun incoming member => unreached (matching incoming member)⟩
  · refine ⟨fun _ => False, Settled list client.tcb.ends, same, ?_⟩
    intro items matching
    apply unmoved_outcome items
    intro incoming member
    exact dataack_elsewhere connected (matching incoming member).sent.dataack

theorem outcome_same {client left right : Client} {moves : Nat → Prop}
    {settled : Nat → Client → Prop} {greatest : Option Nat}
    (same : ∀ ackNum left right, settled ackNum left → settled ackNum right →
      SameSendBuffer left right)
    (first : AckOutcome client moves settled greatest left)
    (second : AckOutcome client moves settled greatest right) : SameSendBuffer left right := by
  rcases first with ⟨still, rfl⟩ | ⟨ackNum, isGreatest, moved, settles⟩
  · rcases second with ⟨_, rfl⟩ | ⟨ackNum, isGreatest, moved, _⟩
    · exact ⟨rfl, rfl, rfl⟩
    · exact absurd moved (still ackNum isGreatest)
  · rcases second with ⟨still, _⟩ | ⟨other, isGreatest', _, settles'⟩
    · exact absurd moved (still ackNum isGreatest)
    · obtain rfl := Option.some.inj (isGreatest.symm.trans isGreatest')
      exact same ackNum left right settles settles'

theorem greatest_twice (items : List Nat) : (items ++ items).max? = items.max? := by
  cases greatest : items.max? with
  | none =>
      rw [List.max?_eq_none_iff] at greatest
      rw [greatest]
      rfl
  | some value =>
      rw [List.max?_eq_some_iff] at greatest ⊢
      simpa using greatest

/-- Two sequences of DATAACKs with the same greatest number leave the same segments,
the same first unsent one and the same counter, and so does a sequence that is handled
twice. -/
theorem dataacks_order_insensitive (start client : Client) (bytes : Nat)
    (fresh : FreshBuffer start.tcb) (reaches : BufferReaches start client bytes)
    (fewer : bytes < UInt32.size) (first second : List Incoming)
    (firstMatching : ∀ incoming ∈ first, incoming.Acknowledges client)
    (secondMatching : ∀ incoming ∈ second, incoming.Acknowledges client)
    (sameGreatest : (first.map Incoming.ackNum).max? = (second.map Incoming.ackNum).max?) :
    ∃ left right again, first.foldlM Client.handle client = some left ∧
      second.foldlM Client.handle client = some right ∧ SameSendBuffer left right ∧
      first.foldlM Client.handle left = some again ∧ SameSendBuffer left again := by
  obtain ⟨sent, unsent, numbers⟩ := reaches_numbers fresh reaches fewer
  obtain ⟨moves, settled, same, outcomes⟩ := dataacks_determined numbers
  obtain ⟨left, firstRun, firstOutcome⟩ := outcomes first firstMatching
  obtain ⟨right, secondRun, secondOutcome⟩ := outcomes second secondMatching
  obtain ⟨again, twiceRun, twiceOutcome⟩ := outcomes (first ++ first) fun incoming member =>
    firstMatching incoming ((List.mem_append.mp member).elim id id)
  rw [List.foldlM_append, firstRun] at twiceRun
  rw [List.map_append, greatest_twice] at twiceOutcome
  rw [← sameGreatest] at secondOutcome
  exact ⟨left, right, again, firstRun, secondRun, outcome_same same firstOutcome secondOutcome,
    twiceRun, outcome_same same firstOutcome twiceOutcome⟩

def firstDataack : Incoming where
  now := fun _ => ⟨0, 0⟩
  sourceNodeID := 2
  segmentBuffer :=
    { Seg.cleared with
      header := { MrtHdr.cleared with type := SegType.dataack, srcPort := 200, destPort := 100 } }

/-- With one queued segment, a DATAACK handled twice leaves what it leaves alone. -/
theorem repeated_dataack_same :
    ∃ client left right again, BufferReaches establishedClient client 1 ∧
      [firstDataack, firstDataack].foldlM Client.handle client = some left ∧
      [firstDataack].foldlM Client.handle client = some right ∧ SameSendBuffer left right ∧
      [firstDataack, firstDataack].foldlM Client.handle left = some again ∧
      SameSendBuffer left again := by
  obtain ⟨client, queued, _, _, ends⟩ := queue_holds establishedClient [] [] oneByteSegment
    (fresh_numbers established_buffer_fresh).1
  have reaches : BufferReaches establishedClient client 1 :=
    .step (.append oneByteSegment) .start (Nat.le_refl 1) queued
  have matching : firstDataack.Acknowledges client :=
    ⟨from_server_of_ends ends ⟨rfl, rfl⟩, rfl, UInt32.zero_le⟩
  obtain ⟨left, right, again, outcome⟩ := dataacks_order_insensitive establishedClient client 1
    established_buffer_fresh reaches (by decide) [firstDataack, firstDataack] [firstDataack]
    (by simpa using matching) (by simpa using matching) rfl
  exact ⟨client, left, right, again, reaches, outcome⟩

end MiniOverlay
