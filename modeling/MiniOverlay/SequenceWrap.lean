import MiniOverlay.GoBackN
import MiniOverlay.StrayAcknowledgement

/-!
# Acknowledgements across the wrap of the sequence numbers

Sequence numbers are counted modulo `2 ^ 32` and compared as they are. While the
numbers of the outstanding bytes do not wrap, the server's DATAACK for everything
empties the send buffer. When they do, it is less than the number at the head of
the list: the client ignores it, and the segments stay.
-/

namespace MiniOverlay

open LinkedHeap FixedByteCodec

set_option autoImplicit false

def ConnectionEvent.Sound (connection : Connection) : ConnectionEvent → Prop
  | .ack _ arg => ¬ Overtakes connection.client arg.seg.header.ackNum
  | _ => True

/-- The states of a connection in runs in which no segment is freed unsent. -/
inductive Connection.SoundlyReaches (start : Connection) : Connection → Prop where
  | start : start.SoundlyReaches start
  | step {connection next : Connection} (event : ConnectionEvent)
      (before : start.SoundlyReaches connection) (enabled : event.Enabled connection)
      (sound : event.Sound connection) (stepped : connection.step event = some next) :
      start.SoundlyReaches next

def Connection.dataack (connection : Connection) : SendsegArg :=
  ⟨connection.server.clientNodeID.toInt32,
    connection.server.newSeg SegType.dataack connection.server.expectSeqNum⟩

def AckEmpties (now : Nat → Timeval) (connection : Connection) : Prop :=
  ∃ after, connection.step (.ack now connection.dataack) = some after ∧
    after.client.tcb.sendBufHead = none ∧ after.client.tcb.unAckSegNum = 0

def Unwrapped (client : Client) : Prop :=
  ∀ segs, sendBufferSegs client = some segs → byteLength segs ≤ client.tcb.nextSeqNum.toNat

/-- Both ends count the bytes modulo `2 ^ 32`. -/
structure Carried (connection : Connection) : Prop where
  peers : Peers connection.client.tcb connection.server
  consistent : Consistent connection.client
  next : connection.client.tcb.nextSeqNum = UInt32.ofNat connection.queued.length
  expect : connection.server.expectSeqNum = UInt32.ofNat connection.accepted.length

theorem established_carried {start : Connection} (established : Established start) :
    Carried start where
  peers := established.peers
  consistent := ⟨[], [], consistent_fresh ⟨established.head, established.unSent, established.tail,
    established.unAck, established.next⟩⟩
  next := by
    rw [established.next, established.queued]
    rfl
  expect := by
    rw [established.expect, established.accepted]
    rfl

theorem data_carried {connection next : Connection} {arg : SendsegArg}
    (carried : Carried connection) (stepped : connection.step (.data arg) = some next) :
    Carried next := by
  obtain ⟨⟨server, effects⟩, received, stepped⟩ := Option.bind_eq_some_iff.mp stepped
  cases stepped
  have peers := carried.peers
  have expect := carried.expect
  cases data_receives received with
  | repeated _ nothing same _ =>
      refine ⟨same ▸ peers, carried.consistent, carried.next, ?_⟩
      rw [same, nothing, List.append_nil]
      exact expect
  | refused _ nothing same _ =>
      refine ⟨same ▸ peers, carried.consistent, carried.next, ?_⟩
      rw [same, nothing, List.append_nil]
      exact expect
  | stored expected short saved recvBuf _ moved _ =>
      refine ⟨?_, carried.consistent, carried.next, ?_⟩
      · rw [moved]
        exact ⟨peers.clientState, peers.serverState, peers.svrNodeID, peers.svrPortNum,
          peers.clientNodeID, peers.clientPortNum⟩
      · rw [moved, saved, List.length_append, payload_length arg.seg short, UInt32.ofNat_add,
          ← expect, ← expected, UInt32.add_comm]
        simp [ServerTcb.saved]

theorem ack_carried {connection next : Connection} {now : Nat → Timeval} {arg : SendsegArg}
    (carried : Carried connection) (isAck : arg.seg.header.type = SegType.dataack)
    (sound : ¬ Overtakes connection.client arg.seg.header.ackNum)
    (stepped : connection.step (.ack now arg) = some next) : Carried next := by
  simp only [Connection.step] at stepped
  split_ifs at stepped with forThis
  · obtain ⟨⟨client, effects⟩, handled, stepped⟩ := Option.bind_eq_some_iff.mp stepped
    cases stepped
    rcases dataack_cases now _ arg.seg isAck handled with
      ⟨rfl, _⟩ | ⟨head, acknowledged, run, sending⟩
    · exact ⟨carried.peers, carried.consistent, carried.next, carried.expect⟩
    · obtain ⟨sent, unsent, buffer⟩ := carried.consistent
      have filled : sent ++ unsent ≠ [] := by
        intro nothing
        have first := chain_first buffer.intact.owns.chain
        rw [nothing] at first
        exact head first
      obtain ⟨acknowledged', gone, kept, run', _, shrunk, removes⟩ :=
        recv_ack_consistent buffer filled (recv_ack_tail_held run) sound
      obtain rfl := Option.some.inj (run.symm.trans run')
      have stays := sending_consistent shrunk now sending
      exact ⟨carried.peers.of_ends (stays.ends.trans removes.ends), stays.consistent,
        (stays.next.trans removes.next).trans carried.next, carried.expect⟩
  · cases stepped
    exact carried

theorem recv_carried {connection next : Connection} {length : UInt32}
    (carried : Carried connection) (stepped : connection.step (.recv length) = some next) :
    Carried next := by
  obtain ⟨turn, turned, stepped⟩ := Option.bind_eq_some_iff.mp stepped
  have peers := carried.peers
  rcases recv_result turned with turned | rfl
  · rcases recv_turn_result turned with rfl | ⟨_, rfl⟩
    · cases stepped
      exact carried
    · cases stepped
      exact ⟨⟨peers.clientState, peers.serverState, peers.svrNodeID, peers.svrPortNum,
        peers.clientNodeID, peers.clientPortNum⟩, carried.consistent, carried.next,
        carried.expect⟩
  · cases stepped
    exact ⟨peers, carried.consistent, carried.next, carried.expect⟩

theorem carried_step {connection next : Connection} {event : ConnectionEvent}
    (carried : Carried connection) (enabled : event.Enabled connection)
    (sound : event.Sound connection) (stepped : connection.step event = some next) :
    Carried next := by
  cases event with
  | queue seg =>
      obtain ⟨client, queued, stepped⟩ := Option.bind_eq_some_iff.mp stepped
      cases stepped
      obtain ⟨sent, unsent, buffer⟩ := carried.consistent
      obtain ⟨consistent, ends, seq⟩ := append_consistent buffer seg enabled queued
      refine ⟨carried.peers.of_ends ends, consistent, ?_, carried.expect⟩
      rw [List.length_append, payload_length seg enabled.fits, UInt32.ofNat_add, ← carried.next]
      simpa using seq
  | sending now =>
      obtain ⟨⟨client, effects⟩, run, stepped⟩ := Option.bind_eq_some_iff.mp stepped
      cases stepped
      obtain ⟨sent, unsent, buffer⟩ := carried.consistent
      have stays := sending_consistent buffer now run
      exact ⟨carried.peers.of_ends stays.ends, stays.consistent,
        stays.next.trans carried.next, carried.expect⟩
  | timeout now =>
      obtain ⟨⟨client, effects⟩, run, stepped⟩ := Option.bind_eq_some_iff.mp stepped
      cases stepped
      obtain ⟨sent, unsent, buffer⟩ := carried.consistent
      have stays := timeout_consistent buffer now run
      exact ⟨carried.peers.of_ends stays.ends, stays.consistent,
        stays.next.trans carried.next, carried.expect⟩
  | data arg => exact data_carried carried stepped
  | ack now arg => exact ack_carried carried enabled.2 sound stepped
  | recv length => exact recv_carried carried stepped

theorem soundly_reaches_carried {start connection : Connection} (established : Established start)
    (reaches : start.SoundlyReaches connection) : Carried connection := by
  induction reaches with
  | start => exact established_carried established
  | step event _ enabled sound stepped ih => exact carried_step ih enabled sound stepped

theorem byte_length_le {segs : List Seg} (queueable : ∀ seg ∈ segs, Queueable seg) :
    byteLength segs ≤ segs.length * maxSegLen := by
  induction segs with
  | nil => exact Nat.zero_le _
  | cons seg segs ih =>
      have short := (queueable seg (by simp)).fits
      have others := ih fun later member => queueable later (List.mem_cons_of_mem _ member)
      rw [byteLength, List.length_cons, Nat.add_mul, Nat.one_mul]
      omega

theorem numbered_past {start next : UInt32} {segs : List Seg}
    (last : endSeqNum start segs = next) (few : byteLength segs < UInt32.size)
    (wraps : next.toNat < byteLength segs) : next < start := by
  rw [end_seq_num] at last
  have same := congrArg UInt32.toNat last
  have small := start.toNat_lt
  rw [UInt32.toNat_add, UInt32.toNat_ofNat'] at same
  rw [UInt32.lt_iff_toNat_lt]
  rw [UInt32.size] at few
  omega

theorem dataack_of_server {connection : Connection} (peers : Peers connection.client.tcb
    connection.server) : connection.client.tcb.FromServer connection.server.svrNodeID.toInt32
      connection.dataack.seg := by
  refine ⟨?_, peers.svrPortNum⟩
  rw [UInt32.toUInt32_toInt32]
  exact peers.svrNodeID

theorem dataack_step (now : Nat → Timeval) {connection : Connection}
    (peers : Peers connection.client.tcb connection.server) :
    connection.step (.ack now connection.dataack) =
      (clientSeghandler now connection.client connection.server.svrNodeID.toInt32
        connection.dataack.seg).map fun result => { connection with
          client := result.1
          toServer := connection.toServer ++ sentSegs result.2 } := by
  have forThis : connection.dataack.seg.header.destPort = connection.client.tcb.clientPortNum :=
    peers.clientPortNum
  simp only [Connection.step, if_pos forThis, Option.map_eq_bind]
  rfl

/-- What the DATAACK leaves of the list of a client that has sent everything. -/
inductive DataackOutcome (client after : Client) (segs : List Seg) : Prop where
  | emptied (unwrapped : byteLength segs ≤ client.tcb.nextSeqNum.toNat)
      (head : after.tcb.sendBufHead = none) (unAck : after.tcb.unAckSegNum = 0)
      (unSent : after.tcb.sendBufunSent = none)
  | ignored (wrapped : client.tcb.nextSeqNum.toNat < byteLength segs)
      (head : after.tcb.sendBufHead ≠ none)

theorem everything_acknowledged {client : Client} {sent : List (Nat × SegBuf)}
    (buffer : ConsistentBuffer client sent []) (filled : sent ≠ [])
    (unwrapped : byteLength (entrySegs sent) ≤ client.tcb.nextSeqNum.toNat) :
    ∃ after, sendBufferRecvAck client client.tcb.nextSeqNum = some after ∧
      after.tcb.sendBufHead = none ∧ after.tcb.unAckSegNum = 0 ∧
      after.tcb.sendBufunSent = none := by
  have intact := buffer.intact
  have owns := intact.owns
  have queueable := buffer.queueable
  obtain ⟨start, numbered, last⟩ := buffer.numbered
  have cleared := buffer.tail
  have ends := intact.tail
  rw [List.append_nil] at owns queueable numbered last cleared ends
  have tail := ends.resolve_left fun null =>
    absurd (cleared null filled) (Nat.not_lt.mpr unwrapped)
  obtain ⟨natural, total⟩ := numbered_unwrapped numbered last
    (fun seg member => (queueable seg member).nonempty) unwrapped
  have covered : ∀ entry ∈ sent, covers client.tcb.nextSeqNum entry = true := by
    intro entry member
    have below := numbered_from_lt natural entry.2.seg (List.mem_map_of_mem member)
    rw [total] at below
    simpa [covers, UInt32.lt_iff_toNat_lt] using below
  obtain ⟨after, run, removes⟩ :=
    recv_ack_covered client sent client.tcb.nextSeqNum owns tail filled
  rw [List.takeWhile_eq_self_iff.mpr covered, List.dropWhile_eq_nil_iff.mpr covered] at removes
  refine ⟨after, run, chain_first removes.owns.chain, ?_, removes.unSent.trans intact.unSent⟩
  apply UInt32.toNat_inj.mp
  have count : client.tcb.unAckSegNum.toNat = sent.length + 0 := intact.unAck
  exact removes_count removes count intact.window

theorem window_below_wrap {segs : List Seg} (queueable : ∀ seg ∈ segs, Queueable seg)
    (window : segs.length ≤ gbnWindow) : byteLength segs < UInt32.size :=
  calc byteLength segs
    _ ≤ segs.length * maxSegLen := byte_length_le queueable
    _ ≤ gbnWindow * maxSegLen := Nat.mul_le_mul_right _ window
    _ < UInt32.size := by decide

theorem head_reached_iff {client : Client} {entry : Nat × SegBuf} {rest : List (Nat × SegBuf)}
    (buffer : ConsistentBuffer client (entry :: rest) []) :
    entry.2.seg.header.seqNum ≤ client.tcb.nextSeqNum ↔
      byteLength (entrySegs (entry :: rest)) ≤ client.tcb.nextSeqNum.toNat := by
  obtain ⟨start, numbered, last⟩ := buffer.numbered
  have queueable := buffer.queueable
  rw [List.append_nil] at numbered last queueable
  have first : entry.2.seg.header.seqNum = start := numbered.1
  rw [first]
  constructor
  · intro reached
    by_contra wraps
    have few : byteLength (entrySegs (entry :: rest)) < UInt32.size :=
      window_below_wrap queueable
        (Nat.le_trans (Nat.le_of_eq (List.length_map _)) buffer.intact.window)
    exact UInt32.not_lt.mpr reached (numbered_past last few (Nat.lt_of_not_le wraps))
  · intro unwrapped
    have total := (numbered_unwrapped numbered last
      (fun seg member => (queueable seg member).nonempty) unwrapped).2
    rw [UInt32.le_iff_toNat_le]
    omega

theorem dataack_outcome (now : Nat → Timeval) {connection : Connection}
    (carried : Carried connection) (allSent : connection.client.tcb.sendBufunSent = none)
    (allAccepted : connection.accepted = connection.queued) :
    ∃ segs after, sendBufferSegs connection.client = some segs ∧
      clientSeghandler now connection.client connection.server.svrNodeID.toInt32
        connection.dataack.seg = some (after, []) ∧
          DataackOutcome connection.client after segs := by
  obtain ⟨peers, ⟨sent, unsent, buffer⟩, nextSeq, expect⟩ := carried
  have intact := buffer.intact
  have everything : unsent = [] := by
    cases unsent with
    | nil => rfl
    | cons entry rest =>
        rw [intact.unSent] at allSent
        cases allSent
  subst everything
  have owns := intact.owns
  rw [List.append_nil] at owns
  have number : connection.dataack.seg.header.ackNum = connection.client.tcb.nextSeqNum := by
    rw [nextSeq, ← allAccepted, ← expect]
    rfl
  let incoming : Incoming :=
    ⟨now, connection.server.svrNodeID.toInt32, connection.dataack.seg⟩
  have server : connection.client.tcb.FromServer incoming.sourceNodeID incoming.segmentBuffer :=
    dataack_of_server peers
  cases sent with
  | nil =>
      have head := chain_first owns.chain
      have unAck : connection.client.tcb.unAckSegNum = 0 := UInt32.toNat_inj.mp intact.unAck
      exact ⟨_, _, owns_segs owns,
        dataack_idle incoming peers.clientState server rfl head,
        .emptied (Nat.zero_le _) head unAck allSent⟩
  | cons entry rest =>
      have handler := dataack_handled incoming peers.clientState server rfl owns
      rw [number] at handler
      by_cases reached : entry.2.seg.header.seqNum ≤ connection.client.tcb.nextSeqNum
      · have unwrapped := (head_reached_iff buffer).mp reached
        obtain ⟨after, run, head, unAck, unSent⟩ :=
          everything_acknowledged buffer (by simp) unwrapped
        rw [if_pos reached, run, Option.bind_some, sending_idle _ unSent] at handler
        exact ⟨_, after, owns_segs owns, handler, .emptied unwrapped head unAck unSent⟩
      · have wrapped := Nat.lt_of_not_le (mt (head_reached_iff buffer).mpr reached)
        have head : connection.client.tcb.sendBufHead ≠ none := by
          rw [(owns_head owns).1]
          simp
        rw [if_neg reached] at handler
        exact ⟨_, _, owns_segs owns, handler, .ignored wrapped head⟩

theorem Connection.SoundlyReaches.trans {start middle connection : Connection}
    (before : start.SoundlyReaches middle) (after : middle.SoundlyReaches connection) :
    start.SoundlyReaches connection := by
  induction after with
  | start => exact before
  | step event _ enabled sound stepped ih => exact .step event ih enabled sound stepped

/-- A connection that waits with nothing in its buffers after `count` bytes. -/
structure Waits (connection : Connection) (count : Nat) : Prop where
  reaches : idleConnection.SoundlyReaches connection
  head : connection.client.tcb.sendBufHead = none
  unSent : connection.client.tcb.sendBufunSent = none
  queued : connection.queued.length = count
  accepted : connection.accepted = connection.queued
  received : RecvBuffer connection.server []

/-- The same with one segment sent, accepted and not acknowledged. -/
structure Outstanding (connection : Connection) (count : Nat) : Prop where
  reaches : idleConnection.SoundlyReaches connection
  segs : ∃ seg, FullSegment seg ∧ sendBufferSegs connection.client = some [seg]
  unSent : connection.client.tcb.sendBufunSent = none
  queued : connection.queued.length = count
  accepted : connection.accepted = connection.queued
  received : ∃ held, held.length = maxSegLen ∧ RecvBuffer connection.server held
  answered : connection.dataack ∈ connection.toClient

def fullSegment : Seg :=
  { Seg.cleared with
    header := { MrtHdr.cleared with type := SegType.data, length := UInt16.ofNat maxSegLen } }

theorem full_segment_queueable : Queueable fullSegment := by
  refine ⟨rfl, ?_, ?_⟩ <;> decide

theorem waits_holds {connection : Connection} {count : Nat} (waits : Waits connection count)
    (carried : Carried connection) : Holds connection.client [] [] := by
  obtain ⟨sent, unsent, buffer⟩ := carried.consistent
  have first := chain_first buffer.intact.owns.chain
  have nothing : sent ++ unsent = [] := by
    cases cells : sent ++ unsent with
    | nil => rfl
    | cons entry rest =>
        rw [waits.head, cells] at first
        cases first
  obtain ⟨rfl, rfl⟩ := List.append_eq_nil_iff.mp nothing
  exact holds_empty _ waits.head waits.unSent (buffer.intact.tail.elim id id)
    (UInt32.toNat_inj.mp buffer.intact.unAck)

theorem one_segment_sent (now : Nat → Timeval) {client : Client} (seg : Seg)
    (holds : Holds client [] []) :
    ∃ queued after effects, queueSegment client seg = some queued ∧
      sendBufferSending now queued = some (after, effects) ∧
      Holds after [seg.withSeqNum client.tcb.nextSeqNum] [] ∧
      ∃ nodeID, sentSegs effects = [⟨nodeID, seg.withSeqNum client.tcb.nextSeqNum⟩] := by
  obtain ⟨queued, run, queuedHolds, _, _⟩ := queue_holds client [] [] seg holds
  obtain ⟨after, effects, moved, rest, sending, split, afterHolds, sends, _, _, stop⟩ :=
    sending_holds now queued [] _ queuedHolds
  have noRest : rest = [] := by
    rcases stop with none | full
    · exact none
    · have count := congrArg List.length split
      simp only [List.length_append, List.length_nil, List.length_cons, gbnWindow] at count full
      omega
  subst noRest
  rw [List.append_nil] at split
  subst split
  exact ⟨queued, after, effects, run, sending, afterHolds, _, sends⟩

theorem accepted_step {connection : Connection} {nodeID : Int32} {seg : Seg} {recvBuf : List Byte}
    (expected : seg.header.seqNum = connection.server.expectSeqNum)
    (stored : saveTobuffer connection.server seg =
      some (1, connection.server.saved seg recvBuf)) :
    connection.step (.data ⟨nodeID, seg⟩) = some { connection with
      server := connection.server.saved seg recvBuf
      toClient := connection.toClient ++ [⟨connection.server.clientNodeID.toInt32,
        (connection.server.saved seg recvBuf).newSeg SegType.dataack
          (connection.server.saved seg recvBuf).expectSeqNum⟩]
      accepted := connection.accepted ++ seg.payload } := by
  have saved : savedBytes connection.server seg = seg.payload := by
    rw [savedBytes, if_pos expected, stored]
    rfl
  simp only [Connection.step, dataReceived, if_pos expected, stored, saved]
  rfl

theorem segment_outstanding {connection : Connection} {count : Nat}
    (waits : Waits connection count) :
    ∃ filled, Outstanding filled (count + maxSegLen) := by
  have carried := soundly_reaches_carried idle_established waits.reaches
  let now : Nat → Timeval := fun _ => ⟨0, 0⟩
  let seg := fullSegment.withSeqNum connection.client.tcb.nextSeqNum
  have full : FullSegment seg := ⟨rfl, rfl⟩
  have size : seg.payload.length = maxSegLen :=
    (payload_length seg full_segment_queueable.fits).trans (full_length full)
  have samePayload : seg.payload = fullSegment.payload := rfl
  obtain ⟨queued, client, effects, queueing, sending, holds, nodeID, sends⟩ :=
    one_segment_sent now fullSegment (waits_holds waits carried)
  obtain ⟨recvBuf, stored, received⟩ := save_fits connection.server [] seg waits.received
    full_segment_queueable.fits (by rw [full_length full]; decide)
  have expected : seg.header.seqNum = connection.server.expectSeqNum := by
    rw [carried.expect, waits.accepted, ← carried.next]
    rfl
  let first : Connection :=
    { connection with client := queued, queued := connection.queued ++ fullSegment.payload }
  let second : Connection :=
    { first with client := client, toServer := first.toServer ++ sentSegs effects }
  let third : Connection :=
    { second with
      server := connection.server.saved seg recvBuf
      toClient := second.toClient ++ [⟨connection.server.clientNodeID.toInt32,
        (connection.server.saved seg recvBuf).newSeg SegType.dataack
          (connection.server.saved seg recvBuf).expectSeqNum⟩]
      accepted := connection.accepted ++ fullSegment.payload }
  have queues : connection.step (.queue fullSegment) = some first := by
    simp only [Connection.step, queueing]
    rfl
  have sendsIt : first.step (.sending now) = some second := by
    simp only [Connection.step, first]
    rw [sending]
    rfl
  have accepts : second.step (.data ⟨nodeID, seg⟩) = some third := accepted_step expected stored
  have inFlight : SendsegArg.mk nodeID seg ∈ second.toServer := by
    simp only [second, sends]
    simp [seg]
  refine ⟨third, ?_, ⟨seg, full, holds_segs holds⟩, (holds_unsent_nil_iff holds).mpr rfl,
    ?_, ?_, ⟨_, ?_, received⟩, ?_⟩
  · have queuedOnce := Connection.SoundlyReaches.step (.queue fullSegment) waits.reaches
      full_segment_queueable trivial queues
    have sentOnce := queuedOnce.step (.sending now) trivial trivial sendsIt
    exact sentOnce.step (.data ⟨nodeID, seg⟩) ⟨inFlight, rfl⟩ trivial accepts
  · simp only [third, second, first, List.length_append, waits.queued, ← samePayload, size]
  · simp only [third, second, first, waits.accepted]
  · rw [List.nil_append]
    exact size
  · exact List.mem_append_right _ (List.mem_singleton.mpr rfl)

theorem segment_read {connection : Connection} {held : List Byte}
    (connected : connection.server.state = .connected) (length : held.length = maxSegLen)
    (received : RecvBuffer connection.server held) :
    connection.step (.recv (UInt32.ofNat maxSegLen)) = some { connection with
      server := connection.server.taken (UInt32.ofNat maxSegLen)
      delivered := connection.delivered ++ held.take maxSegLen } ∧
    RecvBuffer (connection.server.taken (UInt32.ofNat maxSegLen)) [] := by
  have noneLeft : held.drop (UInt32.ofNat maxSegLen).toNat = [] := by
    apply List.drop_eq_nil_of_le
    rw [length]
    decide
  have emptied := taken_buffer connection.server held (UInt32.ofNat maxSegLen) received
    (by rw [length]; decide)
  rw [noneLeft] at emptied
  refine ⟨?_, emptied⟩
  rcases recv_turn_cases connection.server held (UInt32.ofNat maxSegLen) received with
    sleeps | ⟨returns, _⟩
  · have awake : ¬ UInt32.ofNat maxSegLen > connection.server.usedBufLen := by
      rw [gt_iff_lt, UInt32.lt_iff_toNat_lt, received.used, length]
      decide
    rw [mrtServerRecvTurn, if_neg awake] at sleeps
    split_ifs at sleeps
    cases sleeps
  · simp only [Connection.step, mrtServerRecv, connected, returns]
    rfl

theorem outstanding_acknowledged {connection : Connection} {count : Nat}
    (outstanding : Outstanding connection count) (before : count < UInt32.size)
    (enough : maxSegLen ≤ count) : ∃ after, Waits after count := by
  obtain ⟨held, length, received⟩ := outstanding.received
  have carried := soundly_reaches_carried idle_established outstanding.reaches
  let read : Connection :=
    { connection with
      server := connection.server.taken (UInt32.ofNat maxSegLen)
      delivered := connection.delivered ++ held.take maxSegLen }
  obtain ⟨reads, emptied⟩ := segment_read carried.peers.serverState length received
  have readReaches : idleConnection.SoundlyReaches read :=
    outstanding.reaches.step (.recv (UInt32.ofNat maxSegLen)) trivial trivial reads
  have readCarried := soundly_reaches_carried idle_established readReaches
  obtain ⟨segs, after, walked, handler, outcome⟩ := dataack_outcome (fun _ => ⟨0, 0⟩) readCarried
    outstanding.unSent outstanding.accepted
  have stepped := dataack_step (fun _ => ⟨0, 0⟩) readCarried.peers
  rw [handler, Option.map_some] at stepped
  have same : read.dataack = connection.dataack := by
    simp only [Connection.dataack, read, ServerTcb.newSeg, ServerTcb.taken]
  have sent : read.toClient = connection.toClient := rfl
  have answered : read.dataack ∈ read.toClient := by
    rw [same, sent]
    exact outstanding.answered
  have behind : ¬ Overtakes read.client read.dataack.seg.header.ackNum := by
    rintro ⟨_, node, _, _, unSent, _⟩
    rw [show read.client.tcb.sendBufunSent = none from outstanding.unSent] at unSent
    cases unSent
  cases outcome with
  | emptied _ head _ unSent =>
      exact ⟨_, readReaches.step (.ack _ read.dataack) ⟨answered, rfl⟩ behind stepped, head, unSent,
        outstanding.queued, outstanding.accepted, emptied⟩
  | ignored wrapped _ =>
      obtain ⟨seg, full, single⟩ := outstanding.segs
      obtain rfl := Option.some.inj (single.symm.trans walked)
      have next := readCarried.next
      rw [show read.queued.length = count from outstanding.queued] at next
      rw [next, UInt32.toNat_ofNat_of_lt' before, byteLength, byteLength,
        full_length full] at wrapped
      omega

theorem idle_waits : Waits idleConnection 0 :=
  ⟨.start, rfl, rfl, rfl, rfl, List.length_replicate, rfl, by simp [receiveBufSize],
    List.take_zero⟩

theorem segments_carried (turns : Nat) (before : turns * maxSegLen < UInt32.size) :
    ∃ connection, Waits connection (turns * maxSegLen) := by
  induction turns with
  | zero => exact ⟨idleConnection, by rw [Nat.zero_mul]; exact idle_waits⟩
  | succ turns ih =>
      have next : (turns + 1) * maxSegLen = turns * maxSegLen + maxSegLen := Nat.succ_mul _ _
      rw [next] at before ⊢
      obtain ⟨connection, waits⟩ := ih (Nat.lt_of_le_of_lt (Nat.le_add_right _ _) before)
      obtain ⟨filled, outstanding⟩ := segment_outstanding waits
      exact outstanding_acknowledged outstanding before (Nat.le_add_left _ _)

/-- In runs in which no segment is freed unsent, the DATAACK for everything empties the
buffer exactly when the outstanding numbers do not wrap. -/
theorem ack_empties_iff (now : Nat → Timeval) (start connection : Connection)
    (established : Established start) (reaches : start.SoundlyReaches connection)
    (allSent : connection.client.tcb.sendBufunSent = none)
    (allAccepted : connection.accepted = connection.queued) :
    AckEmpties now connection ↔ Unwrapped connection.client := by
  have carried := soundly_reaches_carried established reaches
  obtain ⟨segs, after, walked, handler, outcome⟩ := dataack_outcome now carried allSent allAccepted
  have stepped := dataack_step now carried.peers
  rw [handler, Option.map_some] at stepped
  constructor
  · rintro ⟨emptied, run, head, _⟩ found walkedFound
    obtain rfl := Option.some.inj (walked.symm.trans walkedFound)
    obtain rfl := Option.some.inj (stepped.symm.trans run)
    cases outcome with
    | emptied unwrapped _ _ _ => exact unwrapped
    | ignored _ filled => exact absurd head filled
  · intro unwrapped
    cases outcome with
    | emptied _ head unAck _ => exact ⟨_, stepped, head, unAck⟩
    | ignored wrapped _ => exact absurd (unwrapped segs walked) (Nat.not_le.mpr wrapped)

/-- The last segment that ends before the wrap is freed. -/
theorem last_ack_empties :
    ∃ connection seg, idleConnection.SoundlyReaches connection ∧
      sendBufferSegs connection.client = some [seg] ∧
      connection.client.tcb.nextSeqNum = 4294966080 ∧ AckEmpties stoppedClock connection := by
  obtain ⟨before, waits⟩ := segments_carried 2933719 (by decide)
  obtain ⟨connection, outstanding⟩ := segment_outstanding waits
  obtain ⟨seg, full, single⟩ := outstanding.segs
  have next : connection.client.tcb.nextSeqNum = 4294966080 := by
    rw [(soundly_reaches_carried idle_established outstanding.reaches).next, outstanding.queued]
    decide
  refine ⟨connection, seg, outstanding.reaches, single, next, ?_⟩
  apply (ack_empties_iff stoppedClock idleConnection connection idle_established
    outstanding.reaches outstanding.unSent outstanding.accepted).mpr
  intro segs walked
  obtain rfl := Option.some.inj (single.symm.trans walked)
  rw [next, byteLength, byteLength, full_length full]
  decide

/-- The segment that begins 1216 bytes before the wrap is accepted, and its
acknowledgement, number 248, is ignored. -/
theorem wrapped_ack_ignored :
    ∃ connection, idleConnection.SoundlyReaches connection ∧
      connection.client.tcb.sendBufunSent = none ∧ connection.accepted = connection.queued ∧
      connection.server.expectSeqNum = 248 ∧ ∀ now, ¬ AckEmpties now connection := by
  obtain ⟨before, waits⟩ := segments_carried 2933720 (by decide)
  obtain ⟨connection, outstanding⟩ := segment_outstanding waits
  have carried := soundly_reaches_carried idle_established outstanding.reaches
  obtain ⟨seg, full, single⟩ := outstanding.segs
  have next : connection.client.tcb.nextSeqNum = 248 := by
    rw [carried.next, outstanding.queued]
    decide
  have expect : connection.server.expectSeqNum = 248 := by
    rw [carried.expect, outstanding.accepted, outstanding.queued]
    decide
  refine ⟨connection, outstanding.reaches, outstanding.unSent, outstanding.accepted, expect, ?_⟩
  rintro now ⟨emptied, run, head, _⟩
  obtain ⟨segs, after, walked, handler, outcome⟩ := dataack_outcome now carried outstanding.unSent
    outstanding.accepted
  rw [dataack_step now carried.peers, handler] at run
  obtain rfl := Option.some.inj run
  obtain rfl := Option.some.inj (single.symm.trans walked)
  cases outcome with
  | emptied unwrapped _ _ _ =>
      rw [next, byteLength, byteLength, full_length full] at unwrapped
      exact absurd unwrapped (by decide)
  | ignored _ filled => exact filled head

end MiniOverlay
