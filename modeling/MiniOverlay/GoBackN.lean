import MiniOverlay.CumulativeAckWindow
import MiniOverlay.DataPhase

/-!
# The data phase is a cumulative acknowledgement window

Every step of the two programs is a number of steps of the window over the
segments queued so far: item `index` of the window is the segment at `index`,
and the acknowledgement of `count` items is the stream position behind them. The
order that the window keeps then says where every byte is.
-/

namespace MiniOverlay

open LinkedHeap FixedByteCodec CumulativeAckWindow

set_option autoImplicit false

def Acknowledges (server : ServerTcb) (history : List Seg) (count : Nat) (arg : SendsegArg) :
    Prop :=
  ∃ ackNum, arg.seg = server.newSeg SegType.dataack ackNum ∧
    ackNum.toNat = offset history count

structure Represents (connection : Connection) (history : List Seg) (window : Window) : Prop where
  peers : Peers connection.client.tcb connection.server
  wellFormed : History history
  count : window.queued = history.length
  queued : connection.queued = history.flatMap Seg.payload
  buffer : Holds connection.client ((history.take window.sent).drop window.acked)
    (history.drop window.sent)
  next : connection.client.tcb.nextSeqNum.toNat = byteLength history % 2 ^ 32
  data : ∀ arg ∈ connection.toServer, ∃ index ∈ window.data, history[index]? = some arg.seg
  acks : ∀ arg ∈ connection.toClient, ∃ count ∈ window.acks,
    Acknowledges connection.server history count arg
  expect : connection.server.expectSeqNum.toNat = offset history window.received
  accepted : connection.accepted = (history.take window.received).flatMap Seg.payload
  received : ∃ held, RecvBuffer connection.server held ∧
    connection.delivered ++ held = connection.accepted

theorem represents_established {connection : Connection} (established : Established connection) :
    Represents connection [] Window.initial := by
  constructor
  · exact established.peers
  · exact ⟨by simp, by simp⟩
  · rfl
  · exact established.queued
  · exact holds_empty _ established.head established.unSent established.tail established.unAck
  · rw [established.next]
    rfl
  · simp [established.toServer]
  · simp [established.toClient]
  · rw [established.expect]
    rfl
  · exact established.accepted
  · refine ⟨[], ⟨established.block, ?_, by decide, rfl⟩, ?_⟩
    · rw [established.used]
      rfl
    · rw [established.delivered, established.accepted]
      rfl

theorem Peers.of_ends {before after : ClientTcb} {server : ServerTcb}
    (peers : Peers before server) (same : after.ends = before.ends) : Peers after server := by
  cases before
  cases after
  cases same
  exact ⟨peers.clientState, peers.serverState, peers.svrNodeID, peers.svrPortNum,
    peers.clientNodeID, peers.clientPortNum⟩

theorem represents_total {connection : Connection} {history : List Seg} {window : Window}
    (represents : Represents connection history window) :
    connection.queued.length = byteLength history := by
  rw [represents.queued, payload_byte_length _ represents.wellFormed.queueable]

def Simulates (after : Connection) (window : Window) : Prop :=
  ∃ history window', Steps window window' ∧ Represents after history window'

theorem offset_append {history : List Seg} {count : Nat} (inside : count ≤ history.length)
    (more : List Seg) : offset (history ++ more) count = offset history count := by
  rw [offset, List.take_append_of_le_length inside, offset]

theorem queue_simulates (connection : Connection) (history : List Seg) (window : Window)
    (seg : Seg) (represents : Represents connection history window) (ordered : Ordered window)
    (queueable : Queueable seg) (bounded : connection.queued.length + seg.payload.length < 2 ^ 32) :
    ∃ after, connection.step (.queue seg) = some after ∧ Simulates after window := by
  obtain ⟨client, run, holds, next, ends⟩ := queue_holds connection.client _ _ seg
    represents.buffer
  have total := represents_total represents
  have size := payload_length seg queueable.fits
  have sentInside : window.sent ≤ history.length := represents.count ▸ ordered.sent
  have receivedInside : window.received ≤ history.length :=
    Nat.le_trans ordered.received sentInside
  have nextOffset := represents.next
  rw [Nat.mod_eq_of_lt (by omega)] at nextOffset
  have wellFormed := history_snoc represents.wellFormed
    (seg.withSeqNum connection.client.tcb.nextSeqNum)
    ⟨queueable.type, queueable.nonempty, queueable.fits⟩ nextOffset
  refine ⟨{ connection with client := client, queued := connection.queued ++ seg.payload },
    by simp only [Connection.step, run]; rfl,
    history ++ [seg.withSeqNum connection.client.tcb.nextSeqNum], _,
    Relation.ReflTransGen.single (.queue window), ?_⟩
  constructor
  · exact represents.peers.of_ends ends
  · exact wellFormed
  · simp [represents.count]
  · rw [List.flatMap_append, ← represents.queued, List.flatMap_singleton]
    rfl
  · rw [List.take_append_of_le_length sentInside, List.drop_append_of_le_length sentInside]
    exact holds
  · rw [next, UInt32.toNat_add, nextOffset, byte_length_append]
    simp [byteLength, Seg.withSeqNum]
  · intro arg member
    obtain ⟨index, inFlight, found⟩ := represents.data arg member
    refine ⟨index, inFlight, ?_⟩
    rw [List.getElem?_append_left (List.getElem?_eq_some_iff.mp found).1, found]
  · intro arg member
    obtain ⟨count, inFlight, ackNum, isAck, number⟩ := represents.acks arg member
    refine ⟨count, inFlight, ackNum, isAck, ?_⟩
    rw [number, offset_append (Nat.le_trans (ordered.acks count inFlight) receivedInside)]
  · rw [represents.expect, offset_append receivedInside]
  · rw [represents.accepted, List.take_append_of_le_length receivedInside]
  · exact represents.received

theorem data_in_flight {connection : Connection} {history : List Seg} {window : Window}
    (represents : Represents connection history window) (start : Nat) (sent : List Seg)
    (rest : List Seg) (part : history.drop start = sent ++ rest) (node : Int32) :
    ∀ arg ∈ connection.toServer ++ sent.map (SendsegArg.mk node),
      ∃ index ∈ window.data ∪ span start sent.length, history[index]? = some arg.seg := by
  intro arg member
  rcases List.mem_append.mp member with old | new
  · obtain ⟨index, inFlight, found⟩ := represents.data arg old
    exact ⟨index, Or.inl inFlight, found⟩
  · obtain ⟨seg, inPart, rfl⟩ := List.mem_map.mp new
    obtain ⟨index, found⟩ := List.mem_iff_getElem?.mp inPart
    have inside := (List.getElem?_eq_some_iff.mp found).1
    refine ⟨start + index, Or.inr (mem_span.mpr (by omega)), ?_⟩
    rw [← List.getElem?_drop, part, List.getElem?_append_left inside, found]

theorem sending_simulates (connection : Connection) (history : List Seg) (window : Window)
    (now : Nat → Timeval) (represents : Represents connection history window)
    (ordered : Ordered window) :
    ∃ after, connection.step (.sending now) = some after ∧ Simulates after window := by
  obtain ⟨client, effects, moved, rest, run, split, holds, sends, ends, next, _⟩ :=
    sending_holds now connection.client _ _ represents.buffer
  have sentInside : window.sent ≤ history.length := represents.count ▸ ordered.sent
  have room : window.sent + moved.length ≤ window.queued := by
    have lengths := congrArg List.length split
    rw [List.length_drop, List.length_append] at lengths
    have count := represents.count
    omega
  refine ⟨{ connection with client := client, toServer := connection.toServer ++ sentSegs effects },
    by simp only [Connection.step, run]; rfl, history, _,
    send_steps window moved.length room, ?_⟩
  have taken : history.take (window.sent + moved.length) = history.take window.sent ++ moved := by
    rw [List.take_add, split, List.take_left]
  constructor
  · exact represents.peers.of_ends ends
  · exact represents.wellFormed
  · exact represents.count
  · exact represents.queued
  · have ackedInside : window.acked ≤ (history.take window.sent).length := by
      rw [List.length_take, Nat.min_eq_left sentInside]
      exact Nat.le_trans ordered.acked ordered.received
    have remaining : history.drop (window.sent + moved.length) = rest := by
      rw [← List.drop_drop, split, List.drop_left]
    rw [taken, List.drop_append_of_le_length ackedInside, remaining]
    exact holds
  · rw [next]
    exact represents.next
  · rw [sends]
    exact data_in_flight represents window.sent moved rest split _
  · exact represents.acks
  · exact represents.expect
  · exact represents.accepted
  · exact represents.received

theorem buffer_split {history : List Seg} {first middle : Nat} (ordered : first ≤ middle)
    (inside : middle ≤ history.length) :
    (history.take middle).drop first ++ history.drop middle = history.drop first := by
  have whole := congrArg (List.drop first) (List.take_append_drop middle history)
  rwa [List.drop_append_of_le_length (by rw [List.length_take]; omega)] at whole

theorem timeout_simulates (connection : Connection) (history : List Seg) (window : Window)
    (now : Nat → Timeval) (represents : Represents connection history window)
    (ordered : Ordered window) :
    ∃ after, connection.step (.timeout now) = some after ∧ Simulates after window := by
  obtain ⟨client, effects, run, holds, sends, sameTcb⟩ :=
    timeout_holds now connection.client _ _ represents.buffer
  have sentInside : window.sent ≤ history.length := represents.count ▸ ordered.sent
  have ackedSent : window.acked ≤ window.sent := Nat.le_trans ordered.acked ordered.received
  have split := (buffer_split ackedSent sentInside).symm
  have length : ((history.take window.sent).drop window.acked).length =
      window.sent - window.acked := by
    rw [List.length_drop, List.length_take, Nat.min_eq_left sentInside]
  refine ⟨{ connection with client := client, toServer := connection.toServer ++ sentSegs effects },
    by simp only [Connection.step, run]; rfl, history, _,
    resend_steps window window.acked _ (Nat.le_of_eq (length ▸ Nat.add_sub_cancel' ackedSent)), ?_⟩
  constructor
  · rw [sameTcb]
    exact represents.peers
  · exact represents.wellFormed
  · exact represents.count
  · exact represents.queued
  · exact holds
  · rw [sameTcb]
    exact represents.next
  · rw [sends]
    exact data_in_flight represents window.acked _ _ split _
  · exact represents.acks
  · exact represents.expect
  · exact represents.accepted
  · exact represents.received

theorem acks_in_flight {connection : Connection} {history : List Seg} {window : Window}
    (represents : Represents connection history window) (server : ServerTcb)
    (samePorts : ∀ ackNum, server.newSeg SegType.dataack ackNum =
      connection.server.newSeg SegType.dataack ackNum)
    (count : Nat) (ackNum : UInt32) (node : Int32) (number : ackNum.toNat = offset history count) :
    ∀ arg ∈ connection.toClient ++ [⟨node, connection.server.newSeg SegType.dataack ackNum⟩],
      ∃ index ∈ insert count window.acks, Acknowledges server history index arg := by
  intro arg member
  rcases List.mem_append.mp member with old | new
  · obtain ⟨index, inFlight, otherAck, isAck, position⟩ := represents.acks arg old
    exact ⟨index, Or.inr inFlight, otherAck, isAck.trans (samePorts otherAck).symm, position⟩
  · refine ⟨count, Or.inl rfl, ackNum, ?_, number⟩
    rw [List.mem_singleton.mp new]
    exact (samePorts ackNum).symm

theorem reply_sent (server : ServerTcb) (type : UInt16) (ackNum : UInt32) :
    [server.reply type ackNum].filterMap ServerEffect.sent? =
      [⟨server.clientNodeID.toInt32, server.newSeg type ackNum⟩] := rfl

theorem repeat_ack_represents {connection : Connection} {history : List Seg} {window : Window}
    (represents : Represents connection history window) :
    Represents { connection with
      toClient := connection.toClient ++ [⟨connection.server.clientNodeID.toInt32,
        connection.server.newSeg SegType.dataack connection.server.expectSeqNum⟩] } history
      { window with acks := insert window.received window.acks } := by
  constructor
  · exact represents.peers
  · exact represents.wellFormed
  · exact represents.count
  · exact represents.queued
  · exact represents.buffer
  · exact represents.next
  · exact represents.data
  · exact acks_in_flight represents connection.server (fun _ => rfl) window.received
      connection.server.expectSeqNum _ represents.expect
  · exact represents.expect
  · exact represents.accepted
  · exact represents.received

theorem accept_represents {connection : Connection} {history : List Seg} {window : Window}
    (represents : Represents connection history window) (seg : Seg)
    (found : history[window.received]? = some seg) (bounded : byteLength history < 2 ^ 32)
    (recvBuf held : List Byte)
    (stored : RecvBuffer (connection.server.saved seg recvBuf) (held ++ seg.payload))
    (delivered : connection.delivered ++ held = connection.accepted) :
    Represents { connection with
      server := connection.server.saved seg recvBuf
      toClient := connection.toClient ++ [⟨connection.server.clientNodeID.toInt32,
        connection.server.newSeg SegType.dataack
          (seg.header.length.toUInt32 + seg.header.seqNum)⟩]
      accepted := connection.accepted ++ seg.payload } history
      { window with
        received := window.received + 1
        acks := insert (window.received + 1) window.acks } := by
  have next := offset_succ found
  have total := offset_le_total history (window.received + 1)
  have number : (seg.header.length.toUInt32 + seg.header.seqNum).toNat =
      offset history (window.received + 1) := by
    rw [UInt32.toNat_add, UInt16.toNat_toUInt32,
      represents.wellFormed.numbered window.received seg found]
    omega
  constructor
  · exact ⟨represents.peers.clientState, represents.peers.serverState, represents.peers.svrNodeID,
      represents.peers.svrPortNum, represents.peers.clientNodeID, represents.peers.clientPortNum⟩
  · exact represents.wellFormed
  · exact represents.count
  · exact represents.queued
  · exact represents.buffer
  · exact represents.next
  · exact represents.data
  · exact acks_in_flight represents (connection.server.saved seg recvBuf) (fun _ => rfl)
      (window.received + 1) _ _ number
  · exact number
  · rw [represents.accepted, List.take_add_one, found, List.flatMap_append]
    simp
  · exact ⟨held ++ seg.payload, stored, by rw [← List.append_assoc, delivered]⟩

theorem data_simulates (connection : Connection) (history : List Seg) (window : Window)
    (arg : SendsegArg) (represents : Represents connection history window)
    (inFlight : arg ∈ connection.toServer) (bounded : connection.queued.length < 2 ^ 32) :
    ∃ after, connection.step (.data arg) = some after ∧ Simulates after window := by
  obtain ⟨index, inWindow, found⟩ := represents.data arg inFlight
  obtain ⟨held, buffer, delivered⟩ := represents.received
  have queueable := represents.wellFormed.queueable arg.seg (List.mem_of_getElem? found)
  rw [represents_total represents] at bounded
  rcases data_received_cases connection.server held arg.seg buffer queueable.fits with
    ⟨_, nothing, run⟩ | ⟨_, nothing, run⟩ | ⟨expected, saved, recvBuf, stored, run⟩
  · refine ⟨_, by simp only [Connection.step, run, nothing]; rfl, history, _,
      Relation.ReflTransGen.single (.repeatAck window), ?_⟩
    simpa [reply_sent] using repeat_ack_represents represents
  · refine ⟨_, by simp only [Connection.step, run, nothing]; rfl, history, window,
      Relation.ReflTransGen.refl, ?_⟩
    simpa using represents
  · have here : index = window.received := by
      have number := represents.wellFormed.numbered index arg.seg found
      rw [expected, represents.expect] at number
      have insideIndex := (List.getElem?_eq_some_iff.mp found).1
      rcases Nat.lt_trichotomy index window.received with below | same | above
      · have less := offset_lt represents.wellFormed below insideIndex
        omega
      · exact same
      · have less := offset_lt represents.wellFormed above (by omega)
        omega
    subst here
    refine ⟨_, by simp only [Connection.step, run, saved]; rfl, history, _,
      Relation.ReflTransGen.single (.accept window inWindow), ?_⟩
    exact accept_represents represents arg.seg found bounded recvBuf held stored delivered

theorem acknowledge_represents {connection : Connection} {history : List Seg} {window : Window}
    (represents : Represents connection history window) (ordered : Ordered window)
    (count : Nat) (inFlight : count ∈ window.acks) (newer : window.acked ≤ count)
    (ackNum : UInt32) (number : ackNum.toNat = offset history count)
    (filled : (history.take window.sent).drop window.acked ++ history.drop window.sent ≠ []) :
    ∃ client, sendBufferRecvAck connection.client ackNum = some client ∧
      Represents { connection with client := client } history { window with acked := count } := by
  have sentInside : window.sent ≤ history.length := represents.count ▸ ordered.sent
  have covered : count ≤ window.sent :=
    Nat.le_trans (ordered.acks count inFlight) ordered.received
  have split : (history.take window.sent).drop window.acked =
      (history.take count).drop window.acked ++ (history.take window.sent).drop count := by
    have front : history.take count = (history.take window.sent).take count := by
      rw [List.take_take, Nat.min_eq_left covered]
    rw [front, buffer_split newer (by rw [List.length_take]; omega)]
  have buffer := represents.buffer
  rw [split] at buffer filled
  have below : ∀ seg ∈ (history.take count).drop window.acked, seg.header.seqNum < ackNum :=
    fun seg member =>
      seq_before_offset represents.wellFormed number seg (List.mem_of_mem_drop member)
  have stops : ∀ seg ∈ (history.take window.sent).drop count ++ history.drop window.sent,
      ¬ seg.header.seqNum < ackNum := by
    rw [buffer_split covered sentInside]
    intro seg member
    exact UInt32.not_lt.mpr (seq_behind_offset represents.wellFormed number seg member)
  obtain ⟨client, run, holds, ends, next⟩ := recv_ack_holds connection.client _ _ _ ackNum
    buffer filled below stops
  refine ⟨client, run, ?_⟩
  constructor
  · exact represents.peers.of_ends ends
  · exact represents.wellFormed
  · exact represents.count
  · exact represents.queued
  · exact holds
  · rw [next]
    exact represents.next
  · exact represents.data
  · exact represents.acks
  · exact represents.expect
  · exact represents.accepted
  · exact represents.received

theorem ack_simulates (connection : Connection) (history : List Seg) (window : Window)
    (now : Nat → Timeval) (arg : SendsegArg) (represents : Represents connection history window)
    (ordered : Ordered window) (inFlight : arg ∈ connection.toClient) :
    ∃ after, connection.step (.ack now arg) = some after ∧ Simulates after window := by
  obtain ⟨count, inWindow, ackNum, isAck, number⟩ := represents.acks arg inFlight
  have peers := represents.peers
  have unchanged : Simulates connection window :=
    ⟨history, window, Relation.ReflTransGen.refl, represents⟩
  have forThis : arg.seg.header.destPort = connection.client.tcb.clientPortNum := by
    rw [isAck]
    exact peers.clientPortNum
  have fromServer : connection.client.tcb.svrNodeID =
        connection.server.svrNodeID.toInt32.toUInt32 ∧
      connection.client.tcb.svrPortNum = arg.seg.header.srcPort ∧
      arg.seg.header.type = SegType.dataack := by
    rw [isAck, UInt32.toUInt32_toInt32]
    exact ⟨peers.svrNodeID, peers.svrPortNum, rfl⟩
  have acknowledges : arg.seg.header.ackNum = ackNum := by
    rw [isAck]
    rfl
  rcases holds_head represents.buffer with ⟨empty, _⟩ | ⟨filled, cell, rest, held, first⟩
  · refine ⟨connection, ?_, unchanged⟩
    simp only [Connection.step, forThis, clientSeghandler, peers.clientState, fromServer, empty]
    simp [sentSegs]
  · have sentInside : window.sent ≤ history.length := represents.count ▸ ordered.sent
    have ackedSent := Nat.le_trans ordered.acked ordered.received
    have firstFound : history[window.acked]? = some cell.val.seg := by
      rw [buffer_split ackedSent sentInside] at first
      have head := congrArg List.head? first
      rwa [List.head?_drop, List.head?_cons] at head
    have firstPosition := represents.wellFormed.numbered _ _ firstFound
    by_cases covers : cell.val.seg.header.seqNum ≤ ackNum
    · have newer : window.acked ≤ count := by
        have inside := (List.getElem?_eq_some_iff.mp firstFound).1
        apply le_of_offset_le represents.wellFormed inside
        rw [← firstPosition, ← number]
        exact UInt32.le_iff_toNat_le.mp covers
      obtain ⟨client, run, acknowledged⟩ := acknowledge_represents represents ordered count
        inWindow newer ackNum number (by rw [first]; exact List.cons_ne_nil _ _)
      have step := Step.acknowledge window count inWindow newer
      obtain ⟨after, sending, history', window', steps, afterRepresents⟩ :=
        sending_simulates _ history _ now acknowledged (ordered_step ordered step)
      refine ⟨after, ?_, history', window', Relation.ReflTransGen.head step steps,
        afterRepresents⟩
      rw [← sending]
      simp only [Connection.step, forThis, clientSeghandler, peers.clientState, fromServer, filled,
        held, acknowledges, ge_iff_le, covers, run, Option.bind_eq_bind, Option.bind_some,
        and_self, if_true, if_false]
    · refine ⟨connection, ?_, unchanged⟩
      simp only [Connection.step, forThis, clientSeghandler, peers.clientState, fromServer, filled,
        held, acknowledges, ge_iff_le, Option.bind_eq_bind, Option.bind_some, and_self, if_true,
        if_false]
      rw [if_neg covers]
      simp [sentSegs]

theorem recv_simulates (connection : Connection) (history : List Seg) (window : Window)
    (length : UInt32) (represents : Represents connection history window) :
    ∃ after, connection.step (.recv length) = some after ∧ Simulates after window := by
  obtain ⟨held, buffer, delivered⟩ := represents.received
  have connected := represents.peers.serverState
  rcases recv_turn_cases connection.server held length buffer with run | ⟨run, kept⟩
  · exact ⟨connection, by simp only [Connection.step, mrtServerRecv, connected, run]; rfl,
      history, window, Relation.ReflTransGen.refl, represents⟩
  · refine ⟨{ connection with
        server := connection.server.taken length
        delivered := connection.delivered ++ held.take length.toNat },
      by simp only [Connection.step, mrtServerRecv, connected, run]; rfl,
      history, window, Relation.ReflTransGen.refl, ?_⟩
    have peers := represents.peers
    constructor
    · exact ⟨peers.clientState, peers.serverState, peers.svrNodeID, peers.svrPortNum,
        peers.clientNodeID, peers.clientPortNum⟩
    · exact represents.wellFormed
    · exact represents.count
    · exact represents.queued
    · exact represents.buffer
    · exact represents.next
    · exact represents.data
    · exact represents.acks
    · exact represents.expect
    · exact represents.accepted
    · refine ⟨held.drop length.toNat, kept, ?_⟩
      rw [List.append_assoc, List.take_append_drop, delivered]

def ConnectionEvent.bytes : ConnectionEvent → Nat
  | .queue seg => seg.payload.length
  | .sending _ => 0
  | .timeout _ => 0
  | .data _ => 0
  | .ack _ _ => 0
  | .recv _ => 0

theorem step_simulates (connection : Connection) (history : List Seg) (window : Window)
    (event : ConnectionEvent) (represents : Represents connection history window)
    (ordered : Ordered window) (enabled : event.Enabled connection)
    (bounded : connection.queued.length + event.bytes < 2 ^ 32) :
    ∃ after, connection.step event = some after ∧ Simulates after window := by
  cases event with
  | queue seg =>
      exact queue_simulates connection history window seg represents ordered enabled bounded
  | sending now => exact sending_simulates connection history window now represents ordered
  | timeout now => exact timeout_simulates connection history window now represents ordered
  | data arg => exact data_simulates connection history window arg represents enabled.1 bounded
  | ack now arg =>
      exact ack_simulates connection history window now arg represents ordered enabled.1
  | recv length => exact recv_simulates connection history window length represents

theorem step_queued {before after : Connection} {event : ConnectionEvent}
    (step : before.step event = some after) :
    after.queued.length = before.queued.length + event.bytes := by
  cases event with
  | queue seg =>
      obtain ⟨client, _, result⟩ := Option.bind_eq_some_iff.mp step
      cases result
      exact List.length_append
  | sending now =>
      obtain ⟨_, _, result⟩ := Option.bind_eq_some_iff.mp step
      cases result
      rfl
  | timeout now =>
      obtain ⟨_, _, result⟩ := Option.bind_eq_some_iff.mp step
      cases result
      rfl
  | data arg =>
      obtain ⟨_, _, result⟩ := Option.bind_eq_some_iff.mp step
      cases result
      rfl
  | ack now arg =>
      simp only [Connection.step] at step
      split_ifs at step
      · obtain ⟨_, _, result⟩ := Option.bind_eq_some_iff.mp step
        cases result
        rfl
      · cases step
        rfl
  | recv length =>
      obtain ⟨turn, _, result⟩ := Option.bind_eq_some_iff.mp step
      cases turn <;> cases result <;> rfl

theorem reaches_represents {start connection : Connection} (established : Established start)
    (reached : start.Reaches connection) (bounded : connection.queued.length < 2 ^ 32) :
    ∃ history window, Represents connection history window ∧ Ordered window := by
  induction reached with
  | refl => exact ⟨[], Window.initial, represents_established established, ordered_initial⟩
  | @tail before after _ step ih =>
      obtain ⟨event, enabled, run⟩ := step
      have grown := step_queued run
      obtain ⟨history, window, represents, ordered⟩ := ih (by omega)
      obtain ⟨after', run', history', window', steps, afterRepresents⟩ :=
        step_simulates before history window event represents ordered enabled (by omega)
      obtain rfl := Option.some.inj (run.symm.trans run')
      exact ⟨history', window', afterRepresents, ordered_steps ordered steps⟩

/-- In every state that a connection reaches before 2^32 bytes are queued, the
bytes the server accepted and the data of the segments from `expect_seqNum` on
in the send buffer are together everything queued, and no event is undefined. -/
theorem go_back_n_stream (start connection : Connection) (established : Established start)
    (reached : start.Reaches connection) (bounded : connection.queued.length < 2 ^ 32) :
    connection.accepted.length = connection.server.expectSeqNum.toNat ∧
      (∃ segs, sendBufferSegs connection.client = some segs ∧
        connection.accepted ++
          (segs.filter fun seg =>
            connection.server.expectSeqNum ≤ seg.header.seqNum).flatMap Seg.payload =
          connection.queued) ∧
      ∀ event : ConnectionEvent, event.Enabled connection →
        connection.queued.length + event.bytes < 2 ^ 32 →
        ∃ after, connection.step event = some after := by
  obtain ⟨history, window, represents, ordered⟩ :=
    reaches_represents established reached bounded
  have sentInside : window.sent ≤ history.length := represents.count ▸ ordered.sent
  have receivedInside := Nat.le_trans ordered.received sentInside
  refine ⟨?_, ⟨history.drop window.acked, ?_, ?_⟩, ?_⟩
  · rw [represents.accepted, represents.expect, payload_byte_length, offset]
    intro seg member
    exact represents.wellFormed.queueable seg (List.mem_of_mem_take member)
  · rw [holds_segs represents.buffer,
      buffer_split (Nat.le_trans ordered.acked ordered.received) sentInside]
  · rw [filter_from_offset represents.wellFormed ordered.acked receivedInside _ represents.expect,
      represents.accepted, represents.queued, ← List.flatMap_append, List.take_append_drop]
  · intro event enabled room
    obtain ⟨after, run, _⟩ := step_simulates connection history window event represents ordered
      enabled room
    exact ⟨after, run⟩

def idleConnection : Connection where
  client := establishedClient
  server :=
    { svrNodeID := 2
      svrPortNum := 200
      clientNodeID := 1
      clientPortNum := 100
      state := .connected
      expectSeqNum := 0
      recvBuf := List.replicate receiveBufSize 0
      usedBufLen := 0 }
  toServer := []
  toClient := []
  queued := []
  accepted := []
  delivered := []

theorem idle_established : Established idleConnection :=
  ⟨⟨rfl, rfl, rfl, rfl, rfl, rfl⟩, rfl, rfl, rfl, rfl, rfl, rfl, rfl, List.length_replicate, rfl,
    rfl, rfl, rfl, rfl⟩

theorem one_byte_queueable : Queueable oneByteSegment := ⟨rfl, by decide, by decide⟩

theorem one_byte_payload : oneByteSegment.payload = [0] := by decide +kernel

def ackedClient : Client := ⟨[none], { establishedClient.tcb with nextSeqNum := 1 }⟩

theorem sent_client_acked (server : ServerTcb) (node : server.svrNodeID = 2) :
    clientSeghandler stoppedClock sentClient server.svrNodeID.toInt32
      (idleConnection.server.newSeg SegType.dataack 1) = some (ackedClient, []) := by
  rw [node]
  rfl

theorem one_byte_sent : ∃ connection, idleConnection.Reaches connection ∧
    connection.client = sentClient ∧ connection.server = idleConnection.server ∧
    connection.toServer = [⟨2, oneByteSegment⟩] ∧ connection.toClient = [] ∧
    connection.queued = [0] ∧ connection.accepted = [] := by
  refine ⟨_, Relation.ReflTransGen.tail
    (Relation.ReflTransGen.single ⟨.queue oneByteSegment, one_byte_queueable, rfl⟩)
    ⟨.sending stoppedClock, trivial, rfl⟩, rfl, rfl, rfl, rfl,
    (List.nil_append _).trans one_byte_payload, rfl⟩

theorem one_byte_acked : ∃ connection, idleConnection.Reaches connection ∧
    connection.client.tcb.sendBufHead = none ∧ connection.queued = [0] ∧
    connection.accepted = [0] := by
  obtain ⟨sent, reached, client, server, toServer, toClient, queued, accepted⟩ := one_byte_sent
  have buffer : RecvBuffer idleConnection.server [] :=
    ⟨List.length_replicate, rfl, by decide, rfl⟩
  have short : oneByteSegment.header.length.toNat ≤ maxSegLen := by decide
  have expected : oneByteSegment.header.seqNum = idleConnection.server.expectSeqNum := rfl
  obtain ⟨recvBuf, saved, _⟩ :=
    save_fits idleConnection.server [] oneByteSegment buffer short (by decide)
  have received : dataReceived sent.server oneByteSegment = some
      (idleConnection.server.saved oneByteSegment recvBuf,
        [idleConnection.server.reply SegType.dataack 1]) := by
    rw [server, dataReceived, if_pos expected, saved]
    rfl
  have bytes : savedBytes sent.server oneByteSegment = [0] := by
    rw [server, savedBytes, if_pos expected, saved]
    exact one_byte_payload
  let stored : Connection := { sent with
      server := idleConnection.server.saved oneByteSegment recvBuf
      toClient := [⟨1, idleConnection.server.newSeg SegType.dataack 1⟩]
      accepted := [0] }
  let acked : Connection := { stored with
      client := ackedClient
      toServer := stored.toServer ++ sentSegs [] }
  have data : sent.step (.data ⟨2, oneByteSegment⟩) = some stored := by
    simp only [Connection.step, received, bytes, toClient, accepted]
    rfl
  have ack : stored.step (.ack stoppedClock
      ⟨1, idleConnection.server.newSeg SegType.dataack 1⟩) = some acked := by
    have port : stored.client.tcb.clientPortNum = 100 := by
      rw [client]
      rfl
    have taken := sent_client_acked stored.server rfl
    rw [← client] at taken
    simp only [Connection.step, port]
    rw [if_pos (by rfl), taken]
    rfl
  refine ⟨acked, (reached.tail ⟨.data _, ⟨?_, rfl⟩, data⟩).tail
    ⟨.ack _ _, ⟨List.mem_singleton_self _, rfl⟩, ack⟩, rfl, queued, rfl⟩
  rw [toServer]
  exact List.mem_singleton_self _

theorem one_byte_stream : ∃ connection, idleConnection.Reaches connection ∧
    connection.client.tcb.sendBufHead = none ∧ connection.queued = [0] ∧
    connection.accepted = [0] ∧ connection.server.expectSeqNum = 1 := by
  obtain ⟨connection, reached, empty, queued, accepted⟩ := one_byte_acked
  obtain ⟨position, _⟩ := go_back_n_stream idleConnection connection idle_established reached
    (by rw [queued]; decide)
  rw [accepted] at position
  exact ⟨connection, reached, empty, queued, accepted, UInt32.toNat_inj.mp position.symm⟩

end MiniOverlay
