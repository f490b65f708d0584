import MiniOverlay.ClientSockets
import MiniOverlay.NeighborTraffic
import MiniOverlay.ServerReuse
import MiniOverlay.SocketIsolation

/-!
# The whole stack

The MRT processes on top of a connected overlay. What such a process writes to its
connection are the segments that a client program or a server program sends, and what it
reads are segments that the MNP process of its node forwards. `waitTransport` sends only the
first segment of a node, so the handshake is all that ever crosses the overlay.
-/

namespace MiniOverlay

open DelimitedFrames FixedByteCodec LinkedHeap RoutedEvents SlotTable

set_option autoImplicit false

structure ServerProcess where
  slots : ServerSlots
  sleeping : Fin maxTransportConnections → Nat

def ServerProcess.init : ServerProcess := ⟨mrtServerInit, fun _ => 0⟩

/-- The last four arguments of `sock` are what the new blocks held before. -/
inductive ServerProcessEvent where
  | sock (port clientNodeID clientPortNum expectSeqNum : UInt32) (recvBuf : Vector Byte 4)
  | close (sockfd : Int)
  | call (index : Fin maxTransportConnections) (call : SocketCall)
  | segment (sourceNodeID : Int32) (segmentBuffer : Seg)

/-- What happens to the TCB in one slot; without a TCB there the pointer is followed all the
same. -/
def ServerProcess.input (process : ServerProcess) (index : Fin maxTransportConnections)
    (input : SocketInput) : Option (ServerProcess × List SocketOutput) :=
  match process.slots index with
  | .null => none
  | .freed => none
  | .tcb table => do
      let result ← ServerParty.input ⟨table, process.sleeping index⟩ input
      return (⟨Function.update process.slots index (.tcb result.1.table),
        Function.update process.sleeping index result.1.sleeping⟩, result.2)

/-- One event; `none` is undefined behaviour. -/
def ServerProcess.step (myNodeID : Int32) (process : ServerProcess) :
    ServerProcessEvent → Option (ServerProcess × List SocketOutput)
  | .sock port clientNodeID clientPortNum expectSeqNum recvBuf =>
      some (⟨(mrtServerSockTurn process.slots myNodeID port clientNodeID clientPortNum
        expectSeqNum recvBuf).1, process.sleeping⟩, [])
  | .close sockfd => do
      let result ← mrtServerClose process.slots sockfd
      return (⟨result.1, process.sleeping⟩, [])
  | .call index call => process.input index (.call call)
  | .segment sourceNodeID segmentBuffer => do
      let found ← process.slots.fetchServerTCB segmentBuffer.header.destPort
      let index ← found
      process.input index (.segment sourceNodeID segmentBuffer)

def SocketOutput.sent? : SocketOutput → Option SendsegArg
  | .effect sends => sends.sent?
  | .returned _ _ => none

def serverSends (outputs : List SocketOutput) : List SendsegArg :=
  outputs.filterMap SocketOutput.sent?

def ServerReads (calls : List ForwardsegCall) (nodeID : Int32)
    (events : List ServerProcessEvent) : Prop :=
  ∀ sourceNodeID segmentBuffer, .segment sourceNodeID segmentBuffer ∈ events →
    ⟨nodeID, sourceNodeID, segmentBuffer⟩ ∈ calls

def ClientReads (calls : List ForwardsegCall) (nodeID : Int32)
    (events : List ClientEvent) : Prop :=
  ∀ now sourceNodeID segmentBuffer, .segment now sourceNodeID segmentBuffer ∈ events →
    ⟨nodeID, sourceNodeID, segmentBuffer⟩ ∈ calls

/-- A client or server program of the node, from its first call on, has sent these
segments. -/
inductive MrtSends (calls : List ForwardsegCall) (nodeID : Int32) : List SendsegArg → Prop where
  | client (events : List ClientEvent) (tables : ClientTable) (effects : List ClientEffect)
      (reads : ClientReads calls nodeID events)
      (ran : runOne (clientTableStep nodeID) (fun _ => none) events = some (tables, effects)) :
      MrtSends calls nodeID (sentSegs effects)
  | server (events : List ServerProcessEvent) (process : ServerProcess)
      (outputs : List SocketOutput) (reads : ServerReads calls nodeID events)
      (ran : runOne (ServerProcess.step nodeID) .init events = some (process, outputs)) :
      MrtSends calls nodeID (serverSends outputs)

/-- The MRT processes that the nodes accept one after the other are client and server
programs, and the first record of each has no end marker inside. -/
def MrtPrograms (memory : TrafficMemory) (calls : List ForwardsegCall) : Prop :=
  ∀ nodeID, ∃ processes : List (List SendsegArg),
    memory.backlog nodeID = processes.map transportStream ∧
      ∀ sends ∈ processes, MrtSends calls nodeID sends ∧
        ∀ arg ∈ sends.head?, Clean markers (sendsegArgCodec.encode arg)

/-- A socket that has not sent anything and will not, until it connects. -/
structure Party.Unused (party : Party) : Prop where
  caller : party.caller = .returned
  closed : party.client.tcb.state = .closed
  unAck : party.client.tcb.unAckSegNum = 0

theorem unused_call {party next : Party} {event : PartyEvent} {effects : List ClientEffect}
    (unused : party.Unused) (stepped : party.callStep event = some (next, effects)) :
    sentSegs effects = [] ∧ next.Unused ∨
      ∃ arg, sentSegs effects = [arg] ∧ arg.seg.header.type = SegType.syn := by
  obtain ⟨caller, closed, unAck⟩ := unused
  cases event with
  | connect nodeID serverPort =>
      simp only [Party.callStep, caller, Party.step, mrtClientConnect, closed] at stepped
      cases stepped
      exact Or.inr ⟨_, rfl, rfl⟩
  | connectWake =>
      simp only [Party.callStep, Party.step, caller] at stepped
      cases stepped
  | disconnect =>
      simp only [Party.callStep, Party.step, caller, mrtClientDisconnect, closed] at stepped
      cases stepped
      exact Or.inl ⟨rfl, caller, closed, unAck⟩
  | disconnectWake =>
      simp only [Party.callStep, Party.step, caller] at stepped
      cases stepped
  | send now data =>
      simp only [Party.callStep, Party.step, mrtClientSend, closed] at stepped
      cases stepped
      exact Or.inl ⟨rfl, caller, closed, unAck⟩
  | timeout now =>
      simp only [Party.callStep, Party.step, sendBufferTimeout, unAck] at stepped
      cases stepped
      exact Or.inl ⟨rfl, caller, closed, unAck⟩
  | segment now sourceNodeID segmentBuffer =>
      simp only [Party.callStep, Party.step, clientSeghandler, closed] at stepped
      cases stepped
      exact Or.inl ⟨rfl, caller, closed, unAck⟩

theorem unused_step {nodeID : Int32} {tables next : ClientTable} {event : ClientEvent}
    {effects : List ClientEffect} (unused : Each Party.Unused tables)
    (stepped : clientTableStep nodeID tables event = some (next, effects)) :
    sentSegs effects = [] ∧ Each Party.Unused next ∨
      ∃ arg, sentSegs effects = [arg] ∧ arg.seg.header.type = SegType.syn := by
  cases event with
  | sock clientPort svrPortNum =>
      cases stepped
      refine Or.inl ⟨rfl, ?_⟩
      unfold mrtClientSockTurn
      cases createTCBTable tables with
      | none => exact unused
      | some socketFd => exact each_update unused socketFd ⟨rfl, rfl, rfl⟩
  | call sockfd event =>
      obtain ⟨_, same | ⟨party, after, held, called, same⟩⟩ := call_turn_cases stepped
      · cases same
        exact Or.inl ⟨rfl, unused⟩
      · cases same
        rcases unused_call (unused sockfd party held) called with ⟨quiet, still⟩ | syn
        · exact Or.inl ⟨quiet, each_update unused sockfd still⟩
        · exact Or.inr syn
  | close sockfd =>
      obtain ⟨result, closes, same⟩ := Option.map_eq_some_iff.mp stepped
      cases same
      refine Or.inl ⟨rfl, ?_⟩
      obtain ⟨party, held, closes⟩ := Option.bind_eq_some_iff.mp closes
      rw [(unused sockfd party held).closed] at closes
      cases closes
      exact each_remove unused sockfd
  | segment now sourceNodeID segmentBuffer =>
      rcases turn_cases stepped with same | ⟨index, party, after, held, handled, same⟩
      · cases same
        exact Or.inl ⟨rfl, unused⟩
      · cases same
        have used := unused index party held
        simp only [clientSeghandler, used.closed] at handled
        cases handled
        exact Or.inl ⟨rfl, each_update unused index ⟨used.caller, used.closed, used.unAck⟩⟩

theorem client_sends_syn_first {nodeID : Int32} (events : List ClientEvent)
    {tables last : ClientTable} {effects : List ClientEffect} (unused : Each Party.Unused tables)
    (ran : runOne (clientTableStep nodeID) tables events = some (last, effects)) :
    ∀ arg, (sentSegs effects).head? = some arg → arg.seg.header.type = SegType.syn := by
  induction events generalizing tables effects with
  | nil =>
      cases ran
      intro arg first
      cases first
  | cons event events ih =>
      obtain ⟨⟨next, sends⟩, stepped, ran⟩ := Option.bind_eq_some_iff.mp ran
      obtain ⟨⟨after, later⟩, rest, ran⟩ := Option.bind_eq_some_iff.mp ran
      cases ran
      have joined : sentSegs (sends ++ later) = sentSegs sends ++ sentSegs later :=
        List.filterMap_append
      intro arg first
      rw [joined] at first
      rcases unused_step unused stepped with ⟨quiet, still⟩ | ⟨syn, only, isSyn⟩
      · rw [quiet, List.nil_append] at first
        exact ih still rest arg first
      · rw [only] at first
        cases first
        exact isSyn

def Seg.IsReply (seg : Seg) : Prop :=
  seg.header.type = SegType.synack ∨ seg.header.type = SegType.finack

theorem segment_recv_sends (table : ServerTcb) (segmentBuffer : Seg) :
    ∀ arg ∈ serverSentSegs (segmentRecv table segmentBuffer).2, arg.seg.IsReply := by
  intro arg member
  unfold segmentRecv at member
  split_ifs at member
  · rw [List.mem_singleton.mp member]
    exact Or.inl rfl
  · rw [List.mem_singleton.mp member]
    exact Or.inr rfl
  · cases member

theorem handler_without_data {table after : ServerTcb} {effects : List ServerEffect}
    {sourceNodeID : Int32} {segmentBuffer : Seg}
    (handled : serverSeghandler table sourceNodeID segmentBuffer = some (after, effects)) :
    (after.usedBufLen = table.usedBufLen ∧ ∀ arg ∈ serverSentSegs effects, arg.seg.IsReply) ∨
      segmentBuffer.header.type = SegType.data ∧
        dataReceived table segmentBuffer = some (after, effects) := by
  have nothing : ∀ arg ∈ serverSentSegs [], arg.seg.IsReply := fun arg member => by cases member
  unfold serverSeghandler at handled
  cases state : table.state with
  | listening =>
      rw [state] at handled
      cases handled
      exact Or.inl ⟨(segment_recv_same _ _).used, segment_recv_sends _ _⟩
  | connected =>
      simp only [state] at handled
      split_ifs at handled with here isSyn isData isFin
      · rw [Option.some.injEq] at handled
        have same := segment_recv_same table segmentBuffer
        have sends := segment_recv_sends table segmentBuffer
        rw [handled] at same sends
        exact Or.inl ⟨same.used, sends⟩
      · exact Or.inr ⟨isData, handled⟩
      · cases handled
        exact Or.inl ⟨(segment_recv_same _ _).used, segment_recv_sends _ _⟩
      · cases handled
        exact Or.inl ⟨rfl, nothing⟩
      · cases handled
        exact Or.inl ⟨rfl, nothing⟩
  | closewait =>
      simp only [state] at handled
      split_ifs at handled with isFin
      · rw [Option.some.injEq] at handled
        have same := segment_recv_same table segmentBuffer
        have sends := segment_recv_sends table segmentBuffer
        rw [handled] at same sends
        exact Or.inl ⟨same.used, sends⟩
      · cases handled
        exact Or.inl ⟨rfl, nothing⟩
  | closed =>
      rw [state] at handled
      cases handled
      exact Or.inl ⟨rfl, nothing⟩

theorem data_received_sends {table after : ServerTcb} {effects : List ServerEffect}
    {dataIn : Seg} (received : dataReceived table dataIn = some (after, effects)) :
    ∀ arg ∈ serverSentSegs effects, arg.seg.header.type = SegType.dataack := by
  intro arg member
  cases data_receives received with
  | repeated _ _ _ again =>
      rw [again] at member
      rw [List.mem_singleton.mp member]
      rfl
  | refused _ _ _ quiet =>
      rw [quiet] at member
      cases member
  | stored _ _ _ _ _ _ acknowledged =>
      rw [acknowledged] at member
      rw [List.mem_singleton.mp member]
      rfl

def SocketOutput.Quiet : SocketOutput → Prop
  | .effect sends => ∀ arg, sends.sent? = some arg → arg.seg.IsReply
  | .returned _ buf => buf = []

theorem effects_quiet {effects : List ServerEffect}
    (replies : ∀ arg ∈ serverSentSegs effects, arg.seg.IsReply) :
    ∀ output ∈ effects.map SocketOutput.effect, output.Quiet := by
  intro output member
  obtain ⟨sends, listed, rfl⟩ := List.mem_map.mp member
  exact fun arg sent => replies arg (List.mem_filterMap.mpr ⟨sends, listed, sent⟩)

theorem recv_empty {party : ServerParty} {length : UInt32} {turn : RecvTurn}
    (empty : party.table.usedBufLen = 0)
    (turned : mrtServerRecvTurn party.table length = some turn) :
    (party.received turn).table.usedBufLen = 0 ∧ ∀ output ∈ turn.outputs, output.Quiet := by
  rcases recv_turn_result turned with rfl | ⟨fits, rfl⟩
  · exact ⟨empty, fun output member => by cases member⟩
  · rw [empty] at fits
    obtain rfl : length = 0 := UInt32.le_zero_iff.mp fits
    refine ⟨by simp [ServerParty.received, ServerTcb.taken, empty], fun output member => ?_⟩
    rw [List.mem_singleton.mp member]
    exact List.take_zero

theorem call_empty {party next : ServerParty} {call : SocketCall} {outputs : List SocketOutput}
    (empty : party.table.usedBufLen = 0) (called : party.call call = some (next, outputs)) :
    next.table.usedBufLen = 0 ∧ ∀ output ∈ outputs, output.Quiet := by
  have nothing : ∀ output ∈ ([] : List SocketOutput), output.Quiet :=
    fun output member => by cases member
  cases call with
  | accept =>
      cases called
      refine ⟨?_, nothing⟩
      simp only [mrtServerAccept]
      cases party.table.state <;> exact empty
  | recv length =>
      obtain ⟨turn, turned, called⟩ := Option.bind_eq_some_iff.mp called
      cases called
      rcases recv_result turned with turned | rfl
      · exact recv_empty empty turned
      · refine ⟨empty, fun output member => ?_⟩
        rw [List.mem_singleton.mp member]
        rfl
  | recvTurn length =>
      obtain ⟨turn, turned, called⟩ := Option.bind_eq_some_iff.mp called
      cases called
      exact recv_empty empty turned
  | closewait =>
      simp only [ServerParty.call] at called
      split_ifs at called <;> cases called
      · exact ⟨rfl, nothing⟩
      · exact ⟨empty, nothing⟩

def SocketInput.NoData : SocketInput → Prop
  | .call _ => True
  | .segment _ segmentBuffer => segmentBuffer.header.type ≠ SegType.data

theorem input_empty {party next : ServerParty} {input : SocketInput}
    {outputs : List SocketOutput} (empty : party.table.usedBufLen = 0) (noData : input.NoData)
    (taken : party.input input = some (next, outputs)) :
    next.table.usedBufLen = 0 ∧ ∀ output ∈ outputs, output.Quiet := by
  cases input with
  | call call => exact call_empty empty taken
  | segment sourceNodeID segmentBuffer =>
      obtain ⟨⟨after, effects⟩, handled, taken⟩ := Option.bind_eq_some_iff.mp taken
      cases taken
      rcases handler_without_data handled with ⟨same, replies⟩ | ⟨isData, _⟩
      · exact ⟨same.trans empty, effects_quiet replies⟩
      · exact absurd isData noData

def ServerProcess.Empty (process : ServerProcess) : Prop :=
  ∀ index table, process.slots index = .tcb table → table.usedBufLen = 0

def ServerProcessEvent.NoData : ServerProcessEvent → Prop
  | .segment _ segmentBuffer => segmentBuffer.header.type ≠ SegType.data
  | _ => True

theorem slots_update {slots : ServerSlots} {keep : ServerTcb → Prop}
    (kept : ∀ index table, slots index = .tcb table → keep table)
    (index : Fin maxTransportConnections) {slot : ServerSlot}
    (added : ∀ table, slot = .tcb table → keep table) :
    ∀ other table, Function.update slots index slot other = .tcb table → keep table := by
  intro other table held
  by_cases here : other = index
  · rw [here, Function.update_self] at held
    exact added table held
  · rw [Function.update_of_ne here] at held
    exact kept other table held

theorem process_input_empty {process next : ServerProcess} {index : Fin maxTransportConnections}
    {input : SocketInput} {outputs : List SocketOutput} (empty : process.Empty)
    (noData : input.NoData) (taken : process.input index input = some (next, outputs)) :
    next.Empty ∧ ∀ output ∈ outputs, output.Quiet := by
  unfold ServerProcess.input at taken
  cases held : process.slots index with
  | null =>
      rw [held] at taken
      cases taken
  | freed =>
      rw [held] at taken
      cases taken
  | tcb table =>
      rw [held] at taken
      obtain ⟨⟨after, puts⟩, ran, taken⟩ := Option.bind_eq_some_iff.mp taken
      cases taken
      obtain ⟨still, quiet⟩ := input_empty (empty index table held) noData ran
      exact ⟨slots_update empty index fun other same => by cases same; exact still, quiet⟩

theorem process_step_empty {nodeID : Int32} {process next : ServerProcess}
    {event : ServerProcessEvent} {outputs : List SocketOutput} (empty : process.Empty)
    (noData : event.NoData) (stepped : process.step nodeID event = some (next, outputs)) :
    next.Empty ∧ ∀ output ∈ outputs, output.Quiet := by
  have nothing : ∀ output ∈ ([] : List SocketOutput), output.Quiet :=
    fun output member => by cases member
  cases event with
  | sock port clientNodeID clientPortNum expectSeqNum recvBuf =>
      cases stepped
      refine ⟨?_, nothing⟩
      unfold mrtServerSockTurn
      cases process.slots.createTCBTable with
      | none => exact empty
      | some index => exact slots_update empty index fun table same => by cases same; rfl
  | close sockfd =>
      obtain ⟨result, closes, stepped⟩ := Option.bind_eq_some_iff.mp stepped
      cases stepped
      refine ⟨?_, nothing⟩
      rcases server_close_cases closes with rfl | ⟨index, _, _, _, _, rfl⟩
      · exact empty
      · exact slots_update empty index fun table same => by cases same
  | call index call =>
      have noSegment : (SocketInput.call call).NoData := trivial
      exact process_input_empty empty noSegment stepped
  | segment sourceNodeID segmentBuffer =>
      obtain ⟨found, _, stepped⟩ := Option.bind_eq_some_iff.mp stepped
      obtain ⟨index, _, stepped⟩ := Option.bind_eq_some_iff.mp stepped
      have other : (SocketInput.segment sourceNodeID segmentBuffer).NoData := noData
      exact process_input_empty empty other stepped

def SocketOutput.NoData (output : SocketOutput) : Prop :=
  ∀ arg, output.sent? = some arg → arg.seg.header.type ≠ SegType.data

theorem turn_unsent (turn : RecvTurn) : ∀ output ∈ turn.outputs, output.sent? = none := by
  intro output member
  cases turn with
  | sleeps => cases member
  | returns value buf table =>
      rw [List.mem_singleton.mp member]
      rfl

theorem input_no_data {party next : ServerParty} {input : SocketInput}
    {outputs : List SocketOutput} (taken : party.input input = some (next, outputs)) :
    ∀ output ∈ outputs, output.NoData := by
  cases input with
  | call call =>
      have unsent : ∀ output ∈ outputs, output.sent? = none := by
        cases call with
        | accept =>
            cases taken
            exact fun output member => by cases member
        | recv length =>
            obtain ⟨turn, _, taken⟩ := Option.bind_eq_some_iff.mp taken
            cases taken
            exact turn_unsent turn
        | recvTurn length =>
            obtain ⟨turn, _, taken⟩ := Option.bind_eq_some_iff.mp taken
            cases taken
            exact turn_unsent turn
        | closewait =>
            simp only [ServerParty.input, ServerParty.call] at taken
            split_ifs at taken <;> cases taken <;> exact fun output member => by cases member
      intro output member arg sent
      rw [unsent output member] at sent
      cases sent
  | segment sourceNodeID segmentBuffer =>
      obtain ⟨⟨after, effects⟩, handled, taken⟩ := Option.bind_eq_some_iff.mp taken
      cases taken
      intro output member arg sent
      obtain ⟨sends, listed, rfl⟩ := List.mem_map.mp member
      have among : arg ∈ serverSentSegs effects := List.mem_filterMap.mpr ⟨sends, listed, sent⟩
      rcases handler_without_data handled with ⟨_, replies⟩ | ⟨_, received⟩
      · rcases replies arg among with synack | finack
        · rw [synack]
          decide
        · rw [finack]
          decide
      · rw [data_received_sends received arg among]
        decide

theorem process_input_outputs {process next : ServerProcess}
    {index : Fin maxTransportConnections} {input : SocketInput} {outputs : List SocketOutput}
    (taken : process.input index input = some (next, outputs)) :
    ∃ party after, ServerParty.input party input = some (after, outputs) := by
  unfold ServerProcess.input at taken
  cases held : process.slots index with
  | null =>
      rw [held] at taken
      cases taken
  | freed =>
      rw [held] at taken
      cases taken
  | tcb table =>
      rw [held] at taken
      obtain ⟨⟨after, puts⟩, ran, taken⟩ := Option.bind_eq_some_iff.mp taken
      cases taken
      exact ⟨_, after, ran⟩

theorem process_step_no_data {nodeID : Int32} {process next : ServerProcess}
    {event : ServerProcessEvent} {outputs : List SocketOutput}
    (stepped : process.step nodeID event = some (next, outputs)) :
    ∀ output ∈ outputs, output.NoData := by
  cases event with
  | sock port clientNodeID clientPortNum expectSeqNum recvBuf =>
      cases stepped
      exact fun output member => by cases member
  | close sockfd =>
      obtain ⟨result, _, stepped⟩ := Option.bind_eq_some_iff.mp stepped
      cases stepped
      exact fun output member => by cases member
  | call index call =>
      obtain ⟨party, after, ran⟩ := process_input_outputs stepped
      exact input_no_data ran
  | segment sourceNodeID segmentBuffer =>
      obtain ⟨found, _, stepped⟩ := Option.bind_eq_some_iff.mp stepped
      obtain ⟨index, _, stepped⟩ := Option.bind_eq_some_iff.mp stepped
      obtain ⟨party, after, ran⟩ := process_input_outputs stepped
      exact input_no_data ran

theorem server_run_empty {nodeID : Int32} (events : List ServerProcessEvent)
    (noData : ∀ event ∈ events, event.NoData) {process : ServerProcess}
    {outputs : List SocketOutput}
    (ran : runOne (ServerProcess.step nodeID) .init events = some (process, outputs)) :
    process.Empty ∧ ∀ output ∈ outputs, output.Quiet := by
  have initial : ServerProcess.init.Empty := fun index table held => by cases held
  exact run_one_keeps ServerProcess.Empty ServerProcessEvent.NoData SocketOutput.Quiet
    (fun _ _ _ _ empty quiet stepped => process_step_empty empty quiet stepped) events noData
    initial ran

theorem server_run_no_data {nodeID : Int32} (events : List ServerProcessEvent)
    {process : ServerProcess} {outputs : List SocketOutput}
    (ran : runOne (ServerProcess.step nodeID) .init events = some (process, outputs)) :
    ∀ arg ∈ serverSends outputs, arg.seg.header.type ≠ SegType.data := by
  obtain ⟨_, unsent⟩ := run_one_keeps (fun _ => True) (fun _ => True) SocketOutput.NoData
    (fun _ _ _ _ _ _ stepped => ⟨trivial, process_step_no_data stepped⟩) events
    (fun _ _ => trivial) trivial ran
  intro arg member
  obtain ⟨output, listed, sent⟩ := List.mem_filterMap.mp member
  exact unsent output listed arg sent

theorem first_segment_of_processes (processes : List (List SendsegArg))
    (clean : ∀ sends ∈ processes, ∀ arg ∈ sends.head?,
      Clean markers (sendsegArgCodec.encode arg))
    {arg : SendsegArg} (first : firstSegment (processes.map transportStream) = some arg) :
    ∃ sends ∈ processes, sends.head? = some arg := by
  induction processes with
  | nil => cases first
  | cons sends processes ih =>
      rw [List.map_cons, firstSegment] at first
      cases sends with
      | nil =>
          obtain ⟨other, member, head⟩ := ih
            (fun other member => clean other (List.mem_cons_of_mem _ member)) first
          exact ⟨other, List.mem_cons_of_mem _ member, head⟩
      | cons head rest =>
          have read : getsegToSend (transportStream (head :: rest)) =
              .got head (transportStream rest) := by
            rw [transport_stream_eq, transport_stream_eq, List.flatMap_cons]
            exact recv_record_clean sendsegArgCodec _
              (clean _ List.mem_cons_self head rfl) _
          rw [read] at first
          cases first
          exact ⟨_, List.mem_cons_self, rfl⟩

section Stack

variable {overlay : ConnectedOverlay} {memory : TrafficMemory} {events : List TrafficEvent}
  {state : TrafficState}

theorem forwarded_first (programs : MrtPrograms memory state.overlay.calls)
    (run : overlay.run (overlay.create memory) events = some state) {call : ForwardsegCall}
    (member : call ∈ state.overlay.calls) :
    ∃ sends, MrtSends state.overlay.calls call.srcNodeID sends ∧
      sends.head? = some ⟨call.nodeID, call.segment⟩ := by
  have neighborly := run_neighborly run
  obtain ⟨processes, backlog, sent⟩ := programs call.srcNodeID
  have first := forwarded_is_first neighborly member
  rw [backlog] at first
  obtain ⟨sends, listed, head⟩ := first_segment_of_processes processes
    (fun sends listed => (sent sends listed).2) first
  exact ⟨sends, (sent sends listed).1, head⟩

theorem forwarded_no_data (programs : MrtPrograms memory state.overlay.calls)
    (run : overlay.run (overlay.create memory) events = some state) {call : ForwardsegCall}
    (member : call ∈ state.overlay.calls) : call.segment.header.type ≠ SegType.data := by
  obtain ⟨sends, program, head⟩ := forwarded_first programs run member
  cases program with
  | client clientEvents tables effects _ ran =>
      have unused : Each Party.Unused (fun _ => none : ClientTable) :=
        fun index party held => by cases held
      have isSyn := client_sends_syn_first clientEvents unused ran _ head
      rw [isSyn]
      decide
  | server serverEvents process outputs _ ran =>
      exact server_run_no_data serverEvents ran _ (List.mem_of_mem_head? head)

theorem reads_no_data (programs : MrtPrograms memory state.overlay.calls)
    (run : overlay.run (overlay.create memory) events = some state) {nodeID : Int32}
    {serverEvents : List ServerProcessEvent}
    (reads : ServerReads state.overlay.calls nodeID serverEvents) :
    ∀ event ∈ serverEvents, event.NoData := by
  intro event member
  cases event with
  | segment sourceNodeID segmentBuffer =>
      exact forwarded_no_data programs run (reads sourceNodeID segmentBuffer member)
  | sock port clientNodeID clientPortNum expectSeqNum recvBuf => exact trivial
  | close sockfd => exact trivial
  | call index call => exact trivial

end Stack

theorem pair_programs (calls : List ForwardsegCall) : MrtPrograms pairMemory calls := by
  intro nodeID
  let table : ClientTcb := { (mrtClientSock nodeID 0 0).tcb with svrNodeID := 1 }
  let tables : ClientTable := Function.update
    (Function.update (fun _ => none) firstSlot (some (newSocket nodeID 0 0))) firstSlot
    (some ⟨⟨[], { table with state := .synsent }⟩, .connecting (table.newSeg SegType.syn 0 [])⟩)
  have syn : table.newSeg SegType.syn 0 [] = Seg.cleared := rfl
  have ran : runOne (clientTableStep nodeID) (fun _ => none)
      [.sock 0 0, .call firstSlot (.connect 1 0)] =
        some (tables, [.mnpSendseg 1 (table.newSeg SegType.syn 0 [])]) := rfl
  rw [syn] at ran
  have reads : ClientReads calls nodeID [.sock 0 0, .call firstSlot (.connect 1 0)] := by
    intro now sourceNodeID segmentBuffer member
    simp at member
  have clean : Clean markers (sendsegArgCodec.encode ⟨1, Seg.cleared⟩) :=
    clean_of_no_escape fun stored => (cleared_record_image _ stored).1 rfl
  refine ⟨[[⟨1, Seg.cleared⟩]], rfl, fun sends member => ?_⟩
  rw [List.mem_singleton.mp member]
  refine ⟨.client _ _ _ reads ran, fun arg first => ?_⟩
  rw [← Option.some.inj first]
  exact clean

end MiniOverlay
