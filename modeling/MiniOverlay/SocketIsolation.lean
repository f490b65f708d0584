import MiniOverlay.Handshake
import MiniOverlay.RoutedEvents
import MiniOverlay.ServerSockets

/-!
# The sockets of a server do not interfere

All sockets share the table of TCBs, the lookup by port and the segment handler.
With different ports every call, thread and segment touches one TCB only, so a
socket goes through the same states with the events of the others left out.
-/

namespace MiniOverlay

open SlotTable RoutedEvents FixedByteCodec

set_option autoImplicit false

/-- The calls on a socket, up to their first wait or a later turn, and the thread
of `closewait`. -/
inductive SocketCall where
  | accept
  | recv (length : UInt32)
  | recvTurn (length : UInt32)
  | closewait

/-- What an event puts out: what a handler does, and what `mrt_server_recv` returns
with the bytes it has copied. -/
inductive SocketOutput where
  | effect (effect : ServerEffect)
  | returned (value : Int) (buf : List Byte)
  deriving DecidableEq

def RecvTurn.outputs : RecvTurn → List SocketOutput
  | .sleeps => []
  | .returns value buf _ => [.returned value buf]

def ServerParty.call (party : ServerParty) : SocketCall → Option (ServerParty × List SocketOutput)
  | .accept => some (⟨(mrtServerAccept party.table).getD party.table, party.sleeping⟩, [])
  | .recv length => do
      let turn ← mrtServerRecv party.table length
      return (party.received turn, turn.outputs)
  | .recvTurn length => do
      let turn ← mrtServerRecvTurn party.table length
      return (party.received turn, turn.outputs)
  | .closewait =>
      if 0 < party.sleeping then some (⟨MiniOverlay.closewait party.table, party.sleeping - 1⟩, [])
      else some (party, [])

structure ServerSystem where
  tables : ServerTable
  sleeping : Fin maxTransportConnections → Nat

inductive SystemEvent where
  | call (index : Fin maxTransportConnections) (call : SocketCall)
  | segment (sourceNodeID : Int32) (segmentBuffer : Seg)

def ServerSystem.step (system : ServerSystem) :
    SystemEvent → Option (ServerSystem × List (Fin maxTransportConnections × SocketOutput))
  | .call index call => do
      let table ← system.tables index
      let result ← ServerParty.call ⟨table, system.sleeping index⟩ call
      return (⟨Function.update system.tables index (some result.1.table),
        Function.update system.sleeping index result.1.sleeping⟩,
        result.2.map (Prod.mk index))
  | .segment sourceNodeID segmentBuffer => do
      let index ← fetchServerTCB system.tables segmentBuffer.header.destPort
      let turn ← serverSeghandlerTurn system.tables sourceNodeID segmentBuffer
      return (⟨turn.1, Function.update system.sleeping index
          (system.sleeping index + closewaitsStarted turn.2)⟩,
        turn.2.map fun effect => (index, .effect effect))

def ServerSystem.run : ServerSystem → List SystemEvent →
    Option (ServerSystem × List (Fin maxTransportConnections × SocketOutput))
  | system, [] => some (system, [])
  | system, event :: events => do
      let next ← system.step event
      let later ← next.1.run events
      return (later.1, next.2 ++ later.2)

def SystemEvent.Concerns (tables : ServerTable) (slot : Fin maxTransportConnections) :
    SystemEvent → Prop
  | .call index _ => index = slot
  | .segment _ segmentBuffer =>
      (tables slot).map ServerTcb.svrPortNum = some segmentBuffer.header.destPort

instance (tables : ServerTable) (slot : Fin maxTransportConnections) (event : SystemEvent) :
    Decidable (event.Concerns tables slot) :=
  match event with
  | .call _ _ => inferInstanceAs (Decidable (_ = _))
  | .segment _ _ => inferInstanceAs (Decidable (_ = _))

/-- Calls are made on open sockets, and segments are for open ports and not longer
than their data. -/
def SystemEvent.Fits (tables : ServerTable) : SystemEvent → Prop
  | .call index _ => (tables index).isSome
  | .segment _ segmentBuffer =>
      (fetchServerTCB tables segmentBuffer.header.destPort).isSome ∧
        segmentBuffer.header.length.toNat ≤ maxSegLen

/-- A receive buffer of `RECEIVE_BUF_SIZE` bytes that is not full. -/
structure ServerTcb.Ready (table : ServerTcb) : Prop where
  block : table.recvBuf.length = receiveBufSize
  room : table.usedBufLen.toNat < receiveBufSize

inductive SocketInput where
  | call (call : SocketCall)
  | segment (sourceNodeID : Int32) (segmentBuffer : Seg)

def ServerParty.input (party : ServerParty) :
    SocketInput → Option (ServerParty × List SocketOutput)
  | .call call => party.call call
  | .segment sourceNodeID segmentBuffer => do
      let result ← serverSeghandler party.table sourceNodeID segmentBuffer
      return (⟨result.1, party.sleeping + closewaitsStarted result.2⟩, result.2.map .effect)

def slotStep (slot : Option ServerParty) (input : SocketInput) :
    Option (Option ServerParty × List SocketOutput) := do
  let party ← slot
  let result ← party.input input
  return (some result.1, result.2)

theorem data_received_port {table after : ServerTcb} {effects : List ServerEffect} (dataIn : Seg)
    (received : dataReceived table dataIn = some (after, effects)) :
    after.svrPortNum = table.svrPortNum := by
  cases data_receives received with
  | repeated _ _ same _ => rw [same]
  | refused _ _ same _ => rw [same]
  | stored _ _ _ _ _ moved _ =>
      rw [moved]
      rfl

structure SameBuffer (table after : ServerTcb) : Prop where
  port : after.svrPortNum = table.svrPortNum
  recvBuf : after.recvBuf = table.recvBuf
  used : after.usedBufLen = table.usedBufLen

theorem segment_recv_same (table : ServerTcb) (seg : Seg) :
    SameBuffer table (segmentRecv table seg).1 := by
  unfold segmentRecv
  split_ifs <;> exact ⟨rfl, rfl, rfl⟩

theorem handler_buffer_cases (table : ServerTcb) (sourceNodeID : Int32) (seg : Seg) :
    serverSeghandler table sourceNodeID seg = dataReceived table seg ∨
      ∃ after effects, serverSeghandler table sourceNodeID seg = some (after, effects) ∧
        SameBuffer table after := by
  unfold serverSeghandler
  cases state : table.state with
  | listening =>
      have accepted := segment_recv_same { table with
        clientNodeID := sourceNodeID.toUInt32
        clientPortNum := seg.header.srcPort
        state := .listening } seg
      exact Or.inr ⟨_, _, rfl, accepted.port, accepted.recvBuf, accepted.used⟩
  | connected =>
      dsimp only
      split_ifs with here isSyn isData isFin
      · exact Or.inr ⟨_, _, rfl, segment_recv_same table seg⟩
      · exact Or.inl rfl
      · have finished := segment_recv_same { table with state := .closewait } seg
        exact Or.inr ⟨_, _, rfl, finished.port, finished.recvBuf, finished.used⟩
      · exact Or.inr ⟨_, _, rfl, rfl, rfl, rfl⟩
      · exact Or.inr ⟨_, _, rfl, rfl, rfl, rfl⟩
  | closewait =>
      dsimp only
      split_ifs with isFin
      · exact Or.inr ⟨_, _, rfl, segment_recv_same table seg⟩
      · exact Or.inr ⟨_, _, rfl, rfl, rfl, rfl⟩
  | closed => exact Or.inr ⟨_, _, rfl, rfl, rfl, rfl⟩

theorem seghandler_port {table after : ServerTcb} {effects : List ServerEffect}
    (sourceNodeID : Int32) (seg : Seg)
    (handled : serverSeghandler table sourceNodeID seg = some (after, effects)) :
    after.svrPortNum = table.svrPortNum := by
  rcases handler_buffer_cases table sourceNodeID seg with data | ⟨after', effects', step, same⟩
  · exact data_received_port seg (data.symm.trans handled)
  · rw [step] at handled
    cases handled
    exact same.port

theorem ready_buffer {table : ServerTcb} (ready : table.Ready) :
    RecvBuffer table (table.recvBuf.take table.usedBufLen.toNat) := by
  have block := ready.block
  have room := ready.room
  have held : (table.recvBuf.take table.usedBufLen.toNat).length = table.usedBufLen.toNat := by
    rw [List.length_take]
    omega
  constructor
  · exact block
  · exact held.symm
  · rw [held]
    exact room
  · rw [held]

theorem buffer_ready {table : ServerTcb} {held : List Byte} (buffer : RecvBuffer table held) :
    table.Ready :=
  ⟨buffer.block, by rw [buffer.used]; exact buffer.room⟩

theorem ready_of_same {table after : ServerTcb} (ready : table.Ready)
    (same : SameBuffer table after) : after.Ready :=
  ⟨same.recvBuf ▸ ready.block, same.used ▸ ready.room⟩

theorem recv_turn_ready (table : ServerTcb) (length : UInt32) (sleeping : Nat)
    (ready : table.Ready) :
    ∃ turn, mrtServerRecvTurn table length = some turn ∧
      ((ServerParty.mk table sleeping).received turn).table.Ready := by
  rcases recv_turn_cases table _ length (ready_buffer ready) with sleeps | ⟨returns, after⟩
  · exact ⟨_, sleeps, ready⟩
  · exact ⟨_, returns, buffer_ready after⟩

theorem call_defined (party : ServerParty) (call : SocketCall) (ready : party.table.Ready) :
    ∃ result, party.call call = some result ∧ result.1.table.Ready := by
  cases call with
  | accept =>
      refine ⟨_, rfl, ?_⟩
      simp only [mrtServerAccept]
      cases party.table.state <;> exact ready_of_same ready ⟨rfl, rfl, rfl⟩
  | recv length =>
      simp only [ServerParty.call, mrtServerRecv]
      cases party.table.state with
      | connected =>
          obtain ⟨turn, turned, after⟩ := recv_turn_ready party.table length party.sleeping ready
          simp only [turned]
          exact ⟨_, rfl, after⟩
      | closewait => exact ⟨_, rfl, ready⟩
      | listening => exact ⟨_, rfl, ready⟩
      | closed => exact ⟨_, rfl, ready⟩
  | recvTurn length =>
      obtain ⟨turn, turned, after⟩ := recv_turn_ready party.table length party.sleeping ready
      simp only [ServerParty.call, turned]
      exact ⟨_, rfl, after⟩
  | closewait =>
      simp only [ServerParty.call]
      split_ifs with waiting
      · exact ⟨_, rfl, ready.block, by simp [MiniOverlay.closewait, receiveBufSize]⟩
      · exact ⟨_, rfl, ready⟩

theorem data_received_ready (table : ServerTcb) (seg : Seg) (ready : table.Ready)
    (short : seg.header.length.toNat ≤ maxSegLen) :
    ∃ result, dataReceived table seg = some result ∧ result.1.Ready := by
  rcases data_received_cases table _ seg (ready_buffer ready) short with
    ⟨_, _, again⟩ | ⟨_, _, full⟩ | ⟨_, _, recvBuf, after, stored⟩
  · exact ⟨_, again, ready⟩
  · exact ⟨_, full, ready⟩
  · exact ⟨_, stored, buffer_ready after⟩

theorem handler_defined (table : ServerTcb) (sourceNodeID : Int32) (seg : Seg)
    (ready : table.Ready) (short : seg.header.length.toNat ≤ maxSegLen) :
    ∃ result, serverSeghandler table sourceNodeID seg = some result ∧ result.1.Ready := by
  rcases handler_buffer_cases table sourceNodeID seg with data | ⟨after, effects, step, same⟩
  · rw [data]
    exact data_received_ready table seg ready short
  · exact ⟨_, step, ready_of_same ready same⟩

theorem call_port {party after : ServerParty} {call : SocketCall} {outputs : List SocketOutput}
    (called : party.call call = some (after, outputs)) :
    after.table.svrPortNum = party.table.svrPortNum := by
  have returned (turn : RecvTurn) (length : UInt32)
      (turned : mrtServerRecvTurn party.table length = some turn) :
      (party.received turn).table.svrPortNum = party.table.svrPortNum := by
    rcases recv_turn_result turned with rfl | ⟨_, rfl⟩ <;> rfl
  cases call with
  | accept =>
      cases called
      simp only [mrtServerAccept]
      cases party.table.state <;> rfl
  | recv length =>
      obtain ⟨turn, turned, called⟩ := Option.bind_eq_some_iff.mp called
      cases called
      rcases recv_result turned with connected | rfl
      · exact returned turn length connected
      · rfl
  | recvTurn length =>
      obtain ⟨turn, turned, called⟩ := Option.bind_eq_some_iff.mp called
      cases called
      exact returned turn length turned
  | closewait =>
      simp only [ServerParty.call] at called
      split_ifs at called <;> cases called <;> rfl

theorem input_port {party after : ServerParty} {input : SocketInput} {outputs : List SocketOutput}
    (stepped : party.input input = some (after, outputs)) :
    after.table.svrPortNum = party.table.svrPortNum := by
  cases input with
  | call call => exact call_port stepped
  | segment sourceNodeID seg =>
      obtain ⟨result, handled, stepped⟩ := Option.bind_eq_some_iff.mp stepped
      cases stepped
      exact seghandler_port sourceNodeID seg handled

def ReadySlot (slot : Option ServerParty) : Prop := ∃ party, slot = some party ∧ party.table.Ready

def SocketInput.Fits : SocketInput → Prop
  | .call _ => True
  | .segment _ segmentBuffer => segmentBuffer.header.length.toNat ≤ maxSegLen

theorem slot_step_defined (slot : Option ServerParty) (input : SocketInput) (ready : ReadySlot slot)
    (fits : input.Fits) :
    ∃ next, slotStep slot input = some next ∧ ReadySlot next.1 := by
  obtain ⟨party, rfl, ready⟩ := ready
  have stepped : ∃ result, party.input input = some result ∧ result.1.table.Ready := by
    cases input with
    | call call => exact call_defined party call ready
    | segment sourceNodeID seg =>
        obtain ⟨result, handled, after⟩ :=
          handler_defined party.table sourceNodeID seg ready fits
        simp only [ServerParty.input, handled]
        exact ⟨_, rfl, after⟩
  obtain ⟨result, stepped, after⟩ := stepped
  simp only [slotStep, Option.bind_eq_bind, Option.bind_some, stepped]
  exact ⟨_, rfl, result.1, rfl, after⟩

def ServerSystem.slot (system : ServerSystem) (index : Fin maxTransportConnections) :
    Option ServerParty :=
  (system.tables index).map fun table => ⟨table, system.sleeping index⟩

def SystemEvent.route (tables : ServerTable) :
    SystemEvent → Option (Fin maxTransportConnections × SocketInput)
  | .call index action => some (index, .call action)
  | .segment sourceNodeID segmentBuffer =>
      (fetchServerTCB tables segmentBuffer.header.destPort).map fun index =>
        (index, .segment sourceNodeID segmentBuffer)

def SamePorts (tables after : ServerTable) : Prop :=
  ∀ index, (after index).map ServerTcb.svrPortNum = (tables index).map ServerTcb.svrPortNum

theorem route_same {tables after : ServerTable} (same : SamePorts tables after)
    (event : SystemEvent) : event.route after = event.route tables := by
  cases event with
  | call index call => rfl
  | segment sourceNodeID seg =>
      simp only [SystemEvent.route, fetchServerTCB, fetch_congr same]

theorem slot_update (tables : ServerTable) (sleeping : Fin maxTransportConnections → Nat)
    (index : Fin maxTransportConnections) (party : ServerParty) :
    (ServerSystem.mk (Function.update tables index (some party.table))
      (Function.update sleeping index party.sleeping)).slot =
        Function.update (ServerSystem.mk tables sleeping).slot index (some party) := by
  funext slot
  by_cases here : slot = index
  · subst here
    simp only [ServerSystem.slot, Function.update_self, Option.map_some]
  · simp only [ServerSystem.slot, Function.update_of_ne here]

theorem ports_update (tables : ServerTable) (index : Fin maxTransportConnections)
    (table after : ServerTcb) (held : tables index = some table)
    (port : after.svrPortNum = table.svrPortNum) :
    SamePorts tables (Function.update tables index (some after)) :=
  map_key_update tables index held port

theorem system_step (system : ServerSystem) (event : SystemEvent)
    (item : Fin maxTransportConnections × SocketInput)
    (slots : Fin maxTransportConnections → Option ServerParty)
    (outputs : List (Fin maxTransportConnections × SocketOutput))
    (routed : event.route system.tables = some item)
    (stepped : stepAt slotStep system.slot item = some (slots, outputs)) :
    ∃ after, system.step event = some (after, outputs) ∧ after.slot = slots ∧
      SamePorts system.tables after.tables := by
  obtain ⟨next, one, same⟩ := Option.map_eq_some_iff.mp stepped
  cases same
  obtain ⟨party, held, one⟩ := Option.bind_eq_some_iff.mp one
  obtain ⟨⟨result, marks⟩, input, one⟩ := Option.bind_eq_some_iff.mp one
  cases one
  obtain ⟨table, tableHeld, rfl⟩ := Option.map_eq_some_iff.mp held
  have port := input_port input
  cases event with
  | call index call =>
      cases routed
      refine ⟨_, ?_, slot_update system.tables system.sleeping index result,
        ports_update system.tables index table result.table tableHeld port⟩
      have called : ServerParty.call ⟨table, system.sleeping index⟩ call = some (result, marks) :=
        input
      simp only [ServerSystem.step, tableHeld, Option.bind_eq_bind, Option.bind_some, called]
      rfl
  | segment sourceNodeID seg =>
      obtain ⟨index, found, same⟩ := Option.map_eq_some_iff.mp routed
      cases same
      obtain ⟨handled, run, same⟩ := Option.bind_eq_some_iff.mp input
      cases same
      refine ⟨_, ?_, slot_update system.tables system.sleeping index
          ⟨handled.1, system.sleeping index + closewaitsStarted handled.2⟩,
        ports_update system.tables index table handled.1 tableHeld port⟩
      have run' : serverSeghandler table sourceNodeID seg = some handled := run
      have turn := turn_with_socket system.tables sourceNodeID seg index table found tableHeld
      rw [run'] at turn
      simp only [ServerSystem.step, found, Option.bind_eq_bind, Option.bind_some, turn,
        Option.map_some, List.map_map]
      rfl

theorem system_run (events : List SystemEvent) (system : ServerSystem)
    (slots : Fin maxTransportConnections → Option ServerParty)
    (outputs : List (Fin maxTransportConnections × SocketOutput))
    (routed : ∀ event ∈ events, ∃ item, event.route system.tables = some item)
    (ran : RoutedEvents.run slotStep system.slot (events.filterMap (·.route system.tables)) =
      some (slots, outputs)) :
    ∃ after, system.run events = some (after, outputs) ∧ after.slot = slots := by
  induction events generalizing system slots outputs with
  | nil =>
      cases ran
      exact ⟨system, rfl, rfl⟩
  | cons event events ih =>
      obtain ⟨item, route⟩ := routed event (by simp)
      rw [List.filterMap_cons_some route] at ran
      obtain ⟨⟨next, first⟩, stepped, ran⟩ := Option.bind_eq_some_iff.mp ran
      obtain ⟨⟨last, rest⟩, later, ran⟩ := Option.bind_eq_some_iff.mp ran
      cases ran
      obtain ⟨middle, step, rfl, ports⟩ := system_step system event item next first route stepped
      have sameRoutes : ∀ event : SystemEvent,
          event.route middle.tables = event.route system.tables := route_same ports
      obtain ⟨after, run, sameSlots⟩ := ih middle last rest
        (fun other member => by
          rw [sameRoutes]
          exact routed other (by simp [member]))
        (by simpa only [sameRoutes] using later)
      refine ⟨after, ?_, sameSlots⟩
      rw [ServerSystem.run, step]
      simp only [Option.bind_eq_bind, Option.bind_some, run]
      rfl

theorem concerns_iff {tables : ServerTable}
    (distinct : DistinctKeys ServerTcb.svrPortNum tables) (slot : Fin maxTransportConnections)
    {event : SystemEvent} {item : Fin maxTransportConnections × SocketInput}
    (routed : event.route tables = some item) :
    event.Concerns tables slot ↔ item.1 = slot := by
  cases event with
  | call index call =>
      cases routed
      exact Iff.rfl
  | segment sourceNodeID seg =>
      obtain ⟨index, found, same⟩ := Option.map_eq_some_iff.mp routed
      cases same
      have fetched := fetch_eq_some_iff distinct seg.header.destPort slot
      rw [SystemEvent.Concerns, ← fetched]
      rw [fetchServerTCB] at found
      rw [found, Option.some.injEq]

theorem concerning_routes {tables : ServerTable}
    (distinct : DistinctKeys ServerTcb.svrPortNum tables) (slot : Fin maxTransportConnections)
    (events : List SystemEvent)
    (routed : ∀ event ∈ events, ∃ item, event.route tables = some item) :
    (events.filter (·.Concerns tables slot)).filterMap (·.route tables) =
      (events.filterMap (·.route tables)).filter fun item => item.1 = slot := by
  induction events with
  | nil => rfl
  | cons event events ih =>
      obtain ⟨item, route⟩ := routed event (by simp)
      have tail := ih fun other member => routed other (by simp [member])
      have here := concerns_iff distinct slot route
      rw [List.filterMap_cons_some route]
      by_cases concerned : item.1 = slot
      · rw [List.filter_cons_of_pos (by simpa using here.mpr concerned),
          List.filterMap_cons_some route, List.filter_cons_of_pos (by simpa using concerned), tail]
      · rw [List.filter_cons_of_neg (by simpa using fun own => concerned (here.mp own)),
          List.filter_cons_of_neg (by simpa using concerned), tail]

theorem fits_routed {tables : ServerTable} {event : SystemEvent} (fits : event.Fits tables) :
    ∃ item, event.route tables = some item ∧ (tables item.1).isSome ∧ item.2.Fits := by
  cases event with
  | call index call => exact ⟨_, rfl, fits, trivial⟩
  | segment sourceNodeID seg =>
      obtain ⟨isOpen, short⟩ := fits
      obtain ⟨index, found⟩ := Option.isSome_iff_exists.mp isOpen
      obtain ⟨table, held, _⟩ := fetched_table found
      refine ⟨(index, .segment sourceNodeID seg), ?_, ?_, short⟩
      · rw [SystemEvent.route, found]
        rfl
      · rw [held]
        rfl

theorem slot_table (system : ServerSystem) (index : Fin maxTransportConnections) :
    (system.slot index).map ServerParty.table = system.tables index := by
  rw [ServerSystem.slot, Option.map_map]
  exact Option.map_id'

theorem routed_inputs_run (system : ServerSystem) (events : List SystemEvent)
    (ready : ∀ index table, system.tables index = some table → table.Ready)
    (fits : ∀ event ∈ events, event.Fits system.tables) (index : Fin maxTransportConnections) :
    ∃ result, runOne slotStep (system.slot index)
      (own index (events.filterMap (·.route system.tables))) = some result := by
  have inputs : ∀ input ∈ own index (events.filterMap (·.route system.tables)),
      (system.tables index).isSome ∧ input.Fits := by
    intro input member
    obtain ⟨event, occurs, route⟩ := List.mem_filterMap.mp ((mem_own_iff _ _ _).mp member)
    obtain ⟨item, route', isOpen, fits⟩ := fits_routed (fits event occurs)
    rw [route] at route'
    cases route'
    exact ⟨isOpen, fits⟩
  cases held : system.tables index with
  | none =>
      have nothing : own index (events.filterMap (·.route system.tables)) = [] := by
        apply List.eq_nil_iff_forall_not_mem.mpr
        intro input member
        have isOpen := (inputs input member).1
        rw [held] at isOpen
        cases isOpen
      rw [nothing]
      exact ⟨_, rfl⟩
  | some table =>
      apply run_one_defined slotStep ReadySlot SocketInput.Fits slot_step_defined
      · exact fun input member => (inputs input member).2
      · refine ⟨⟨table, system.sleeping index⟩, ?_, ready index table held⟩
        rw [ServerSystem.slot, held]
        rfl

/-- For sockets with different ports every interleaving has a result, and what it
does to one socket and returns and sends for it is what the events that concern this
socket do alone. -/
theorem sockets_isolated (system : ServerSystem) (events : List SystemEvent)
    (slot : Fin maxTransportConnections)
    (distinct : DistinctKeys ServerTcb.svrPortNum system.tables)
    (ready : ∀ index table, system.tables index = some table → table.Ready)
    (fits : ∀ event ∈ events, event.Fits system.tables) :
    ∃ last outputs alone outputsAlone, system.run events = some (last, outputs) ∧
      system.run (events.filter (·.Concerns system.tables slot)) = some (alone, outputsAlone) ∧
      alone.tables slot = last.tables slot ∧ own slot outputsAlone = own slot outputs := by
  have routed : ∀ event ∈ events, ∃ item, event.route system.tables = some item := by
    intro event member
    obtain ⟨item, route, _⟩ := fits_routed (fits event member)
    exact ⟨item, route⟩
  obtain ⟨⟨slots, outputs⟩, ran⟩ := run_defined slotStep _ system.slot
    (routed_inputs_run system events ready fits)
  obtain ⟨slotsAlone, outputsAlone, ranAlone, sameSlot, sameOutputs⟩ :=
    run_alone slotStep _ system.slot slots outputs ran slot
  obtain ⟨last, run, lastSlots⟩ := system_run events system slots outputs routed ran
  rw [← concerning_routes distinct slot events routed] at ranAlone
  obtain ⟨alone, runAlone, aloneSlots⟩ := system_run _ system slotsAlone outputsAlone
    (fun event member => routed event (List.mem_of_mem_filter member)) ranAlone
  refine ⟨last, outputs, alone, outputsAlone, run, runAlone, ?_, sameOutputs⟩
  rw [← slot_table, ← slot_table, aloneSlots, lastSlots, sameSlot]

def closedSocket (port : UInt32) : ServerTcb :=
  { svrNodeID := 1, svrPortNum := port, clientNodeID := 0, clientPortNum := 0, state := .closed,
    expectSeqNum := 0, recvBuf := List.replicate receiveBufSize 0, usedBufLen := 0 }

theorem closed_socket_ready (port : UInt32) : (closedSocket port).Ready :=
  ⟨List.length_replicate, by change 0 < receiveBufSize; decide⟩

def twoSockets : ServerSystem where
  tables index :=
    if index = firstSlot then some (closedSocket 200)
    else if index = secondSlot then some (closedSocket 300) else none
  sleeping _ := 0

def synTo (destPort : UInt32) : Seg :=
  { Seg.cleared with
    header := { MrtHdr.cleared with type := SegType.syn, srcPort := 100, destPort := destPort } }

theorem two_sockets_distinct : DistinctKeys ServerTcb.svrPortNum twoSockets.tables :=
  pair_distinct ServerTcb.svrPortNum firstSlot secondSlot (by decide)

theorem two_sockets_isolated :
    let events : List SystemEvent :=
      [.call firstSlot .accept, .call secondSlot .accept, .segment 2 (synTo 300),
        .segment 3 (synTo 200)]
    ∃ last outputs alone outputsAlone, twoSockets.run events = some (last, outputs) ∧
      twoSockets.run (events.filter (·.Concerns twoSockets.tables firstSlot)) =
        some (alone, outputsAlone) ∧
      alone.tables firstSlot = last.tables firstSlot ∧
        own firstSlot outputsAlone = own firstSlot outputs := by
  intro events
  apply sockets_isolated twoSockets events firstSlot two_sockets_distinct
  · intro index table held
    simp only [twoSockets] at held
    split_ifs at held <;> cases held <;> exact closed_socket_ready _
  · intro event member
    simp only [events, List.mem_cons, List.not_mem_nil, or_false] at member
    rcases member with rfl | rfl | rfl | rfl
    · rfl
    · rfl
    · exact ⟨by decide, by decide⟩
    · exact ⟨by decide, by decide⟩

end MiniOverlay
