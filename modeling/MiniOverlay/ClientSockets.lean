import MiniOverlay.LinkedBuffer
import MiniOverlay.ServerSockets

/-!
# The sockets of one client

`p_client_tcb_table` of `client/mrt_client.c`, the calls on it and the loop of its
`seghandler`. The handler skips a segment for a port without a TCB, so whether it
follows only good pointers depends on the TCB of the port alone.
-/

namespace MiniOverlay

open LinkedHeap SlotTable

set_option autoImplicit false

abbrev ClientTable := Table Party maxTransportConnections

def Party.portNum (party : Party) : UInt32 := party.client.tcb.clientPortNum

/-- The first empty slot. The test for a slot with the wanted port only continues. -/
def createTCBTable (tables : ClientTable) : Option (Fin maxTransportConnections) :=
  (List.finRange maxTransportConnections).find? fun index => (tables index).isNone

def fetchClientTCB (tables : ClientTable) (clientPort : UInt32) :
    Option (Fin maxTransportConnections) :=
  fetch Party.portNum tables clientPort

/-- `mrt_client_sock` on the table; `svrPortNum` is what `malloc` left in the field. -/
def mrtClientSockTurn (tables : ClientTable) (myNodeID : Int32) (clientPort svrPortNum : UInt32) :
    ClientTable × Int :=
  match createTCBTable tables with
  | some socketFd =>
      (Function.update tables socketFd (some (newSocket myNodeID clientPort svrPortNum)), socketFd)
  | none => (tables, -1)

/-- `mrt_client_close`, called when no other call on the socket is under way. -/
def mrtClientClose (tables : ClientTable) (sockfd : Fin maxTransportConnections) :
    Option (ClientTable × Int) := do
  let party ← tables sockfd
  match party.client.tcb.state with
  | .closed => return (Function.update tables sockfd none, 1)
  | .connected => return (tables, -1)
  | .synsent => return (tables, -1)
  | .finwait => return (tables, -1)

/-- What one turn of the loop of `seghandler` does with a received segment. -/
def clientSeghandlerTurn (now : Nat → Timeval) (tables : ClientTable) (sourceNodeID : Int32)
    (segmentBuffer : Seg) : Option (ClientTable × List ClientEffect) :=
  match fetchClientTCB tables segmentBuffer.header.destPort with
  | none => some (tables, [])
  | some index => do
      let party ← tables index
      let result ← clientSeghandler now party.client sourceNodeID segmentBuffer
      return (Function.update tables index (some ⟨result.1, party.caller⟩), result.2)

/-- A call on the socket, or a wait or a timer of one. `mrt_client_connect` and
`mrt_client_send` test the pointer in the slot, the others follow it. -/
def callTurn (tables : ClientTable) (sockfd : Fin maxTransportConnections) :
    PartyEvent → Option (ClientTable × List ClientEffect)
  | .segment _ _ _ => none
  | event =>
      match tables sockfd with
      | some party => do
          let result ← party.callStep event
          return (Function.update tables sockfd (some result.1), result.2)
      | none =>
          match event with
          | .connect _ _ => some (tables, [])
          | .send _ _ => some (tables, [])
          | _ => none

inductive ClientEvent where
  | sock (clientPort svrPortNum : UInt32)
  | call (sockfd : Fin maxTransportConnections) (event : PartyEvent)
  | close (sockfd : Fin maxTransportConnections)
  | segment (now : Nat → Timeval) (sourceNodeID : Int32) (segmentBuffer : Seg)

/-- One event; `none` when it cannot happen now or behaviour is undefined. -/
def clientTableStep (myNodeID : Int32) (tables : ClientTable) :
    ClientEvent → Option (ClientTable × List ClientEffect)
  | .sock clientPort svrPortNum =>
      some ((mrtClientSockTurn tables myNodeID clientPort svrPortNum).1, [])
  | .call sockfd event => callTurn tables sockfd event
  | .close sockfd => (mrtClientClose tables sockfd).map fun result => (result.1, [])
  | .segment now sourceNodeID segmentBuffer =>
      clientSeghandlerTurn now tables sourceNodeID segmentBuffer

/-- The tables of a client after `mrt_client_init` and any events. -/
inductive TableReached (myNodeID : Int32) : ClientTable → Prop where
  | init : TableReached myNodeID fun _ => none
  | step {tables next : ClientTable} (event : ClientEvent) (effects : List ClientEffect)
      (before : TableReached myNodeID tables)
      (stepped : clientTableStep myNodeID tables event = some (next, effects)) :
      TableReached myNodeID next

def TableLinked (tables : ClientTable) : Prop :=
  ∀ index party, tables index = some party → LinkedClient party.client

theorem linked_update {tables : ClientTable} (linked : TableLinked tables)
    (index : Fin maxTransportConnections) {party : Party} (added : LinkedClient party.client) :
    TableLinked (Function.update tables index (some party)) := by
  intro slot other held
  by_cases here : slot = index
  · rw [here, Function.update_self] at held
    cases held
    exact added
  · rw [Function.update_of_ne here] at held
    exact linked slot other held

theorem linked_remove {tables : ClientTable} (linked : TableLinked tables)
    (index : Fin maxTransportConnections) : TableLinked (Function.update tables index none) := by
  intro slot other held
  by_cases here : slot = index
  · rw [here, Function.update_self] at held
    cases held
  · rw [Function.update_of_ne here] at held
    exact linked slot other held

theorem sock_linked {tables : ClientTable} (linked : TableLinked tables) (myNodeID : Int32)
    (clientPort svrPortNum : UInt32) :
    TableLinked (mrtClientSockTurn tables myNodeID clientPort svrPortNum).1 := by
  unfold mrtClientSockTurn
  cases createTCBTable tables with
  | none => exact linked
  | some socketFd =>
      exact linked_update linked socketFd ⟨[], linked_fresh ⟨rfl, rfl, rfl, rfl, rfl⟩⟩

theorem close_linked {tables : ClientTable} (linked : TableLinked tables)
    (sockfd : Fin maxTransportConnections) {result : ClientTable × Int}
    (closes : mrtClientClose tables sockfd = some result) : TableLinked result.1 := by
  obtain ⟨party, _, closes⟩ := Option.bind_eq_some_iff.mp closes
  cases state : party.client.tcb.state <;> rw [state] at closes <;> cases closes
  case closed => exact linked_remove linked sockfd
  all_goals exact linked

theorem call_turn_cases {tables : ClientTable} {sockfd : Fin maxTransportConnections}
    {event : PartyEvent} {result : ClientTable × List ClientEffect}
    (called : callTurn tables sockfd event = some result) :
    (∀ now sourceNodeID seg, event ≠ .segment now sourceNodeID seg) ∧
      (result = (tables, []) ∨ ∃ party next, tables sockfd = some party ∧
        party.callStep event = some next ∧
          result = (Function.update tables sockfd (some next.1), next.2)) := by
  have isCall : ∀ now sourceNodeID seg, event ≠ .segment now sourceNodeID seg := by
    rintro now sourceNodeID seg rfl
    cases called
  refine ⟨isCall, ?_⟩
  cases held : tables sockfd with
  | none =>
      cases event <;> simp only [callTurn, held] at called <;> cases called <;> exact Or.inl rfl
  | some party =>
      have stepped : ∃ next, party.callStep event = some next ∧
          result = (Function.update tables sockfd (some next.1), next.2) := by
        cases event <;> simp only [callTurn, held] at called <;>
          first
          | cases called
          | obtain ⟨next, stepped, called⟩ := Option.bind_eq_some_iff.mp called
            exact ⟨next, stepped, (Option.some.inj called).symm⟩
      obtain ⟨next, stepped, same⟩ := stepped
      exact Or.inr ⟨party, next, rfl, stepped, same⟩

theorem call_linked {tables : ClientTable} (linked : TableLinked tables)
    (sockfd : Fin maxTransportConnections) (event : PartyEvent)
    {result : ClientTable × List ClientEffect}
    (called : callTurn tables sockfd event = some result) : TableLinked result.1 := by
  obtain ⟨isCall, rfl | ⟨party, next, held, stepped, rfl⟩⟩ := call_turn_cases called
  · exact linked
  · exact linked_update linked sockfd
      (calls_keep_linked.step (linked sockfd party held)
        (fun now sourceNodeID seg _ _ same => absurd same (isCall now sourceNodeID seg)) stepped)

theorem turn_cases {tables : ClientTable} {now : Nat → Timeval} {sourceNodeID : Int32} {seg : Seg}
    {result : ClientTable × List ClientEffect}
    (turned : clientSeghandlerTurn now tables sourceNodeID seg = some result) :
    result = (tables, []) ∨ ∃ index party after, tables index = some party ∧
      clientSeghandler now party.client sourceNodeID seg = some after ∧
        result = (Function.update tables index (some ⟨after.1, party.caller⟩), after.2) := by
  unfold clientSeghandlerTurn at turned
  cases found : fetchClientTCB tables seg.header.destPort with
  | none =>
      rw [found] at turned
      cases turned
      exact Or.inl rfl
  | some index =>
      rw [found] at turned
      obtain ⟨party, held, turned⟩ := Option.bind_eq_some_iff.mp turned
      obtain ⟨after, handled, turned⟩ := Option.bind_eq_some_iff.mp turned
      exact Or.inr ⟨index, party, after, held, handled, (Option.some.inj turned).symm⟩

theorem turn_linked {tables : ClientTable} (linked : TableLinked tables) (now : Nat → Timeval)
    (sourceNodeID : Int32) (seg : Seg) {result : ClientTable × List ClientEffect}
    (turned : clientSeghandlerTurn now tables sourceNodeID seg = some result) :
    TableLinked result.1 := by
  rcases turn_cases turned with rfl | ⟨index, party, after, held, handled, rfl⟩
  · exact linked
  · exact linked_update linked index (segment_linked (linked index party held) handled)

theorem step_linked {tables next : ClientTable} (linked : TableLinked tables) {myNodeID : Int32}
    {event : ClientEvent} {effects : List ClientEffect}
    (stepped : clientTableStep myNodeID tables event = some (next, effects)) :
    TableLinked next := by
  cases event with
  | sock clientPort svrPortNum =>
      cases stepped
      exact sock_linked linked myNodeID clientPort svrPortNum
  | call sockfd event => exact call_linked linked sockfd event stepped
  | close sockfd =>
      obtain ⟨result, closes, same⟩ := Option.map_eq_some_iff.mp stepped
      cases same
      exact close_linked linked sockfd closes
  | segment now sourceNodeID seg => exact turn_linked linked now sourceNodeID seg stepped

theorem reached_linked {myNodeID : Int32} {tables : ClientTable}
    (reached : TableReached myNodeID tables) : TableLinked tables := by
  induction reached with
  | init =>
      intro index party held
      cases held
  | step event effects before stepped linked => exact step_linked linked stepped

def SafeTurn (tables : ClientTable) (sourceNodeID : Int32) (seg : Seg) : Prop :=
  ∀ index party, fetchClientTCB tables seg.header.destPort = some index →
    tables index = some party → SafeFor party.client sourceNodeID seg

/-- Whatever the calls, the timers and the segments before it, the handler follows
only pointers to TCBs and cells that exist exactly when the TCB of the port is safe for
the segment. -/
theorem seghandler_safe_iff (myNodeID : Int32) (tables : ClientTable)
    (reached : TableReached myNodeID tables) (now : Nat → Timeval) (sourceNodeID : Int32)
    (seg : Seg) :
    (∃ result, clientSeghandlerTurn now tables sourceNodeID seg = some result) ↔
      SafeTurn tables sourceNodeID seg := by
  have linked := reached_linked reached
  unfold clientSeghandlerTurn SafeTurn
  cases found : fetchClientTCB tables seg.header.destPort with
  | none => exact iff_of_true ⟨_, rfl⟩ fun _ _ absent => by cases absent
  | some index =>
      obtain ⟨party, held, _⟩ := fetch_entry found
      have handler := handler_defined_iff now (linked index party held) sourceNodeID seg
      constructor
      · rintro ⟨result, turned⟩ other there same holds
        obtain rfl := Option.some.inj same
        obtain rfl := Option.some.inj (held.symm.trans holds)
        obtain ⟨_, isHeld, turned⟩ := Option.bind_eq_some_iff.mp turned
        obtain rfl := Option.some.inj (held.symm.trans isHeld)
        obtain ⟨after, handled, _⟩ := Option.bind_eq_some_iff.mp turned
        exact handler.mp ⟨after, handled⟩
      · intro safe
        obtain ⟨after, handled⟩ := handler.mpr (safe index party rfl held)
        simp only [held, Option.bind_eq_bind, Option.bind_some, handled]
        exact ⟨_, rfl⟩

def noTime : Nat → Timeval := fun _ => ⟨0, 0⟩

def tableRun (myNodeID : Int32) : List ClientEvent → ClientTable → Option ClientTable
  | [], tables => some tables
  | event :: events, tables => do
      let result ← clientTableStep myNodeID tables event
      tableRun myNodeID events result.1

theorem run_reached {myNodeID : Int32} (events : List ClientEvent) {tables last : ClientTable}
    (reached : TableReached myNodeID tables) (run : tableRun myNodeID events tables = some last) :
    TableReached myNodeID last := by
  induction events generalizing tables with
  | nil =>
      cases run
      exact reached
  | cons event events ih =>
      obtain ⟨⟨next, effects⟩, stepped, run⟩ := Option.bind_eq_some_iff.mp run
      exact ih (.step event effects reached stepped) run

def connectingEvents : List ClientEvent :=
  [.sock 100 0, .call firstSlot (.connect 2 200)]

def resentEvents : List ClientEvent :=
  connectingEvents ++ [.call firstSlot .connectWake, .segment noTime 2 serverSynack]

theorem first_synack_safe :
    ∃ tables, tableRun 1 connectingEvents (fun _ => none) = some tables ∧
      ∃ result, clientSeghandlerTurn noTime tables 2 serverSynack = some result := by
  let tables : ClientTable := Function.update
    (Function.update (fun _ => none) firstSlot (some (newSocket 1 100 0))) firstSlot
    (some ⟨⟨[], { (mrtClientSock 1 100 200).tcb with svrNodeID := 2, state := .synsent }⟩,
      .connecting ((mrtClientSock 1 100 200).tcb.newSeg SegType.syn 0 [])⟩)
  have run : tableRun 1 connectingEvents (fun _ => none) = some tables := rfl
  refine ⟨tables, run, ?_⟩
  apply (seghandler_safe_iff 1 tables (run_reached _ .init run) noTime 2 serverSynack).mpr
  rintro index party found held
  obtain rfl : firstSlot = index := Option.some.inj found
  cases held
  refine ⟨?_, ?_, ?_⟩
  · intro prints
    cases prints.connected
  · intro reaches
    cases reaches.connected
  · intro reaches
    cases reaches.connected

theorem second_synack_reads_null :
    ¬ ∀ (myNodeID : Int32) (tables : ClientTable), TableReached myNodeID tables →
      ∀ (now : Nat → Timeval) (sourceNodeID : Int32) (seg : Seg),
        ∃ result, clientSeghandlerTurn now tables sourceNodeID seg = some result := by
  intro safe
  obtain ⟨tables, run, stuck⟩ : ∃ tables,
      tableRun 1 resentEvents (fun _ => none) = some tables ∧
        clientSeghandlerTurn noTime tables 2 serverSynack = none := ⟨_, rfl, rfl⟩
  obtain ⟨result, handled⟩ := safe 1 tables (run_reached _ .init run) noTime 2 serverSynack
  rw [stuck] at handled
  cases handled

end MiniOverlay
