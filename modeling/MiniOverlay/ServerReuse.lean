import MiniOverlay.PartialRuns
import MiniOverlay.ServerSockets
import MiniOverlay.SocketAllocation

/-!
# Opening and closing server sockets

`p_server_tcb_table` with `mrt_server_close`, which frees a TCB and clears only its local
copy of the pointer: the slot keeps an address that must not be followed any more. A call
that would follow it has no result.
-/

namespace MiniOverlay

open FixedByteCodec PartialRuns SlotTable

set_option autoImplicit false

/-- An entry of `p_server_tcb_table`: `NULL`, the address of a TCB or that of a freed one. -/
inductive ServerSlot where
  | null
  | tcb (table : ServerTcb)
  | freed
  deriving DecidableEq

abbrev ServerSlots := Fin maxTransportConnections → ServerSlot

def mrtServerInit : ServerSlots := fun _ => .null

/-- `create_TCB_table`: the first slot that is `NULL`. -/
def ServerSlots.createTCBTable (slots : ServerSlots) : Option (Fin maxTransportConnections) :=
  (List.finRange maxTransportConnections).find? fun index => slots index = .null

/-- The loop of `fetch_server_TCB` over the slots that are left. -/
def ServerSlots.fetchFrom (slots : ServerSlots) (serverPort : UInt32) :
    List (Fin maxTransportConnections) → Option (Option (Fin maxTransportConnections))
  | [] => some none
  | index :: indices =>
      match slots index with
      | .null => slots.fetchFrom serverPort indices
      | .tcb table =>
          if table.svrPortNum = serverPort then some (some index)
          else slots.fetchFrom serverPort indices
      | .freed => none

def ServerSlots.fetchServerTCB (slots : ServerSlots) (serverPort : UInt32) :
    Option (Option (Fin maxTransportConnections)) :=
  slots.fetchFrom serverPort (List.finRange maxTransportConnections)

/-- `mrt_server_sock`. The last four arguments are what the new blocks held before. -/
def mrtServerSockTurn (slots : ServerSlots) (myNodeID : Int32) (port : UInt32)
    (clientNodeID clientPortNum expectSeqNum : UInt32) (recvBuf : Vector Byte 4) :
    ServerSlots × Int :=
  match slots.createTCBTable with
  | none => (slots, -1)
  | some serverSocket =>
      (Function.update slots serverSocket
        (.tcb (mrtServerSock myNodeID port clientNodeID clientPortNum expectSeqNum recvBuf)),
        (serverSocket : Nat))

/-- `mrt_server_close`. The two stores into the freed TCB change no other object. -/
def mrtServerClose (slots : ServerSlots) (sockfd : Int) : Option (ServerSlots × Int) :=
  if sockfd < 0 then some (slots, -1)
  else if range : sockfd.toNat < maxTransportConnections then
    match slots ⟨sockfd.toNat, range⟩ with
    | .null => none
    | .freed => none
    | .tcb table =>
        match table.state with
        | .closed => some (Function.update slots ⟨sockfd.toNat, range⟩ .freed, 1)
        | .listening => some (slots, -1)
        | .connected => some (slots, -1)
        | .closewait => some (slots, -1)
  else none

/-- What happens to the table: the two calls, and any change of a TCB by others. -/
inductive ReuseEvent where
  | sock (port clientNodeID clientPortNum expectSeqNum : UInt32) (recvBuf : Vector Byte 4)
  | close (sockfd : Int)
  | change (index : Fin maxTransportConnections) (table : ServerTcb)

/-- The table and the sockets that are open by the return values of the calls. -/
structure ReuseState where
  slots : ServerSlots
  sockets : OpenSockets

def ReuseState.init : ReuseState := ⟨mrtServerInit, fun _ => none⟩

def ReuseState.step (myNodeID : Int32) (state : ReuseState) : ReuseEvent → Option ReuseState
  | .sock port clientNodeID clientPortNum expectSeqNum recvBuf =>
      let result := mrtServerSockTurn state.slots myNodeID port clientNodeID clientPortNum
        expectSeqNum recvBuf
      some ⟨result.1, state.sockets.opened port result.2⟩
  | .close sockfd => do
      let result ← mrtServerClose state.slots sockfd
      return ⟨result.1, state.sockets.closed sockfd result.2⟩
  | .change index table =>
      match state.slots index with
      | .tcb _ => some { state with slots := Function.update state.slots index (.tcb table) }
      | .null => none
      | .freed => none

/-- A slot that was given back: it is `NULL` and `fetch_server_TCB` does not return it. -/
structure GivenBack (slots : ServerSlots) (index : Fin maxTransportConnections) : Prop where
  null : slots index = .null
  gone : ∀ serverPort, ∃ found, slots.fetchServerTCB serverPort = some found ∧ found ≠ some index

/-- A socket that is closed gives its slot back, and `mrt_server_sock` fails only when all
sockets are open. -/
def ReuseEvent.Reuses (myNodeID : Int32) (state : ReuseState) : ReuseEvent → Prop
  | .sock port clientNodeID clientPortNum expectSeqNum recvBuf =>
      (mrtServerSockTurn state.slots myNodeID port clientNodeID clientPortNum expectSeqNum
        recvBuf).2 = -1 → state.sockets.count = maxTransportConnections
  | .close sockfd =>
      ∀ slots, ∀ index : Fin maxTransportConnections, sockfd = (index : Nat) →
        mrtServerClose state.slots sockfd = some (slots, 1) → GivenBack slots index
  | .change _ _ => True

def ReuseEvent.NotClosed (state : ReuseState) : ReuseEvent → Prop
  | .sock _ _ _ _ _ => True
  | .close sockfd =>
      ∀ index : Fin maxTransportConnections, sockfd = (index : Nat) →
        ∀ table, state.slots index = .tcb table → table.state ≠ .closed
  | .change _ _ => True

/-- No slot holds a freed address, and the open sockets are the slots that are not `NULL`. -/
structure Agrees (state : ReuseState) : Prop where
  live : ∀ index, state.slots index ≠ .freed
  open_iff : ∀ index, state.slots index = .null ↔ state.sockets index = none

theorem init_agrees : Agrees .init where
  live _ := by
    intro freed
    cases freed
  open_iff _ := iff_of_true rfl rfl

/-- `mrt_server_close` frees a TCB in CLOSED, fails otherwise, or is undefined. -/
theorem server_close_cases {slots : ServerSlots} {sockfd : Int} {result : ServerSlots × Int}
    (closes : mrtServerClose slots sockfd = some result) :
    result = (slots, -1) ∨
      ∃ index table, sockfd = ((index : Fin maxTransportConnections) : Nat) ∧
        slots index = .tcb table ∧ table.state = .closed ∧
          result = (Function.update slots index .freed, 1) := by
  unfold mrtServerClose at closes
  split_ifs at closes with negative range
  · exact Or.inl (Option.some.inj closes).symm
  · cases held : slots ⟨sockfd.toNat, range⟩ with
    | null =>
        rw [held] at closes
        cases closes
    | freed =>
        rw [held] at closes
        cases closes
    | tcb table =>
        simp only [held] at closes
        cases state : table.state with
        | closed =>
            simp only [state] at closes
            have number : sockfd = (sockfd.toNat : Int) := by omega
            exact Or.inr ⟨_, table, number, held, state, (Option.some.inj closes).symm⟩
        | _ =>
            simp only [state] at closes
            exact Or.inl (Option.some.inj closes).symm

theorem server_close_closed {slots : ServerSlots} {index : Fin maxTransportConnections}
    {table : ServerTcb} (held : slots index = .tcb table) (closed : table.state = .closed) :
    mrtServerClose slots (index : Nat) = some (Function.update slots index .freed, 1) := by
  have notNegative : ¬ ((index : Nat) : Int) < 0 := by omega
  unfold mrtServerClose
  rw [if_neg notNegative]
  simp only [Int.toNat_natCast, index.isLt, dite_true, Fin.eta, held, closed]

theorem freed_not_given_back (slots : ServerSlots) (index : Fin maxTransportConnections) :
    ¬ GivenBack (Function.update slots index .freed) index := by
  intro given
  have null := given.null
  rw [Function.update_self] at null
  cases null

theorem sock_full {slots : ServerSlots} {myNodeID : Int32} {port : UInt32}
    {clientNodeID clientPortNum expectSeqNum : UInt32} {recvBuf : Vector Byte 4}
    (failed : (mrtServerSockTurn slots myNodeID port clientNodeID clientPortNum expectSeqNum
      recvBuf).2 = -1) (index : Fin maxTransportConnections) : slots index ≠ .null := by
  unfold mrtServerSockTurn at failed
  cases found : slots.createTCBTable with
  | none => simpa using List.find?_eq_none.mp found index (List.mem_finRange index)
  | some serverSocket =>
      simp only [found] at failed
      omega

theorem reuses_iff (myNodeID : Int32) (state : ReuseState) (event : ReuseEvent)
    (agrees : Agrees state) : event.Reuses myNodeID state ↔ event.NotClosed state := by
  cases event with
  | sock port clientNodeID clientPortNum expectSeqNum recvBuf =>
      refine iff_of_true (fun failed => ?_) trivial
      refine (count_full_iff state.sockets).mpr fun index empty => ?_
      exact sock_full failed index ((agrees.open_iff index).mpr empty)
  | close sockfd =>
      constructor
      · intro reuses index number table held closed
        subst number
        exact freed_not_given_back _ _ (reuses _ index rfl (server_close_closed held closed))
      · intro notClosed slots index _ closes
        rcases server_close_cases closes with failed | ⟨other, table, number, held, closed, _⟩
        · cases failed
        · exact absurd closed (notClosed other number table held)
  | change index table => exact Iff.rfl

theorem step_agrees {myNodeID : Int32} {state next : ReuseState} {event : ReuseEvent}
    (agrees : Agrees state) (notClosed : event.NotClosed state)
    (stepped : state.step myNodeID event = some next) : Agrees next := by
  cases event with
  | sock port clientNodeID clientPortNum expectSeqNum recvBuf =>
      cases stepped
      unfold mrtServerSockTurn
      cases state.slots.createTCBTable with
      | none =>
          rw [opened_failed]
          exact agrees
      | some serverSocket =>
          rw [opened_at]
          refine ⟨fun index => ?_, fun index => ?_⟩ <;> by_cases here : index = serverSocket
          · simp [here]
          · simpa [here] using agrees.live index
          · simp [here]
          · simpa [here] using agrees.open_iff index
  | close sockfd =>
      obtain ⟨result, closes, same⟩ := Option.bind_eq_some_iff.mp stepped
      cases same
      rcases server_close_cases closes with rfl | ⟨index, table, number, held, closed, _⟩
      · have failed : (-1 : Int) ≠ 1 := by decide
        rw [closed_failed state.sockets sockfd failed]
        exact agrees
      · exact absurd closed (notClosed index number table held)
  | change index table =>
      simp only [ReuseState.step] at stepped
      cases held : state.slots index with
      | null => simp [held] at stepped
      | freed => simp [held] at stepped
      | tcb before =>
          simp only [held] at stepped
          cases stepped
          refine ⟨fun other => ?_, fun other => ?_⟩ <;> by_cases here : other = index
          · simp [here]
          · simpa [here] using agrees.live other
          · simpa [here, held] using agrees.open_iff index
          · simpa [here] using agrees.open_iff other

/-- From `mrt_server_init` on, sockets can be used again throughout a run exactly when none
of them is closed in it. -/
theorem server_sockets_reused_iff (myNodeID : Int32) (events : List ReuseEvent) :
    Throughout (ReuseState.step myNodeID) (fun state event => event.Reuses myNodeID state)
        .init events ↔
      Throughout (ReuseState.step myNodeID) (fun state event => event.NotClosed state)
        .init events :=
  throughout_agree _ Agrees _ _ (reuses_iff myNodeID)
    (fun _ _ _ agrees notClosed stepped => step_agrees agrees notClosed stepped) init_agrees events

def openAndClose (sockfd : Int) : List ReuseEvent :=
  [.sock 200 0 0 0 (Vector.replicate 4 0), .close sockfd]

/-- The socket is closed, but its slot is not `NULL` and a lookup follows it. After ten such
rounds `mrt_server_sock` fails, although no socket is open. -/
theorem closed_socket_stays :
    ¬ Throughout (ReuseState.step 1) (fun state event => event.Reuses 1 state)
      .init (openAndClose 0) ∧
    (∃ state, (openAndClose 0).foldlM (ReuseState.step 1) .init = some state ∧
      state.slots firstSlot = .freed ∧ state.slots.fetchServerTCB 200 = none) ∧
    ∃ state, ((List.range maxTransportConnections).flatMap fun i => openAndClose i).foldlM
        (ReuseState.step 1) .init = some state ∧ state.sockets.count = 0 ∧
      (mrtServerSockTurn state.slots 1 200 0 0 0 (Vector.replicate 4 0)).2 = -1 := by
  refine ⟨fun reuses => ?_, ⟨_, rfl, rfl, rfl⟩, ⟨_, rfl, by decide, by decide⟩⟩
  obtain ⟨closes, _⟩ := reuses.2 _ rfl
  have null := (closes _ firstSlot rfl rfl).null
  exact absurd null (by decide)

end MiniOverlay
