import MiniOverlay.ClientStateMachine

/-!
# The retries of a connection

`mrt_client_connect` is documented to wait up to `SYN_MAX_RETRY` times for a
SYNACK, to send the SYN again after each wait that brings none, and to close the
TCB after the last one. The `break` behind the branches of its loop ends the call
after the first wait, whatever the waits after it would bring.
-/

namespace MiniOverlay

open LinkedHeap FixedByteCodec

set_option autoImplicit false

def synMaxRetry : Nat := 5

def Incoming.Answers (nodeID : Int32) (serverPort : UInt32) (incoming : Incoming) : Prop :=
  incoming.segmentBuffer.header.type = SegType.synack ∧ incoming.sourceNodeID = nodeID ∧
    incoming.segmentBuffer.header.srcPort = serverPort

instance (nodeID : Int32) (serverPort : UInt32) :
    DecidablePred (Incoming.Answers nodeID serverPort) :=
  fun _ => inferInstanceAs (Decidable (_ ∧ _ ∧ _))

/-- A whole call, with what `seghandler` gets during each wait: the return value,
the client when it returns and what the call itself sends. -/
def mrtClientConnectCall (client : Client) (nodeID : Int32) (serverPort : UInt32)
    (waits : Nat → List Incoming) : Option (Int × Client × List ClientEffect) :=
  match mrtClientConnect client nodeID serverPort with
  | none => some (-1, client, [])
  | some (waiting, clientSyn, effects) => do
      let woken ← (waits 0).foldlM Client.handle waiting
      let result := mrtClientConnectWake woken clientSyn
      return (result.1, woken, effects ++ result.2)

def answeredWait (nodeID : Int32) (serverPort : UInt32) (waits : Nat → List Incoming) :
    Option Nat :=
  (List.range synMaxRetry).find? fun wait =>
    (waits wait).any fun incoming => incoming.Answers nodeID serverPort

def synsSent (effects : List ClientEffect) : Nat :=
  (sentSegs effects).countP fun arg => arg.seg.header.type = SegType.syn

/-- The call returns as documented: the SYN was sent once and then again after
each wait without a SYNACK. -/
def ReportsConnection (client : Client) (nodeID : Int32) (serverPort : UInt32)
    (waits : Nat → List Incoming) : Prop :=
  ∃ value after effects,
    mrtClientConnectCall client nodeID serverPort waits = some (value, after, effects) ∧
      match answeredWait nodeID serverPort waits with
      | some wait =>
          value = 1 ∧ after.tcb.state = .connected ∧ synsSent effects = 1 + wait
      | none => value = -1 ∧ after.tcb.state = .closed

def Client.connecting (client : Client) (nodeID : Int32) (serverPort : UInt32) : Client :=
  ⟨client.heap, { client.tcb with
    svrNodeID := nodeID.toUInt32
    svrPortNum := serverPort
    state := .synsent }⟩

/-- The SYNACK comes in the first wait, and `seghandler` gets through that wait
without following a null `sendBufHead`. -/
structure AnsweredAtOnce (client : Client) (nodeID : Int32) (serverPort : UInt32)
    (waits : Nat → List Incoming) : Prop where
  answered : ∃ incoming ∈ waits 0, incoming.Answers nodeID serverPort
  handled : ∃ woken,
    (waits 0).foldlM Client.handle (client.connecting nodeID serverPort) = some woken

theorem synsent_handle (client : Client) (nodeID : Int32) (incoming : Incoming)
    (synsent : client.tcb.state = .synsent) (node : client.tcb.svrNodeID = nodeID.toUInt32) :
    client.handle incoming =
      if incoming.Answers nodeID client.tcb.svrPortNum then
        some ⟨client.heap, { client.tcb with state := .connected }⟩
      else some client := by
  have sameNode : client.tcb.svrNodeID = incoming.sourceNodeID.toUInt32 ↔
      incoming.sourceNodeID = nodeID := by
    rw [node]
    constructor
    · intro same
      have back := congrArg UInt32.toInt32 same
      rw [Int32.toInt32_toUInt32, Int32.toInt32_toUInt32] at back
      exact back.symm
    · rintro rfl
      rfl
  have sameTest : (incoming.segmentBuffer.header.type = SegType.synack ∧
      client.tcb.svrPortNum = incoming.segmentBuffer.header.srcPort ∧
      client.tcb.svrNodeID = incoming.sourceNodeID.toUInt32) ↔
      incoming.Answers nodeID client.tcb.svrPortNum := by
    rw [sameNode, Incoming.Answers, eq_comm (a := client.tcb.svrPortNum)]
    tauto
  simp only [Client.handle, clientSeghandler, synsent, sameTest]
  split_ifs <;> rfl

theorem handle_keeps_connected (client after : Client) (incoming : Incoming)
    (connected : client.tcb.state = .connected) (handled : client.handle incoming = some after) :
    after.tcb.state = .connected := by
  obtain ⟨⟨next, effects⟩, run, rfl⟩ := Option.map_eq_some_iff.mp handled
  exact connected_keeps_state incoming.now client next incoming.sourceNodeID
    incoming.segmentBuffer effects connected run

theorem wait_handled (nodeID : Int32) (serverPort : UInt32) (wait : List Incoming)
    (client : Client) {woken : Client} (synsent : client.tcb.state = .synsent)
    (node : client.tcb.svrNodeID = nodeID.toUInt32) (port : client.tcb.svrPortNum = serverPort)
    (handled : wait.foldlM Client.handle client = some woken) :
    if ∃ incoming ∈ wait, incoming.Answers nodeID serverPort then woken.tcb.state = .connected
    else woken = client := by
  induction wait with
  | nil =>
      cases handled
      simp
  | cons incoming wait ih =>
      rw [List.foldlM_cons, synsent_handle client nodeID incoming synsent node, port] at handled
      by_cases answers : incoming.Answers nodeID serverPort
      · rw [if_pos answers, Option.bind_eq_bind, Option.bind_some] at handled
        rw [if_pos ⟨incoming, by simp, answers⟩]
        refine PartialRuns.fold_keeps Client.handle (fun after => after.tcb.state = .connected)
          wait ?_ ?_ handled
        · exact fun item _ before after => handle_keeps_connected before after item
        · rfl
      · rw [if_neg answers, Option.bind_eq_bind, Option.bind_some] at handled
        have rest := ih handled
        simpa only [List.mem_cons, exists_eq_or_imp, answers, false_or] using rest

theorem call_closed (client : Client) (nodeID : Int32) (serverPort : UInt32)
    (waits : Nat → List Incoming) (closed : client.tcb.state = .closed) :
    mrtClientConnectCall client nodeID serverPort waits =
      ((waits 0).foldlM Client.handle (client.connecting nodeID serverPort)).map fun woken =>
        let clientSyn := (client.connecting nodeID serverPort).tcb.newSeg SegType.syn 0 []
        let result := mrtClientConnectWake woken clientSyn
        (result.1, woken, .mnpSendseg nodeID clientSyn :: result.2) := by
  simp only [mrtClientConnectCall, mrtClientConnect, closed]
  rw [Option.map_eq_bind]
  rfl

theorem call_handled (client woken : Client) (nodeID : Int32) (serverPort : UInt32)
    (waits : Nat → List Incoming) (closed : client.tcb.state = .closed)
    (handled : (waits 0).foldlM Client.handle (client.connecting nodeID serverPort) = some woken) :
    ∃ value effects,
      mrtClientConnectCall client nodeID serverPort waits = some (value, woken, effects) ∧
        if ∃ incoming ∈ waits 0, incoming.Answers nodeID serverPort then
          value = 1 ∧ woken.tcb.state = .connected ∧ synsSent effects = 1
        else value = -1 ∧ woken.tcb.state = .synsent := by
  have outcome := wait_handled nodeID serverPort (waits 0)
    (client.connecting nodeID serverPort) rfl rfl rfl handled
  have call := call_closed client nodeID serverPort waits closed
  rw [handled, Option.map_some] at call
  refine ⟨_, _, call, ?_⟩
  by_cases answered : ∃ incoming ∈ waits 0, incoming.Answers nodeID serverPort
  · rw [if_pos answered] at outcome ⊢
    rw [mrtClientConnectWake, if_neg (not_not.mpr outcome)]
    exact ⟨rfl, outcome, rfl⟩
  · rw [if_neg answered] at outcome ⊢
    rw [mrtClientConnectWake, outcome, if_pos (by simp [Client.connecting])]
    exact ⟨rfl, rfl⟩

theorem answered_first_wait {nodeID : Int32} {serverPort : UInt32} {waits : Nat → List Incoming}
    (answered : ∃ incoming ∈ waits 0, incoming.Answers nodeID serverPort) :
    answeredWait nodeID serverPort waits = some 0 := by
  have first : ((waits 0).any fun incoming => incoming.Answers nodeID serverPort) = true := by
    simpa using answered
  rw [answeredWait, synMaxRetry, List.range_succ_eq_map, List.find?_cons]
  simp only [first]

theorem unanswered_not_reported (client : Client) (nodeID : Int32) (serverPort : UInt32)
    (waits : Nat → List Incoming) (closed : client.tcb.state = .closed)
    (unanswered : ¬ ∃ incoming ∈ waits 0, incoming.Answers nodeID serverPort) :
    ¬ ReportsConnection client nodeID serverPort waits := by
  rintro ⟨value, after, effects, call, reported⟩
  have defined := call_closed client nodeID serverPort waits closed
  rw [call, eq_comm] at defined
  obtain ⟨woken, handled, _⟩ := Option.map_eq_some_iff.mp defined
  obtain ⟨value', effects', call', outcome⟩ :=
    call_handled client woken nodeID serverPort waits closed handled
  rw [call] at call'
  cases call'
  rw [if_neg unanswered] at outcome
  obtain ⟨refused, synsent⟩ := outcome
  cases wait : answeredWait nodeID serverPort waits with
  | some answering =>
      rw [wait, refused] at reported
      exact absurd reported.1 (by decide)
  | none =>
      rw [wait, synsent] at reported
      cases reported.2

/-- The call reports what happened exactly when the SYNACK comes in the first wait. -/
theorem reports_connection_iff (client : Client) (nodeID : Int32) (serverPort : UInt32)
    (waits : Nat → List Incoming) (closed : client.tcb.state = .closed) :
    ReportsConnection client nodeID serverPort waits ↔
      AnsweredAtOnce client nodeID serverPort waits := by
  constructor
  · intro reports
    constructor
    · by_contra unanswered
      exact unanswered_not_reported client nodeID serverPort waits closed unanswered reports
    · obtain ⟨value, after, effects, call, _⟩ := reports
      have defined := call_closed client nodeID serverPort waits closed
      rw [call, eq_comm] at defined
      obtain ⟨woken, handled, _⟩ := Option.map_eq_some_iff.mp defined
      exact ⟨woken, handled⟩
  · rintro ⟨answered, woken, handled⟩
    obtain ⟨value, effects, call, outcome⟩ :=
      call_handled client woken nodeID serverPort waits closed handled
    rw [if_pos answered] at outcome
    refine ⟨value, woken, effects, call, ?_⟩
    rw [answered_first_wait answered]
    exact outcome

def answeringSynack : Incoming where
  now := fun _ => ⟨0, 0⟩
  sourceNodeID := 2
  segmentBuffer :=
    { Seg.cleared with
      header := { MrtHdr.cleared with type := SegType.synack, srcPort := 200, destPort := 100 } }

/-- A connection answered in its first wait is reported. -/
theorem prompt_synack_reported :
    ReportsConnection (mrtClientSock 1 100 0) 2 200 fun _ => [answeringSynack] := by
  apply (reports_connection_iff (mrtClientSock 1 100 0) 2 200 _ rfl).mpr
  exact ⟨⟨answeringSynack, by simp, rfl, rfl, rfl⟩, _, rfl⟩

/-- A SYNACK in the second wait is not reported, and without one the TCB is left
in SYNSENT. -/
theorem late_synack_not_reported :
    ¬ ReportsConnection (mrtClientSock 1 100 0) 2 200
        (fun wait => if wait = 1 then [answeringSynack] else []) ∧
      ¬ ReportsConnection (mrtClientSock 1 100 0) 2 200 fun _ => [] := by
  constructor
  · exact unanswered_not_reported (mrtClientSock 1 100 0) 2 200 _ rfl (by simp)
  · exact unanswered_not_reported (mrtClientSock 1 100 0) 2 200 _ rfl (by simp)

end MiniOverlay
