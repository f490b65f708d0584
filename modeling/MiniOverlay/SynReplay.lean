import MiniOverlay.MrtServerSocket
import Mathlib.Data.List.Nodup

/-!
# Copies of the client's SYN on a connected server

`seghandler` passes a SYN from the recorded client to `segment_recv` also when
the connection is already up, and `segment_recv` sets `expect_seqNum` to the
sequence number of the SYN. The client sends its SYN more than once, always with
sequence number zero.
-/

namespace MiniOverlay

open FixedByteCodec

set_option autoImplicit false

structure ServerStep where
  before : ServerTcb
  seg : Seg
  after : ServerTcb

/-- The segments from one node in the order of their arrival, up to the first
one whose handling is undefined. -/
def serverTrace (sourceNodeID : Int32) : ServerTcb → List Seg → List ServerStep
  | _, [] => []
  | table, seg :: segs =>
      match serverSeghandler table sourceNodeID seg with
      | some (after, _) => ⟨table, seg, after⟩ :: serverTrace sourceNodeID after segs
      | none => []

/-- A SYN of `mrt_client_connect` or a data segment, from the recorded client. -/
structure FromClient (table : ServerTcb) (sourceNodeID : Int32) (seg : Seg) : Prop where
  srcPort : table.clientPortNum = seg.header.srcPort
  node : table.clientNodeID = sourceNodeID.toUInt32
  type : seg.header.type = SegType.syn ∧ seg.header.seqNum = 0 ∨ seg.header.type = SegType.data

def ServerStep.saved (step : ServerStep) : List Byte :=
  if step.seg.header.type = SegType.data then savedBytes step.before step.seg else []

/-- The stream positions of the bytes that a step appends to `recvBuf`. -/
def ServerStep.appendedAt (step : ServerStep) : List Nat :=
  (List.range step.saved.length).map (step.seg.header.seqNum.toNat + ·)

def acceptedBytes (trace : List ServerStep) : Nat := (trace.flatMap ServerStep.saved).length

/-- `expect_seqNum` never decreases, and no byte of the stream is appended a
second time; the bytes in front of the first `expect_seqNum` were appended
before. -/
structure NeverRewinds (table : ServerTcb) (trace : List ServerStep) : Prop where
  expect : ∀ step ∈ trace, step.before.expectSeqNum ≤ step.after.expectSeqNum
  once : (List.range table.expectSeqNum.toNat ++ trace.flatMap ServerStep.appendedAt).Nodup

def SynsBeforeData (trace : List ServerStep) : Prop :=
  ∀ step ∈ trace, step.seg.header.type = SegType.syn → step.before.expectSeqNum = 0

theorem connected_syn (table : ServerTcb) (sourceNodeID : Int32) (seg : Seg)
    (connected : table.state = .connected) (srcPort : table.clientPortNum = seg.header.srcPort)
    (node : table.clientNodeID = sourceNodeID.toUInt32)
    (isSyn : seg.header.type = SegType.syn) :
    serverSeghandler table sourceNodeID seg =
      some ({ table with expectSeqNum := seg.header.seqNum }, [table.reply SegType.synack 0]) := by
  have here := And.intro srcPort node
  simp only [serverSeghandler, connected]
  rw [if_pos here, if_pos isSyn, segmentRecv, if_pos isSyn, connected]

theorem connected_data (table : ServerTcb) (sourceNodeID : Int32) (seg : Seg)
    (connected : table.state = .connected) (srcPort : table.clientPortNum = seg.header.srcPort)
    (node : table.clientNodeID = sourceNodeID.toUInt32)
    (isData : seg.header.type = SegType.data) :
    serverSeghandler table sourceNodeID seg = dataReceived table seg := by
  have here := And.intro srcPort node
  have notSyn : seg.header.type ≠ SegType.syn := by
    rw [isData]
    decide
  simp only [serverSeghandler, connected]
  rw [if_pos here, if_neg notSyn, if_pos isData]

theorem data_step_cases (table after : ServerTcb) (seg : Seg) (effects : List ServerEffect)
    (handled : dataReceived table seg = some (after, effects)) :
    (savedBytes table seg = [] ∧ after = table) ∨
      (savedBytes table seg = seg.payload ∧ seg.header.length.toNat ≤ maxSegLen ∧
        seg.header.seqNum = table.expectSeqNum ∧ ∃ recvBuf, after = table.saved seg recvBuf) := by
  cases data_receives handled with
  | repeated _ nothing same _ => exact Or.inl ⟨nothing, same⟩
  | refused _ nothing same _ => exact Or.inl ⟨nothing, same⟩
  | stored expected short saved recvBuf _ moved _ =>
      exact Or.inr ⟨saved, short, expected, recvBuf, moved⟩

/-- What is kept by a step: the connection and the recorded client. -/
structure SameClient (table after : ServerTcb) : Prop where
  state : after.state = table.state
  port : after.clientPortNum = table.clientPortNum
  node : after.clientNodeID = table.clientNodeID

theorem FromClient.after {table after : ServerTcb} {sourceNodeID : Int32} {seg : Seg}
    (fromClient : FromClient table sourceNodeID seg) (same : SameClient table after) :
    FromClient after sourceNodeID seg :=
  ⟨same.port.trans fromClient.srcPort, same.node.trans fromClient.node, fromClient.type⟩

theorem connected_step_same (table after : ServerTcb) (sourceNodeID : Int32) (seg : Seg)
    (effects : List ServerEffect) (connected : table.state = .connected)
    (fromClient : FromClient table sourceNodeID seg)
    (handled : serverSeghandler table sourceNodeID seg = some (after, effects)) :
    SameClient table after := by
  rcases fromClient.type with ⟨isSyn, _⟩ | isData
  · rw [connected_syn table sourceNodeID seg connected fromClient.srcPort fromClient.node isSyn]
      at handled
    cases handled
    exact ⟨rfl, rfl, rfl⟩
  · rw [connected_data table sourceNodeID seg connected fromClient.srcPort fromClient.node isData]
      at handled
    rcases data_step_cases table after seg effects handled with
      ⟨_, rfl⟩ | ⟨_, _, _, recvBuf, rfl⟩
    · exact ⟨rfl, rfl, rfl⟩
    · exact ⟨rfl, rfl, rfl⟩

/-- The positions appended in a trace are different and not in front of the
first expected one, and the expected one only grows. -/
structure Forward (table : ServerTcb) (trace : List ServerStep) : Prop where
  expect : ∀ step ∈ trace, step.before.expectSeqNum ≤ step.after.expectSeqNum
  nodup : (trace.flatMap ServerStep.appendedAt).Nodup
  behind : ∀ position ∈ trace.flatMap ServerStep.appendedAt,
    table.expectSeqNum.toNat ≤ position

theorem connected_step_grows (step : ServerStep) (sourceNodeID : Int32)
    (effects : List ServerEffect) (connected : step.before.state = .connected)
    (fromClient : FromClient step.before sourceNodeID step.seg)
    (handled : serverSeghandler step.before sourceNodeID step.seg = some (step.after, effects))
    (bounded : step.before.expectSeqNum.toNat + step.saved.length < 2 ^ 32)
    (syn : step.seg.header.type = SegType.syn → step.before.expectSeqNum = 0) :
    step.after.expectSeqNum.toNat = step.before.expectSeqNum.toNat + step.saved.length ∧
      (step.saved ≠ [] → step.seg.header.seqNum = step.before.expectSeqNum) := by
  rcases fromClient.type with ⟨isSyn, zero⟩ | isData
  · have notData : step.seg.header.type ≠ SegType.data := by
      rw [isSyn]
      decide
    have nothing : step.saved = [] := if_neg notData
    rw [connected_syn _ sourceNodeID step.seg connected fromClient.srcPort fromClient.node isSyn]
      at handled
    obtain ⟨isAfter, _⟩ := Prod.mk.inj (Option.some.inj handled)
    rw [← isAfter, nothing, syn isSyn, zero]
    exact ⟨rfl, fun filled => absurd rfl filled⟩
  · have saved : step.saved = savedBytes step.before step.seg := if_pos isData
    rw [connected_data _ sourceNodeID step.seg connected fromClient.srcPort fromClient.node isData]
      at handled
    rcases data_step_cases step.before step.after step.seg effects handled with
      ⟨nothing, isAfter⟩ | ⟨stored, short, expected, recvBuf, isAfter⟩
    · rw [isAfter, saved, nothing]
      exact ⟨rfl, fun filled => absurd rfl filled⟩
    · rw [saved, stored, payload_length step.seg short] at bounded ⊢
      refine ⟨?_, fun _ => expected⟩
      rw [isAfter, ServerTcb.saved, UInt32.toNat_add, UInt16.toNat_toUInt32, expected]
      omega

theorem appended_nodup (step : ServerStep) : step.appendedAt.Nodup :=
  List.nodup_range.map fun _ _ same => Nat.add_left_cancel same

theorem forward_cons (step : ServerStep) (trace : List ServerStep)
    (rest : Forward step.after trace)
    (grows : step.after.expectSeqNum.toNat = step.before.expectSeqNum.toNat + step.saved.length)
    (expected : step.saved ≠ [] → step.seg.header.seqNum = step.before.expectSeqNum) :
    Forward step.before (step :: trace) := by
  have here : ∀ position ∈ step.appendedAt, step.before.expectSeqNum.toNat ≤ position ∧
      position < step.after.expectSeqNum.toNat := by
    intro position member
    obtain ⟨index, inRange, rfl⟩ := List.mem_map.mp member
    have below := List.mem_range.mp inRange
    have filled : step.saved ≠ [] := List.ne_nil_of_length_pos (by omega)
    rw [expected filled, grows]
    omega
  constructor
  · intro other member
    rcases List.mem_cons.mp member with rfl | later
    · rw [UInt32.le_iff_toNat_le]
      omega
    · exact rest.expect other later
  · rw [List.flatMap_cons, List.nodup_append]
    refine ⟨appended_nodup step, rest.nodup, ?_⟩
    intro left inStep right inTrace same
    have first := here left inStep
    have second := rest.behind right inTrace
    omega
  · intro position member
    rw [List.flatMap_cons, List.mem_append] at member
    rcases member with inStep | inTrace
    · exact (here position inStep).1
    · have behind := rest.behind position inTrace
      omega

theorem trace_cons {sourceNodeID : Int32} {table after : ServerTcb} {seg : Seg}
    {effects : List ServerEffect} (segs : List Seg)
    (handled : serverSeghandler table sourceNodeID seg = some (after, effects)) :
    serverTrace sourceNodeID table (seg :: segs) =
      ⟨table, seg, after⟩ :: serverTrace sourceNodeID after segs := by
  simp only [serverTrace, handled]

theorem trace_stops {sourceNodeID : Int32} {table : ServerTcb} {seg : Seg} (segs : List Seg)
    (handled : serverSeghandler table sourceNodeID seg = none) :
    serverTrace sourceNodeID table (seg :: segs) = [] := by
  simp only [serverTrace, handled]

theorem trace_forward (sourceNodeID : Int32) (segs : List Seg) (table : ServerTcb)
    (connected : table.state = .connected)
    (fromClient : ∀ seg ∈ segs, FromClient table sourceNodeID seg)
    (bounded : table.expectSeqNum.toNat +
      acceptedBytes (serverTrace sourceNodeID table segs) < 2 ^ 32)
    (syns : SynsBeforeData (serverTrace sourceNodeID table segs)) :
    Forward table (serverTrace sourceNodeID table segs) := by
  induction segs generalizing table with
  | nil => exact ⟨by simp [serverTrace], by simp [serverTrace], by simp [serverTrace]⟩
  | cons seg segs ih =>
      have head := fromClient seg (by simp)
      cases handled : serverSeghandler table sourceNodeID seg with
      | none =>
          rw [trace_stops segs handled]
          exact ⟨by simp, by simp, by simp⟩
      | some result =>
          obtain ⟨after, effects⟩ := result
          have same := connected_step_same table after sourceNodeID seg effects connected head
            handled
          rw [trace_cons segs handled] at bounded syns ⊢
          rw [acceptedBytes, List.flatMap_cons, List.length_append] at bounded
          have room : table.expectSeqNum.toNat +
              (ServerStep.mk table seg after).saved.length < 2 ^ 32 := by omega
          obtain ⟨grows, expected⟩ := connected_step_grows ⟨table, seg, after⟩ sourceNodeID
            effects connected head handled room (syns _ (by simp))
          refine forward_cons ⟨table, seg, after⟩ _ ?_ grows expected
          apply ih after (same.state.trans connected)
          · intro item member
            exact (fromClient item (by simp [member])).after same
          · rw [acceptedBytes]
            change after.expectSeqNum.toNat = table.expectSeqNum.toNat + _ at grows
            omega
          · intro step member
            exact syns step (by simp [member])

theorem trace_syn_step (sourceNodeID : Int32) (segs : List Seg) (table : ServerTcb)
    (connected : table.state = .connected)
    (fromClient : ∀ seg ∈ segs, FromClient table sourceNodeID seg) (step : ServerStep)
    (member : step ∈ serverTrace sourceNodeID table segs)
    (isSyn : step.seg.header.type = SegType.syn) : step.after.expectSeqNum = 0 := by
  induction segs generalizing table with
  | nil => cases member
  | cons seg segs ih =>
      have head := fromClient seg (by simp)
      cases handled : serverSeghandler table sourceNodeID seg with
      | none =>
          rw [trace_stops segs handled] at member
          cases member
      | some result =>
          obtain ⟨after, effects⟩ := result
          have same := connected_step_same table after sourceNodeID seg effects connected head
            handled
          rw [trace_cons segs handled] at member
          rcases List.mem_cons.mp member with rfl | later
          · rcases head.type with ⟨_, zero⟩ | isData
            · rw [connected_syn table sourceNodeID seg connected head.srcPort head.node isSyn]
                at handled
              obtain ⟨isAfter, _⟩ := Prod.mk.inj (Option.some.inj handled)
              change after.expectSeqNum = 0
              rw [← isAfter, zero]
            · rw [isData] at isSyn
              exact absurd isSyn (by decide)
          · exact ih after (same.state.trans connected)
              (fun item inSegs => (fromClient item (by simp [inSegs])).after same) later

/-- A connection is never rewound exactly when every SYN arrives while
`expect_seqNum` is still zero. -/
theorem never_rewinds_iff (sourceNodeID : Int32) (segs : List Seg) (table : ServerTcb)
    (connected : table.state = .connected)
    (fromClient : ∀ seg ∈ segs, FromClient table sourceNodeID seg)
    (bounded : table.expectSeqNum.toNat +
      acceptedBytes (serverTrace sourceNodeID table segs) < 2 ^ 32) :
    NeverRewinds table (serverTrace sourceNodeID table segs) ↔
      SynsBeforeData (serverTrace sourceNodeID table segs) := by
  constructor
  · intro never step member isSyn
    have order := never.expect step member
    rw [trace_syn_step sourceNodeID segs table connected fromClient step member isSyn,
      UInt32.le_iff_toNat_le] at order
    exact UInt32.toNat_inj.mp (Nat.le_zero.mp order)
  · intro syns
    have forward := trace_forward sourceNodeID segs table connected fromClient bounded syns
    refine ⟨forward.expect, ?_⟩
    rw [List.nodup_append]
    refine ⟨List.nodup_range, forward.nodup, ?_⟩
    intro left before right appended same
    have old := List.mem_range.mp before
    have new := forward.behind right appended
    omega

def connectedServer : ServerTcb :=
  { svrNodeID := 2
    svrPortNum := 200
    clientNodeID := 1
    clientPortNum := 100
    state := .connected
    expectSeqNum := 0
    recvBuf := List.replicate receiveBufSize 0
    usedBufLen := 0 }

def clientSyn : Seg :=
  { Seg.cleared with header := { MrtHdr.cleared with
      srcPort := 100, destPort := 200, type := SegType.syn } }

def firstByte : Seg :=
  { header := { MrtHdr.cleared with
      srcPort := 100, destPort := 200, type := SegType.data, length := 1 }
    data := padVector maxSegLen [7] }

theorem client_segs (seg : Seg) (member : seg ∈ [firstByte, clientSyn]) :
    FromClient connectedServer 1 seg := by
  rcases List.mem_pair.mp member with rfl | rfl
  · exact ⟨rfl, rfl, Or.inr rfl⟩
  · exact ⟨rfl, rfl, Or.inl ⟨rfl, rfl⟩⟩

theorem syn_repeated :
    serverSeghandler connectedServer 1 clientSyn =
      some (connectedServer, [connectedServer.reply SegType.synack 0]) :=
  connected_syn connectedServer 1 clientSyn rfl rfl rfl rfl

theorem first_byte_stored :
    ∃ recvBuf, savedBytes connectedServer firstByte = firstByte.payload ∧
      serverSeghandler connectedServer 1 firstByte =
        some (connectedServer.saved firstByte recvBuf,
          [(connectedServer.saved firstByte recvBuf).reply SegType.dataack 1]) := by
  have buffer : RecvBuffer connectedServer [] :=
    ⟨List.length_replicate, rfl, by decide, rfl⟩
  obtain ⟨recvBuf, stored, _⟩ := save_fits connectedServer [] firstByte buffer (by decide)
    (by decide)
  have expected : firstByte.header.seqNum = connectedServer.expectSeqNum := rfl
  refine ⟨recvBuf, ?_, ?_⟩
  · rw [savedBytes, if_pos expected, stored]
    rfl
  · rw [connected_data connectedServer 1 firstByte rfl rfl rfl rfl, dataReceived,
      if_pos expected, stored]
    rfl

theorem first_byte_repeated {table : ServerTcb} (recvBuf : List Byte)
    (stored : table = connectedServer.saved firstByte recvBuf) :
    savedBytes table firstByte = [] ∧
      serverSeghandler table 1 firstByte = some (table, [table.reply SegType.dataack 1]) := by
  have number : table.expectSeqNum = 1 := by
    rw [stored]
    rfl
  have other : ¬ firstByte.header.seqNum = table.expectSeqNum := by
    rw [number]
    decide
  subst stored
  rw [connected_data _ 1 firstByte rfl rfl rfl rfl, savedBytes, dataReceived, if_neg other,
    if_neg other, number]
  exact ⟨rfl, rfl⟩

/-- The SYN and the first byte both arrive twice, the SYNs first. -/
theorem early_syns_do_not_rewind :
    NeverRewinds connectedServer
      (serverTrace 1 connectedServer [clientSyn, clientSyn, firstByte, firstByte]) := by
  have fromClient : ∀ seg ∈ [clientSyn, clientSyn, firstByte, firstByte],
      FromClient connectedServer 1 seg :=
    fun seg member => client_segs seg (by grind)
  obtain ⟨recvBuf, saved, stored⟩ := first_byte_stored
  obtain ⟨nothing, repeated⟩ := first_byte_repeated recvBuf rfl
  have trace : serverTrace 1 connectedServer [clientSyn, clientSyn, firstByte, firstByte] =
      [⟨connectedServer, clientSyn, connectedServer⟩,
        ⟨connectedServer, clientSyn, connectedServer⟩,
        ⟨connectedServer, firstByte, connectedServer.saved firstByte recvBuf⟩,
        ⟨connectedServer.saved firstByte recvBuf, firstByte,
          connectedServer.saved firstByte recvBuf⟩] := by
    rw [trace_cons _ syn_repeated, trace_cons _ syn_repeated, trace_cons _ stored,
      trace_cons _ repeated, serverTrace]
  have accepted : acceptedBytes (serverTrace 1 connectedServer
      [clientSyn, clientSyn, firstByte, firstByte]) = firstByte.payload.length := by
    have isSyn : ¬ clientSyn.header.type = SegType.data := by decide
    have isData : firstByte.header.type = SegType.data := rfl
    rw [trace]
    simp [acceptedBytes, ServerStep.saved, saved, nothing, isSyn, isData]
  apply (never_rewinds_iff 1 _ connectedServer rfl fromClient ?_).mpr
  · rw [trace]
    simp [SynsBeforeData, firstByte, connectedServer, SegType.syn, SegType.data]
  · rw [accepted, payload_length firstByte (by decide)]
    decide

/-- A copy of the SYN behind the first byte takes `expect_seqNum` from one back
to zero, and the copy of the byte behind it is expected again. -/
theorem late_syn_rewinds :
    (∀ seg ∈ [firstByte, clientSyn, firstByte], FromClient connectedServer 1 seg) ∧
      ¬ NeverRewinds connectedServer
        (serverTrace 1 connectedServer [firstByte, clientSyn, firstByte]) := by
  obtain ⟨recvBuf, _, received⟩ := first_byte_stored
  have handled := connected_syn (connectedServer.saved firstByte recvBuf) 1 clientSyn rfl rfl rfl
    rfl
  refine ⟨fun seg member => client_segs seg (by grind), fun never => ?_⟩
  rw [trace_cons _ received, trace_cons _ handled] at never
  have order := never.expect _ (List.mem_cons_of_mem _ List.mem_cons_self)
  change (1 : UInt32) ≤ 0 at order
  exact absurd order (by decide)

end MiniOverlay
