import MiniOverlay.ServerStateMachine
import MiniOverlay.SocketIsolation

/-!
# The bounds of the receive buffer

`mrt_server_sock` allocates `sizeof(RECEIVE_BUF_SIZE)` bytes, which is the size of an
`int`; `saveTobuffer` tests against `RECEIVE_BUF_SIZE` itself, and does not test the
length of a segment against the array it copies from. The copies stay inside both
arrays in a run exactly when the bytes held never grow beyond the size of an `int`.
-/

namespace MiniOverlay

open FixedByteCodec

set_option autoImplicit false

/-- `sizeof(RECEIVE_BUF_SIZE)`. -/
def recvBufBytes : Nat := 4

/-- `seghandler` passes the segment to `saveTobuffer`, whose test lets it through. -/
structure SavesData (table : ServerTcb) (sourceNodeID : Int32) (seg : Seg) : Prop where
  connected : table.state = .connected
  client : table.FromClient sourceNodeID seg
  data : seg.header.type = SegType.data
  expected : seg.header.seqNum = table.expectSeqNum
  room : (seg.header.length.toUInt32 + table.usedBufLen).toNat < receiveBufSize

def CopiesInside (allocated : Nat) (table : ServerTcb) (seg : Seg) : Prop :=
  ∀ index < seg.header.length.toNat,
    table.usedBufLen.toNat + index < allocated ∧ index < maxSegLen

def ServerEvent.Inside (allocated : Nat) (table : ServerTcb) : ServerEvent → Prop
  | .segment sourceNodeID seg => SavesData table sourceNodeID seg → CopiesInside allocated table seg
  | _ => True

def ServerEvent.Handled (table : ServerTcb) : ServerEvent → Prop
  | .segment sourceNodeID seg => ∃ result, serverSeghandler table sourceNodeID seg = some result
  | _ => True

def ServerEvent.FitsBehind (allocated : Nat) (table : ServerTcb) : ServerEvent → Prop
  | .segment sourceNodeID seg => SavesData table sourceNodeID seg →
      table.usedBufLen.toNat + seg.header.length.toNat ≤ allocated
  | _ => True

def ServerParty.Throughout (meets : ServerTcb → ServerEvent → Prop) :
    ServerParty → List ServerEvent → Prop
  | _, [] => True
  | party, event :: events =>
      meets party.table event ∧ ∀ next effects, party.step event = some (next, effects) →
        next.Throughout meets events

structure BlockHolds (allocated : Nat) (table : ServerTcb) : Prop where
  block : table.recvBuf.length = allocated
  used : table.usedBufLen.toNat ≤ allocated

theorem handled_unless_saved {table : ServerTcb} {sourceNodeID : Int32} {seg : Seg}
    (unsaved : ¬ SavesData table sourceNodeID seg) :
    ∃ result, serverSeghandler table sourceNodeID seg = some result := by
  cases state : table.state with
  | connected =>
      by_cases client : table.FromClient sourceNodeID seg
      · rw [client_step table sourceNodeID seg state client]
        split_ifs with isSyn isData isFin
        · exact ⟨_, rfl⟩
        · have stored := (data_received_defined_iff table seg).mpr fun expected room =>
            absurd ⟨state, client, isData, expected, room⟩ unsaved
          exact Option.isSome_iff_exists.mp stored
        · exact ⟨_, rfl⟩
        · exact ⟨_, rfl⟩
      · exact ⟨_, stranger_step table sourceNodeID seg state client⟩
  | listening =>
      obtain ⟨next, effects, step, _⟩ := listening_step table sourceNodeID seg state
      exact ⟨_, step⟩
  | closewait => exact ⟨_, closewait_step table sourceNodeID seg state⟩
  | closed => exact ⟨_, closed_step table sourceNodeID seg state⟩

theorem handled_iff_inside {allocated : Nat} {table : ServerTcb}
    (holds : BlockHolds allocated table) (sourceNodeID : Int32) (seg : Seg) :
    (∃ result, serverSeghandler table sourceNodeID seg = some result) ↔
      ServerEvent.Inside allocated table (.segment sourceNodeID seg) := by
  by_cases saves : SavesData table sourceNodeID seg
  · have notSyn : seg.header.type ≠ SegType.syn := by
      rw [saves.data]
      decide
    have step : serverSeghandler table sourceNodeID seg = dataReceived table seg := by
      rw [client_step table sourceNodeID seg saves.connected saves.client, if_neg notSyn,
        if_pos saves.data]
    have defined := data_received_defined_iff table seg
    rw [step, ← Option.isSome_iff_exists, defined]
    constructor
    · intro stores _ index below
      obtain ⟨short, fits⟩ := stores saves.expected saves.room
      rw [holds.block] at fits
      constructor <;> omega
    · intro inside _ _
      have copies := inside saves
      rw [holds.block]
      have used := holds.used
      by_cases empty : seg.header.length.toNat = 0
      · omega
      · obtain ⟨written, isRead⟩ := copies (seg.header.length.toNat - 1) (by omega)
        omega
  · exact iff_of_true (handled_unless_saved saves) fun saved => absurd saved saves

theorem copy_length {block bytes after : List Byte} {offset : Nat}
    (copied : copyTo block offset bytes = some after) : after.length = block.length := by
  unfold copyTo at copied
  split_ifs at copied with fits
  cases copied
  rw [List.length_append, List.length_append, List.length_take, List.length_drop]
  omega

theorem same_holds {allocated : Nat} {table after : ServerTcb} (holds : BlockHolds allocated table)
    (same : SameBuffer table after) : BlockHolds allocated after :=
  ⟨same.recvBuf ▸ holds.block, same.used ▸ holds.used⟩

theorem save_holds_block {allocated : Nat} {table after : ServerTcb} {seg : Seg} {value : Int}
    (holds : BlockHolds allocated table)
    (saved : saveTobuffer table seg = some (value, after)) : BlockHolds allocated after := by
  unfold saveTobuffer at saved
  split_ifs at saved with room short
  · obtain ⟨recvBuf, copied, saved⟩ := Option.bind_eq_some_iff.mp saved
    cases saved
    have length := copy_length copied
    have size := payload_length seg short
    have total : (table.usedBufLen + seg.header.length.toUInt32).toNat ≤
        table.usedBufLen.toNat + seg.header.length.toNat := by
      rw [UInt32.toNat_add, UInt16.toNat_toUInt32]
      exact Nat.mod_le _ _
    have fits : table.usedBufLen.toNat + seg.payload.length ≤ table.recvBuf.length := by
      by_contra past
      rw [copyTo, if_neg past] at copied
      cases copied
    refine ⟨length.trans holds.block, ?_⟩
    rw [size, holds.block] at fits
    exact le_trans total fits
  · cases saved
    exact holds

theorem handled_holds_block {allocated : Nat} {table after : ServerTcb} {sourceNodeID : Int32}
    {seg : Seg} {effects : List ServerEffect} (holds : BlockHolds allocated table)
    (handled : serverSeghandler table sourceNodeID seg = some (after, effects)) :
    BlockHolds allocated after := by
  rcases handler_buffer_cases table sourceNodeID seg with data | ⟨after', effects', step, same⟩
  · cases data_receives (data.symm.trans handled) with
    | repeated _ _ same _ => exact same ▸ holds
    | refused _ _ same _ => exact same ▸ holds
    | stored _ _ _ recvBuf call moved _ => exact moved ▸ save_holds_block holds call
  · rw [step] at handled
    cases handled
    exact same_holds holds same

theorem recv_holds_block {allocated : Nat} {table : ServerTcb} {length : UInt32} {turn : RecvTurn}
    (holds : BlockHolds allocated table) (turned : mrtServerRecvTurn table length = some turn)
    (sleeping : Nat) :
    BlockHolds allocated ((ServerParty.mk table sleeping).received turn).table := by
  rcases recv_turn_result turned with rfl | ⟨enough, rfl⟩
  · exact holds
  · have below := UInt32.le_iff_toNat_le.mp enough
    have used := holds.used
    refine ⟨?_, ?_⟩
    · have block := holds.block
      simp only [ServerParty.received, ServerTcb.taken, List.length_append, List.length_take,
        List.length_drop]
      omega
    · simp only [ServerParty.received, ServerTcb.taken]
      rw [UInt32.toNat_sub_of_le _ _ enough]
      omega

theorem step_holds_block {allocated : Nat} {party next : ServerParty} {event : ServerEvent}
    {effects : List ServerEffect} (holds : BlockHolds allocated party.table)
    (stepped : party.step event = some (next, effects)) : BlockHolds allocated next.table := by
  cases event with
  | accept =>
      simp only [ServerParty.step, mrtServerAccept] at stepped
      cases state : party.table.state <;> rw [state] at stepped
      case closed =>
        cases stepped
        exact same_holds holds ⟨rfl, rfl, rfl⟩
      all_goals
        cases stepped
        exact holds
  | recv length =>
      obtain ⟨turn, turned, stepped⟩ := Option.bind_eq_some_iff.mp stepped
      cases stepped
      rcases recv_result turned with connected | rfl
      · exact recv_holds_block holds connected party.sleeping
      · exact holds
  | recvTurn length =>
      obtain ⟨turn, turned, stepped⟩ := Option.bind_eq_some_iff.mp stepped
      cases stepped
      exact recv_holds_block holds turned party.sleeping
  | segment sourceNodeID seg =>
      obtain ⟨⟨after, sends⟩, handled, stepped⟩ := Option.bind_eq_some_iff.mp stepped
      cases stepped
      exact handled_holds_block holds handled
  | closewait =>
      simp only [ServerParty.step] at stepped
      split_ifs at stepped with waiting
      cases stepped
      exact ⟨holds.block, Nat.zero_le _⟩

theorem throughout_iff {left right : ServerTcb → ServerEvent → Prop} (keeps : ServerTcb → Prop)
    (agree : ∀ table event, keeps table → (left table event ↔ right table event))
    (step : ∀ (party next : ServerParty) event effects, keeps party.table →
      party.step event = some (next, effects) → keeps next.table)
    (events : List ServerEvent) {party : ServerParty} (begins : keeps party.table) :
    party.Throughout left events ↔ party.Throughout right events := by
  induction events generalizing party with
  | nil => rfl
  | cons event events ih =>
      have later (next : ServerParty) (effects : List ServerEffect)
          (stepped : party.step event = some (next, effects)) :
          next.Throughout left events ↔ next.Throughout right events :=
        ih (step party next event effects begins stepped)
      constructor
      · rintro ⟨here, rest⟩
        exact ⟨(agree party.table event begins).mp here,
          fun next effects stepped => (later next effects stepped).mp (rest next effects stepped)⟩
      · rintro ⟨here, rest⟩
        exact ⟨(agree party.table event begins).mpr here,
          fun next effects stepped => (later next effects stepped).mpr (rest next effects stepped)⟩

theorem event_handled_iff {allocated : Nat} {table : ServerTcb}
    (holds : BlockHolds allocated table) (event : ServerEvent) :
    event.Handled table ↔ event.Inside allocated table := by
  cases event with
  | segment sourceNodeID seg => exact handled_iff_inside holds sourceNodeID seg
  | accept => rfl
  | recv length => rfl
  | recvTurn length => rfl
  | closewait => rfl

theorem inside_iff_fits {allocated : Nat} (small : allocated ≤ maxSegLen) {table : ServerTcb}
    (holds : BlockHolds allocated table) (event : ServerEvent) :
    event.Inside allocated table ↔ event.FitsBehind allocated table := by
  cases event with
  | segment sourceNodeID seg =>
      have used := holds.used
      constructor
      · intro inside saves
        have copies := inside saves
        by_cases empty : seg.header.length.toNat = 0
        · omega
        · obtain ⟨written, _⟩ := copies (seg.header.length.toNat - 1) (by omega)
          omega
      · intro fits saves index below
        have behind := fits saves
        constructor <;> omega
  | accept => rfl
  | recv length => rfl
  | recvTurn length => rfl
  | closewait => rfl

/-- In a run of a socket of `mrt_server_sock` every byte is copied inside the arrays
exactly when all data saved fits into an `int`, and exactly then `seghandler` has a result for
every segment. -/
theorem copies_inside_iff (myNodeID : Int32)
    (port clientNodeID clientPortNum expectSeqNum : UInt32) (recvBuf : Vector Byte recvBufBytes)
    (events : List ServerEvent) :
    let socket := mrtServerSock myNodeID port clientNodeID clientPortNum expectSeqNum recvBuf
    let inside := ServerParty.Throughout (fun table event => event.Inside recvBufBytes table)
      ⟨socket, 0⟩ events
    (inside ↔ ServerParty.Throughout (fun table event => event.FitsBehind recvBufBytes table)
        ⟨socket, 0⟩ events) ∧
      (ServerParty.Throughout (fun table event => event.Handled table) ⟨socket, 0⟩ events ↔
        inside) := by
  intro socket inside
  have small : recvBufBytes ≤ maxSegLen := by decide
  have begins : BlockHolds recvBufBytes (ServerParty.mk socket 0).table :=
    ⟨recvBuf.length_toList, Nat.zero_le _⟩
  have kept (party next : ServerParty) (event : ServerEvent) (effects : List ServerEffect)
      (holds : BlockHolds recvBufBytes party.table)
      (stepped : party.step event = some (next, effects)) :
      BlockHolds recvBufBytes next.table := step_holds_block holds stepped
  constructor
  · exact throughout_iff (BlockHolds recvBufBytes)
      (fun table event holds => inside_iff_fits small holds event) kept events begins
  · exact throughout_iff (BlockHolds recvBufBytes)
      (fun table event holds => event_handled_iff holds event) kept events begins

def synSegment : Seg :=
  { Seg.cleared with
    header := { MrtHdr.cleared with type := SegType.syn, srcPort := 100, destPort := 200 } }

def fiveByteSegment : Seg :=
  { Seg.cleared with
    header := { MrtHdr.cleared with
      type := SegType.data
      srcPort := 100
      destPort := 200
      length := 5 } }

def fiveByteRun : List ServerEvent :=
  [.accept, .segment 2 synSegment, .segment 2 fiveByteSegment]

theorem fifth_byte_outside :
    ¬ ∀ (myNodeID : Int32) (port clientNodeID clientPortNum expectSeqNum : UInt32)
      (recvBuf : Vector Byte recvBufBytes) (events : List ServerEvent),
      ServerParty.Throughout (fun table event => event.Inside recvBufBytes table)
        ⟨mrtServerSock myNodeID port clientNodeID clientPortNum expectSeqNum recvBuf, 0⟩
        events := by
  intro inside
  have run := inside 1 200 0 0 0 ⟨#[0, 0, 0, 0], rfl⟩ fiveByteRun
  have accepted := run.2 _ _ rfl
  have connected := accepted.2 _ _ rfl
  have copies := connected.1 ⟨rfl, ⟨rfl, rfl⟩, rfl, rfl, by decide⟩ 4 (by decide)
  exact absurd copies.1 (by decide)

end MiniOverlay
