import MiniOverlay.SendBufferTimer
import Mathlib.Algebra.Ring.Int.Defs

/-!
# What the retransmission test measures

`sendBuffer_sending` multiplies the seconds of the clock by 1000 and
`sendBuffer_timeout` by 10000 before they add the microseconds and store the sum in
32 bits; `sendingBuffer_timer` compares it with the clock in microseconds. A stored
time that is not 0 is almost always less, so the test holds at the first poll.
-/

namespace MiniOverlay

open LinkedHeap FixedByteCodec

set_option autoImplicit false

inductive TimeSetter where
  | sending
  | timeout
  deriving DecidableEq

def TimeSetter.stamp : TimeSetter → Timeval → UInt32
  | .sending, time => time.stamp 1000
  | .timeout, time => time.stamp 10000

/-- The `sentTime` of a cell was last set by a turn of the loop of one of the two
functions at this reading of the clock. -/
inductive LastSet (time : Timeval) (address : Nat) : TimeSetter → Client → Prop where
  | sending {before after : Client} {effects : List ClientEffect}
      (unSent : before.tcb.sendBufunSent = some address)
      (window : before.tcb.unAckSegNum.toNat < gbnWindow)
      (turn : sendBufferSendingLoop (fun _ => time) 1 before = some (after, effects)) :
      LastSet time address .sending after
  | timeout {before after : Client} {effects : List ClientEffect}
      (turn : sendBufferTimeoutLoop (fun _ => time) 1 before (some address) =
        some (after, effects)) :
      LastSet time address .timeout after
  | kept {setter : TimeSetter} {before after : Client} {cell later : Cell SegBuf}
      (set : LastSet time address setter before)
      (held : read before.heap (some address) = some cell)
      (heldLater : read after.heap (some address) = some later)
      (same : later.val.sentTime = cell.val.sentTime) : LastSet time address setter after

def Timeval.micros (time : Timeval) : Int := time.tvSec.toInt * 1000000 + time.tvUsec.toInt

/-- A reading of the clock whose microseconds a `long` can count. -/
structure Timeval.Reading (time : Timeval) : Prop where
  sec : 0 ≤ time.tvSec.toInt
  usec : 0 ≤ time.tvUsec.toInt
  below : time.tvUsec.toInt < 1000000
  counted : time.micros < 2 ^ 63

def Late (sent currentTime : Timeval) : Prop :=
  dataTimeout.toInt < currentTime.micros - sent.micros

instance (sent currentTime : Timeval) : Decidable (Late sent currentTime) :=
  inferInstanceAs (Decidable (_ < _))

/-- The turn of the timer does what `sendBuffer_timeout` does. -/
def CallsTimeout (currentTime : Timeval) (now : Nat → Timeval) (client : Client) : Prop :=
  sendingBufferTimerTurn currentTime now client =
    (sendBufferTimeout now client).map fun result => .goesOn result.1 result.2

theorem clock_sum (time : Timeval) (factor : Int64) :
    (time.tvSec * factor + time.tvUsec).toInt =
      (time.tvSec.toInt * factor.toInt + time.tvUsec.toInt).bmod (2 ^ 64) := by
  rw [Int64.toInt_add, Int64.toInt_mul, Int.bmod_add_bmod]

theorem small_bmod {value : Int} (least : -2 ^ 63 ≤ value) (most : value < 2 ^ 63) :
    value.bmod (2 ^ 64) = value :=
  Int.bmod_eq_of_le (by omega) (by omega)

theorem stamp_le {time : Timeval} (reading : time.Reading) {factor : Int64}
    (nonneg : 0 ≤ factor.toInt) (small : factor.toInt ≤ 1000000) :
    ((time.stamp factor).toNat : Int) ≤ time.micros := by
  have sec := reading.sec
  have usec := reading.usec
  have counted := reading.counted
  have product : time.tvSec.toInt * factor.toInt ≤ time.tvSec.toInt * 1000000 :=
    Int.mul_le_mul_of_nonneg_left small sec
  have positive : 0 ≤ time.tvSec.toInt * factor.toInt := Int.mul_nonneg sec nonneg
  rw [Timeval.micros] at counted ⊢
  have sum := clock_sum time factor
  rw [small_bmod (by omega) (by omega)] at sum
  have isNonneg : 0 ≤ time.tvSec * factor + time.tvUsec := by
    rw [Int64.le_iff_toInt_le, sum]
    exact Int.add_nonneg positive usec
  have stored : (time.stamp factor).toNat ≤
      (time.tvSec * factor + time.tvUsec).toUInt64.toNat := by
    rw [Timeval.stamp, UInt64.toNat_toUInt32]
    exact Nat.mod_le _ _
  rw [Int64.toNat_toUInt64_of_le isNonneg, ← Int64.toNat_toInt, sum] at stored
  omega

theorem setter_stamp_le {time : Timeval} (reading : time.Reading) (setter : TimeSetter) :
    ((setter.stamp time).toNat : Int) ≤ time.micros := by
  cases setter with
  | sending => exact stamp_le reading (by decide) (by decide)
  | timeout => exact stamp_le reading (by decide) (by decide)

theorem last_set_stamp {time : Timeval} {address : Nat} {setter : TimeSetter} {client : Client}
    (set : LastSet time address setter client) :
    ∃ cell, read client.heap (some address) = some cell ∧
      cell.val.sentTime = setter.stamp time := by
  induction set with
  | sending unSent window turn =>
      simp only [sendBufferSendingLoop, unSent, window, ne_eq, reduceCtorEq, not_false_eq_true,
        and_self, if_true, Option.bind_eq_bind, Option.bind_eq_some_iff] at turn
      obtain ⟨cell, _, heap, written, later, rest, turn⟩ := turn
      cases rest
      cases turn
      exact ⟨_, write_read written, rfl⟩
  | timeout turn =>
      obtain ⟨cell, heap, sends, _, written, rest, _⟩ := timeout_loop_turn turn
      cases rest
      exact ⟨_, write_read written, rfl⟩
  | kept set held heldLater same ih =>
      obtain ⟨cell, heldBefore, stamped⟩ := ih
      obtain rfl := Option.some.inj (held.symm.trans heldBefore)
      exact ⟨_, heldLater, same.trans stamped⟩

theorem timeout_not_silent (now : Nat → Timeval) {client : Client}
    (waiting : 0 < client.tcb.unAckSegNum.toNat) :
    sendBufferTimeout now client ≠ some (client, []) := by
  intro silent
  obtain ⟨turns, count⟩ := Nat.exists_eq_succ_of_ne_zero (Nat.pos_iff_ne_zero.mp waiting)
  rw [sendBufferTimeout, count] at silent
  obtain ⟨_, _, _, _, _, _, sends⟩ := timeout_loop_turn silent
  cases sends

theorem timer_test {currentTime : Timeval} (reading : currentTime.Reading) (sentTime : UInt32) :
    (sentTime > 0 ∧ sentTime.toUInt64.toInt64 <
        currentTime.tvSec * 1000000 + currentTime.tvUsec - dataTimeout) ↔
      sentTime ≠ 0 ∧ (sentTime.toNat : Int) + dataTimeout.toInt < currentTime.micros := by
  have sec := reading.sec
  have usec := reading.usec
  have counted := reading.counted
  have small := sentTime.toNat_lt
  have timeout : dataTimeout.toInt = 100000 := rfl
  have factor : (1000000 : Int64).toInt = 1000000 := rfl
  have stored : sentTime.toUInt64.toInt64.toInt = sentTime.toNat := by
    have inside : 2 * sentTime.toUInt64.toBitVec.toNat < 2 ^ 64 := by
      rw [UInt64.toNat_toBitVec, UInt32.toNat_toUInt64]
      omega
    change sentTime.toUInt64.toBitVec.toInt = _
    rw [BitVec.toInt_eq_toNat_of_lt inside, UInt64.toNat_toBitVec, UInt32.toNat_toUInt64]
  have deadline : (currentTime.tvSec * 1000000 + currentTime.tvUsec - dataTimeout).toInt =
      currentTime.micros - dataTimeout.toInt := by
    rw [Int64.toInt_sub, clock_sum, factor, ← Timeval.micros, Int.bmod_sub_bmod]
    apply small_bmod
    · rw [Timeval.micros] at *
      omega
    · omega
  rw [Int64.lt_iff_toInt_lt, stored, deadline, gt_iff_lt, UInt32.pos_iff_ne_zero,
    Int.lt_sub_right_iff_add_lt]

theorem calls_timeout_iff (now : Nat → Timeval) {currentTime : Timeval} {client : Client}
    {cell : Cell SegBuf} (reading : currentTime.Reading)
    (head : read client.heap client.tcb.sendBufHead = some cell)
    (waiting : 0 < client.tcb.unAckSegNum) :
    CallsTimeout currentTime now client ↔ cell.val.sentTime ≠ 0 ∧
      (cell.val.sentTime.toNat : Int) + dataTimeout.toInt < currentTime.micros := by
  have some_ : client.tcb.unAckSegNum ≠ 0 := by
    rintro none
    rw [none] at waiting
    exact absurd waiting (by decide)
  rw [← timer_test reading, CallsTimeout, sendingBufferTimerTurn, if_neg some_, head,
    Option.bind_eq_bind, Option.bind_some]
  split_ifs with late
  · simp only [late, and_self, iff_true]
    rw [Option.map_eq_bind]
    rfl
  · refine iff_of_false ?_ late
    intro same
    obtain ⟨⟨after, effects⟩, run, turn⟩ := Option.map_eq_some_iff.mp same.symm
    cases turn
    exact timeout_not_silent now (by rwa [UInt32.lt_iff_toNat_lt] at waiting) run

theorem sending_sets (now : Nat → Timeval) {client after : Client} {effects : List ClientEffect}
    {sent rest : List (Nat × SegBuf)} {entry : Nat × SegBuf}
    (intact : Intact client sent (entry :: rest)) (room : sent.length < gbnWindow)
    (run : sendBufferSending now client = some (after, effects)) :
    LastSet (now 9) entry.1 .sending after := by
  obtain ⟨once, timer, onceIntact, _, _, _, _, _, single⟩ :=
    sending_turn (fun _ => now 9) 0 client sent rest entry intact room
  obtain ⟨next, _, nextIntact, _, _, _, _, _, split⟩ :=
    sending_turn now 9 client sent rest entry intact room
  obtain ⟨last, lastEffects, moved, left, others, facts⟩ :=
    sending_loop_cells now 9 next _ rest nextIntact
  have whole : sendBufferSendingLoop now (9 + 1) client = some (after, effects) := run
  rw [split, others, Option.map_some] at whole
  cases whole
  have window : client.tcb.unAckSegNum.toNat < gbnWindow := intact.unAck ▸ room
  have first := onceIntact.owns
  have later := facts.intact.owns
  simp only [List.append_assoc, List.cons_append, List.nil_append] at first later
  have held := owns_read first
  have heldLater := owns_read later
  exact .kept (.sending intact.unSent window single) held heldLater rfl

/-- The timer's test measures `DATA_TIMEOUT` exactly when the stored time is 0 and the
timeout has not passed, or it is not 0 and the timeout has passed or the clock has not
come further than the stored number of microseconds and the timeout. -/
theorem measures_timeout_iff (setter : TimeSetter) (sent currentTime : Timeval)
    (now : Nat → Timeval) (client : Client) (address : Nat)
    (set : LastSet sent address setter client) (head : client.tcb.sendBufHead = some address)
    (waiting : 0 < client.tcb.unAckSegNum) (sentReading : sent.Reading)
    (reading : currentTime.Reading) :
    (CallsTimeout currentTime now client ↔ Late sent currentTime) ↔
      if setter.stamp sent = 0 then ¬ Late sent currentTime
      else Late sent currentTime ∨
        currentTime.micros ≤ (setter.stamp sent).toNat + dataTimeout.toInt := by
  obtain ⟨cell, held, stamped⟩ := last_set_stamp set
  have least := setter_stamp_le sentReading setter
  rw [calls_timeout_iff now reading (head ▸ held) waiting, stamped, Late]
  split_ifs with zero
  · simp [zero]
  · simp only [ne_eq, zero, not_false_eq_true, true_and]
    omega

def billionSeconds : Timeval := ⟨1000000000, 0⟩

/-- Sent again at 10 ^ 9 seconds, a segment is sent once more a second later. -/
theorem second_later_times_out :
    ∃ client address, LastSet billionSeconds address .timeout client ∧
      client.tcb.sendBufHead = some address ∧ 0 < client.tcb.unAckSegNum ∧
      (CallsTimeout ⟨1000000001, 0⟩ (fun _ => ⟨1000000001, 0⟩) client ↔
        Late billionSeconds ⟨1000000001, 0⟩) := by
  let before : Client := ⟨[some ⟨⟨oneByteSegment, 0⟩, none⟩],
    { establishedClient.tcb with sendBufHead := some 0, unAckSegNum := 1 }⟩
  let after : Client := ⟨[some ⟨⟨oneByteSegment, billionSeconds.stamp 10000⟩, none⟩], before.tcb⟩
  obtain ⟨effects, turn⟩ : ∃ effects, sendBufferTimeoutLoop (fun _ => billionSeconds) 1 before
      (some 0) = some (after, effects) := ⟨_, rfl⟩
  have set : LastSet billionSeconds 0 .timeout after := .timeout turn
  exact ⟨after, 0, set, rfl, by decide,
    (measures_timeout_iff .timeout billionSeconds ⟨1000000001, 0⟩ _ after 0 set rfl (by decide)
      ⟨by decide, by decide, by decide, by decide⟩ ⟨by decide, by decide, by decide, by decide⟩).mpr
      (by decide)⟩

/-- A segment sent at 10 ^ 9 seconds times out at the same reading of the clock. -/
theorem sent_times_out_at_once :
    ∃ client address, BufferReaches establishedClient client 1 ∧
      LastSet billionSeconds address .sending client ∧
      client.tcb.sendBufHead = some address ∧ 0 < client.tcb.unAckSegNum ∧
      CallsTimeout billionSeconds (fun _ => billionSeconds) client ∧
      ¬ Late billionSeconds billionSeconds := by
  let now : Nat → Timeval := fun _ => billionSeconds
  obtain ⟨queued, queueing, appends⟩ :=
    queue_cells establishedClient [] oneByteSegment ⟨rfl, List.nodup_nil⟩ rfl
  let entry : Nat × SegBuf :=
    (establishedClient.heap.length, (queuedCell establishedClient oneByteSegment).val)
  have unAck : queued.tcb.unAckSegNum.toNat = 0 := by
    rw [appends.unAck]
    rfl
  have intact : Intact queued [] [entry] :=
    ⟨appends.owns, appends.unSent, Or.inr appends.tail, unAck, Nat.zero_le _⟩
  obtain ⟨client, effects, moved, rest, run, facts⟩ :=
    sending_loop_cells now gbnWindow queued [] [entry] intact
  have set := sending_sets now intact (Nat.zero_lt_succ 9) run
  have first := chain_first facts.intact.owns.chain
  have same := congrArg List.head? (addresses_of_labels facts.cells)
  have head : client.tcb.sendBufHead = some entry.1 := by
    rw [first, firstPtr, List.nil_append, ← List.head?_map]
    exact same
  have count : client.tcb.unAckSegNum.toNat = 1 := by
    rw [facts.intact.unAck, List.nil_append, facts.count]
    rfl
  have waiting : 0 < client.tcb.unAckSegNum := by
    rw [UInt32.lt_iff_toNat_lt, count]
    decide
  have appended : BufferReaches establishedClient queued 1 :=
    .step (.append oneByteSegment) .start (Nat.le_refl 1) queueing
  have sent : BufferReaches establishedClient client 1 :=
    .step (.sending now) appended trivial
      (Option.map_eq_some_iff.mpr ⟨(client, effects), run, rfl⟩)
  obtain ⟨cell, held, stamped⟩ := last_set_stamp set
  refine ⟨client, entry.1, sent, set, head, waiting, ?_, by decide⟩
  rw [calls_timeout_iff _ ⟨by decide, by decide, by decide, by decide⟩ (head ▸ held) waiting,
    stamped]
  decide

end MiniOverlay
