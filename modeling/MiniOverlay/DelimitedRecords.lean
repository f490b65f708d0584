import MiniOverlay.DelimitedFrames
import MiniOverlay.FixedByteCodec

/-!
# Records between `!&` and `!#`

Every connection of the overlay carries C records between the same two
delimiters. The senders make three `send` calls and the receivers run the same
automaton over a buffer two bytes longer than the record, so the senders and
the receivers of `common/seg.c` and `common/pkt.c` are all instances of the two
definitions here.
-/

namespace MiniOverlay

open DelimitedFrames FixedByteCodec

set_option autoImplicit false

def markers : Markers Byte := ⟨'!'.toUInt8, '&'.toUInt8, '#'.toUInt8, by decide⟩

def bufStart : List Byte := [markers.escape, markers.opening]

def bufEnd : List Byte := [markers.escape, markers.closing]

/-- The three `send` calls that put one image on a connection. -/
def sendDelimited (image : List Byte) : List (List Byte) := [bufStart, image, bufEnd]

theorem send_delimited_flatten (image : List Byte) :
    (sendDelimited image).flatten = frameOf markers image := by
  simp [sendDelimited, bufStart, bufEnd, frameOf]

/-- A receiver of one whole record: it stores the bytes between the delimiters
in `char buf[sizeof(record) + 2]`, asserts that there are `sizeof(record)` of
them and copies them out. -/
def recvRecord {Value : Type} (codec : FixedCodec Value) (stream : List Byte) :
    Read Value Byte :=
  match scan markers (codec.width + 2) .start1 [] stream with
  | .frame payload rest =>
      if payload.length = codec.width then .got (codec.decode payload) rest
      else .assertionFailed
  | .ended => .ended
  | .overrun => .overrun

section Records

variable {Value : Type} (codec : FixedCodec Value)

theorem recv_record_nil : recvRecord codec [] = .ended := rfl

def recordFrame (value : Value) : List Byte := frameOf markers (codec.encode value)

theorem recv_record_clean (value : Value) (clean : Clean markers (codec.encode value))
    (rest : List Byte) :
    recvRecord codec (recordFrame codec value ++ rest) = .got value rest := by
  have length := codec.encode_length value
  have scanned := scan_clean_frame (codec.width + 2) (codec.encode value) rest clean (by omega)
  simp [recvRecord, recordFrame, scanned, length, codec.decode_encode]

/-- An image with `!#` inside ends early, so the length assertion fails. -/
theorem recv_record_dirty (value : Value) (dirty : ¬ Clean markers (codec.encode value))
    (rest : List Byte) :
    recvRecord codec (recordFrame codec value ++ rest) = .assertionFailed := by
  have length := codec.encode_length value
  obtain ⟨before, after, split, clean⟩ := first_end_marker dirty
  rw [split] at length
  have scanned := scan_dirty_frame (codec.width + 2) before after rest clean (by omega)
  have short : before.length ≠ codec.width := by
    simp only [List.length_append, List.length_cons] at length
    omega
  simp [recvRecord, recordFrame, split, scanned, short]

theorem stream_of_recv_record {stream : List Byte} {value : Value} {rest : List Byte}
    (received : recvRecord codec (bufStart ++ stream) = .got value rest) :
    ∃ image, image.length = codec.width ∧ value = codec.decode image ∧
      stream = image ++ bufEnd ++ rest := by
  unfold recvRecord at received
  split at received
  case h_1 payload suffix scanned =>
    split_ifs at received with length
    obtain ⟨rfl, rfl⟩ := Read.got.inj received
    refine ⟨payload, length, rfl, ?_⟩
    have found := stream_of_scan (codec.width + 2) stream payload suffix
      (by simpa [bufStart] using scanned)
    simpa [bufEnd] using found
  case h_2 => cases received
  case h_3 => cases received

theorem calls_clean (values : List Value)
    (clean : ∀ value ∈ values, Clean markers (codec.encode value)) (count : Nat)
    (suffix : List Byte) :
    calls (recvRecord codec) (values.length + count)
        (values.flatMap (recordFrame codec) ++ suffix) =
      gotAll (recordFrame codec) suffix values ++ calls (recvRecord codec) count suffix :=
  calls_of_round_trip (fun value member => recv_record_clean codec value (clean value member))
    count suffix

theorem calls_ended (values : List Value)
    (clean : ∀ value ∈ values, Clean markers (codec.encode value)) :
    calls (recvRecord codec) (values.length + 1) (values.flatMap (recordFrame codec)) =
      gotAll (recordFrame codec) [] values ++ [.ended] := by
  simpa [calls, recv_record_nil] using calls_clean codec values clean 1 []

theorem calls_first_dirty (good more : List Value) (bad : Value)
    (clean : ∀ value ∈ good, Clean markers (codec.encode value))
    (dirty : ¬ Clean markers (codec.encode bad)) (count : Nat) :
    calls (recvRecord codec) (good.length + (count + 1))
        ((good ++ bad :: more).flatMap (recordFrame codec)) =
      gotAll (recordFrame codec) ((bad :: more).flatMap (recordFrame codec)) good ++
        [.assertionFailed] := by
  have failed : calls (recvRecord codec) (count + 1)
      ((bad :: more).flatMap (recordFrame codec)) = [.assertionFailed] := by
    rw [calls, List.flatMap_cons, recv_record_dirty codec bad dirty]
  rw [List.flatMap_append, calls_clean codec good clean, failed]

theorem all_clean_or_first_dirty (values : List Value) :
    (∀ value ∈ values, Clean markers (codec.encode value)) ∨
      ∃ good bad more, values = good ++ bad :: more ∧
        (∀ value ∈ good, Clean markers (codec.encode value)) ∧
        ¬ Clean markers (codec.encode bad) := by
  induction values with
  | nil => simp
  | cons value values ih =>
      by_cases clean : Clean markers (codec.encode value)
      · rcases ih with all | ⟨good, bad, more, rfl, goodClean, dirty⟩
        · exact Or.inl (by simpa [clean] using all)
        · exact Or.inr ⟨value :: good, bad, more, rfl, by simpa [clean] using goodClean, dirty⟩
      · exact Or.inr ⟨[], value, values, rfl, by simp, clean⟩

theorem calls_exact_iff (values : List Value) :
    calls (recvRecord codec) (values.length + 1) (values.flatMap (recordFrame codec)) =
        gotAll (recordFrame codec) [] values ++ [.ended] ↔
      ∀ value ∈ values, Clean markers (codec.encode value) := by
  refine ⟨fun exact => ?_, calls_ended codec values⟩
  rcases all_clean_or_first_dirty codec values with clean | ⟨good, bad, more, rfl, clean, dirty⟩
  · exact clean
  · have count : (good ++ bad :: more).length + 1 = good.length + (more.length + 1 + 1) := by
      simp only [List.length_append, List.length_cons]
      omega
    rw [count, calls_first_dirty codec good more bad clean dirty] at exact
    have last := congrArg List.getLast? exact
    simp at last

end Records

end MiniOverlay
