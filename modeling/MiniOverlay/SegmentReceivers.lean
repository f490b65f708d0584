import MiniOverlay.SegmentIo

/-!
# The two receivers of a segment record

`mnp_recvseg` of `common/seg.c` beside `getsegToSend`. Both are documented with
the same delimiters, and they differ in one `break`: in `mnp_recvseg` a byte
that leaves START1 where it is falls through into the test of START2. So
`mnp_recvseg` starts a record at the first opening byte and `getsegToSend` at
the first start marker, and the two agree only as far as the bodies behind these
two places do.
-/

namespace MiniOverlay

open DelimitedFrames FixedByteCodec

set_option autoImplicit false

/-- `seglost` is the answer of the `draws`-th call of `seglost()`; a lost segment
sends the automaton back to START1 with an empty buffer. -/
def mnpRecvsegFrom (seglost : Nat → Bool) :
    Phase → List Byte → Nat → List Byte → Read SendsegArg Byte
  | _, _, _, [] => .ended
  | .start1, held, draws, c :: conn =>
      if c = markers.escape then mnpRecvsegFrom seglost .start2 held draws conn
      -- no `break`: every other byte meets the test of START2
      else if c = markers.opening then mnpRecvsegFrom seglost .recv held draws conn
      else mnpRecvsegFrom seglost .start1 held draws conn
  | .start2, held, draws, c :: conn =>
      if c = markers.opening then mnpRecvsegFrom seglost .recv held draws conn
      else mnpRecvsegFrom seglost .start1 held draws conn
  | .recv, held, draws, c :: conn =>
      if held.length < sizeofSendsegArg + 2 then
        if c = markers.escape then mnpRecvsegFrom seglost .stop1 (held ++ [c]) draws conn
        else mnpRecvsegFrom seglost .recv (held ++ [c]) draws conn
      else .overrun
  | .stop1, held, draws, c :: conn =>
      if held.length < sizeofSendsegArg + 2 then
        if c = markers.closing then
          if held.dropLast.length = sizeofSendsegArg then
            if seglost draws then mnpRecvsegFrom seglost .start1 [] (draws + 1) conn
            else .got (sendsegArgCodec.decode held.dropLast) conn
          else .assertionFailed
        else if c = markers.escape then mnpRecvsegFrom seglost .stop1 (held ++ [c]) draws conn
        else mnpRecvsegFrom seglost .recv (held ++ [c]) draws conn
      else .overrun

/-- The value of a successful call is `*src_nodeID` with `*segPtr`. -/
def mnpRecvseg (seglost : Nat → Bool) (networkConn : List Byte) : Read SendsegArg Byte :=
  mnpRecvsegFrom seglost .start1 [] 0 networkConn

/-- The answers of `seglost` when no segment is lost. -/
def neverLost : Nat → Bool := fun _ => false

def readScan : Scan Byte → Read SendsegArg Byte
  | .frame payload rest =>
      if payload.length = sizeofSendsegArg then .got (sendsegArgCodec.decode payload) rest
      else .assertionFailed
  | .ended => .ended
  | .overrun => .overrun

def readBody (body : List Byte) : Read SendsegArg Byte :=
  readScan (scan markers (sizeofSendsegArg + 2) .recv [] body)

theorem mnp_recvseg_body (phase : Phase) (held conn : List Byte) (draws : Nat)
    (inBody : phase.InBody) :
    mnpRecvsegFrom neverLost phase held draws conn =
      readScan (scan markers (sizeofSendsegArg + 2) phase held conn) := by
  induction conn generalizing phase held with
  | nil => rcases inBody with rfl | rfl <;> rfl
  | cons c conn ih =>
      rcases inBody with rfl | rfl
      · simp only [mnpRecvsegFrom, scan]
        split_ifs
        · exact ih .stop1 (held ++ [c]) (Or.inr rfl)
        · exact ih .recv (held ++ [c]) (Or.inl rfl)
        · rfl
      · simp only [mnpRecvsegFrom, scan, neverLost]
        split_ifs with room isClosing whole lost isEscape
        · cases lost
        · rw [readScan, if_pos whole]
        · rw [readScan, if_neg whole]
        · exact ih .stop1 (held ++ [c]) (Or.inr rfl)
        · exact ih .recv (held ++ [c]) (Or.inl rfl)
        · rfl

theorem mnp_recvseg_start (phase : Phase) (conn : List Byte)
    (starting : phase = .start1 ∨ phase = .start2) :
    mnpRecvsegFrom neverLost phase [] 0 conn =
      match afterOpening markers conn with
      | some body => readBody body
      | none => .ended := by
  induction conn generalizing phase with
  | nil => rcases starting with rfl | rfl <;> rfl
  | cons c conn ih =>
      by_cases isOpening : c = markers.opening
      · have started := mnp_recvseg_body .recv [] conn 0 (Or.inl rfl)
        have notEscape : markers.opening ≠ markers.escape := by decide
        rcases starting with rfl | rfl <;>
          simpa [mnpRecvsegFrom, afterOpening, isOpening, notEscape, readBody] using started
      · rcases starting with rfl | rfl
        · simp only [mnpRecvsegFrom, afterOpening, if_neg isOpening]
          split_ifs
          · exact ih .start2 (Or.inr rfl)
          · exact ih .start1 (Or.inl rfl)
        · simp only [mnpRecvsegFrom, afterOpening, if_neg isOpening]
          exact ih .start1 (Or.inl rfl)

theorem mnp_recvseg_eq (conn : List Byte) :
    mnpRecvseg neverLost conn =
      match afterOpening markers conn with
      | some body => readBody body
      | none => .ended :=
  mnp_recvseg_start .start1 conn (Or.inl rfl)

theorem getseg_to_send_start (conn : List Byte) :
    getsegToSend conn =
      match afterMarker markers conn with
      | some body => readBody body
      | none => .ended := by
  rw [getsegToSend, recvRecord, scan_start]
  cases afterMarker markers conn <;> rfl

def Unfinished (body : List Byte) : Prop :=
  Clean markers body ∧ body.length ≤ sizeofSendsegArg + 2

/-- The end marker comes before `sizeof(sendseg_arg_t)` bytes have. -/
def TooShort (body : List Byte) : Prop :=
  ∃ payload rest, body = payload ++ bufEnd ++ rest ∧ Clean markers payload ∧
    payload.length < sizeofSendsegArg

def TooLong (body : List Byte) : Prop :=
  Clean markers (body.take (sizeofSendsegArg + 2)) ∧ sizeofSendsegArg + 2 < body.length

theorem read_closed_body (payload rest : List Byte) (clean : Clean markers payload)
    (fits : payload.length ≤ sizeofSendsegArg) :
    readBody (payload ++ bufEnd ++ rest) = readScan (.frame payload rest) := by
  have scanned := scan_body (sizeofSendsegArg + 2) .recv [] payload rest (Or.inl rfl)
    (by simpa [Phase.pending] using clean) (by simpa using fits)
  simpa [readBody, bufEnd] using congrArg readScan scanned

theorem read_unfinished {body : List Byte} (unfinished : Unfinished body) :
    readBody body = .ended := by
  rw [readBody, scan_unfinished (sizeofSendsegArg + 2) body unfinished.1 unfinished.2, readScan]

theorem read_too_short {body : List Byte} (short : TooShort body) :
    readBody body = .assertionFailed := by
  obtain ⟨payload, rest, rfl, clean, less⟩ := short
  rw [read_closed_body payload rest clean (Nat.le_of_lt less), readScan, if_neg (Nat.ne_of_lt less)]

theorem read_too_long {body : List Byte} (long : TooLong body) : readBody body = .overrun := by
  rw [readBody, scan_overruns (sizeofSendsegArg + 2) body long.1 long.2, readScan]

theorem read_whole (payload rest : List Byte) (clean : Clean markers payload)
    (whole : payload.length = sizeofSendsegArg) :
    readBody (payload ++ bufEnd ++ rest) = .got (sendsegArgCodec.decode payload) rest := by
  rw [read_closed_body payload rest clean (Nat.le_of_eq whole), readScan, if_pos whole]

/-- An end marker that comes while the buffer has room for it closes a payload of
at most `sizeof(sendseg_arg_t)` bytes. -/
theorem body_of_end_marker (body : List Byte)
    (dirty : ¬ Clean markers (body.take (sizeofSendsegArg + 2))) :
    ∃ payload rest, body = payload ++ bufEnd ++ rest ∧ Clean markers payload ∧
      payload.length ≤ sizeofSendsegArg := by
  obtain ⟨payload, after, split, clean⟩ := first_end_marker dirty
  have taken : (body.take (sizeofSendsegArg + 2)).length ≤ sizeofSendsegArg + 2 :=
    List.length_take_le _ _
  refine ⟨payload, after ++ body.drop (sizeofSendsegArg + 2), ?_, clean, ?_⟩
  · conv_lhs => rw [← List.take_append_drop (sizeofSendsegArg + 2) body, split]
    simp [bufEnd]
  · rw [split] at taken
    simp only [List.length_append, List.length_cons] at taken
    omega

theorem read_body_cases (body : List Byte) :
    (Unfinished body ∧ readBody body = .ended) ∨
      (TooShort body ∧ readBody body = .assertionFailed) ∨
      (TooLong body ∧ readBody body = .overrun) ∨
      ∃ arg rest, readBody body = .got arg rest ∧
        body.length = sizeofSendsegArg + 2 + rest.length := by
  by_cases clean : Clean markers (body.take (sizeofSendsegArg + 2))
  · by_cases fits : body.length ≤ sizeofSendsegArg + 2
    · have unfinished : Unfinished body := ⟨by rwa [List.take_of_length_le fits] at clean, fits⟩
      exact Or.inl ⟨unfinished, read_unfinished unfinished⟩
    · have long : TooLong body := ⟨clean, by omega⟩
      exact Or.inr (Or.inr (Or.inl ⟨long, read_too_long long⟩))
  · obtain ⟨payload, rest, rfl, payloadClean, fits⟩ := body_of_end_marker body clean
    rcases Nat.lt_or_eq_of_le fits with less | whole
    · have short : TooShort (payload ++ bufEnd ++ rest) :=
        ⟨payload, rest, rfl, payloadClean, less⟩
      exact Or.inr (Or.inl ⟨short, read_too_short short⟩)
    · refine Or.inr (Or.inr (Or.inr ⟨_, rest, read_whole payload rest payloadClean whole, ?_⟩))
      simp only [List.length_append, bufEnd, List.length_cons, List.length_nil, whole]

theorem read_ended_iff (body : List Byte) : readBody body = .ended ↔ Unfinished body := by
  refine ⟨fun ended => ?_, read_unfinished⟩
  rcases read_body_cases body with ⟨unfinished, _⟩ | ⟨_, read⟩ | ⟨_, read⟩ | ⟨_, _, read, _⟩
  · exact unfinished
  all_goals rw [read] at ended; cases ended

theorem read_assertion_iff (body : List Byte) :
    readBody body = .assertionFailed ↔ TooShort body := by
  refine ⟨fun failed => ?_, read_too_short⟩
  rcases read_body_cases body with ⟨_, read⟩ | ⟨short, _⟩ | ⟨_, read⟩ | ⟨_, _, read, _⟩
  · rw [read] at failed; cases failed
  · exact short
  all_goals rw [read] at failed; cases failed

theorem read_overrun_iff (body : List Byte) : readBody body = .overrun ↔ TooLong body := by
  refine ⟨fun overran => ?_, read_too_long⟩
  rcases read_body_cases body with ⟨_, read⟩ | ⟨_, read⟩ | ⟨long, _⟩ | ⟨_, _, read, _⟩
  · rw [read] at overran; cases overran
  · rw [read] at overran; cases overran
  · exact long
  · rw [read] at overran; cases overran

theorem read_got_length (body rest : List Byte) (arg : SendsegArg)
    (got : readBody body = .got arg rest) :
    body.length = sizeofSendsegArg + 2 + rest.length := by
  rcases read_body_cases body with ⟨_, read⟩ | ⟨_, read⟩ | ⟨_, read⟩ | ⟨_, _, read, length⟩
  · rw [read] at got; cases got
  · rw [read] at got; cases got
  · rw [read] at got; cases got
  · rw [read] at got
    cases got
    exact length

/-- Both calls return 1 with the same node ID and segment and leave the same
bytes, or both return -1, or both fail the length assertion. -/
def SameResult (left right : Read SendsegArg Byte) : Prop :=
  (∃ arg rest, left = .got arg rest ∧ right = .got arg rest) ∨
    (left = .ended ∧ right = .ended) ∨ (left = .assertionFailed ∧ right = .assertionFailed)

theorem same_result_iff (left right : Read SendsegArg Byte) :
    SameResult left right ↔ left = right ∧ left ≠ .overrun := by
  constructor
  · rintro (⟨arg, rest, rfl, rfl⟩ | ⟨rfl, rfl⟩ | ⟨rfl, rfl⟩) <;> simp
  · rintro ⟨rfl, fits⟩
    cases left with
    | got arg rest => exact Or.inl ⟨arg, rest, rfl, rfl⟩
    | ended => exact Or.inr (Or.inl ⟨rfl, rfl⟩)
    | assertionFailed => exact Or.inr (Or.inr ⟨rfl, rfl⟩)
    | overrun => exact absurd rfl fits

/-- The body behind the first opening byte never ends, or it is also the body
behind the first start marker and stays in the buffer, or both bodies end before
a whole record. -/
def OneGrammar (conn : List Byte) : Prop :=
  ∀ early, afterOpening markers conn = some early →
    Unfinished early ∨ (afterMarker markers conn = some early ∧ ¬ TooLong early) ∨
      (TooShort early ∧ ∃ late, afterMarker markers conn = some late ∧ TooShort late)

theorem one_started_iff (early : List Byte) :
    SameResult (readBody early) .ended ↔ Unfinished early := by
  rw [same_result_iff, ← read_ended_iff]
  refine ⟨fun same => same.1, fun ended => ⟨ended, ?_⟩⟩
  rw [ended]
  simp

theorem same_start_iff (body : List Byte) :
    SameResult (readBody body) (readBody body) ↔ ¬ TooLong body := by
  rw [same_result_iff, ← read_overrun_iff]
  simp

/-- Both have found a start, `getsegToSend` behind the other one. -/
theorem later_start_iff (early late : List Byte) (isSuffix : late <:+ early)
    (shorter : late.length < early.length) :
    SameResult (readBody early) (readBody late) ↔
      Unfinished early ∨ (TooShort early ∧ TooShort late) := by
  rw [same_result_iff, ← read_assertion_iff, ← read_assertion_iff]
  constructor
  · rintro ⟨same, fits⟩
    cases earlyRead : readBody early with
    | got arg rest =>
        have earlyLength := read_got_length early rest arg earlyRead
        have lateLength := read_got_length late rest arg (same.symm.trans earlyRead)
        omega
    | ended => exact Or.inl ((read_ended_iff early).mp earlyRead)
    | assertionFailed => exact Or.inr ⟨rfl, same.symm.trans earlyRead⟩
    | overrun => exact absurd earlyRead fits
  · rintro (unfinished | ⟨earlyFails, lateFails⟩)
    · have lateUnfinished : Unfinished late :=
        ⟨unfinished.1.of_suffix isSuffix, shorter.le.trans unfinished.2⟩
      rw [read_unfinished unfinished, read_unfinished lateUnfinished]
      simp
    · rw [earlyFails, lateFails]
      simp

/-- The two receivers agree on a stream exactly when it has one grammar. -/
theorem receivers_agree_iff (conn : List Byte) :
    SameResult (mnpRecvseg neverLost conn) (getsegToSend conn) ↔ OneGrammar conn := by
  rw [mnp_recvseg_eq, getseg_to_send_start]
  cases lateStart : afterMarker markers conn with
  | none =>
      cases earlyStart : afterOpening markers conn with
      | none => simp [OneGrammar, SameResult, earlyStart]
      | some early => simp [OneGrammar, earlyStart, lateStart, one_started_iff]
  | some late =>
      obtain ⟨early, earlyStart, isSuffix, position⟩ := after_opening_of_marker conn late lateStart
      simp only [OneGrammar, earlyStart, lateStart, Option.some.injEq, forall_eq',
        exists_eq_left']
      rcases position with rfl | shorter
      · rw [same_start_iff]
        have endedFits : Unfinished early → ¬ TooLong early := fun unfinished long =>
          absurd long.2 (Nat.not_lt.mpr unfinished.2)
        have shortFits : TooShort early → ¬ TooLong early := fun short long => by
          have read := read_too_short short
          rw [read_too_long long] at read
          cases read
        tauto
      · have different : late ≠ early := by
          rintro rfl
          exact Nat.lt_irrefl _ shorter
        rw [later_start_iff early late isSuffix shorter]
        simp [different]

/-- A record behind a lone opening byte is returned by `mnp_recvseg` and skipped
by `getsegToSend`. -/
theorem lone_opening_splits_receivers :
    ¬ SameResult
      (mnpRecvseg neverLost
        (markers.opening :: (sendsegArgCodec.encode ⟨1, Seg.cleared⟩ ++ bufEnd)))
      (getsegToSend (markers.opening :: (sendsegArgCodec.encode ⟨1, Seg.cleared⟩ ++ bufEnd))) := by
  have noDelimiter := cleared_record_image
  have whole := sendsegArgCodec.encode_length ⟨1, Seg.cleared⟩
  have returns := sendsegArgCodec.decode_encode ⟨1, Seg.cleared⟩
  generalize sendsegArgCodec.encode ⟨1, Seg.cleared⟩ = image at *
  have clean : Clean markers image := clean_of_no_escape fun stored => (noDelimiter _ stored).1 rfl
  have returned : mnpRecvseg neverLost (markers.opening :: (image ++ bufEnd)) =
      .got ⟨1, Seg.cleared⟩ [] := by
    have body := read_whole image [] clean whole
    rw [List.append_nil, returns] at body
    simpa [mnp_recvseg_eq, afterOpening] using body
  have skipped : getsegToSend (markers.opening :: (image ++ bufEnd)) = .ended := by
    rw [getseg_to_send_start]
    cases found : afterMarker markers (markers.opening :: (image ++ bufEnd)) with
    | none => rfl
    | some body =>
        obtain ⟨before, split⟩ := stream_of_after_marker _ body found
        -- the only opening byte is the first one, with no escape before it
        have onlyFirst : markers.opening ∉ image ++ bufEnd := by
          rw [List.mem_append, not_or]
          exact ⟨fun stored => (noDelimiter _ stored).2 rfl, by decide⟩
        cases before with
        | nil => exact absurd (List.cons.inj split).1 (by decide)
        | cons first before =>
            rw [(List.cons.inj split).2] at onlyFirst
            simp at onlyFirst
  rw [returned, skipped, same_result_iff]
  simp

end MiniOverlay
