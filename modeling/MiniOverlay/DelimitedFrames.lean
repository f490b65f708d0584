import Mathlib.Algebra.Group.Nat.Even
import Mathlib.Data.List.DropRight
import Mathlib.Data.List.Infix

/-!
# Unescaped delimiter framing

Frames `escape opening payload escape closing` on a stream of symbols, read by
a four-phase automaton that stores the payload in a buffer of fixed capacity.
The payload is not escaped, so everything depends on where the first
`escape closing` pair of the stream stands; the two halves below say that the
automaton ends a frame exactly there.
-/

namespace MiniOverlay.DelimitedFrames

set_option autoImplicit false

structure Markers (Symbol : Type) where
  escape : Symbol
  opening : Symbol
  closing : Symbol
  distinct : closing ≠ escape

inductive Phase where
  | start1
  | start2
  | recv
  | stop1
  deriving DecidableEq

inductive Scan (Symbol : Type) where
  | frame (payload rest : List Symbol)
  | ended
  | overrun
  deriving DecidableEq

variable {Symbol : Type} [DecidableEq Symbol] (markers : Markers Symbol)

/-- `held` is the part of the buffer written so far; its length is the write
index. A write at an index past `capacity` is outside the buffer. -/
def scan (capacity : Nat) : Phase → List Symbol → List Symbol → Scan Symbol
  | _, _, [] => .ended
  | .start1, held, symbol :: rest =>
      if symbol = markers.escape then scan capacity .start2 held rest
      else scan capacity .start1 held rest
  | .start2, held, symbol :: rest =>
      if symbol = markers.opening then scan capacity .recv held rest
      else scan capacity .start1 held rest
  | .recv, held, symbol :: rest =>
      if held.length < capacity then
        if symbol = markers.escape then scan capacity .stop1 (held ++ [symbol]) rest
        else scan capacity .recv (held ++ [symbol]) rest
      else .overrun
  | .stop1, held, symbol :: rest =>
      if held.length < capacity then
        -- the closing symbol is stored but not counted, and the escape before it is dropped
        if symbol = markers.closing then .frame held.dropLast rest
        else if symbol = markers.escape then scan capacity .stop1 (held ++ [symbol]) rest
        else scan capacity .recv (held ++ [symbol]) rest
      else .overrun

def frameOf (payload : List Symbol) : List Symbol :=
  markers.escape :: markers.opening :: payload ++ [markers.escape, markers.closing]

def Clean (payload : List Symbol) : Prop :=
  ¬ [markers.escape, markers.closing] <:+: payload

instance (payload : List Symbol) : Decidable (Clean markers payload) :=
  inferInstanceAs (Decidable (¬ _))

variable {markers}

omit [DecidableEq Symbol] in
theorem clean_nil : Clean markers [] := by
  simp [Clean]

omit [DecidableEq Symbol] in
theorem clean_of_no_escape {payload : List Symbol} (absent : markers.escape ∉ payload) :
    Clean markers payload :=
  fun pair => absent (pair.subset (by simp))

omit [DecidableEq Symbol] in
theorem Clean.of_cons {symbol : Symbol} {payload : List Symbol}
    (clean : Clean markers (symbol :: payload)) : Clean markers payload :=
  fun pair => clean (List.infix_cons_iff.mpr (Or.inr pair))

omit [DecidableEq Symbol] in
theorem clean_escape_cons {symbol : Symbol} {payload : List Symbol}
    (clean : Clean markers (markers.escape :: symbol :: payload)) :
    symbol ≠ markers.closing := by
  rintro rfl
  exact clean ⟨[], payload, rfl⟩

omit [DecidableEq Symbol] in
theorem clean_append_iff {before after : List Symbol} (cleanBefore : Clean markers before)
    (cleanAfter : Clean markers after) :
    Clean markers (before ++ after) ↔
      ¬ (before.getLast? = some markers.escape ∧ after.head? = some markers.closing) := by
  induction before with
  | nil => simpa using cleanAfter
  | cons symbol before ih =>
      have tail := ih (Clean.of_cons cleanBefore)
      cases before with
      | nil =>
          simp only [Clean, List.singleton_append, List.infix_cons_iff, List.cons_prefix_cons,
            List.getLast?_singleton, Option.some.injEq] at cleanAfter ⊢
          cases after with
          | nil => simp
          | cons head after => simp [cleanAfter, eq_comm]
      | cons next before =>
          have notHere : ¬ [markers.escape, markers.closing] <+: symbol :: next :: before :=
            fun here => cleanBefore here.isInfix
          rw [List.getLast?_cons_cons, ← tail, Clean, Clean, not_iff_not, List.cons_append,
            List.infix_cons_iff, or_iff_right]
          simpa [List.cons_prefix_cons] using notHere

omit [DecidableEq Symbol] in
theorem Clean.drop {payload : List Symbol} (clean : Clean markers payload) (count : Nat) :
    Clean markers (payload.drop count) :=
  fun pair => clean (pair.trans (List.drop_suffix count payload).isInfix)

omit [DecidableEq Symbol] in
theorem first_end_marker {payload : List Symbol} (dirty : ¬ Clean markers payload) :
    ∃ before after, payload = before ++ markers.escape :: markers.closing :: after ∧
      Clean markers before := by
  induction payload with
  | nil => exact absurd clean_nil dirty
  | cons symbol payload ih =>
      rcases List.infix_cons_iff.mp (not_not.mp dirty) with ⟨after, head⟩ | tail
      · exact ⟨[], after, head.symm, clean_nil⟩
      · obtain ⟨before, after, rfl, clean⟩ := ih (not_not.mpr tail)
        by_cases headClean : Clean markers (symbol :: before)
        · exact ⟨symbol :: before, after, rfl, headClean⟩
        · rcases List.infix_cons_iff.mp (not_not.mp headClean) with ⟨more, head⟩ | inner
          · exact ⟨[], more ++ markers.escape :: markers.closing :: after,
              by rw [← List.cons_append, ← head]; simp, clean_nil⟩
          · exact absurd inner clean

/-- The escape symbol a body phase is still holding back. -/
def Phase.pending (markers : Markers Symbol) : Phase → List Symbol
  | .stop1 => [markers.escape]
  | _ => []

def Phase.InBody (phase : Phase) : Prop := phase = .recv ∨ phase = .stop1

theorem scan_stores (capacity : Nat) (phase : Phase) (held body rest : List Symbol)
    (inBody : phase.InBody) (clean : Clean markers (phase.pending markers ++ body))
    (fits : held.length + body.length ≤ capacity) :
    ∃ next, next.InBody ∧
      scan markers capacity phase held (body ++ rest) =
        scan markers capacity next (held ++ body) rest := by
  induction body generalizing phase held with
  | nil => exact ⟨phase, inBody, by simp⟩
  | cons symbol body ih =>
      have room : held.length < capacity := by simp at fits; omega
      have fitsNext : (held ++ [symbol]).length + body.length ≤ capacity := by
        simp at fits ⊢
        omega
      have assoc : held ++ symbol :: body = held ++ [symbol] ++ body := by simp
      rw [assoc]
      rcases inBody with rfl | rfl
      · by_cases isEscape : symbol = markers.escape
        · subst isEscape
          simpa [scan, room] using
            ih .stop1 (held ++ [markers.escape]) (Or.inr rfl) clean fitsNext
        · simpa [scan, room, isEscape] using
            ih .recv (held ++ [symbol]) (Or.inl rfl) (Clean.of_cons clean) fitsNext
      · have notClosing := clean_escape_cons clean
        have tailClean : Clean markers (symbol :: body) := Clean.of_cons clean
        by_cases isEscape : symbol = markers.escape
        · subst isEscape
          simpa [scan, room, notClosing] using
            ih .stop1 (held ++ [markers.escape]) (Or.inr rfl) tailClean fitsNext
        · simpa [scan, room, notClosing, isEscape] using
            ih .recv (held ++ [symbol]) (Or.inl rfl) (Clean.of_cons tailClean) fitsNext

theorem scan_body (capacity : Nat) (phase : Phase) (held body rest : List Symbol)
    (inBody : phase.InBody) (clean : Clean markers (phase.pending markers ++ body))
    (fits : held.length + body.length + 2 ≤ capacity) :
    scan markers capacity phase held
      (body ++ markers.escape :: markers.closing :: rest) = .frame (held ++ body) rest := by
  obtain ⟨next, stays, stored⟩ := scan_stores capacity phase held body
    (markers.escape :: markers.closing :: rest) inBody clean (by omega)
  have escapeNe := markers.distinct.symm
  have room : held.length + body.length < capacity := by omega
  have roomNext : held.length + (body.length + 1) < capacity := by omega
  rw [stored]
  rcases stays with rfl | rfl
  · simp [scan, room, roomNext]
  · simp [scan, room, roomNext, escapeNe]

theorem stream_of_scan_body (capacity : Nat) (phase : Phase)
    (kept stream payload rest : List Symbol) (inBody : phase.InBody)
    (scanned : scan markers capacity phase (kept ++ phase.pending markers) stream =
      .frame payload rest) :
    ∃ body, phase.pending markers ++ stream =
        body ++ markers.escape :: markers.closing :: rest ∧ payload = kept ++ body := by
  induction stream generalizing phase kept with
  | nil => simp [scan] at scanned
  | cons symbol stream ih =>
      rcases inBody with rfl | rfl
      · by_cases isEscape : symbol = markers.escape
        · subst isEscape
          have step : scan markers capacity .stop1 (kept ++ Phase.pending markers .stop1) stream =
              .frame payload rest := by
            simp only [scan, Phase.pending, List.append_nil, if_true] at scanned ⊢
            split at scanned
            · exact scanned
            · cases scanned
          exact ih .stop1 kept (Or.inr rfl) step
        · have step : scan markers capacity .recv (kept ++ [symbol] ++ Phase.pending markers .recv)
              stream = .frame payload rest := by
            simp only [scan, Phase.pending, List.append_nil, if_neg isEscape] at scanned ⊢
            split at scanned
            · exact scanned
            · cases scanned
          obtain ⟨body, streamEq, payloadEq⟩ := ih .recv (kept ++ [symbol]) (Or.inl rfl) step
          refine ⟨symbol :: body, ?_, ?_⟩
          · simpa [Phase.pending] using streamEq
          · simpa using payloadEq
      · change scan markers capacity .stop1 (kept ++ [markers.escape]) (symbol :: stream) =
          .frame payload rest at scanned
        simp only [scan] at scanned
        split_ifs at scanned with room isClosing isEscape
        · obtain ⟨rfl, rfl⟩ := Scan.frame.inj scanned
          exact ⟨[], by simp [Phase.pending, isClosing], by simp⟩
        · obtain ⟨body, streamEq, payloadEq⟩ :=
            ih .stop1 (kept ++ [markers.escape]) (Or.inr rfl)
              (by simpa [Phase.pending, isEscape] using scanned)
          refine ⟨markers.escape :: body, ?_, by simpa using payloadEq⟩
          simpa [Phase.pending, isEscape] using streamEq
        · obtain ⟨body, streamEq, payloadEq⟩ :=
            ih .recv (kept ++ [markers.escape, symbol]) (Or.inl rfl)
              (by simpa [Phase.pending] using scanned)
          refine ⟨markers.escape :: symbol :: body, ?_, by simpa using payloadEq⟩
          simpa [Phase.pending] using streamEq

theorem scan_unfinished (capacity : Nat) (body : List Symbol) (clean : Clean markers body)
    (fits : body.length ≤ capacity) : scan markers capacity .recv [] body = .ended := by
  obtain ⟨next, _, stored⟩ := scan_stores capacity .recv [] body [] (Or.inl rfl)
    (by simpa [Phase.pending] using clean) (by simpa using fits)
  rw [List.append_nil] at stored
  rw [stored]
  cases next <;> rfl

theorem scan_overruns (capacity : Nat) (body : List Symbol)
    (clean : Clean markers (body.take capacity)) (long : capacity < body.length) :
    scan markers capacity .recv [] body = .overrun := by
  have filled : (body.take capacity).length = capacity :=
    List.length_take_of_le (Nat.le_of_lt long)
  obtain ⟨next, inBody, stored⟩ := scan_stores capacity .recv [] (body.take capacity)
    (body.drop capacity) (Or.inl rfl) (by simpa [Phase.pending] using clean)
    (by rw [List.length_nil, Nat.zero_add, filled])
  rw [List.take_append_drop, List.nil_append, List.drop_eq_getElem_cons long] at stored
  rw [stored]
  rcases inBody with rfl | rfl <;> simp [scan, filled]

variable (markers) in
/-- What stands behind the start marker that the automaton finds. -/
def afterMarker : List Symbol → Option (List Symbol)
  | [] => none
  | [_] => none
  | first :: second :: rest =>
      if first = markers.escape then
        if second = markers.opening then some rest else afterMarker rest
      else afterMarker (second :: rest)

theorem scan_start (capacity : Nat) (held stream : List Symbol) :
    scan markers capacity .start1 held stream =
      match afterMarker markers stream with
      | some body => scan markers capacity .recv held body
      | none => .ended := by
  induction stream using afterMarker.induct markers with
  | case1 => rfl
  | case2 symbol =>
      rw [scan, afterMarker]
      split_ifs <;> rfl
  | case3 rest => simp [scan, afterMarker]
  | case4 second rest notOpening ih => simp [scan, afterMarker, notOpening, ih]
  | case5 first second rest notEscape ih =>
      rw [scan, if_neg notEscape, ih, afterMarker, if_neg notEscape]

theorem stream_of_after_marker (stream body : List Symbol)
    (found : afterMarker markers stream = some body) :
    ∃ before, stream = before ++ markers.escape :: markers.opening :: body := by
  induction stream using afterMarker.induct markers with
  | case1 => cases found
  | case2 symbol => cases found
  | case3 rest =>
      refine ⟨[], ?_⟩
      simpa [afterMarker] using found
  | case4 second rest notOpening ih =>
      obtain ⟨before, rfl⟩ := ih (by simpa [afterMarker, notOpening] using found)
      exact ⟨markers.escape :: second :: before, by simp⟩
  | case5 first second rest notEscape ih =>
      obtain ⟨before, split⟩ := ih (by simpa [afterMarker, notEscape] using found)
      exact ⟨first :: before, by rw [split, List.cons_append]⟩

variable (markers) in
/-- What stands behind the first opening symbol, whatever stands before it. -/
def afterOpening : List Symbol → Option (List Symbol)
  | [] => none
  | symbol :: rest => if symbol = markers.opening then some rest else afterOpening rest

theorem after_opening_append (before body : List Symbol) :
    ∃ skipped, afterOpening markers (before ++ markers.opening :: body) = some (skipped ++ body) ∧
      (skipped = [] ∨ body.length < (skipped ++ body).length) := by
  induction before with
  | nil => exact ⟨[], by simp [afterOpening]⟩
  | cons symbol before ih =>
      by_cases isOpening : symbol = markers.opening
      · refine ⟨before ++ [markers.opening], by simp [afterOpening, isOpening], Or.inr ?_⟩
        simp only [List.length_append, List.length_cons]
        omega
      · simpa [afterOpening, isOpening] using ih

theorem after_opening_of_marker (stream late : List Symbol)
    (found : afterMarker markers stream = some late) :
    ∃ early, afterOpening markers stream = some early ∧ late <:+ early ∧
      (early = late ∨ late.length < early.length) := by
  obtain ⟨before, rfl⟩ := stream_of_after_marker stream late found
  obtain ⟨skipped, opened, position⟩ :=
    after_opening_append (before ++ [markers.escape]) late
  refine ⟨skipped ++ late, by simpa using opened, List.suffix_append skipped late, ?_⟩
  exact position.imp (by rintro rfl; rfl) id

omit [DecidableEq Symbol] in
theorem Clean.of_suffix {payload suffix : List Symbol} (clean : Clean markers payload)
    (isSuffix : suffix <:+ payload) : Clean markers suffix :=
  fun pair => clean (pair.trans isSuffix.isInfix)

theorem scan_clean_frame (capacity : Nat) (payload rest : List Symbol)
    (clean : Clean markers payload) (fits : payload.length + 2 ≤ capacity) :
    scan markers capacity .start1 [] (frameOf markers payload ++ rest) = .frame payload rest := by
  have body := scan_body capacity .recv [] payload rest (Or.inl rfl)
    (by simpa [Phase.pending] using clean) (by simpa using fits)
  simpa [frameOf, scan] using body

theorem scan_long_frame (capacity : Nat) (payload rest : List Symbol)
    (clean : Clean markers payload) (long : capacity < payload.length + 2) :
    scan markers capacity .start1 [] (frameOf markers payload ++ rest) = .overrun := by
  have escaped : Clean markers (payload ++ [markers.escape]) := by
    have single : Clean markers [markers.escape] := by
      intro pair
      have lengths := pair.length_le
      simp at lengths
    rw [clean_append_iff clean single]
    exact fun seam => markers.distinct (Option.some.inj seam.2).symm
  have whole : payload ++ markers.escape :: markers.closing :: rest =
      (payload ++ [markers.escape]) ++ markers.closing :: rest := by
    rw [List.append_assoc, List.singleton_append]
  have front : (payload ++ markers.escape :: markers.closing :: rest).take capacity =
      (payload ++ [markers.escape]).take capacity := by
    rw [whole, List.take_append_of_le_length]
    rw [List.length_append, List.length_singleton]
    omega
  have overruns := scan_overruns capacity (payload ++ markers.escape :: markers.closing :: rest)
    (by
      rw [front]
      exact fun pair => escaped (pair.trans (List.take_prefix _ _).isInfix))
    (by
      simp only [List.length_append, List.length_cons]
      omega)
  simpa [frameOf, scan] using overruns

theorem scan_dirty_frame (capacity : Nat) (before after rest : List Symbol)
    (clean : Clean markers before)
    (fits : (before ++ markers.escape :: markers.closing :: after).length ≤ capacity) :
    scan markers capacity .start1 []
        (frameOf markers (before ++ markers.escape :: markers.closing :: after) ++ rest) =
      .frame before (after ++ markers.escape :: markers.closing :: rest) := by
  have body := scan_body capacity .recv [] before
    (after ++ markers.escape :: markers.closing :: rest) (Or.inl rfl)
    (by simpa [Phase.pending] using clean) (by simp at fits ⊢; omega)
  simpa [frameOf, scan] using body

theorem stream_of_scan (capacity : Nat) (stream payload rest : List Symbol)
    (scanned : scan markers capacity .start1 []
      (markers.escape :: markers.opening :: stream) = .frame payload rest) :
    stream = payload ++ markers.escape :: markers.closing :: rest := by
  have inBody : scan markers capacity .recv ([] ++ Phase.pending markers .recv) stream =
      .frame payload rest := by
    simpa [scan, Phase.pending] using scanned
  obtain ⟨body, streamEq, rfl⟩ :=
    stream_of_scan_body capacity .recv [] stream payload rest (Or.inl rfl) inBody
  simpa [Phase.pending] using streamEq

variable (markers) in
def trailingEscapes (stream : List Symbol) : Nat :=
  (stream.rtakeWhile fun symbol => decide (symbol = markers.escape)).length

theorem trailing_escapes_nil : trailingEscapes markers [] = 0 := by
  simp [trailingEscapes]

theorem trailing_escapes_cons (symbol : Symbol) (stream : List Symbol) :
    trailingEscapes markers (symbol :: stream) =
      if trailingEscapes markers stream = stream.length ∧ symbol = markers.escape then
        stream.length + 1
      else trailingEscapes markers stream := by
  simp only [trailingEscapes, List.rtakeWhile, List.length_reverse, List.reverse_cons,
    List.takeWhile_append]
  by_cases whole : (stream.reverse.takeWhile fun item => decide (item = markers.escape)).length =
      stream.length
  · by_cases isEscape : symbol = markers.escape
    · simp [whole, isEscape]
    · simp [whole, isEscape]
  · simp [whole]

theorem trailing_escapes_le (stream : List Symbol) :
    trailingEscapes markers stream ≤ stream.length :=
  (List.rtakeWhile_suffix _ stream).length_le

theorem trailing_escapes_other {symbol : Symbol} (notEscape : symbol ≠ markers.escape)
    (stream : List Symbol) :
    trailingEscapes markers (symbol :: stream) = trailingEscapes markers stream := by
  rw [trailing_escapes_cons, if_neg]
  rintro ⟨_, isEscape⟩
  exact notEscape isEscape

theorem trailing_escapes_pair (second : Symbol) (stream : List Symbol) :
    Even (trailingEscapes markers (markers.escape :: second :: stream)) ↔
      Even (trailingEscapes markers stream) := by
  have bound : trailingEscapes markers stream ≤ stream.length := trailing_escapes_le stream
  rw [trailing_escapes_cons, trailing_escapes_cons]
  by_cases whole : trailingEscapes markers stream = stream.length
  · by_cases isEscape : second = markers.escape
    · simp [whole, isEscape, Nat.even_add_one]
    · simp [whole, isEscape]
  · have notMore : trailingEscapes markers stream ≠ stream.length + 1 := by omega
    simp [whole, notMore]

theorem after_marker_skip {symbol : Symbol} (notEscape : symbol ≠ markers.escape)
    (stream : List Symbol) :
    afterMarker markers (symbol :: stream) = afterMarker markers stream := by
  cases stream with
  | nil => rfl
  | cons second rest => rw [afterMarker, if_neg notEscape]

theorem after_marker_noise (apart : markers.opening ≠ markers.escape) (noise body : List Symbol)
    (noMarker : ¬ [markers.escape, markers.opening] <:+: noise) :
    afterMarker markers (noise ++ markers.escape :: markers.opening :: body) =
      if Even (trailingEscapes markers noise) then some body else afterMarker markers body := by
  induction noise using afterMarker.induct markers with
  | case1 => simp [trailing_escapes_nil, afterMarker]
  | case2 symbol =>
      by_cases isEscape : symbol = markers.escape
      · subst isEscape
        have one : trailingEscapes markers [markers.escape] = 1 := by
          simp [trailing_escapes_cons, trailing_escapes_nil]
        have skipped : afterMarker markers
            (markers.escape :: markers.escape :: markers.opening :: body) =
              afterMarker markers (markers.opening :: body) := by
          rw [afterMarker, if_pos rfl, if_neg apart.symm]
        rw [one, List.singleton_append, skipped, after_marker_skip apart, if_neg (by decide)]
      · rw [List.singleton_append, after_marker_skip isEscape, trailing_escapes_other isEscape,
          trailing_escapes_nil]
        simp [afterMarker]
  | case3 rest => exact absurd ⟨[], rest, rfl⟩ noMarker
  | case4 second rest notOpening ih =>
      have noLater : ¬ [markers.escape, markers.opening] <:+: rest := fun later =>
        noMarker (List.infix_cons (List.infix_cons later))
      have skipped : afterMarker markers
          (markers.escape :: second :: rest ++ markers.escape :: markers.opening :: body) =
            afterMarker markers (rest ++ markers.escape :: markers.opening :: body) := by
        rw [List.cons_append, List.cons_append, afterMarker, if_pos rfl, if_neg notOpening]
      rw [skipped, ih noLater]
      simp only [trailing_escapes_pair]
  | case5 first second rest notEscape ih =>
      have noLater : ¬ [markers.escape, markers.opening] <:+: second :: rest := fun later =>
        noMarker (List.infix_cons later)
      rw [List.cons_append, after_marker_skip notEscape, ih noLater,
        trailing_escapes_other notEscape]

theorem scan_noisy_frame (capacity : Nat) (noise payload rest : List Symbol)
    (apart : markers.opening ≠ markers.escape)
    (noMarker : ¬ [markers.escape, markers.opening] <:+: noise)
    (even : Even (trailingEscapes markers noise)) (clean : Clean markers payload)
    (fits : payload.length + 2 ≤ capacity) :
    scan markers capacity .start1 [] (noise ++ frameOf markers payload ++ rest) =
      .frame payload rest := by
  have body := scan_body capacity .recv [] payload rest (Or.inl rfl)
    (by simpa [Phase.pending] using clean) (by simpa using fits)
  have stream : noise ++ frameOf markers payload ++ rest = noise ++ markers.escape ::
      markers.opening :: (payload ++ markers.escape :: markers.closing :: rest) := by
    simp [frameOf]
  rw [scan_start, stream, after_marker_noise apart noise _ noMarker, if_pos even]
  simpa using body

theorem payload_of_hidden_frame (capacity : Nat) (noise payload received rest : List Symbol)
    (apart : markers.opening ≠ markers.escape)
    (noMarker : ¬ [markers.escape, markers.opening] <:+: noise)
    (odd : ¬ Even (trailingEscapes markers noise))
    (scanned : scan markers capacity .start1 [] (noise ++ frameOf markers payload ++ rest) =
      .frame received rest) :
    ∃ before, payload = before ++ markers.escape :: markers.opening :: received := by
  have stream : noise ++ frameOf markers payload ++ rest = noise ++ markers.escape ::
      markers.opening :: (payload ++ markers.escape :: markers.closing :: rest) := by
    simp [frameOf]
  rw [scan_start, stream, after_marker_noise apart noise _ noMarker, if_neg odd] at scanned
  cases found : afterMarker markers (payload ++ markers.escape :: markers.closing :: rest) with
  | none =>
      rw [found] at scanned
      cases scanned
  | some late =>
      rw [found] at scanned
      obtain ⟨before, split⟩ := stream_of_after_marker _ late found
      obtain ⟨body, lateEq, rfl⟩ := stream_of_scan_body capacity .recv [] late received rest
        (Or.inl rfl) scanned
      have ends : late = received ++ markers.escape :: markers.closing :: rest := lateEq
      refine ⟨before, ?_⟩
      rw [ends] at split
      have same : payload ++ (markers.escape :: markers.closing :: rest) =
          before ++ markers.escape :: markers.opening :: received ++
            (markers.escape :: markers.closing :: rest) := by
        simpa using split
      simpa using List.append_cancel_right same

theorem scan_frame_fits (capacity : Nat) (phase : Phase)
    (held stream payload rest : List Symbol) (filled : phase = .stop1 → held ≠ [])
    (scanned : scan markers capacity phase held stream = .frame payload rest) :
    payload.length + 2 ≤ capacity := by
  induction stream generalizing phase held with
  | nil =>
      rw [scan] at scanned
      cases scanned
  | cons symbol stream ih =>
      have stored (next : Phase) := ih next (held ++ [symbol]) fun _ => by simp
      have skipped (next : Phase) (notStop : next ≠ .stop1) :=
        ih next held fun isStop => absurd isStop notStop
      cases phase with
      | start1 =>
          rw [scan] at scanned
          split_ifs at scanned
          · exact skipped .start2 (by decide) scanned
          · exact skipped .start1 (by decide) scanned
      | start2 =>
          rw [scan] at scanned
          split_ifs at scanned
          · exact skipped .recv (by decide) scanned
          · exact skipped .start1 (by decide) scanned
      | recv =>
          rw [scan] at scanned
          split_ifs at scanned
          · exact stored .stop1 scanned
          · exact stored .recv scanned
      | stop1 =>
          rw [scan] at scanned
          split_ifs at scanned with room
          · cases scanned
            have nonempty := List.length_pos_of_ne_nil (filled rfl)
            rw [List.length_dropLast]
            omega
          · exact stored .stop1 scanned
          · exact stored .recv scanned

variable (markers) in
/-- The indices at which the automaton writes its buffer, whatever its capacity; `idx` is
the next one. -/
def writeIndices : Phase → Nat → List Symbol → List Nat
  | _, _, [] => []
  | .start1, idx, symbol :: rest =>
      if symbol = markers.escape then writeIndices .start2 idx rest
      else writeIndices .start1 idx rest
  | .start2, idx, symbol :: rest =>
      if symbol = markers.opening then writeIndices .recv idx rest
      else writeIndices .start1 idx rest
  | .recv, idx, symbol :: rest =>
      idx :: if symbol = markers.escape then writeIndices .stop1 (idx + 1) rest
        else writeIndices .recv (idx + 1) rest
  | .stop1, idx, symbol :: rest =>
      idx :: if symbol = markers.closing then []
        else if symbol = markers.escape then writeIndices .stop1 (idx + 1) rest
        else writeIndices .recv (idx + 1) rest

theorem scan_overrun_iff (capacity : Nat) (phase : Phase) (held stream : List Symbol) :
    scan markers capacity phase held stream ≠ .overrun ↔
      ∀ idx ∈ writeIndices markers phase held.length stream, idx < capacity := by
  induction stream generalizing phase held with
  | nil => cases phase <;> simp [scan, writeIndices]
  | cons symbol stream ih =>
      cases phase with
      | start1 =>
          rw [scan, writeIndices]
          split_ifs
          · exact ih .start2 held
          · exact ih .start1 held
      | start2 =>
          rw [scan, writeIndices]
          split_ifs
          · exact ih .recv held
          · exact ih .start1 held
      | recv =>
          have stored (next : Phase) := ih next (held ++ [symbol])
          rw [scan, writeIndices, List.forall_mem_cons]
          by_cases room : held.length < capacity
          · rw [if_pos room]
            split_ifs
            · simpa [room] using stored .stop1
            · simpa [room] using stored .recv
          · simp [room]
      | stop1 =>
          have stored (next : Phase) := ih next (held ++ [symbol])
          rw [scan, writeIndices, List.forall_mem_cons]
          by_cases room : held.length < capacity
          · rw [if_pos room]
            split_ifs
            · simp [room]
            · simpa [room] using stored .stop1
            · simpa [room] using stored .recv
          · simp [room]

variable (markers) in
/-- A body behind the start marker ends in time when it is short or has an end marker in
its front part. -/
def EndsInTime (capacity : Nat) (stream : List Symbol) : Prop :=
  ∀ body, afterMarker markers stream = some body →
    body.length ≤ capacity ∨ ¬ Clean markers (body.take capacity)

theorem scan_ends_in_time_iff (capacity : Nat) (stream : List Symbol) :
    scan markers capacity .start1 [] stream ≠ .overrun ↔ EndsInTime markers capacity stream := by
  rw [scan_start, EndsInTime]
  cases found : afterMarker markers stream with
  | none => simp
  | some body =>
      simp only [Option.some.injEq, forall_eq']
      by_cases clean : Clean markers (body.take capacity)
      · by_cases short : body.length ≤ capacity
        · rw [List.take_of_length_le short] at clean
          simp [scan_unfinished capacity body clean short, short]
        · simp [scan_overruns capacity body clean (Nat.lt_of_not_le short), short, clean]
      · obtain ⟨before, after, split, cleanBefore⟩ := first_end_marker clean
        have fits := congrArg List.length split
        have bound := List.length_take_le capacity body
        simp only [List.length_append, List.length_cons] at fits
        have whole : body = before ++ markers.escape :: markers.closing ::
            (after ++ body.drop capacity) := by
          rw [← List.cons_append, ← List.cons_append, ← List.append_assoc, ← split,
            List.take_append_drop]
        have read := scan_body capacity .recv [] before (after ++ body.drop capacity) (Or.inl rfl)
          (by simpa [Phase.pending] using cleanBefore) (by rw [List.length_nil]; omega)
        rw [← whole] at read
        simp [read, clean]

/-- What one call of a receiver does: it returns a value and leaves the rest of
the stream, it reports the end of the stream, it fails its length assertion, or
it writes outside its buffer. -/
inductive Read (Value Symbol : Type) where
  | got (value : Value) (rest : List Symbol)
  | ended
  | assertionFailed
  | overrun
  deriving DecidableEq

section Successive

variable {Value : Type} (read : List Symbol → Read Value Symbol)

/-- The results of at most `count` calls, each reading on where the one before
stopped. A call that returns no value is the last one. -/
def calls : Nat → List Symbol → List (Read Value Symbol)
  | 0, _ => []
  | count + 1, stream =>
      match read stream with
      | .got value rest => .got value rest :: calls count rest
      | stopped => [stopped]

def Read.value? : Read Value Symbol → Option Value
  | .got value _ => some value
  | _ => none

/-- The results when every value comes back and is consumed exactly. -/
def gotAll (encode : Value → List Symbol) (suffix : List Symbol) :
    List Value → List (Read Value Symbol)
  | [] => []
  | value :: values => .got value (values.flatMap encode ++ suffix) ::
      gotAll encode suffix values

variable {read}

omit [DecidableEq Symbol] in
theorem calls_of_round_trip {encode : Value → List Symbol} {values : List Value}
    (roundTrip : ∀ value ∈ values, ∀ rest, read (encode value ++ rest) = .got value rest)
    (count : Nat) (suffix : List Symbol) :
    calls read (values.length + count) (values.flatMap encode ++ suffix) =
      gotAll encode suffix values ++ calls read count suffix := by
  induction values with
  | nil => simp [gotAll]
  | cons value values ih =>
      have tail := ih fun item member => roundTrip item (by simp [member])
      have head := roundTrip value (by simp) (values.flatMap encode ++ suffix)
      have count' : (value :: values).length + count = values.length + count + 1 := by
        simp only [List.length_cons]
        omega
      rw [count', List.flatMap_cons, List.append_assoc, calls, head]
      simp only [tail, gotAll, List.cons_append]

omit [DecidableEq Symbol] in
theorem got_all_values (encode : Value → List Symbol) (suffix : List Symbol)
    (values : List Value) :
    (gotAll encode suffix values).map Read.value? = values.map some := by
  induction values with
  | nil => rfl
  | cons value values ih => simp [gotAll, Read.value?, ih]

end Successive

end MiniOverlay.DelimitedFrames
