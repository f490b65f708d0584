import MiniOverlay.PacketIo
import MiniOverlay.SegmentIo

/-!
# The frame receivers on any stream

`getpktToSend`, `overlay_recvpkt` and `recvpkt` of `common/pkt.c` and `getsegToSend`
of `common/seg.c` run the same automaton. In START2 it takes the second of two `!` for
any other byte and goes back to its start, while STOP1 waits on; so it misses a frame
behind an odd number of `!`. Its index is tested, if at all, behind the end marker.
-/

namespace MiniOverlay

open DelimitedFrames FixedByteCodec

set_option autoImplicit false

theorem opening_apart : markers.opening ≠ markers.escape := by decide

theorem next_byte_ne (byte : Byte) : byte + 1 ≠ byte := by
  intro same
  have values := congrArg UInt8.toNat same
  have one : (1 : Byte).toNat = 1 := rfl
  rw [UInt8.toNat_add, one] at values
  omega

theorem shorter_copy_differs {payload received : List Byte}
    (shorter : received.length < payload.length) (fits : payload.length ≤ sizeofMnpPkt) :
    ∃ pkt : MnpPkt, pkt.copyInto received ≠ pkt.copyInto payload := by
  have inside : payload.length - 1 < payload.length := by omega
  -- a variable whose bytes all differ from the last one of the payload
  let other : Byte := payload[payload.length - 1] + 1
  let pkt : MnpPkt := mnpPktCodec.decode (List.replicate sizeofMnpPkt other)
  have image : pkt.image = List.replicate sizeofMnpPkt other :=
    mnpPktCodec.encode_decode _ List.length_replicate
  refine ⟨pkt, fun same => ?_⟩
  have images := congrArg MnpPkt.image same
  rw [copy_into_image _ _ (by omega), copy_into_image _ _ fits, image] at images
  have bytes := congrArg (fun bytes => bytes[payload.length - 1]?) images
  simp only [List.getElem?_append_right (show received.length ≤ payload.length - 1 by omega),
    List.getElem?_append_left inside, List.drop_replicate] at bytes
  rw [List.getElem?_replicate_of_lt (by omega), List.getElem?_eq_getElem inside] at bytes
  exact next_byte_ne _ (Option.some.inj bytes)

section Noise

variable {noise : List Byte}

theorem noisy_record_iff {Value : Type} (codec : FixedCodec Value) (image rest : List Byte)
    (noMarker : ¬ bufStart <:+: noise) (length : image.length = codec.width)
    (clean : Clean markers image) :
    recvRecord codec (noise ++ frameOf markers image ++ rest) = .got (codec.decode image) rest ↔
      Even (trailingEscapes markers noise) := by
  constructor
  · intro received
    by_contra odd
    unfold recvRecord at received
    cases scanned : scan markers (codec.width + 2) .start1 []
        (noise ++ frameOf markers image ++ rest) with
    | frame payload unread =>
        simp only [scanned] at received
        split_ifs at received with whole
        obtain ⟨_, rfl⟩ := Read.got.inj received
        obtain ⟨before, split⟩ := payload_of_hidden_frame (codec.width + 2) noise image payload
          unread opening_apart noMarker odd scanned
        have longer := congrArg List.length split
        simp only [List.length_append, List.length_cons] at longer
        omega
    | ended =>
        simp only [scanned] at received
        cases received
    | overrun =>
        simp only [scanned] at received
        cases received
  · intro even
    have scanned := scan_noisy_frame (codec.width + 2) noise image rest opening_apart noMarker even
      clean (Nat.le_of_eq (by rw [length]))
    simp only [recvRecord, scanned, length, if_true]

theorem noisy_recvpkt_iff (payload rest : List Byte) (noMarker : ¬ bufStart <:+: noise)
    (fits : payload.length ≤ sizeofMnpPkt) (clean : Clean markers payload) :
    (∀ pkt, recvpkt pkt (noise ++ frameOf markers payload ++ rest) =
        some (1, pkt.copyInto payload, rest)) ↔ Even (trailingEscapes markers noise) := by
  constructor
  · intro returned
    by_contra odd
    cases scanned : scan markers (sizeofMnpPkt + 2) .start1 []
        (noise ++ frameOf markers payload ++ rest) with
    | frame received unread =>
        have same (pkt : MnpPkt) : pkt.copyInto received = pkt.copyInto payload ∧
            unread = rest := by
          have here := returned pkt
          simp only [recvpkt, scanned] at here
          split_ifs at here
          simpa using here
        obtain ⟨before, split⟩ := payload_of_hidden_frame (sizeofMnpPkt + 2) noise payload received
          rest opening_apart noMarker odd ((same MnpPkt.cleared).2 ▸ scanned)
        have longer := congrArg List.length split
        simp only [List.length_append, List.length_cons] at longer
        have shorter : received.length < payload.length := by omega
        obtain ⟨pkt, differs⟩ := shorter_copy_differs shorter fits
        exact differs (same pkt).1
    | ended =>
        have here := returned MnpPkt.cleared
        simp only [recvpkt, scanned] at here
        cases here
    | overrun =>
        have here := returned MnpPkt.cleared
        simp only [recvpkt, scanned] at here
        cases here
  · intro even pkt
    have scanned := scan_noisy_frame (sizeofMnpPkt + 2) noise payload rest opening_apart noMarker
      even clean (Nat.add_le_add_right fits 2)
    simp only [recvpkt, scanned, if_pos fits]

end Noise

/-- Behind noise without a start marker each of the four receivers returns the next frame
exactly when the noise ends in an even number of escapes. -/
theorem receivers_resynchronise_iff (noise rest : List Byte) (noMarker : ¬ bufStart <:+: noise) :
    (∀ image, image.length = sizeofSendpktArg → Clean markers image →
      (getpktToSend (noise ++ frameOf markers image ++ rest) =
        .got (sendpktArgCodec.decode image) rest ↔ Even (trailingEscapes markers noise))) ∧
    (∀ image, image.length = sizeofMnpPkt → Clean markers image →
      (overlayRecvpkt (noise ++ frameOf markers image ++ rest) =
        .got (mnpPktCodec.decode image) rest ↔ Even (trailingEscapes markers noise))) ∧
    (∀ image, image.length = sizeofSendsegArg → Clean markers image →
      (getsegToSend (noise ++ frameOf markers image ++ rest) =
        .got (sendsegArgCodec.decode image) rest ↔ Even (trailingEscapes markers noise))) ∧
    ∀ payload, payload.length ≤ sizeofMnpPkt → Clean markers payload →
      ((∀ pkt, recvpkt pkt (noise ++ frameOf markers payload ++ rest) =
        some (1, pkt.copyInto payload, rest)) ↔ Even (trailingEscapes markers noise)) :=
  ⟨fun image => noisy_record_iff sendpktArgCodec image rest noMarker,
    fun image => noisy_record_iff mnpPktCodec image rest noMarker,
    fun image => noisy_record_iff sendsegArgCodec image rest noMarker,
    fun payload => noisy_recvpkt_iff payload rest noMarker⟩

def zeroImage (size : Nat) : List Byte := List.replicate size 0

theorem zero_image_clean (size : Nat) : Clean markers (zeroImage size) := by
  apply clean_of_no_escape
  rw [zeroImage, List.mem_replicate]
  rintro ⟨_, isZero⟩
  exact absurd isZero (by decide)

theorem two_bangs_resynchronise :
    getpktToSend ([markers.escape, markers.escape] ++
        frameOf markers (zeroImage sizeofSendpktArg) ++ []) =
      .got (sendpktArgCodec.decode (zeroImage sizeofSendpktArg)) [] := by
  have exact := (receivers_resynchronise_iff [markers.escape, markers.escape] []
    (by decide)).1 (zeroImage sizeofSendpktArg) List.length_replicate (zero_image_clean _)
  exact exact.mpr (by decide)

/-- One `!` in front of a frame hides it from all four receivers. -/
theorem bang_hides_frame :
    ¬ bufStart <:+: [markers.escape] ∧
    getpktToSend ([markers.escape] ++ frameOf markers (zeroImage sizeofSendpktArg) ++ []) ≠
      .got (sendpktArgCodec.decode (zeroImage sizeofSendpktArg)) [] ∧
    overlayRecvpkt ([markers.escape] ++ frameOf markers (zeroImage sizeofMnpPkt) ++ []) ≠
      .got (mnpPktCodec.decode (zeroImage sizeofMnpPkt)) [] ∧
    getsegToSend ([markers.escape] ++ frameOf markers (zeroImage sizeofSendsegArg) ++ []) ≠
      .got (sendsegArgCodec.decode (zeroImage sizeofSendsegArg)) [] ∧
    ∃ pkt, recvpkt pkt ([markers.escape] ++ frameOf markers (zeroImage sizeofMnpPkt) ++ []) ≠
      some (1, pkt.copyInto (zeroImage sizeofMnpPkt), []) := by
  have noMarker : ¬ bufStart <:+: [markers.escape] := by decide
  have odd : ¬ Even (trailingEscapes markers [markers.escape]) := by decide
  have hidden {Value : Type} (codec : FixedCodec Value) :
      recvRecord codec ([markers.escape] ++ frameOf markers (zeroImage codec.width) ++ []) ≠
        .got (codec.decode (zeroImage codec.width)) [] :=
    fun received => odd ((noisy_record_iff codec _ [] noMarker List.length_replicate
      (zero_image_clean _)).mp received)
  refine ⟨noMarker, hidden sendpktArgCodec, hidden mnpPktCodec, hidden sendsegArgCodec, ?_⟩
  by_contra returned
  rw [not_exists] at returned
  exact odd ((noisy_recvpkt_iff _ [] noMarker (Nat.le_of_eq List.length_replicate)
    (zero_image_clean _)).mp fun pkt => not_not.mp (returned pkt))

/-- The indices at which a receiver that reads this stream writes its `buf`. -/
def bufWrites (conn : List Byte) : List Nat := writeIndices markers .start1 0 conn

def WritesInside (size : Nat) (conn : List Byte) : Prop := ∀ idx ∈ bufWrites conn, idx < size + 2

theorem writes_inside_iff (size : Nat) (conn : List Byte) :
    WritesInside size conn ↔ scan markers (size + 2) .start1 [] conn ≠ .overrun :=
  (scan_overrun_iff (size + 2) .start1 [] conn).symm

theorem record_overrun_iff {Value : Type} (codec : FixedCodec Value) (conn : List Byte) :
    recvRecord codec conn ≠ .overrun ↔ WritesInside codec.width conn := by
  rw [writes_inside_iff, recvRecord]
  cases scan markers (codec.width + 2) .start1 [] conn with
  | frame payload rest =>
      simp only
      split_ifs <;> simp
  | ended => simp
  | overrun => simp

/-- `recvpkt` goes outside no buffer. -/
theorem recvpkt_defined_iff (pkt : MnpPkt) (conn : List Byte) :
    (∃ result, recvpkt pkt conn = some result) ↔ WritesInside sizeofMnpPkt conn := by
  rw [writes_inside_iff, recvpkt]
  cases scanned : scan markers (sizeofMnpPkt + 2) .start1 [] conn with
  | frame payload rest =>
      have fits := scan_frame_fits (sizeofMnpPkt + 2) .start1 [] conn payload rest (by simp) scanned
      have copied : payload.length ≤ sizeofMnpPkt := Nat.le_of_add_le_add_right fits
      simp [copied]
  | ended => simp
  | overrun => simp

/-- Each receiver stays inside its buffer, and `recvpkt` inside `*pkt` as well, exactly when
the bytes behind the start marker are few or end in time. -/
theorem receivers_inside_iff (conn : List Byte) :
    (getpktToSend conn ≠ .overrun ∧ WritesInside sizeofSendpktArg conn ↔
      EndsInTime markers (sizeofSendpktArg + 2) conn) ∧
    (overlayRecvpkt conn ≠ .overrun ∧ WritesInside sizeofMnpPkt conn ↔
      EndsInTime markers (sizeofMnpPkt + 2) conn) ∧
    (getsegToSend conn ≠ .overrun ∧ WritesInside sizeofSendsegArg conn ↔
      EndsInTime markers (sizeofSendsegArg + 2) conn) ∧
    ∀ pkt, (∃ result, recvpkt pkt conn = some result) ∧ WritesInside sizeofMnpPkt conn ↔
      EndsInTime markers (sizeofMnpPkt + 2) conn := by
  have inTime (size : Nat) :
      WritesInside size conn ↔ EndsInTime markers (size + 2) conn :=
    (writes_inside_iff size conn).trans (scan_ends_in_time_iff (size + 2) conn)
  have record {Value : Type} (codec : FixedCodec Value) :
      recvRecord codec conn ≠ .overrun ∧ WritesInside codec.width conn ↔
        EndsInTime markers (codec.width + 2) conn := by
    rw [record_overrun_iff, and_self, inTime]
  refine ⟨record sendpktArgCodec, record mnpPktCodec, record sendsegArgCodec, fun pkt => ?_⟩
  rw [recvpkt_defined_iff, and_self, inTime]

/-- A body that is longer than all four buffers and never ends. -/
def endlessBody : List Byte := bufStart ++ zeroImage 2000

theorem endless_body_outside :
    ¬ WritesInside sizeofSendpktArg endlessBody ∧ ¬ WritesInside sizeofMnpPkt endlessBody ∧
      ¬ WritesInside sizeofSendsegArg endlessBody ∧
      ∀ pkt, recvpkt pkt endlessBody = none := by
  have outside (size : Nat) (small : size + 2 < 2000) : ¬ WritesInside size endlessBody := by
    rw [writes_inside_iff, scan_ends_in_time_iff]
    intro inTime
    rcases inTime (zeroImage 2000) rfl with short | dirty
    · rw [zeroImage, List.length_replicate] at short
      omega
    · rw [zeroImage, List.take_replicate] at dirty
      exact dirty (zero_image_clean _)
  refine ⟨outside _ (by decide), outside _ (by decide), outside _ (by decide), fun pkt => ?_⟩
  have undefined := (recvpkt_defined_iff pkt endlessBody).not.mpr (outside _ (by decide))
  rw [not_exists] at undefined
  exact Option.eq_none_iff_forall_ne_some.mpr undefined

end MiniOverlay
