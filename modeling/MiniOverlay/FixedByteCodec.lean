import Mathlib.Data.Fin.Tuple.Basic
import Mathlib.Algebra.Group.Nat.Defs
import Mathlib.Data.List.GetD

/-!
# Fixed-width little-endian images

A value of a packed record is a fixed number of bytes. Each codec carries both
round trips as fields, so a record assembled from fields inherits them and no
record re-proves its own layout.
-/

namespace MiniOverlay.FixedByteCodec

set_option autoImplicit false

abbrev Byte := UInt8

def leBytes : Nat → Nat → List Byte
  | 0, _ => []
  | width + 1, value => UInt8.ofNat (value % 256) :: leBytes width (value / 256)

def leValue : List Byte → Nat
  | [] => 0
  | byte :: rest => byte.toNat + 256 * leValue rest

@[simp] theorem le_bytes_length (width value : Nat) :
    (leBytes width value).length = width := by
  induction width generalizing value with
  | zero => rfl
  | succ width ih => simp [leBytes, ih]

theorem le_value_lt (bytes : List Byte) : leValue bytes < 256 ^ bytes.length := by
  induction bytes with
  | nil => simp [leValue]
  | cons byte rest ih =>
      have bounded := byte.toNat_lt
      simp only [leValue, List.length_cons, pow_succ]
      omega

theorem le_value_bytes (width value : Nat) :
    leValue (leBytes width value) = value % 256 ^ width := by
  induction width generalizing value with
  | zero => simp [leBytes, leValue, Nat.mod_one]
  | succ width ih =>
      simp only [leBytes, leValue, ih]
      rw [pow_succ, Nat.mul_comm (256 ^ width), Nat.mod_mul]
      simp

theorem le_bytes_value (bytes : List Byte) :
    leBytes bytes.length (leValue bytes) = bytes := by
  induction bytes with
  | nil => rfl
  | cons byte rest ih =>
      have bounded := byte.toNat_lt
      have low : (byte.toNat + 256 * leValue rest) % 256 = byte.toNat := by omega
      have high : (byte.toNat + 256 * leValue rest) / 256 = leValue rest := by omega
      simp only [List.length_cons, leBytes, leValue, low, high, ih]
      simp

/-- A value together with its byte image of one fixed width. `decode` is total;
it is only meant for inputs of exactly `width` bytes. -/
structure FixedCodec (Value : Type) where
  width : Nat
  encode : Value → List Byte
  decode : List Byte → Value
  encode_length : ∀ value, (encode value).length = width
  decode_encode : ∀ value, decode (encode value) = value
  encode_decode : ∀ bytes, bytes.length = width → encode (decode bytes) = bytes

namespace FixedCodec

variable {Value Other : Type}

theorem encode_injective (codec : FixedCodec Value) : Function.Injective codec.encode := by
  intro left right same
  rw [← codec.decode_encode left, same, codec.decode_encode]

/-- A value whose little-endian number fits the width. -/
def ofNatImage (width : Nat) (toNat : Value → Nat) (ofNat : Nat → Value)
    (bounded : ∀ value, toNat value < 256 ^ width)
    (left : ∀ value, ofNat (toNat value) = value)
    (right : ∀ number, number < 256 ^ width → toNat (ofNat number) = number) :
    FixedCodec Value where
  width := width
  encode value := leBytes width (toNat value)
  decode bytes := ofNat (leValue bytes)
  encode_length _ := le_bytes_length width _
  decode_encode value := by
    rw [le_value_bytes, Nat.mod_eq_of_lt (bounded value), left]
  encode_decode bytes length := by
    rw [right _ (length ▸ le_value_lt bytes), ← length, le_bytes_value]

def u16 : FixedCodec UInt16 :=
  ofNatImage 2 UInt16.toNat UInt16.ofNat (fun value => value.toNat_lt)
    (fun _ => UInt16.ofNat_toNat) (fun _ bounded => UInt16.toNat_ofNat_of_lt' bounded)

def u32 : FixedCodec UInt32 :=
  ofNatImage 4 UInt32.toNat UInt32.ofNat (fun value => value.toNat_lt)
    (fun _ => UInt32.ofNat_toNat) (fun _ bounded => UInt32.toNat_ofNat_of_lt' bounded)

/-- The same image read through a bijection of the values. -/
def iso (codec : FixedCodec Value) (toOther : Value → Other) (ofOther : Other → Value)
    (left : ∀ value, toOther (ofOther value) = value)
    (right : ∀ value, ofOther (toOther value) = value) : FixedCodec Other where
  width := codec.width
  encode value := codec.encode (ofOther value)
  decode bytes := toOther (codec.decode bytes)
  encode_length _ := codec.encode_length _
  decode_encode value := by rw [codec.decode_encode, left]
  encode_decode bytes length := by rw [right, codec.encode_decode bytes length]

/-- Two fields laid out one after the other without padding. -/
def pair (first : FixedCodec Value) (second : FixedCodec Other) :
    FixedCodec (Value × Other) where
  width := first.width + second.width
  encode value := first.encode value.1 ++ second.encode value.2
  decode bytes :=
    (first.decode (bytes.take first.width), second.decode (bytes.drop first.width))
  encode_length value := by
    rw [List.length_append, first.encode_length, second.encode_length]
  decode_encode value := by
    have length := first.encode_length value.1
    rw [← length, List.take_left, List.drop_left, first.decode_encode, second.decode_encode]
  encode_decode bytes length := by
    rw [first.encode_decode _ (by rw [List.length_take]; omega),
      second.encode_decode _ (by rw [List.length_drop]; omega), List.take_append_drop]

/-- An array of fields, each behind the one before it. -/
def array (codec : FixedCodec Value) : (count : Nat) → FixedCodec (Fin count → Value)
  | 0 =>
      { width := 0
        encode := fun _ => []
        decode := fun _ index => index.elim0
        encode_length := fun _ => rfl
        decode_encode := fun _ => funext fun index => index.elim0
        encode_decode := fun _ length => (List.eq_nil_of_length_eq_zero length).symm }
  | count + 1 =>
      (codec.pair (array codec count)).iso (fun value => Fin.cons value.1 value.2)
        (fun values => (values 0, Fin.tail values)) Fin.cons_self_tail
        (fun value => by rw [Fin.cons_zero, Fin.tail_cons])

theorem array_decode (codec : FixedCodec Value) (count : Nat) (bytes : List Byte)
    (index : Fin count) :
    (codec.array count).decode bytes index =
      codec.decode ((bytes.drop (index.val * codec.width)).take codec.width) := by
  induction count generalizing bytes with
  | zero => exact index.elim0
  | succ count ih =>
      cases index using Fin.cases with
      | zero =>
          have first : (codec.array (count + 1)).decode bytes 0 =
              codec.decode (bytes.take codec.width) := rfl
          rw [first, Fin.val_zero, Nat.zero_mul, List.drop_zero]
      | succ index =>
          have later : (codec.array (count + 1)).decode bytes index.succ =
              (codec.array count).decode (bytes.drop codec.width) index := rfl
          rw [later, ih, List.drop_drop, Fin.val_succ, Nat.succ_mul, Nat.add_comm codec.width]

end FixedCodec

theorem take_drop_congr {Item : Type} {left right : List Item} {total start count : Nat}
    (same : left.take total = right.take total) (inside : start + count ≤ total) :
    (left.drop start).take count = (right.drop start).take count := by
  have part (items : List Item) :
      ((items.take total).drop start).take count = (items.drop start).take count := by
    rw [List.drop_take, List.take_take, Nat.min_eq_left (by omega)]
  rw [← part left, same, part right]

/-- The first `count` bytes of a block, zero-filled: what a cleared array holds
after a copy of `bytes` into it. -/
def padVector (count : Nat) (bytes : List Byte) : Vector Byte count :=
  Vector.ofFn fun index => bytes.getD index.val 0

theorem pad_vector_to_list (count : Nat) (bytes : List Byte) (fits : bytes.length ≤ count) :
    (padVector count bytes).toList = bytes ++ List.replicate (count - bytes.length) 0 := by
  apply List.ext_getElem
  · simp only [Vector.length_toList, List.length_append, List.length_replicate]
    omega
  · intro index leftBound rightBound
    simp only [padVector, Vector.getElem_toList, Vector.getElem_ofFn]
    by_cases inside : index < bytes.length
    · rw [List.getD_eq_getElem _ _ inside, List.getElem_append_left inside]
    · rw [List.getD_eq_default _ _ (by omega), List.getElem_append_right (by omega),
        List.getElem_replicate]

theorem pad_vector_take (count : Nat) (bytes : List Byte) (fits : bytes.length ≤ count) :
    (padVector count bytes).toList.take bytes.length = bytes := by
  rw [pad_vector_to_list count bytes fits, List.take_left]

def bytes (count : Nat) : FixedCodec (Vector Byte count) where
  width := count
  encode value := value.toList
  decode := padVector count
  encode_length _ := Vector.length_toList
  decode_encode value := by
    apply Vector.toList_inj.mp
    rw [pad_vector_to_list count _ (by simp)]
    simp
  encode_decode input length := by
    rw [pad_vector_to_list count input (Nat.le_of_eq length), length]
    simp

end MiniOverlay.FixedByteCodec
