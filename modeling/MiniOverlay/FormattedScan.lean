import Mathlib.Data.List.TakeWhile

/-!
# Formatted input

The conversions `%s` and `%d` of the `scanf` family on a text: each skips white space and
takes the longest token or decimal integer that follows. The text may use any characters
of which it is known which are white space, digits and signs.
-/

namespace MiniOverlay.FormattedScan

set_option autoImplicit false

structure Alphabet (Symbol : Type) where
  isSpace : Symbol → Bool
  digit? : Symbol → Option Nat
  /-- The sign of a number, with whether it is the negative one. -/
  sign? : Symbol → Option Bool
  digit_graph : ∀ symbol, (digit? symbol).isSome → isSpace symbol = false
  sign_graph : ∀ symbol, (sign? symbol).isSome → isSpace symbol = false
  sign_no_digit : ∀ symbol, (sign? symbol).isSome → digit? symbol = none

variable {Symbol : Type} (alphabet : Alphabet Symbol)

namespace Alphabet

def isDigit (symbol : Symbol) : Bool := (alphabet.digit? symbol).isSome

def skipSpace (text : List Symbol) : List Symbol := text.dropWhile alphabet.isSpace

/-- `%s`: the token and what is left, or nothing when the text ends before a token. -/
def scanString (text : List Symbol) : Option (List Symbol × List Symbol) :=
  match alphabet.skipSpace text with
  | [] => none
  | symbol :: rest =>
      some ((symbol :: rest).takeWhile fun other => !alphabet.isSpace other,
        (symbol :: rest).dropWhile fun other => !alphabet.isSpace other)

def digitsValue (digits : List Symbol) : Nat :=
  digits.foldl (fun value symbol => 10 * value + (alphabet.digit? symbol).getD 0) 0

def signed (negative : Bool) (value : Nat) : Int := if negative then -(value : Int) else value

def splitSign : List Symbol → Bool × List Symbol
  | [] => (false, [])
  | symbol :: rest =>
      match alphabet.sign? symbol with
      | some negative => (negative, rest)
      | none => (false, symbol :: rest)

/-- `%d`: the integer, if there is one, and what is left. A sign without digits is taken from
the text as well. -/
def scanInteger (text : List Symbol) : Option Int × List Symbol :=
  let (negative, unsigned) := alphabet.splitSign (alphabet.skipSpace text)
  let digits := unsigned.takeWhile alphabet.isDigit
  if digits.isEmpty then (none, unsigned)
  else (some (signed negative (alphabet.digitsValue digits)), unsigned.dropWhile alphabet.isDigit)

def Blank (text : List Symbol) : Prop := ∀ symbol ∈ text, alphabet.isSpace symbol = true

structure Word (text : List Symbol) : Prop where
  nonempty : text ≠ []
  graph : ∀ symbol ∈ text, alphabet.isSpace symbol = false

/-- Nothing, or a text that begins with white space. -/
def Separated (text : List Symbol) : Prop := ∀ symbol ∈ text.head?, alphabet.isSpace symbol = true

instance (text : List Symbol) : Decidable (alphabet.Blank text) :=
  inferInstanceAs (Decidable (∀ symbol ∈ text, alphabet.isSpace symbol = true))

instance (text : List Symbol) : Decidable (alphabet.Separated text) :=
  inferInstanceAs (Decidable (∀ symbol ∈ text.head?, alphabet.isSpace symbol = true))

structure Digits (text : List Symbol) : Prop where
  nonempty : text ≠ []
  each : ∀ symbol ∈ text, alphabet.isDigit symbol = true

inductive Numeral : List Symbol → Int → Prop where
  | unsigned {digits : List Symbol} (isDigits : alphabet.Digits digits) :
      Numeral digits (signed false (alphabet.digitsValue digits))
  | signed {symbol : Symbol} {negative : Bool} {digits : List Symbol}
      (isSign : alphabet.sign? symbol = some negative) (isDigits : alphabet.Digits digits) :
      Numeral (symbol :: digits) (signed negative (alphabet.digitsValue digits))

variable {alphabet}

theorem skip_space_append {space : List Symbol} (blank : alphabet.Blank space)
    (text : List Symbol) : alphabet.skipSpace (space ++ text) = alphabet.skipSpace text :=
  List.dropWhile_append_of_pos blank

theorem skip_space_graph {symbol : Symbol} (graph : alphabet.isSpace symbol = false)
    (text : List Symbol) : alphabet.skipSpace (symbol :: text) = symbol :: text := by
  rw [skipSpace, List.dropWhile_cons, if_neg (by simp [graph])]

theorem skip_space_nil_iff (text : List Symbol) :
    alphabet.skipSpace text = [] ↔ alphabet.Blank text :=
  List.dropWhile_eq_nil_iff

theorem skip_space_length (text : List Symbol) :
    (alphabet.skipSpace text).length ≤ text.length :=
  (List.dropWhile_sublist _).length_le

theorem take_drop_stop {taken : List Symbol} {condition : Symbol → Bool}
    (each : ∀ symbol ∈ taken, condition symbol = true) {rest : List Symbol}
    (stops : ∀ symbol ∈ rest.head?, condition symbol = false) :
    (taken ++ rest).takeWhile condition = taken ∧ (taken ++ rest).dropWhile condition = rest := by
  rw [List.takeWhile_append_of_pos each, List.dropWhile_append_of_pos each]
  cases rest with
  | nil => exact ⟨List.append_nil _, rfl⟩
  | cons symbol rest =>
      have stop := stops symbol rfl
      rw [List.takeWhile_cons, List.dropWhile_cons, if_neg (by simp [stop]),
        if_neg (by simp [stop])]
      exact ⟨List.append_nil _, rfl⟩

theorem scan_string_none_iff (text : List Symbol) :
    alphabet.scanString text = none ↔ alphabet.Blank text := by
  rw [← skip_space_nil_iff, scanString]
  cases alphabet.skipSpace text <;> simp

theorem scan_string_shorter {text token rest : List Symbol}
    (scanned : alphabet.scanString text = some (token, rest)) : rest.length < text.length := by
  have skipped : (alphabet.skipSpace text).length ≤ text.length := skip_space_length text
  unfold scanString at scanned
  cases found : alphabet.skipSpace text with
  | nil =>
      rw [found] at scanned
      cases scanned
  | cons symbol more =>
      rw [found] at scanned skipped
      cases scanned
      have graph : alphabet.isSpace symbol = false := by
        have head := List.head?_dropWhile_not alphabet.isSpace text
        rw [← skipSpace, found] at head
        simpa using head
      rw [List.length_cons] at skipped
      rw [List.dropWhile_cons, if_pos (by simp [graph])]
      have fewer := (List.dropWhile_sublist (fun other => !alphabet.isSpace other)
        (l := more)).length_le
      omega

theorem scan_string_word {space token rest : List Symbol} (blank : alphabet.Blank space)
    (word : alphabet.Word token) (separated : alphabet.Separated rest) :
    alphabet.scanString (space ++ token ++ rest) = some (token, rest) := by
  obtain ⟨symbol, more, rfl⟩ := List.exists_cons_of_ne_nil word.nonempty
  have graph := word.graph symbol (by simp)
  have inWord : ∀ other ∈ symbol :: more, (!alphabet.isSpace other) = true :=
    fun other member => by simp [word.graph other member]
  have behind : ∀ other ∈ rest.head?, (!alphabet.isSpace other) = false :=
    fun other member => by simp [separated other member]
  obtain ⟨takes, drops⟩ := take_drop_stop inWord behind
  rw [List.append_assoc, scanString, skip_space_append blank, List.cons_append,
    skip_space_graph graph]
  rw [List.cons_append] at takes drops
  simp only [takes, drops]

theorem split_sign_length (text : List Symbol) :
    (alphabet.splitSign text).2.length ≤ text.length := by
  cases text with
  | nil => exact Nat.le_refl _
  | cons symbol rest =>
      rw [splitSign]
      cases alphabet.sign? symbol <;> simp

theorem scan_integer_length (text : List Symbol) :
    (alphabet.scanInteger text).2.length ≤ text.length := by
  have skipped : (alphabet.skipSpace text).length ≤ text.length := skip_space_length text
  have unsigned : (alphabet.splitSign (alphabet.skipSpace text)).2.length ≤
      (alphabet.skipSpace text).length := split_sign_length _
  have digits := (List.dropWhile_sublist alphabet.isDigit
    (l := (alphabet.splitSign (alphabet.skipSpace text)).2)).length_le
  simp only [scanInteger]
  split_ifs
  · exact unsigned.trans skipped
  · exact digits.trans (unsigned.trans skipped)

theorem digit_of_is_digit {symbol : Symbol} (isDigit : alphabet.isDigit symbol = true) :
    alphabet.isSpace symbol = false ∧ alphabet.sign? symbol = none := by
  refine ⟨alphabet.digit_graph symbol isDigit, ?_⟩
  by_contra isSign
  have none := alphabet.sign_no_digit symbol (Option.isSome_iff_ne_none.mpr isSign)
  rw [Alphabet.isDigit, none] at isDigit
  cases isDigit

theorem scan_digits {digits rest : List Symbol} (isDigits : alphabet.Digits digits)
    (separated : alphabet.Separated rest) :
    (digits ++ rest).takeWhile alphabet.isDigit = digits ∧
      (digits ++ rest).dropWhile alphabet.isDigit = rest := by
  refine take_drop_stop isDigits.each fun symbol member => ?_
  have space := separated symbol member
  by_contra isDigit
  rw [Bool.not_eq_false] at isDigit
  rw [(digit_of_is_digit isDigit).1] at space
  cases space

theorem scan_integer_numeral {space number rest : List Symbol} {value : Int}
    (blank : alphabet.Blank space) (numeral : alphabet.Numeral number value)
    (separated : alphabet.Separated rest) :
    alphabet.scanInteger (space ++ number ++ rest) = (some value, rest) := by
  rw [List.append_assoc, scanInteger, skip_space_append blank]
  cases numeral with
  | unsigned isDigits =>
      obtain ⟨takes, drops⟩ := scan_digits isDigits separated
      obtain ⟨symbol, more, rfl⟩ := List.exists_cons_of_ne_nil isDigits.nonempty
      obtain ⟨graph, noSign⟩ := digit_of_is_digit (isDigits.each symbol (by simp))
      rw [List.cons_append] at takes drops ⊢
      simp only [skip_space_graph graph, splitSign, noSign, takes, drops]
      rfl
  | signed isSign isDigits =>
      obtain ⟨takes, drops⟩ := scan_digits isDigits separated
      have graph := alphabet.sign_graph _ (by rw [isSign]; rfl)
      rw [List.cons_append]
      simp only [skip_space_graph graph, splitSign, isSign, takes, drops]
      rw [if_neg (by simpa using isDigits.nonempty)]

end Alphabet

end MiniOverlay.FormattedScan
