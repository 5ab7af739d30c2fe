import Gocoon.JsonPrinting
import Mathlib.Algebra.Order.Field.Rat
import Mathlib.Data.Nat.Digits.Lemmas
import Mathlib.Tactic.FieldSimp
import Mathlib.Tactic.NormNum
import Mathlib.Tactic.Positivity
import Mathlib.Tactic.Ring

/-!
# The parts and the value of a number literal

A literal of JSON has a sign, digits, a fraction and an exponent. `split` takes a text apart,
`text` writes the parts down, and the two are inverse on parts that make up a literal. Digits
with a power of ten are written in the plain form and in the one with an exponent, as
`strconv.AppendFloat` writes them with formats `f` and `e`.
-/

namespace Gocoon.DecimalLiterals

open Gocoon.LittleEndianBytes
open Gocoon.Utf8Text
open Gocoon.JsonText
open Gocoon.JsonPrinting

set_option autoImplicit false

/-! ## Digits -/

def digitByte (value : ℕ) : Byte := UInt8.ofNat (0x30 + value)

def decimalDigits (number : ℕ) : List Byte :=
  if number = 0 then [0x30] else (Nat.digits 10 number).reverse.map digitByte

def digitsValue (digits : List Byte) : ℕ :=
  digits.foldl (fun value byte => value * 10 + (byte.toNat - 0x30)) 0

def zeros (count : ℕ) : List Byte := List.replicate count 0x30

theorem digit_byte_digit {value : ℕ} (small : value < 10) : digit (digitByte value) = true := by
  interval_cases value <;> decide

theorem digit_byte_value {value : ℕ} (small : value < 10) :
    (digitByte value).toNat - 0x30 = value := by
  interval_cases value <;> rfl

theorem decimal_digits_digit (number : ℕ) : ∀ byte ∈ decimalDigits number, digit byte = true := by
  intro byte inside
  unfold decimalDigits at inside
  split_ifs at inside
  · obtain rfl := List.mem_singleton.mp inside
    decide
  · obtain ⟨value, listed, rfl⟩ := List.mem_map.mp inside
    exact digit_byte_digit (Nat.digits_lt_base (by decide) (List.mem_reverse.mp listed))

theorem digits_value_append (front back : List Byte) :
    digitsValue (front ++ back) = digitsValue front * 10 ^ back.length + digitsValue back := by
  induction back using List.reverseRecOn with
  | nil => simp [digitsValue]
  | append_singleton back byte induction =>
      have last : ∀ digits : List Byte, digitsValue (digits ++ [byte]) =
          digitsValue digits * 10 + (byte.toNat - 0x30) := by
        intro digits
        simp [digitsValue]
      rw [← List.append_assoc, last, last, induction, List.length_append, List.length_singleton,
        pow_succ]
      ring

theorem zeros_length (count : ℕ) : (zeros count).length = count := List.length_replicate

theorem digits_value_zeros (count : ℕ) : digitsValue (zeros count) = 0 := by
  induction count with
  | zero => rfl
  | succ count induction =>
      rw [zeros, List.replicate_succ', digits_value_append]
      rw [zeros] at induction
      rw [induction]
      rfl

theorem digits_value_decimal (number : ℕ) : digitsValue (decimalDigits number) = number := by
  have every : ∀ digits : List ℕ, (∀ value ∈ digits, value < 10) →
      digitsValue (digits.reverse.map digitByte) = Nat.ofDigits 10 digits := by
    intro digits
    induction digits with
    | nil => exact fun _ => rfl
    | cons value rest induction =>
        intro small
        obtain ⟨here, others⟩ := List.forall_mem_cons.mp small
        rw [List.reverse_cons, List.map_append, digits_value_append, induction others,
          Nat.ofDigits_cons]
        simp only [List.map_cons, List.map_nil, List.length_singleton, pow_one, digitsValue,
          List.foldl_cons, List.foldl_nil, zero_mul, zero_add, digit_byte_value here]
        ring
  unfold decimalDigits
  split_ifs with zero
  · rw [zero]
    rfl
  · rw [every _ fun value listed => Nat.digits_lt_base (by decide) listed, Nat.ofDigits_digits]

theorem decimal_digits_ne_nil (number : ℕ) : decimalDigits number ≠ [] := by
  unfold decimalDigits
  split_ifs with zero
  · simp
  · intro empty
    apply zero
    apply Nat.digits_eq_nil_iff_eq_zero.mp
    simpa using empty

theorem decimal_digits_leading {number : ℕ} (positive : number ≠ 0) :
    (decimalDigits number).head? ≠ some 0x30 := by
  intro leads
  rw [decimalDigits, if_neg positive, List.head?_map, List.head?_reverse] at leads
  obtain ⟨value, last, zero⟩ := Option.map_eq_some_iff.mp leads
  have nonempty : Nat.digits 10 number ≠ [] := Nat.digits_ne_nil_iff_ne_zero.mpr positive
  rw [List.getLast?_eq_getLast_of_ne_nil nonempty] at last
  have small : value < 10 := by
    apply Nat.digits_lt_base (by decide)
    rw [← Option.some.inj last]
    exact List.getLast_mem nonempty
  have nonzero : value ≠ 0 := Option.some.inj last ▸ Nat.getLast_digit_ne_zero 10 positive
  interval_cases value
  · exact nonzero rfl
  all_goals exact absurd zero (by decide)

/-! ## Parts -/

structure NumberParts where
  negative : Bool
  whole : List Byte
  fraction : List Byte
  exponent : Option ℤ

def signText (negative : Bool) : List Byte := if negative then [0x2D] else []

def fractionText (fraction : List Byte) : List Byte :=
  if fraction = [] then [] else 0x2E :: fraction

def exponentText : Option ℤ → List Byte
  | none => []
  | some exponent =>
      0x65 :: (if exponent < 0 then 0x2D else 0x2B) :: decimalDigits exponent.natAbs

namespace NumberParts

def text (parts : NumberParts) : List Byte :=
  signText parts.negative ++ (parts.whole ++ (fractionText parts.fraction ++
    exponentText parts.exponent))

structure Valid (parts : NumberParts) : Prop where
  whole : ∀ byte ∈ parts.whole, digit byte = true
  leading : parts.whole = [0x30] ∨ parts.whole ≠ [] ∧ parts.whole.head? ≠ some 0x30
  fraction : ∀ byte ∈ parts.fraction, digit byte = true

def magnitude (parts : NumberParts) : ℚ :=
  digitsValue (parts.whole ++ parts.fraction) *
    10 ^ (parts.exponent.getD 0 - parts.fraction.length)

def value (parts : NumberParts) : ℚ :=
  if parts.negative then -parts.magnitude else parts.magnitude

end NumberParts

def takeDigits (text : List Byte) : List Byte × List Byte :=
  (text.takeWhile digit, text.dropWhile digit)

def splitSign (text : List Byte) : Bool × List Byte :=
  match expect 0x2D text with
  | some rest => (true, rest)
  | none => (false, text)

def splitFraction (text : List Byte) : List Byte × List Byte :=
  match expect 0x2E text with
  | some rest => takeDigits rest
  | none => ([], text)

def splitExponent (text : List Byte) : Option ℤ :=
  match (expect 0x65 text).orElse fun _ => expect 0x45 text with
  | none => none
  | some rest =>
      match expect 0x2D rest, expect 0x2B rest with
      | some digits, _ => some (-(digitsValue (takeDigits digits).1))
      | none, some digits => some (digitsValue (takeDigits digits).1)
      | none, none => some (digitsValue (takeDigits rest).1)

def split (literal : List Byte) : NumberParts :=
  let (negative, unsigned) := splitSign literal
  let (whole, behind) := takeDigits unsigned
  let (fraction, rest) := splitFraction behind
  { negative, whole, fraction, exponent := splitExponent rest }

/-! ## Reading a text back -/

def DigitsEnd (rest : List Byte) : Prop := ∀ byte ∈ rest.head?, digit byte = false

theorem take_digits_append {digits rest : List Byte} (all : ∀ byte ∈ digits, digit byte = true)
    (ends : DigitsEnd rest) : takeDigits (digits ++ rest) = (digits, rest) := by
  have stops : rest.takeWhile digit = [] ∧ rest.dropWhile digit = rest := by
    cases rest with
    | nil => exact ⟨rfl, rfl⟩
    | cons byte rest => simp [ends byte rfl]
  rw [takeDigits, List.takeWhile_append_of_pos all, List.dropWhile_append_of_pos all, stops.1,
    stops.2, List.append_nil]

theorem scan_digits_append {digits rest : List Byte} (all : ∀ byte ∈ digits, digit byte = true)
    (some : digits ≠ []) (ends : DigitsEnd rest) :
    scanDigits (digits ++ rest) = .some (digits, rest) := by
  have taken := take_digits_append all ends
  rw [takeDigits, Prod.mk.injEq] at taken
  rw [scanDigits, taken.1, taken.2, if_neg some]

theorem exponent_starts (exponent : Option ℤ) :
    exponentText exponent = [] ∨ ∃ rest, exponentText exponent = 0x65 :: rest := by
  cases exponent with
  | none => exact .inl rfl
  | some exponent => exact .inr ⟨_, rfl⟩

theorem exponent_ends (exponent : Option ℤ) : DigitsEnd (exponentText exponent) := by
  rcases exponent_starts exponent with none | ⟨rest, some⟩
  · rw [none]
    nofun
  · rw [some]
    intro byte first
    cases first
    decide

theorem fraction_ends (fraction : List Byte) (exponent : Option ℤ) :
    DigitsEnd (fractionText fraction ++ exponentText exponent) := by
  unfold fractionText
  split_ifs
  · exact exponent_ends exponent
  · intro byte first
    cases first
    decide

theorem expect_empty (wanted : Byte) : expect wanted [] = none := rfl

theorem expect_same (wanted : Byte) (rest : List Byte) :
    expect wanted (wanted :: rest) = some rest :=
  expect_eq_some.mpr rfl

theorem expect_exponent {wanted : Byte} (other : wanted ≠ 0x65) (exponent : Option ℤ) :
    expect wanted (exponentText exponent) = none := by
  rcases exponent_starts exponent with none | ⟨rest, some⟩
  · rw [none, expect_empty]
  · rw [some]
    exact expect_other (Ne.symm other) rest

theorem scan_exponent (exponent : Option ℤ) :
    optionalPart [0x65, 0x45] (andThen (optionalByte [0x2B, 0x2D]) scanDigits)
      (exponentText exponent) = some (exponentText exponent, []) := by
  cases exponent with
  | none => rfl
  | some exponent =>
      have digits := scan_digits_append (decimal_digits_digit exponent.natAbs)
        (decimal_digits_ne_nil _) (by nofun : DigitsEnd [])
      rw [List.append_nil] at digits
      dsimp only [exponentText]
      split_ifs <;> simp [optionalPart, andThen, optionalByte, digits]

theorem split_exponent_text (exponent : Option ℤ) :
    splitExponent (exponentText exponent) = exponent := by
  cases exponent with
  | none => rfl
  | some exponent =>
      have digits := take_digits_append (decimal_digits_digit exponent.natAbs)
        (by nofun : DigitsEnd [])
      rw [List.append_nil] at digits
      unfold exponentText splitExponent
      rw [expect_same]
      split_ifs with negative
      · simp only [Option.orElse_some, expect_same, digits, digits_value_decimal,
          Option.some.injEq]
        omega
      · simp only [Option.orElse_some, expect_other (show (0x2B : Byte) ≠ 0x2D by decide),
          expect_same, digits, digits_value_decimal, Option.some.injEq]
        omega

theorem scan_fraction {fraction : List Byte} (all : ∀ byte ∈ fraction, digit byte = true)
    (exponent : Option ℤ) :
    optionalPart [0x2E] scanDigits (fractionText fraction ++ exponentText exponent) =
      some (fractionText fraction, exponentText exponent) := by
  unfold fractionText
  split_ifs with none
  · rcases exponent_starts exponent with nothing | ⟨rest, some⟩
    · rw [nothing]
      rfl
    · rw [some]
      rfl
  · simp [optionalPart, scan_digits_append all none (exponent_ends exponent)]

theorem split_fraction_text {fraction : List Byte} (all : ∀ byte ∈ fraction, digit byte = true)
    (exponent : Option ℤ) :
    splitFraction (fractionText fraction ++ exponentText exponent) =
      (fraction, exponentText exponent) := by
  unfold splitFraction fractionText
  split_ifs with none
  · rw [List.nil_append, expect_exponent (by decide), none]
  · rw [List.cons_append, expect_same]
    exact take_digits_append all (exponent_ends exponent)

theorem scan_integer_append {whole rest : List Byte} (all : ∀ byte ∈ whole, digit byte = true)
    (leading : whole = [0x30] ∨ whole ≠ [] ∧ whole.head? ≠ some 0x30) (ends : DigitsEnd rest) :
    scanInteger (whole ++ rest) = some (whole, rest) := by
  unfold scanInteger
  rcases leading with zero | ⟨nonempty, first⟩
  · rw [zero, List.cons_append, expect_same]
    rfl
  · obtain ⟨byte, tail, rfl⟩ := List.exists_cons_of_ne_nil nonempty
    rw [List.cons_append, expect_other (by simpa using first), ← List.cons_append,
      scan_digits_append all nonempty ends]

namespace NumberParts

variable {parts : NumberParts}

theorem whole_starts (valid : Valid parts) (rest : List Byte) :
    ∃ byte tail, parts.whole ++ rest = byte :: tail ∧ byte ≠ 0x2D := by
  have nonempty : parts.whole ≠ [] := by
    rcases valid.leading with zero | ⟨nonempty, -⟩
    · simp [zero]
    · exact nonempty
  obtain ⟨byte, tail, same⟩ := List.exists_cons_of_ne_nil nonempty
  have isDigit : digit byte = true := valid.whole byte (by simp [same])
  refine ⟨byte, tail ++ rest, by rw [same, List.cons_append], ?_⟩
  rintro rfl
  cases isDigit

theorem text_literal (valid : Valid parts) : NumberLiteral parts.text := by
  have integer := scan_integer_append valid.whole valid.leading
    (fraction_ends parts.fraction parts.exponent)
  have fraction := scan_fraction valid.fraction parts.exponent
  have unsigned : andThen scanInteger (andThen (optionalPart [0x2E] scanDigits)
      (optionalPart [0x65, 0x45] (andThen (optionalByte [0x2B, 0x2D]) scanDigits)))
        (parts.whole ++ (fractionText parts.fraction ++ exponentText parts.exponent)) =
      some (parts.whole ++ (fractionText parts.fraction ++ exponentText parts.exponent), []) := by
    simp only [andThen, integer, fraction, scan_exponent, Option.bind_some, Option.map_some]
  unfold NumberLiteral scanNumber text
  rw [andThen]
  cases parts.negative with
  | true => simp [signText, optionalByte, unsigned]
  | false =>
      obtain ⟨byte, tail, same, other⟩ := whole_starts valid
        (fractionText parts.fraction ++ exponentText parts.exponent)
      rw [same] at unsigned
      simp [signText, same, optionalByte, other, unsigned]

theorem split_text (valid : Valid parts) : split parts.text = parts := by
  have sign : splitSign parts.text = (parts.negative,
      parts.whole ++ (fractionText parts.fraction ++ exponentText parts.exponent)) := by
    unfold splitSign text
    cases parts.negative with
    | true => rfl
    | false =>
        obtain ⟨byte, tail, same, other⟩ := whole_starts valid
          (fractionText parts.fraction ++ exponentText parts.exponent)
        rw [same, signText, if_neg (by decide), List.nil_append, expect_other other]
  have whole := take_digits_append valid.whole (fraction_ends parts.fraction parts.exponent)
  simp only [split, sign, whole, split_fraction_text valid.fraction, split_exponent_text]

end NumberParts

/-! ## The two forms of a decimal -/

def padded (places digits : ℕ) : List Byte :=
  zeros (places + 1 - (decimalDigits digits).length) ++ decimalDigits digits

/-- Format `f`: all digits written out. -/
def plainParts (negative : Bool) (digits : ℕ) (power : ℤ) : NumberParts :=
  if 0 ≤ power then ⟨negative, decimalDigits digits ++ zeros power.toNat, [], none⟩
  else
    let places := (-power).toNat
    let spread := padded places digits
    ⟨negative, spread.take (spread.length - places), spread.drop (spread.length - places), none⟩

/-- Format `e`: one digit before the point. -/
def scientificParts (negative : Bool) (digits : ℕ) (power : ℤ) : NumberParts :=
  ⟨negative, (decimalDigits digits).take 1, (decimalDigits digits).drop 1,
    some (power + ((decimalDigits digits).length - 1 : ℕ))⟩

theorem zeros_digit (count : ℕ) : ∀ byte ∈ zeros count, digit byte = true := by
  intro byte inside
  rw [List.eq_of_mem_replicate inside]
  decide

theorem padded_digit (places digits : ℕ) : ∀ byte ∈ padded places digits, digit byte = true := by
  intro byte inside
  rcases List.mem_append.mp inside with zero | other
  · exact zeros_digit _ byte zero
  · exact decimal_digits_digit digits byte other

theorem padded_value (places digits : ℕ) : digitsValue (padded places digits) = digits := by
  rw [padded, digits_value_append, digits_value_zeros, digits_value_decimal, zero_mul, zero_add]

theorem padded_length (places digits : ℕ) : places < (padded places digits).length := by
  rw [padded, List.length_append, zeros_length]
  omega

section Forms

variable {digits : ℕ} (negative : Bool) (power : ℤ)

theorem decimal_digits_starts (positive : digits ≠ 0) :
    ∃ byte tail, decimalDigits digits = byte :: tail ∧ byte ≠ 0x30 := by
  obtain ⟨byte, tail, same⟩ := List.exists_cons_of_ne_nil (decimal_digits_ne_nil digits)
  have leading := decimal_digits_leading positive
  rw [same] at leading
  exact ⟨byte, tail, same, by simpa using leading⟩

theorem padded_leading (positive : digits ≠ 0) (places : ℕ) :
    let whole := (padded places digits).take ((padded places digits).length - places)
    whole = [0x30] ∨ whole ≠ [] ∧ whole.head? ≠ some 0x30 := by
  obtain ⟨byte, tail, same, nonzero⟩ := decimal_digits_starts positive
  rcases Nat.lt_or_ge places (decimalDigits digits).length with long | short
  · right
    have unpadded : padded places digits = byte :: tail := by
      rw [padded, show places + 1 - (decimalDigits digits).length = 0 by omega, ← same]
      rfl
    rw [same] at long
    obtain ⟨count, left⟩ : ∃ count, (byte :: tail).length - places = count + 1 :=
      ⟨(byte :: tail).length - places - 1, by omega⟩
    simp only [unpadded, left, List.take_succ_cons]
    exact ⟨by simp, by simpa using nonzero⟩
  · left
    obtain ⟨count, left⟩ : ∃ count, places + 1 - (decimalDigits digits).length = count + 1 :=
      ⟨places - (decimalDigits digits).length, by omega⟩
    have size : (padded places digits).length - places = 1 := by
      rw [padded, List.length_append, zeros_length]
      omega
    simp only [size]
    rw [padded, left]
    rfl

theorem plain_valid (positive : digits ≠ 0) : (plainParts negative digits power).Valid := by
  unfold plainParts
  split_ifs
  · refine ⟨?_, ?_, by nofun⟩
    · intro byte inside
      rcases List.mem_append.mp inside with listed | zero
      · exact decimal_digits_digit digits byte listed
      · exact zeros_digit _ byte zero
    · obtain ⟨byte, tail, same, nonzero⟩ := decimal_digits_starts positive
      exact .inr ⟨by simp [same], by simpa [same] using nonzero⟩
  · exact ⟨fun byte inside => padded_digit _ digits byte (List.mem_of_mem_take inside),
      padded_leading positive _,
      fun byte inside => padded_digit _ digits byte (List.mem_of_mem_drop inside)⟩

theorem plain_magnitude : (plainParts negative digits power).magnitude = digits * 10 ^ power := by
  unfold plainParts
  split_ifs with whole
  · obtain ⟨count, rfl⟩ := Int.eq_ofNat_of_zero_le whole
    simp [NumberParts.magnitude, digits_value_append, digits_value_decimal, digits_value_zeros,
      zeros_length]
  · obtain ⟨places, below⟩ := Int.eq_ofNat_of_zero_le (show 0 ≤ -power by omega)
    have size := padded_length places digits
    have count : (padded places digits).length - ((padded places digits).length - places) =
      places := by omega
    rw [show power = -(places : ℤ) by omega]
    simp [NumberParts.magnitude, padded_value, count]

theorem scientific_valid (positive : digits ≠ 0) :
    (scientificParts negative digits power).Valid := by
  obtain ⟨byte, tail, same, nonzero⟩ := decimal_digits_starts positive
  refine ⟨?_, ?_, ?_⟩
  · exact fun byte inside => decimal_digits_digit digits byte (List.mem_of_mem_take inside)
  · exact .inr ⟨by simp [scientificParts, same], by simpa [scientificParts, same] using nonzero⟩
  · exact fun byte inside => decimal_digits_digit digits byte (List.mem_of_mem_drop inside)

theorem scientific_magnitude :
    (scientificParts negative digits power).magnitude = digits * 10 ^ power := by
  simp only [NumberParts.magnitude, scientificParts, List.take_append_drop, digits_value_decimal,
    List.length_drop, Option.getD_some, add_sub_cancel_right]

end Forms

end Gocoon.DecimalLiterals
