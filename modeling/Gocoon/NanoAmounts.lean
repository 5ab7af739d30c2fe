import Gocoon.DecimalLiterals
import Gocoon.GoStrings
import Gocoon.TlPrimitives

/-!
# Displayed amounts

`formatNanoTON` shows an amount of nanotons in tons. The whole tons and the nanotons that are
left over are printed on their own, the latter with zeros in front up to nine digits and without
the zeros at their end. The text is a number literal without an exponent; its parts determine
the amount, and the text determines its parts.
-/

namespace Gocoon.NanoAmounts

open Gocoon.LittleEndianBytes
open Gocoon.TlPrimitives (GoString ascii)
open Gocoon.JsonText
open Gocoon.GoStrings
open Gocoon.DecimalLiterals

set_option autoImplicit false

/-- `String` of a `*big.Int`. -/
def bigString (number : ℤ) : GoString :=
  signText (decide (number < 0)) ++ decimalDigits number.natAbs

/-- `fmt.Sprintf("%09s", text)`. -/
def sprintfNine (text : GoString) : GoString := zeros (9 - text.length) ++ text

/-- A nil amount is shown as zero. `QuoRem` truncates, of a number that is not negative. -/
def formatNanoTON : Option ℤ → GoString
  | none => ascii "0"
  | some n =>
      let sign := if n < 0 then ascii "-" else []
      let v := if n < 0 then |n| else n
      let div : ℤ := 1000000000
      let whole := v.tdiv div
      let frac := v.tmod div
      if frac = 0 then sign ++ bigString whole
      else
        let fracStr := sprintfNine (bigString frac)
        let fracStr := trimRight fracStr 0x30
        sign ++ bigString whole ++ ascii "." ++ fracStr

/-- A numeral with at most nine digits behind the point, the last of which is no zero. -/
structure NanoNumeral (parts : NumberParts) : Prop where
  valid : parts.Valid
  plain : parts.exponent = none
  places : parts.fraction.length ≤ 9
  trimmed : parts.fraction.getLast? ≠ some 0x30

/-! ## The digits behind the point -/

def fractionDigits (nanos : ℕ) : List Byte := trimRight (sprintfNine (decimalDigits nanos)) 0x30

theorem decimal_digits_length {number count : ℕ} (positive : 0 < count)
    (small : number < 10 ^ count) : (decimalDigits number).length ≤ count := by
  unfold decimalDigits
  split_ifs with zero
  · exact positive
  · rw [List.length_map, List.length_reverse]
    exact (Nat.digits_length_le_iff (by decide) number).mpr small

theorem sprintf_nine_length {nanos : ℕ} (small : nanos < 10 ^ 9) :
    (sprintfNine (decimalDigits nanos)).length = 9 := by
  have fits := decimal_digits_length (by decide) small
  rw [sprintfNine, List.length_append, zeros_length]
  omega

theorem sprintf_nine_value (nanos : ℕ) :
    digitsValue (sprintfNine (decimalDigits nanos)) = nanos := by
  rw [sprintfNine, digits_value_append, digits_value_zeros, digits_value_decimal, Nat.zero_mul,
    Nat.zero_add]

theorem sprintf_nine_digit (nanos : ℕ) :
    ∀ byte ∈ sprintfNine (decimalDigits nanos), digit byte = true := by
  intro byte inside
  rcases List.mem_append.mp inside with zero | other
  · exact zeros_digit _ byte zero
  · exact decimal_digits_digit nanos byte other

theorem trim_right_zeros (text : List Byte) :
    ∃ count, text = trimRight text 0x30 ++ zeros count := by
  have split : trimRight text 0x30 ++ text.rtakeWhile (fun byte => decide (byte = 0x30)) = text :=
    List.rdropWhile_append_rtakeWhile
  have same : text.rtakeWhile (fun byte => decide (byte = 0x30)) =
      zeros (text.rtakeWhile fun byte => decide (byte = 0x30)).length := by
    apply List.eq_replicate_of_mem
    intro byte inside
    have isZero := List.mem_rtakeWhile_imp inside
    exact of_decide_eq_true isZero
  refine ⟨(text.rtakeWhile fun byte => decide (byte = 0x30)).length, ?_⟩
  rw [← same]
  exact split.symm

theorem trim_right_last (text : List Byte) : (trimRight text 0x30).getLast? ≠ some 0x30 := by
  intro last
  have nonempty : trimRight text 0x30 ≠ [] := by
    intro empty
    rw [empty] at last
    cases last
  have kept := List.rdropWhile_last_not (fun byte : Byte => decide (byte = 0x30)) text nonempty
  apply kept
  rw [List.getLast?_eq_getLast_of_ne_nil nonempty] at last
  exact decide_eq_true (Option.some.inj last)

theorem fraction_digits_value {nanos : ℕ} (small : nanos < 10 ^ 9) :
    ∃ count, (fractionDigits nanos).length + count = 9 ∧
      digitsValue (fractionDigits nanos) * 10 ^ count = nanos := by
  obtain ⟨count, split⟩ := trim_right_zeros (sprintfNine (decimalDigits nanos))
  have length := congrArg List.length split
  have value := congrArg digitsValue split
  rw [sprintf_nine_length small, List.length_append, zeros_length] at length
  rw [sprintf_nine_value, digits_value_append, digits_value_zeros, zeros_length, Nat.add_zero]
    at value
  exact ⟨count, length.symm, value.symm⟩

theorem fraction_digits_digit (nanos : ℕ) : ∀ byte ∈ fractionDigits nanos, digit byte = true := by
  intro byte inside
  exact sprintf_nine_digit nanos byte ((List.rdropWhile_prefix _ _).subset inside)

theorem fraction_digits_zero : fractionDigits 0 = [] := by decide

theorem fraction_digits_ne_nil {nanos : ℕ} (small : nanos < 10 ^ 9) (positive : nanos ≠ 0) :
    fractionDigits nanos ≠ [] := by
  intro empty
  obtain ⟨count, -, value⟩ := fraction_digits_value small
  apply positive
  rw [← value, empty]
  exact Nat.zero_mul _

/-! ## The parts of the text -/

def nanoParts (amount : ℤ) : NumberParts where
  negative := decide (amount < 0)
  whole := decimalDigits (amount.natAbs / 10 ^ 9)
  fraction := fractionDigits (amount.natAbs % 10 ^ 9)
  exponent := none

theorem nano_parts_numeral (amount : ℤ) : NanoNumeral (nanoParts amount) where
  valid :=
    { whole := decimal_digits_digit _
      leading := by
        by_cases below : amount.natAbs / 10 ^ 9 = 0
        · left
          change decimalDigits (amount.natAbs / 10 ^ 9) = [0x30]
          rw [below]
          rfl
        · right
          exact ⟨decimal_digits_ne_nil _, decimal_digits_leading below⟩
      fraction := fraction_digits_digit _ }
  plain := rfl
  places := by
    obtain ⟨count, length, -⟩ := fraction_digits_value (Nat.mod_lt amount.natAbs (by decide))
    exact Nat.le.intro length
  trimmed := trim_right_last _

theorem scale_places {places count : ℕ} (all : places + count = 9) :
    (10 : ℚ) ^ (0 - (places : ℤ)) * 10 ^ 9 = 10 ^ count := by
  have cancel : ((10 : ℚ) ^ places)⁻¹ * 10 ^ places = 1 := inv_mul_cancel₀ (by positivity)
  rw [← all, pow_add, zero_sub, zpow_neg, zpow_natCast, ← mul_assoc, cancel, one_mul]

theorem nano_parts_magnitude (amount : ℤ) :
    (nanoParts amount).magnitude * 10 ^ 9 = (amount.natAbs : ℚ) := by
  obtain ⟨count, length, value⟩ := fraction_digits_value
    (show amount.natAbs % 10 ^ 9 < 10 ^ 9 from Nat.mod_lt _ (by decide))
  have shown : digitsValue ((nanoParts amount).whole ++ (nanoParts amount).fraction) * 10 ^ count =
      amount.natAbs := by
    change digitsValue (decimalDigits (amount.natAbs / 10 ^ 9) ++
      fractionDigits (amount.natAbs % 10 ^ 9)) * 10 ^ count = amount.natAbs
    rw [digits_value_append, digits_value_decimal, Nat.add_mul, value, Nat.mul_assoc, ← pow_add,
      length]
    exact Nat.div_add_mod' _ _
  have scale : (10 : ℚ) ^ ((nanoParts amount).exponent.getD 0 -
      ((nanoParts amount).fraction.length : ℤ)) * 10 ^ 9 = 10 ^ count := scale_places length
  rw [NumberParts.magnitude, mul_assoc, scale, ← shown]
  push_cast
  rfl

theorem nano_parts_value (amount : ℤ) : (nanoParts amount).value * 10 ^ 9 = amount := by
  have magnitude := nano_parts_magnitude amount
  unfold NumberParts.value
  by_cases negative : amount < 0
  · have isNegative : (nanoParts amount).negative = true := decide_eq_true negative
    have size : (amount.natAbs : ℤ) = -amount := Int.ofNat_natAbs_of_nonpos (by omega)
    rw [if_pos isNegative, neg_mul, magnitude, ← Int.cast_natCast, size]
    push_cast
    ring
  · have notNegative : ¬ (nanoParts amount).negative = true := by
      simpa [nanoParts] using negative
    have size : (amount.natAbs : ℤ) = amount := Int.natAbs_of_nonneg (by omega)
    rw [if_neg notNegative, magnitude, ← Int.cast_natCast, size]

theorem big_string_natural (number : ℕ) : bigString number = decimalDigits number := by
  have notNegative : decide ((number : ℤ) < 0) = false := by simp
  rw [bigString, notNegative, Int.natAbs_natCast]
  rfl

theorem format_nano_text (amount : ℤ) :
    formatNanoTON (some amount) = (nanoParts amount).text := by
  have size : (if amount < 0 then |amount| else amount) = (amount.natAbs : ℤ) := by
    split_ifs with negative
    · exact Int.abs_eq_natAbs amount
    · omega
  have whole : (amount.natAbs : ℤ).tdiv 1000000000 = (amount.natAbs / 10 ^ 9 : ℕ) := rfl
  have rest : (amount.natAbs : ℤ).tmod 1000000000 = (amount.natAbs % 10 ^ 9 : ℕ) := rfl
  have sign : (if amount < 0 then ascii "-" else []) = signText (decide (amount < 0)) := by
    by_cases negative : amount < 0
    · rw [if_pos negative, decide_eq_true negative]
      decide
    · rw [if_neg negative, decide_eq_false negative]
      rfl
  simp only [formatNanoTON, size, whole, rest, sign, big_string_natural, NumberParts.text,
    exponentText, List.append_nil, nanoParts]
  by_cases even : amount.natAbs % 10 ^ 9 = 0
  · rw [if_pos (by rw [even]; rfl), even, fraction_digits_zero]
    simp [fractionText]
  · have shown := fraction_digits_ne_nil (Nat.mod_lt amount.natAbs (by decide)) even
    rw [if_neg (by exact_mod_cast even), fractionText, if_neg shown, List.append_assoc,
      List.append_assoc]
    rfl

/-! ## Amounts and texts -/

/-- The text of an amount is a numeral that stands for exactly this amount, and no other amount
has it. -/
theorem displayed_amount_exact :
    (∀ amount : ℤ, ∃ parts, NanoNumeral parts ∧ formatNanoTON (some amount) = parts.text ∧
      parts.value * 10 ^ 9 = amount) ∧
    Function.Injective fun amount : ℤ => formatNanoTON (some amount) := by
  constructor
  · intro amount
    exact ⟨nanoParts amount, nano_parts_numeral amount, format_nano_text amount,
      nano_parts_value amount⟩
  · intro amount other same
    dsimp only at same
    have parts : nanoParts amount = nanoParts other := by
      rw [← NumberParts.split_text (nano_parts_numeral amount).valid,
        ← NumberParts.split_text (nano_parts_numeral other).valid, ← format_nano_text,
        ← format_nano_text, same]
    have value := nano_parts_value amount
    rw [parts, nano_parts_value] at value
    exact_mod_cast value.symm

example :
    [0, 1, 1000000000, 1500000000, 20000000000].map (fun amount => formatNanoTON (some amount)) =
      ["0", "0.000000001", "1", "1.5", "20"].map ascii := by decide

end Gocoon.NanoAmounts
