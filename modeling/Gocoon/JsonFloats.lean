import Gocoon.DecimalLiterals
import Gocoon.JsonValues
import Gocoon.ShortestDecimals

/-!
# `float64` in `encoding/json`

A number literal is decoded by `strconv.ParseFloat`, which rounds its exact value to the
nearest float and refuses values that round beyond the largest one. The encoder writes the
shortest decimal that rounds to the float, with an exponent outside of `[1e-6, 1e21)`. A float
keeps its sign next to its magnitude, since zero has one too.
-/

namespace Gocoon.JsonFloats

open Gocoon.LittleEndianBytes
open Gocoon.JsonText
open Gocoon.JsonPrinting
open Gocoon.JsonValues
open Gocoon.BinaryRounding
open Gocoon.ShortestDecimals
open Gocoon.DecimalLiterals

set_option autoImplicit false

def binary64 : Format where
  precision := 53
  least := -1074
  positive := by decide

def decimalTop : ℤ := 309

theorem two_pow_lt_ten_pow : (2 : ℚ) ^ 1024 < 10 ^ decimalTop := by
  have powers : (2 : ℚ) ^ 1024 < 10 ^ 309 := by decide +kernel
  rwa [← zpow_natCast 10 309] at powers

structure Float64 where
  negative : Bool
  magnitude : ℚ
  nonneg : 0 ≤ magnitude
  rounded : nearest binary64 magnitude = magnitude
  finite : magnitude < 2 ^ 1024

theorem magnitude_nonneg (parts : NumberParts) : 0 ≤ parts.magnitude :=
  mul_nonneg (Nat.cast_nonneg _) (ten_zpow_pos _).le

/-- The literals in the range of `float64`. -/
def InRange (literal : List Byte) : Prop :=
  nearest binary64 (split literal).magnitude < 2 ^ 1024

instance (literal : List Byte) : Decidable (InRange literal) :=
  inferInstanceAs (Decidable (nearest binary64 (split literal).magnitude < 2 ^ 1024))

def parseFloat (literal : List Byte) : Option Float64 :=
  if finite : InRange literal then
    some {
      negative := (split literal).negative
      magnitude := nearest binary64 (split literal).magnitude
      nonneg := nearest_nonneg binary64 (magnitude_nonneg _)
      rounded := nearest_nearest (magnitude_nonneg _)
      finite }
  else none

namespace Float64

variable (float : Float64)

/-- The digits of the shortest decimal, in the form that the encoder picks. -/
def parts : NumberParts :=
  if float.magnitude = 0 then ⟨float.negative, [0x30], [], none⟩
  else
    let (digits, power) := shortest binary64 decimalTop float.magnitude
    if float.magnitude < nearest binary64 (1 / 10 ^ 6) ∨ 10 ^ 21 ≤ float.magnitude then
      scientificParts float.negative digits.toNat power
    else plainParts float.negative digits.toNat power

theorem isNumber : IsNumber binary64 decimalTop float.magnitude where
  rounded := float.rounded
  nonneg := float.nonneg
  below := float.finite.trans two_pow_lt_ten_pow

theorem digits_nonneg : 0 ≤ (shortest binary64 decimalTop float.magnitude).1 :=
  candidate_nonneg float.nonneg (shortest_candidate (by decide) float.isNumber).1

theorem digits_pos (nonzero : float.magnitude ≠ 0) :
    (shortest binary64 decimalTop float.magnitude).1.toNat ≠ 0 := by
  intro zero
  have none : (shortest binary64 decimalTop float.magnitude).1 = 0 := by
    have nonneg := float.digits_nonneg
    omega
  have rounds := shortest_rounds (by decide) float.isNumber
  rw [shortestValue, none, Int.cast_zero, zero_mul, nearest_zero] at rounds
  exact nonzero rounds.symm

theorem parts_valid : float.parts.Valid := by
  unfold parts
  split_ifs with zero form
  · exact ⟨by simp; decide, .inl rfl, by nofun⟩
  · exact scientific_valid _ _ (float.digits_pos zero)
  · exact plain_valid _ _ (float.digits_pos zero)

theorem parts_negative : float.parts.negative = float.negative := by
  unfold parts
  split_ifs
  · rfl
  · rfl
  · dsimp only
    unfold plainParts
    split_ifs <;> rfl

theorem parts_magnitude :
    float.parts.magnitude = shortestValue binary64 decimalTop float.magnitude := by
  have digits : (((shortest binary64 decimalTop float.magnitude).1.toNat : ℤ) : ℚ) =
      (shortest binary64 decimalTop float.magnitude).1 := by
    rw [Int.toNat_of_nonneg float.digits_nonneg]
  unfold parts
  split_ifs with zero form
  · rw [zero, shortest_zero (by decide)]
    simp [NumberParts.magnitude, digitsValue]
  · rw [scientific_magnitude, shortestValue, ← digits]
    rfl
  · rw [plain_magnitude, shortestValue, ← digits]
    rfl

end Float64

def formatFloat (float : Float64) : List Byte := float.parts.text

theorem format_plain {float : Float64} {digits power : ℤ} (nonzero : float.magnitude ≠ 0)
    (printed : shortest binary64 decimalTop float.magnitude = (digits, power))
    (plain : ¬ (float.magnitude < nearest binary64 (1 / 10 ^ 6) ∨ 10 ^ 21 ≤ float.magnitude)) :
    formatFloat float = (plainParts float.negative digits.toNat power).text := by
  rw [formatFloat, Float64.parts, if_neg nonzero, printed]
  dsimp only
  rw [if_neg plain]

theorem parse_float_in_range {literal : List Byte} (inRange : InRange literal) :
    ∃ float, parseFloat literal = some float ∧ float.negative = (split literal).negative ∧
      float.magnitude = nearest binary64 (split literal).magnitude := by
  rw [parseFloat, dif_pos inRange]
  exact ⟨_, rfl, rfl, rfl⟩

theorem parse_format (float : Float64) : parseFloat (formatFloat float) = some float := by
  have split : split (formatFloat float) = float.parts :=
    NumberParts.split_text float.parts_valid
  have rounds : nearest binary64 float.parts.magnitude = float.magnitude := by
    rw [float.parts_magnitude, shortest_rounds (by decide) float.isNumber]
  have inRange : InRange (formatFloat float) := by
    rw [InRange, split, rounds]
    exact float.finite
  rw [parseFloat, dif_pos inRange]
  obtain ⟨negative, magnitude, nonneg, rounded, finite⟩ := float
  simp only [split, rounds, Float64.parts_negative]

abbrev float64 : Floats where
  Number := Float64
  parseFloat := parseFloat
  formatFloat := formatFloat
  formatLiteral := fun float => NumberParts.text_literal float.parts_valid
  parseFormat := parse_format

end Gocoon.JsonFloats
