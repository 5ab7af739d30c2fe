import Mathlib.Data.Int.Log
import Mathlib.Data.Rat.Floor
import Mathlib.Tactic.Linarith
import Mathlib.Tactic.NormNum
import Mathlib.Tactic.Positivity
import Mathlib.Tactic.Ring
import Mathlib.Tactic.FieldSimp

/-!
# Rounding to a binary floating-point format

A format keeps a number of significant bits down to a least exponent, below which its
numbers are evenly spaced. `nearest` rounds a nonnegative rational to it, halves going to the
even neighbour; there is no largest number, so a caller that has one compares with it. The
rounding is monotone, leaves the numbers of the format alone and always arrives at one.
-/

namespace Gocoon.BinaryRounding

set_option autoImplicit false

section HalfEven

/-- The nearest integer, or the even one of two that are equally near. -/
def halfEven (q : ℚ) : ℤ :=
  if q - ⌊q⌋ < 1 / 2 then ⌊q⌋
  else if 1 / 2 < q - ⌊q⌋ then ⌊q⌋ + 1
  else if ⌊q⌋ % 2 = 0 then ⌊q⌋
  else ⌊q⌋ + 1

theorem half_even_int (number : ℤ) : halfEven number = number := by
  simp [halfEven]

theorem floor_le_half_even (q : ℚ) : ⌊q⌋ ≤ halfEven q := by
  unfold halfEven
  split_ifs <;> omega

theorem half_even_le_floor (q : ℚ) : halfEven q ≤ ⌊q⌋ + 1 := by
  unfold halfEven
  split_ifs <;> omega

theorem half_even_error (q : ℚ) : |(halfEven q : ℚ) - q| ≤ 1 / 2 := by
  have low := Int.floor_le q
  have high := Int.lt_floor_add_one q
  rw [abs_le]
  unfold halfEven
  split_ifs <;> push_cast <;> constructor <;> linarith

theorem half_even_nearest (q : ℚ) (other : ℤ) : |(halfEven q : ℚ) - q| ≤ |(other : ℚ) - q| := by
  by_cases same : other = halfEven q
  · rw [same]
  · have error := half_even_error q
    have apart : (1 : ℚ) ≤ |(other : ℚ) - halfEven q| := by
      have distinct : 1 ≤ |other - halfEven q| := Int.one_le_abs (sub_ne_zero.mpr same)
      exact_mod_cast distinct
    have triangle := abs_sub_le (other : ℚ) q (halfEven q)
    rw [abs_sub_comm q] at triangle
    linarith

theorem half_even_mono {small large : ℚ} (ordered : small ≤ large) :
    halfEven small ≤ halfEven large := by
  rcases (Int.floor_le_floor ordered).lt_or_eq with apart | same
  · have upper := half_even_le_floor small
    have lower := floor_le_half_even large
    omega
  · unfold halfEven
    rw [same]
    split_ifs <;> first | omega | linarith

end HalfEven

/-- `precision` significant bits, and no bit below `2 ^ least`. -/
structure Format where
  precision : ℕ
  least : ℤ
  positive : 0 < precision

variable (format : Format)

/-- The exponent of the last bit that a number of the size of `q` keeps. -/
def exponentOf (q : ℚ) : ℤ := max (Int.log 2 q - (format.precision - 1)) format.least

def nearest (q : ℚ) : ℚ := halfEven (q / 2 ^ exponentOf format q) * 2 ^ exponentOf format q

def OnGrid (exponent : ℤ) (q : ℚ) : Prop := ∃ steps : ℤ, q = steps * 2 ^ exponent

theorem two_zpow_pos (exponent : ℤ) : (0 : ℚ) < 2 ^ exponent := zpow_pos (by norm_num) _

theorem OnGrid.finer {coarse fine : ℤ} {q : ℚ} (on : OnGrid coarse q) (ordered : fine ≤ coarse) :
    OnGrid fine q := by
  obtain ⟨steps, rfl⟩ := on
  obtain ⟨more, split⟩ := Int.eq_ofNat_of_zero_le (sub_nonneg.mpr ordered)
  refine ⟨steps * 2 ^ more, ?_⟩
  have sum : coarse = more + fine := by omega
  rw [sum, zpow_add₀ (by norm_num), zpow_natCast]
  push_cast
  ring

theorem nearest_on_grid (q : ℚ) : OnGrid (exponentOf format q) (nearest format q) := ⟨_, rfl⟩

variable {format}

theorem nearest_of_on_grid {q : ℚ} (on : OnGrid (exponentOf format q) q) :
    nearest format q = q := by
  obtain ⟨steps, split⟩ := on
  have whole : q / 2 ^ exponentOf format q = steps := by
    rw [div_eq_iff (two_zpow_pos _).ne', ← split]
  rw [nearest, whole, half_even_int, ← split]

theorem nearest_error (format : Format) (q : ℚ) :
    |nearest format q - q| ≤ 2 ^ exponentOf format q / 2 := by
  have unit := two_zpow_pos (exponentOf format q)
  have error := half_even_error (q / 2 ^ exponentOf format q)
  have scaled : nearest format q - q =
      (halfEven (q / 2 ^ exponentOf format q) - q / 2 ^ exponentOf format q) *
        2 ^ exponentOf format q := by
    rw [nearest, sub_mul, div_mul_cancel₀ _ unit.ne']
  rw [scaled, abs_mul, abs_of_pos unit]
  calc
    _ ≤ 1 / 2 * (2 : ℚ) ^ exponentOf format q := mul_le_mul_of_nonneg_right error unit.le
    _ = _ := by ring

theorem nearest_zero : nearest format 0 = 0 := nearest_of_on_grid ⟨0, by simp⟩

theorem least_le_exponent (format : Format) (q : ℚ) : format.least ≤ exponentOf format q :=
  le_max_right _ _

theorem exponent_mono (format : Format) {small large : ℚ} (positive : 0 < small)
    (ordered : small ≤ large) :
    exponentOf format small ≤ exponentOf format large :=
  max_le_max_right _ (sub_le_sub_right (Int.log_mono_right positive ordered) _)

theorem exponent_le {q : ℚ} {exponent : ℤ} (positive : 0 < q) (least : format.least ≤ exponent)
    (below : q < 2 ^ (exponent + format.precision)) : exponentOf format q ≤ exponent := by
  have small : Int.log 2 q < exponent + format.precision :=
    (Int.lt_zpow_iff_log_lt (by norm_num) positive).mp (by exact_mod_cast below)
  exact max_le (by omega) least

theorem lt_exponent_pow (format : Format) (q : ℚ) :
    q < 2 ^ (exponentOf format q + format.precision) := by
  have below : q < (2 : ℚ) ^ (Int.log 2 q + 1) := by
    exact_mod_cast Int.lt_zpow_succ_log_self (b := 2) (by norm_num) q
  apply below.trans_le
  apply zpow_le_zpow_right₀ (by norm_num)
  have bound : Int.log 2 q - (format.precision - 1) ≤ exponentOf format q := le_max_left _ _
  omega

theorem nearest_nonneg (format : Format) {q : ℚ} (nonneg : 0 ≤ q) : 0 ≤ nearest format q := by
  have unit := two_zpow_pos (exponentOf format q)
  have steps := half_even_mono (div_nonneg nonneg unit.le)
  rw [← Int.cast_zero, half_even_int] at steps
  exact mul_nonneg (by exact_mod_cast steps) unit.le

theorem nearest_le {q bound : ℚ} (on : OnGrid (exponentOf format q) bound) (below : q ≤ bound) :
    nearest format q ≤ bound := by
  have unit := two_zpow_pos (exponentOf format q)
  obtain ⟨steps, rfl⟩ := on
  have scaled : q / 2 ^ exponentOf format q ≤ steps := (div_le_iff₀ unit).mpr below
  have rounded := half_even_mono scaled
  rw [half_even_int] at rounded
  exact mul_le_mul_of_nonneg_right (by exact_mod_cast rounded) unit.le

theorem le_nearest {q bound : ℚ} (on : OnGrid (exponentOf format q) bound) (above : bound ≤ q) :
    bound ≤ nearest format q := by
  have unit := two_zpow_pos (exponentOf format q)
  obtain ⟨steps, rfl⟩ := on
  have scaled : steps ≤ q / 2 ^ exponentOf format q := (le_div_iff₀ unit).mpr above
  have rounded := half_even_mono scaled
  rw [half_even_int] at rounded
  exact mul_le_mul_of_nonneg_right (by exact_mod_cast rounded) unit.le

theorem pow_on_grid {exponent power : ℤ} (ordered : exponent ≤ power) :
    OnGrid exponent (2 ^ power) :=
  OnGrid.finer ⟨1, by simp⟩ ordered

theorem nearest_le_pow (format : Format) (q : ℚ) :
    nearest format q ≤ 2 ^ (exponentOf format q + format.precision) :=
  nearest_le (pow_on_grid (by omega)) (lt_exponent_pow format q).le

/-- The rounded number is one of the format, also when it was carried to the next power of
two. -/
theorem nearest_nearest {q : ℚ} (nonneg : 0 ≤ q) :
    nearest format (nearest format q) = nearest format q := by
  apply nearest_of_on_grid
  have precise := format.positive
  rcases (nearest_nonneg format nonneg).eq_or_lt with zero | positive
  · exact ⟨0, by rw [← zero]; simp⟩
  rcases (nearest_le_pow format q).eq_or_lt with carried | below
  · rw [carried]
    apply pow_on_grid
    have exponent : exponentOf format (2 ^ (exponentOf format q + format.precision)) ≤
        exponentOf format q + 1 := by
      apply exponent_le (two_zpow_pos _) (by linarith [least_le_exponent format q])
      exact zpow_lt_zpow_right₀ (by norm_num) (by omega)
    omega
  · exact (nearest_on_grid format q).finer (exponent_le positive (least_le_exponent format q) below)

theorem nearest_mono (format : Format) {small large : ℚ} (nonneg : 0 ≤ small)
    (ordered : small ≤ large) :
    nearest format small ≤ nearest format large := by
  rcases nonneg.eq_or_lt with zero | positive
  · rw [← zero, nearest_zero]
    exact nearest_nonneg format (nonneg.trans ordered)
  rcases (exponent_mono format positive ordered).eq_or_lt with same | apart
  · rw [nearest, nearest, same]
    apply mul_le_mul_of_nonneg_right _ (two_zpow_pos _).le
    exact_mod_cast half_even_mono (div_le_div_of_nonneg_right ordered (two_zpow_pos _).le)
  · -- The larger number is beyond a power of two that both grids contain.
    have leading : exponentOf format large = Int.log 2 large - (format.precision - 1) := by
      apply max_eq_left
      by_contra lower
      have bottom : exponentOf format large = format.least := max_eq_right (by omega)
      have least := least_le_exponent format small
      omega
    have reached : (2 : ℚ) ^ Int.log 2 large ≤ large := by
      exact_mod_cast Int.zpow_log_le_self (b := 2) (by norm_num) (positive.trans_le ordered)
    have before : small ≤ (2 : ℚ) ^ Int.log 2 large := by
      apply (lt_exponent_pow format small).le.trans
      exact zpow_le_zpow_right₀ (by norm_num) (by omega)
    have precise := format.positive
    exact (nearest_le (pow_on_grid (by omega)) before).trans
      (le_nearest (pow_on_grid (by omega)) reached)

theorem half_le_nearest {q : ℚ} (least : 2 ^ format.least ≤ q) : q / 2 ≤ nearest format q := by
  have positive : 0 < q := (two_zpow_pos _).trans_le least
  have unit : (2 : ℚ) ^ exponentOf format q ≤ q := by
    rcases max_choice (Int.log 2 q - (format.precision - 1)) format.least with leading | bottom
    · have precise := format.positive
      have reached : (2 : ℚ) ^ Int.log 2 q ≤ q := by
        exact_mod_cast Int.zpow_log_le_self (b := 2) (by norm_num) positive
      apply le_trans _ reached
      rw [exponentOf, leading]
      exact zpow_le_zpow_right₀ (by norm_num) (by omega)
    · rw [exponentOf, bottom]
      exact least
  have error := (abs_le.mp (nearest_error format q)).1
  linarith

theorem least_le_number {f : ℚ} (rounded : nearest format f = f) (positive : 0 < f) :
    2 ^ format.least ≤ f := by
  have unit := two_zpow_pos format.least
  have grid := nearest_on_grid format f
  rw [rounded] at grid
  obtain ⟨steps, rfl⟩ := grid.finer (least_le_exponent format f)
  have some : (1 : ℚ) ≤ steps := by
    have above : 0 < steps := by exact_mod_cast pos_of_mul_pos_left positive unit.le
    exact_mod_cast above
  exact le_mul_of_one_le_left unit.le some

theorem nearest_integer {number : ℕ} (least : format.least ≤ 0)
    (small : number < 2 ^ format.precision) : nearest format number = number := by
  rcases number.eq_zero_or_pos with rfl | positive
  · simpa using nearest_zero
  · apply nearest_of_on_grid
    have fine : exponentOf format number ≤ 0 := by
      apply exponent_le (by exact_mod_cast positive) least
      rw [zero_add, zpow_natCast]
      exact_mod_cast small
    exact OnGrid.finer ⟨number, by simp⟩ fine

theorem nearest_pow {power : ℤ} (least : format.least ≤ power) :
    nearest format (2 ^ power) = 2 ^ power := by
  apply nearest_of_on_grid
  apply pow_on_grid
  have precise := format.positive
  apply exponent_le (two_zpow_pos power) least
  exact zpow_lt_zpow_right₀ (by norm_num) (by omega)

end Gocoon.BinaryRounding
