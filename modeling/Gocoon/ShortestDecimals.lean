import Gocoon.BinaryRounding

/-!
# The shortest decimal that rounds to a number

A number of a binary format is printed as the multiple of the largest power of ten that
rounds to it, and among several of these as the nearest one. The search goes from a power
above all numbers down to one that divides every number of the format. An integer is printed
as itself exactly when no integer with the same rounding has more trailing zeros, and none
with as many is nearer; an even split between two candidates does not occur for integers.
-/

namespace Gocoon.ShortestDecimals

open Gocoon.BinaryRounding

set_option autoImplicit false

section Candidates

variable (format : Format)

def candidate (f : ℚ) (power : ℤ) : Option ℤ :=
  let below := ⌊f / 10 ^ power⌋
  if nearest format (below * 10 ^ power) = f then
    if nearest format ((below + 1) * 10 ^ power) = f then some (halfEven (f / 10 ^ power))
    else some below
  else if nearest format ((below + 1) * 10 ^ power) = f then some (below + 1)
  else none

def search (f : ℚ) : ℕ → ℤ → ℤ × ℤ
  | 0, power => (⌊f / 10 ^ power⌋, power)
  | fuel + 1, power =>
      match candidate format f power with
      | some steps => (steps, power)
      | none => search f fuel (power - 1)

variable {format} {f : ℚ} {power : ℤ}

theorem ten_zpow_pos (power : ℤ) : (0 : ℚ) < 10 ^ power := zpow_pos (by norm_num) _

theorem floor_scaled (f : ℚ) (power : ℤ) :
    (⌊f / 10 ^ power⌋ : ℚ) * 10 ^ power ≤ f ∧ f < (⌊f / 10 ^ power⌋ + 1) * 10 ^ power :=
  ⟨(le_div_iff₀ (ten_zpow_pos power)).mp (Int.floor_le _),
    (div_lt_iff₀ (ten_zpow_pos power)).mp (Int.lt_floor_add_one _)⟩

theorem nearest_between {other between : ℚ} (number : nearest format f = f) (nonneg : 0 ≤ f)
    (positive : 0 ≤ other) (rounds : nearest format other = f)
    (inside : (other ≤ between ∧ between ≤ f) ∨ (f ≤ between ∧ between ≤ other)) :
    nearest format between = f := by
  rcases inside with ⟨low, high⟩ | ⟨low, high⟩
  · have lower := nearest_mono format positive low
    have upper := nearest_mono format (positive.trans low) high
    rw [rounds] at lower
    rw [number] at upper
    exact le_antisymm upper lower
  · have lower := nearest_mono format nonneg low
    have upper := nearest_mono format (nonneg.trans low) high
    rw [number] at lower
    rw [rounds] at upper
    exact le_antisymm upper lower

/-- A multiple that rounds to `f` is no nearer than one of the two multiples around `f`,
which then rounds to `f` as well. -/
theorem around_rounds (number : nearest format f = f) (nonneg : 0 ≤ f) {steps : ℤ}
    (positive : 0 ≤ steps) (rounds : nearest format (steps * 10 ^ power) = f) :
    (nearest format (⌊f / 10 ^ power⌋ * 10 ^ power) = f ∧
        |(⌊f / 10 ^ power⌋ : ℚ) * 10 ^ power - f| ≤ |steps * 10 ^ power - f|) ∨
      (nearest format ((⌊f / 10 ^ power⌋ + 1) * 10 ^ power) = f ∧
        |((⌊f / 10 ^ power⌋ : ℚ) + 1) * 10 ^ power - f| ≤ |steps * 10 ^ power - f|) := by
  have unit := ten_zpow_pos power
  obtain ⟨low, high⟩ := floor_scaled f power
  have multiple : (0 : ℚ) ≤ steps * 10 ^ power := mul_nonneg (by exact_mod_cast positive) unit.le
  rcases le_or_gt steps ⌊f / 10 ^ power⌋ with under | above
  · left
    have ordered : (steps : ℚ) * 10 ^ power ≤ ⌊f / 10 ^ power⌋ * 10 ^ power :=
      mul_le_mul_of_nonneg_right (by exact_mod_cast under) unit.le
    refine ⟨nearest_between number nonneg multiple rounds (.inl ⟨ordered, low⟩), ?_⟩
    rw [abs_of_nonpos (by linarith), abs_of_nonpos (by linarith)]
    linarith
  · right
    have reached : (⌊f / 10 ^ power⌋ : ℚ) + 1 ≤ steps := by exact_mod_cast above
    have ordered : ((⌊f / 10 ^ power⌋ : ℚ) + 1) * 10 ^ power ≤ steps * 10 ^ power :=
      mul_le_mul_of_nonneg_right reached unit.le
    refine ⟨nearest_between number nonneg multiple rounds (.inr ⟨high.le, ordered⟩), ?_⟩
    rw [abs_of_nonneg (by linarith), abs_of_nonneg (by linarith)]
    linarith

theorem candidate_none (number : nearest format f = f) (nonneg : 0 ≤ f)
    (none : candidate format f power = none) {steps : ℤ} (positive : 0 ≤ steps) :
    nearest format (steps * 10 ^ power) ≠ f := by
  intro rounds
  unfold candidate at none
  rcases around_rounds number nonneg positive rounds with ⟨fits, -⟩ | ⟨fits, -⟩
  · simp only [fits, if_true] at none
    split_ifs at none
  · simp only [fits, if_true] at none
    split_ifs at none

theorem candidate_some (number : nearest format f = f) (nonneg : 0 ≤ f) {found : ℤ}
    (some : candidate format f power = some found) :
    nearest format (found * 10 ^ power) = f ∧
      ∀ steps : ℤ, 0 ≤ steps → nearest format (steps * 10 ^ power) = f →
        |(found : ℚ) * 10 ^ power - f| ≤ |steps * 10 ^ power - f| := by
  have unit := ten_zpow_pos power
  unfold candidate at some
  dsimp only at some
  split_ifs at some with low high high
  · cases some
    have scaled : ∀ steps : ℤ, |(steps : ℚ) * 10 ^ power - f| =
        |(steps : ℚ) - f / 10 ^ power| * 10 ^ power := by
      intro steps
      rw [← abs_of_pos unit, ← abs_mul, sub_mul, abs_of_pos unit,
        div_mul_cancel₀ _ unit.ne']
    constructor
    · have lower := floor_le_half_even (f / 10 ^ power)
      have upper := half_even_le_floor (f / 10 ^ power)
      rcases lower.eq_or_lt with same | next
      · rw [← same]
        exact low
      · have same : halfEven (f / 10 ^ power) = ⌊f / 10 ^ power⌋ + 1 := by omega
        rw [same]
        exact_mod_cast high
    · intro steps _ _
      rw [scaled, scaled]
      exact mul_le_mul_of_nonneg_right (half_even_nearest _ _) unit.le
  · cases some
    refine ⟨low, ?_⟩
    intro steps positive rounds
    rcases around_rounds number nonneg positive rounds with ⟨-, nearer⟩ | ⟨fits, -⟩
    · exact nearer
    · exact absurd fits high
  · cases some
    refine ⟨by exact_mod_cast high, ?_⟩
    intro steps positive rounds
    rcases around_rounds number nonneg positive rounds with ⟨fits, -⟩ | ⟨-, nearer⟩
    · exact absurd fits low
    · exact_mod_cast nearer

theorem search_spec {fuel : ℕ} {start : ℤ}
    (ends : ∃ down < fuel, candidate format f (start - down) ≠ none) :
    candidate format f (search format f fuel start).2 = some (search format f fuel start).1 ∧
      ∀ power, (search format f fuel start).2 < power → power ≤ start →
        candidate format f power = none := by
  induction fuel generalizing start with
  | zero =>
      obtain ⟨down, impossible, -⟩ := ends
      omega
  | succ fuel induction =>
      cases here : candidate format f start with
      | some steps =>
          simp only [search, here]
          refine ⟨trivial, ?_⟩
          intro power above below
          omega
      | none =>
          have later : ∃ down < fuel, candidate format f (start - 1 - down) ≠ none := by
            obtain ⟨down, less, found⟩ := ends
            cases down with
            | zero => exact absurd here (by simpa using found)
            | succ down =>
                refine ⟨down, by omega, ?_⟩
                rwa [show start - 1 - (down : ℤ) = start - (down + 1 : ℕ) by push_cast; ring]
          obtain ⟨taken, above⟩ := induction later
          simp only [search, here]
          refine ⟨taken, ?_⟩
          intro power beyond within
          rcases within.eq_or_lt with rfl | less
          · exact here
          · exact above power beyond (by omega)

end Candidates

section Shortest

variable (format : Format) (top : ℤ)

/-- The digits and the power of ten of the decimal that stands for `f`, for numbers below
`10 ^ top`. -/
def shortest (f : ℚ) : ℤ × ℤ := search format f (top - min format.least 0 + 1).toNat top

def shortestValue (f : ℚ) : ℚ := (shortest format top f).1 * 10 ^ (shortest format top f).2

/-- The numbers of the format below `10 ^ top`. -/
structure IsNumber (f : ℚ) : Prop where
  rounded : nearest format f = f
  nonneg : 0 ≤ f
  below : f < 10 ^ top

variable {format top} {f : ℚ}

theorem exact_candidate (rounded : nearest format f = f) (nonneg : 0 ≤ f) :
    candidate format f (min format.least 0) ≠ none := by
  intro none
  have grid := nearest_on_grid format f
  rw [rounded] at grid
  obtain ⟨steps, exact⟩ := grid.finer ((min_le_left _ 0).trans (least_le_exponent format f))
  obtain ⟨down, power⟩ := Int.eq_ofNat_of_zero_le (neg_nonneg.mpr (min_le_right format.least 0))
  have fives : f = (steps * 5 ^ down : ℤ) * 10 ^ min format.least 0 := by
    have lowest : min format.least 0 = -(down : ℤ) := by omega
    rw [exact, lowest, zpow_neg, zpow_neg, zpow_natCast, zpow_natCast,
      show (10 : ℚ) = 5 * 2 by norm_num, mul_pow]
    push_cast
    field_simp
  have positive : 0 ≤ steps * 5 ^ down := by
    have scaled : (0 : ℚ) ≤ (steps * 5 ^ down : ℤ) :=
      nonneg_of_mul_nonneg_left (fives ▸ nonneg) (ten_zpow_pos _)
    exact_mod_cast scaled
  apply candidate_none rounded nonneg none positive
  rw [← fives, rounded]

theorem shortest_candidate (high : 0 ≤ top) (number : IsNumber format top f) :
    candidate format f (shortest format top f).2 = some (shortest format top f).1 ∧
      ∀ power, (shortest format top f).2 < power → power ≤ top →
        candidate format f power = none := by
  apply search_spec
  have lowest := min_le_right format.least 0
  refine ⟨(top - min format.least 0).toNat, by omega, ?_⟩
  have reached : top - ((top - min format.least 0).toNat : ℤ) = min format.least 0 := by omega
  rw [reached]
  exact exact_candidate number.rounded number.nonneg

theorem shortest_rounds (high : 0 ≤ top) (number : IsNumber format top f) :
    nearest format (shortestValue format top f) = f :=
  (candidate_some number.rounded number.nonneg (shortest_candidate high number).1).1

theorem shortest_nearest (high : 0 ≤ top) (number : IsNumber format top f) (steps : ℤ)
    (positive : 0 ≤ steps) (rounds : nearest format (steps * 10 ^ (shortest format top f).2) = f) :
    |shortestValue format top f - f| ≤ |steps * 10 ^ (shortest format top f).2 - f| :=
  (candidate_some number.rounded number.nonneg (shortest_candidate high number).1).2 steps positive
    rounds

/-- No multiple of a larger power of ten rounds to a positive number. -/
theorem shortest_coarsest (high : 0 ≤ top) (number : IsNumber format top f) (positive : 0 < f)
    (power : ℤ) (coarser : (shortest format top f).2 < power) {steps : ℤ} (multiple : 0 ≤ steps) :
    nearest format (steps * 10 ^ power) ≠ f := by
  rcases le_or_gt power top with within | beyond
  · exact candidate_none number.rounded number.nonneg
      ((shortest_candidate high number).2 power coarser within) multiple
  · intro rounds
    rcases multiple.eq_or_lt with rfl | some
    · rw [Int.cast_zero, zero_mul, nearest_zero] at rounds
      exact positive.ne rounds
    · have large : (10 : ℚ) * 10 ^ top ≤ steps * 10 ^ power := by
        have one : (1 : ℚ) ≤ steps := by exact_mod_cast some
        calc
          (10 : ℚ) * 10 ^ top = 10 ^ (top + 1) := by rw [zpow_add_one₀ (by norm_num), mul_comm]
          _ ≤ 10 ^ power := zpow_le_zpow_right₀ (by norm_num) (by omega)
          _ ≤ steps * 10 ^ power := le_mul_of_one_le_left (ten_zpow_pos _).le one
      have bound := number.below
      have unit := ten_zpow_pos top
      have least : 2 ^ format.least ≤ (steps : ℚ) * 10 ^ power := by
        linarith [least_le_number number.rounded positive]
      have half := half_le_nearest least
      rw [rounds] at half
      linarith

theorem shortest_zero (high : 0 ≤ top) : shortestValue format top 0 = 0 := by
  have zero : IsNumber format top 0 := ⟨nearest_zero, le_refl 0, ten_zpow_pos top⟩
  have closest := shortest_nearest high zero 0 (Int.le_refl 0) (by simp [nearest_zero])
  simpa using closest

/-- No integer that rounds like `number` has more trailing zeros, and none that has as many is
nearer to the number of the format. -/
structure IsShortest (format : Format) (number : ℕ) : Prop where
  fewest : ∀ other zeros : ℕ, nearest format other = nearest format number →
    10 ^ zeros ∣ other → 10 ^ zeros ∣ number
  closest : ∀ other : ℕ, nearest format other = nearest format number →
    (∀ zeros : ℕ, 10 ^ zeros ∣ number → 10 ^ zeros ∣ other) →
    |(number : ℚ) - nearest format number| ≤ |(other : ℚ) - nearest format number|

theorem small_is_shortest {number : ℕ} (least : format.least ≤ 0)
    (small : number < 2 ^ format.precision) : IsShortest format number := by
  have exact := nearest_integer least small
  have alone : ∀ other : ℕ, nearest format other = nearest format number → other = number := by
    intro other same
    rcases Nat.lt_or_ge other (2 ^ format.precision) with fits | large
    · rw [exact, nearest_integer least fits] at same
      exact_mod_cast same
    · have reached : (2 : ℚ) ^ (format.precision : ℤ) ≤ other := by
        rw [zpow_natCast]
        exact_mod_cast large
      have ordered := nearest_mono format (two_zpow_pos _).le reached
      rw [nearest_pow (by omega), same, exact, zpow_natCast] at ordered
      have impossible : 2 ^ format.precision ≤ number := by exact_mod_cast ordered
      omega
  constructor
  · intro other zeros same divides
    exact alone other same ▸ divides
  · intro other same _
    rw [alone other same]

theorem nearest_is_number {number : ℕ} (below : nearest format number < 10 ^ top) :
    IsNumber format top (nearest format number) where
  rounded := nearest_nearest (Nat.cast_nonneg number)
  nonneg := nearest_nonneg format (Nat.cast_nonneg number)
  below := below

theorem candidate_nonneg (nonneg : 0 ≤ f) {power found : ℤ}
    (some : candidate format f power = some found) : 0 ≤ found := by
  have floor : 0 ≤ ⌊f / 10 ^ power⌋ := Int.floor_nonneg.mpr (div_nonneg nonneg (ten_zpow_pos _).le)
  have rounded := floor_le_half_even (f / 10 ^ power)
  unfold candidate at some
  dsimp only at some
  split_ifs at some <;> cases some <;> omega

theorem shortest_start {low : ℤ} (high : 0 ≤ low) (ordered : low ≤ top)
    (number : IsNumber format low f) (positive : 0 < f) :
    shortest format top f = shortest format low f := by
  have below : f < 10 ^ top :=
    number.below.trans_le (zpow_le_zpow_right₀ (by norm_num) ordered)
  have higher : IsNumber format top f := ⟨number.rounded, number.nonneg, below⟩
  have first := (shortest_candidate high number).1
  have second := (shortest_candidate (high.trans ordered) higher).1
  have rounds := (candidate_some number.rounded number.nonneg first).1
  have roundsHigher := (candidate_some number.rounded number.nonneg second).1
  have same : (shortest format top f).2 = (shortest format low f).2 := by
    apply le_antisymm
    · by_contra coarser
      exact shortest_coarsest high number positive _ (not_le.mp coarser)
        (candidate_nonneg number.nonneg second) roundsHigher
    · by_contra coarser
      exact shortest_coarsest (high.trans ordered) higher positive _ (not_le.mp coarser)
        (candidate_nonneg number.nonneg first) rounds
  rw [same, first] at second
  exact Prod.ext (Option.some.inj second).symm same

theorem shortest_nonneg (high : 0 ≤ top) (number : IsNumber format top f) :
    0 ≤ shortestValue format top f := by
  have digits := candidate_nonneg number.nonneg (shortest_candidate high number).1
  exact mul_nonneg (by exact_mod_cast digits) (ten_zpow_pos _).le

/-- The printed form of a positive integer is an integer with the most trailing zeros, and the
closest of those. -/
theorem printed_integer (high : 0 ≤ top) (least : format.least ≤ 0) {number : ℕ}
    (positive : 0 < number) (below : nearest format number < 10 ^ top) :
    ∃ digits zeros : ℕ, shortestValue format top (nearest format number) =
        (digits * 10 ^ zeros : ℕ) ∧
      (∀ other more : ℕ, nearest format other = nearest format number → 10 ^ more ∣ other →
        more ≤ zeros) ∧
      ∀ other : ℕ, nearest format other = nearest format number → 10 ^ zeros ∣ other →
        |((digits * 10 ^ zeros : ℕ) : ℚ) - nearest format number| ≤
          |(other : ℚ) - nearest format number| := by
  have isNumber := nearest_is_number below
  have visible : 0 < nearest format number := by
    have one : (1 : ℚ) ≤ number := by exact_mod_cast positive
    have unit : (2 : ℚ) ^ format.least ≤ 1 := zpow_le_one_of_nonpos₀ (by norm_num) least
    have half := half_le_nearest (unit.trans one)
    linarith
  have whole : 0 ≤ (shortest format top (nearest format number)).2 := by
    by_contra fraction
    apply shortest_coarsest high isNumber visible 0 (not_le.mp fraction)
      (Int.natCast_nonneg number)
    simp
  obtain ⟨zeros, power⟩ := Int.eq_ofNat_of_zero_le whole
  obtain ⟨digits, steps⟩ := Int.eq_ofNat_of_zero_le
    (candidate_nonneg isNumber.nonneg (shortest_candidate high isNumber).1)
  have value : shortestValue format top (nearest format number) = (digits * 10 ^ zeros : ℕ) := by
    rw [shortestValue, power, steps]
    push_cast
    rw [zpow_natCast]
  refine ⟨digits, zeros, value, ?_, ?_⟩
  · intro other more same ⟨factor, split⟩
    by_contra coarser
    apply shortest_coarsest high isNumber visible more (by omega) (Int.natCast_nonneg factor)
    rw [← same, split]
    push_cast
    rw [zpow_natCast, mul_comm]
  · intro other same ⟨factor, split⟩
    have multiple : (other : ℚ) = (factor : ℤ) * 10 ^ (shortest format top
        (nearest format number)).2 := by
      rw [power, split]
      push_cast
      rw [zpow_natCast, mul_comm]
    rw [← value, multiple]
    apply shortest_nearest high isNumber _ (Int.natCast_nonneg factor)
    rw [← multiple, same]

theorem printed_whole (high : 0 ≤ top) (least : format.least ≤ 0) {number : ℕ}
    (below : nearest format number < 10 ^ top) :
    ∃ printed : ℕ, shortestValue format top (nearest format number) = printed := by
  rcases number.eq_zero_or_pos with rfl | positive
  · rw [Nat.cast_zero, nearest_zero]
    exact ⟨0, shortest_zero high⟩
  · obtain ⟨digits, zeros, value, -, -⟩ := printed_integer high least positive below
    exact ⟨digits * 10 ^ zeros, value⟩

/-- Two multiples of `10 ^ zeros` that round alike are never equally far from the number, with
none nearer between them. -/
theorem no_tie {low gap zeros : ℕ} (apart : 0 < gap)
    (first : nearest format (low * 10 ^ zeros : ℕ) = f)
    (second : nearest format ((low + gap) * 10 ^ zeros : ℕ) = f)
    (middle : 2 * f = ((low + (low + gap)) * 10 ^ zeros : ℕ))
    (closest : ∀ steps : ℕ, nearest format (steps * 10 ^ zeros : ℕ) = f →
      |(((low + gap) * 10 ^ zeros : ℕ) : ℚ) - f| ≤ |((steps * 10 ^ zeros : ℕ) : ℚ) - f|) :
    False := by
  have unit : (0 : ℚ) < 10 ^ zeros := by positivity
  push_cast at first second middle closest
  rcases (show gap = 1 ∨ 2 ≤ gap by omega) with rfl | wide
  · -- The two are neighbours: the format's unit is a multiple of `2 ^ zeros`, the middle is not.
    have error := nearest_error format (low * 10 ^ zeros)
    rw [first, abs_of_nonneg (by push_cast at middle; linarith)] at error
    have larger : (10 : ℚ) ^ zeros ≤ 2 ^ exponentOf format (low * 10 ^ zeros) := by
      push_cast at middle
      linarith
    have twos : (2 : ℚ) ^ (zeros : ℤ) ≤ 2 ^ exponentOf format (low * 10 ^ zeros) := by
      rw [zpow_natCast]
      exact (pow_le_pow_left₀ (by norm_num) (by norm_num) zeros).trans larger
    have grid := (nearest_on_grid format (low * 10 ^ zeros)).finer
      ((zpow_le_zpow_iff_right₀ (by norm_num)).mp twos)
    rw [first] at grid
    obtain ⟨steps, exact⟩ := grid
    have parity : (2 * steps : ℚ) = (2 * low + 1) * 5 ^ zeros := by
      have power : (0 : ℚ) < 2 ^ zeros := by positivity
      apply mul_right_cancel₀ power.ne'
      rw [exact, zpow_natCast, show (10 : ℚ) = 5 * 2 by norm_num, mul_pow] at middle
      push_cast at middle
      linarith
    have whole : 2 * steps = (2 * low + 1) * 5 ^ zeros := by exact_mod_cast parity
    have odd : Odd ((2 * low + 1 : ℤ) * 5 ^ zeros) :=
      Odd.mul ⟨low, rfl⟩ (Odd.pow (by decide))
    rw [← whole] at odd
    exact (Int.not_odd_iff_even.mpr (even_two_mul steps)) odd
  · have more : (2 : ℚ) ≤ gap := by exact_mod_cast wide
    have inside : nearest format ((low + 1 : ℕ) * 10 ^ zeros) = f := by
      have lower : nearest format (low * 10 ^ zeros) ≤
          nearest format ((low + 1 : ℕ) * 10 ^ zeros) := by
        apply nearest_mono format (by positivity)
        push_cast
        linarith
      have upper : nearest format ((low + 1 : ℕ) * 10 ^ zeros) ≤
          nearest format ((low + gap) * 10 ^ zeros) := by
        apply nearest_mono format (by positivity)
        push_cast
        exact mul_le_mul_of_nonneg_right (by linarith) unit.le
      rw [first] at lower
      rw [second] at upper
      exact le_antisymm upper lower
    have nearer := closest (low + 1) inside
    have far : ((low : ℚ) + gap) * 10 ^ zeros - f = gap / 2 * 10 ^ zeros := by linarith
    have close : (((low + 1 : ℕ) : ℚ)) * 10 ^ zeros - f = -((gap / 2 - 1) * 10 ^ zeros) := by
      push_cast
      linarith
    rw [far, close, abs_neg, abs_of_nonneg (by positivity),
      abs_of_nonneg (mul_nonneg (by linarith) unit.le)] at nearer
    linarith

/-- An integer is printed as itself exactly when it is the shortest one. -/
theorem shortest_integer_iff (high : 0 ≤ top) (least : format.least ≤ 0) {number : ℕ}
    (below : nearest format number < 10 ^ top) :
    shortestValue format top (nearest format number) = number ↔ IsShortest format number := by
  rcases number.eq_zero_or_pos with rfl | positive
  · rw [Nat.cast_zero, nearest_zero]
    exact iff_of_true (shortest_zero high) (small_is_shortest least (by positivity))
  obtain ⟨digits, zeros, value, coarsest, closest⟩ :=
    printed_integer high least positive below
  have rounds := shortest_rounds high (nearest_is_number below)
  rw [value] at rounds ⊢
  constructor
  · intro same
    have same : digits * 10 ^ zeros = number := by exact_mod_cast same
    constructor
    · intro other more alike divides
      exact (pow_dvd_pow 10 (coarsest other more alike divides)).trans (same ▸ dvd_mul_left _ _)
    · intro other alike divides
      rw [← same] at divides
      have nearer := closest other alike (divides zeros (dvd_mul_left _ _))
      rwa [same] at nearer
  · intro shortest
    obtain ⟨steps, split⟩ := shortest.fewest (digits * 10 ^ zeros) zeros rounds (dvd_mul_left _ _)
    rw [mul_comm] at split
    have nearer := closest number rfl (split ▸ dvd_mul_left _ _)
    have equal := shortest.closest (digits * 10 ^ zeros) rounds fun more divides =>
      (pow_dvd_pow 10 (coarsest number more rfl divides)).trans (dvd_mul_left _ _)
    have distance := le_antisymm nearer equal
    have every : ∀ multiple : ℕ, nearest format (multiple * 10 ^ zeros : ℕ) =
        nearest format number → |((digits * 10 ^ zeros : ℕ) : ℚ) - nearest format number| ≤
          |((multiple * 10 ^ zeros : ℕ) : ℚ) - nearest format number| := by
      intro multiple alike
      exact closest (multiple * 10 ^ zeros) alike (dvd_mul_left _ _)
    rcases abs_eq_abs.mp distance with same | opposite
    · linarith
    have middle : 2 * nearest format number = ((digits + steps) * 10 ^ zeros : ℕ) := by
      rw [add_mul, ← split]
      push_cast
      push_cast at opposite
      linarith
    rcases Nat.lt_trichotomy steps digits with less | same | greater
    · exfalso
      obtain ⟨gap, rfl⟩ := Nat.exists_eq_add_of_lt less
      rw [add_comm _ steps] at middle
      exact no_tie (Nat.succ_pos gap) (by rw [← split]) rounds middle every
    · rw [split, same]
    · exfalso
      obtain ⟨gap, rfl⟩ := Nat.exists_eq_add_of_lt greater
      have same : number = (digits + (gap + 1)) * 10 ^ zeros := split
      apply no_tie (Nat.succ_pos gap) rounds (by rw [same]) middle
      intro multiple alike
      rw [← same, ← distance]
      exact every multiple alike

end Shortest

end Gocoon.ShortestDecimals
