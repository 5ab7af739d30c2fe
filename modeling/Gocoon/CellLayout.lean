import Mathlib.Data.Nat.Bitwise
import Mathlib.Tactic.Ring
import Gocoon.CellBuilder
import Gocoon.GoProgram

/-!
# What builders append and slices consume

The contents of a cell are its bits and its references, and contents are put together by
appending both. A storing operation writes given contents if it appends exactly these and
fails only where they do not fit; a reading program consumes given contents if it returns a
value from a slice that starts with them and leaves the rest. `Takes` goes the other way: it
says which contents a reading program can have found.
-/

namespace Gocoon.CellLayout

open Gocoon.GoProgram
open Gocoon.CellBuilder

set_option autoImplicit false

/-! ## Numbers as bits -/

theorem number_bits_length (width value : Nat) : (numberBits width value).length = width := by
  induction width with
  | zero => rfl
  | succ width induction => rw [numberBits, List.length_cons, induction]

theorem foldl_bits (bits : List Bool) (start : Nat) :
    bits.foldl (fun value bit => 2 * value + bit.toNat) start =
      start * 2 ^ bits.length + bitsNumber bits := by
  unfold bitsNumber
  induction bits generalizing start with
  | nil => simp
  | cons bit bits induction =>
      rw [List.foldl_cons, List.foldl_cons, induction, induction (2 * 0 + bit.toNat),
        List.length_cons, Nat.pow_succ]
      ring

theorem bits_number_cons (bit : Bool) (bits : List Bool) :
    bitsNumber (bit :: bits) = bit.toNat * 2 ^ bits.length + bitsNumber bits := by
  have folded := foldl_bits bits (2 * 0 + bit.toNat)
  rw [Nat.mul_zero, Nat.zero_add] at folded
  rw [bitsNumber, List.foldl_cons, Nat.mul_zero, Nat.zero_add, folded]

theorem bits_number_lt (bits : List Bool) : bitsNumber bits < 2 ^ bits.length := by
  induction bits with
  | nil => exact Nat.one_pos
  | cons bit bits induction =>
      have small : bit.toNat ≤ 1 := Bool.toNat_le bit
      have scaled : bit.toNat * 2 ^ bits.length ≤ 1 * 2 ^ bits.length :=
        Nat.mul_le_mul_right _ small
      rw [bits_number_cons, List.length_cons, Nat.pow_succ]
      omega

theorem bits_number_number_bits (width value : Nat) :
    bitsNumber (numberBits width value) = value % 2 ^ width := by
  induction width with
  | zero => rw [Nat.pow_zero, Nat.mod_one]; rfl
  | succ width induction =>
      rw [numberBits, bits_number_cons, number_bits_length, induction, Nat.toNat_testBit,
        Nat.mod_pow_succ]
      ring

theorem number_bits_congr {width left right : Nat}
    (same : ∀ index < width, left.testBit index = right.testBit index) :
    numberBits width left = numberBits width right := by
  induction width with
  | zero => rfl
  | succ width induction =>
      rw [numberBits, numberBits, same width (Nat.lt_succ_self width),
        induction fun index below => same index (Nat.lt_succ_of_lt below)]

theorem number_bits_bits_number (bits : List Bool) :
    numberBits bits.length (bitsNumber bits) = bits := by
  induction bits with
  | nil => rfl
  | cons bit bits induction =>
      have below := bits_number_lt bits
      have value : bitsNumber (bit :: bits) = 2 ^ bits.length * bit.toNat + bitsNumber bits := by
        rw [bits_number_cons, Nat.mul_comm]
      have top : (bitsNumber (bit :: bits)).testBit bits.length = bit := by
        rw [value, Nat.testBit_two_pow_mul_add _ below, if_neg (Nat.lt_irrefl _), Nat.sub_self]
        cases bit <;> rfl
      have others : numberBits bits.length (bitsNumber (bit :: bits)) =
          numberBits bits.length (bitsNumber bits) := by
        apply number_bits_congr
        intro index inside
        rw [value, Nat.testBit_two_pow_mul_add _ below, if_pos inside]
      rw [List.length_cons, numberBits, top, others, induction]

theorem number_bits_append (first second value : Nat) :
    numberBits (first + second) value =
      numberBits first (value >>> second) ++ numberBits second value := by
  induction first with
  | zero => rw [Nat.zero_add]; rfl
  | succ first induction =>
      have top : (value >>> second).testBit first = value.testBit (first + second) := by
        rw [Nat.testBit_shiftRight, Nat.add_comm]
      rw [Nat.succ_add, numberBits, numberBits, top, induction, List.cons_append]

/-! ## Contents -/

@[ext] structure Contents where
  bits : List Bool
  refs : List Cell

namespace Contents

def empty : Contents := ⟨[], []⟩

def ofBits (bits : List Bool) : Contents := ⟨bits, []⟩

def ofRef (cell : Cell) : Contents := ⟨[], [cell]⟩

def word (width value : Nat) : Contents := ofBits (numberBits width value)

def onlyIf (present : Bool) (contents : Contents) : Contents :=
  if present then contents else empty

def maybeRef : Option Cell → Contents
  | none => ofBits [false]
  | some cell => ⟨[true], [cell]⟩

instance : Append Contents where
  append first second := ⟨first.bits ++ second.bits, first.refs ++ second.refs⟩

@[simp] theorem bits_append (first second : Contents) :
    (first ++ second).bits = first.bits ++ second.bits := rfl

@[simp] theorem refs_append (first second : Contents) :
    (first ++ second).refs = first.refs ++ second.refs := rfl

theorem append_assoc (first second third : Contents) :
    first ++ second ++ third = first ++ (second ++ third) := by
  ext1
  · exact List.append_assoc _ _ _
  · exact List.append_assoc _ _ _

theorem append_empty (contents : Contents) : contents ++ empty = contents := by
  ext1
  · exact List.append_nil _
  · exact List.append_nil _

theorem empty_append (contents : Contents) : empty ++ contents = contents := rfl

theorem only_if_append (present : Bool) (first second : Contents) :
    onlyIf present (first ++ second) = onlyIf present first ++ onlyIf present second := by
  cases present with
  | true => rfl
  | false => rfl

def cell (contents : Contents) : Cell := .mk contents.bits contents.refs

def Within (bits refs : Nat) (contents : Contents) : Prop :=
  contents.bits.length ≤ bits ∧ contents.refs.length ≤ refs

def Fits (contents : Contents) : Prop := contents.Within maxBits maxRefs

instance (contents : Contents) : Decidable contents.Fits := inferInstanceAs (Decidable (_ ∧ _))

theorem Within.append {first second : Contents} {bits refs moreBits moreRefs : Nat}
    (one : first.Within bits refs) (two : second.Within moreBits moreRefs) :
    (first ++ second).Within (bits + moreBits) (refs + moreRefs) := by
  constructor
  · rw [bits_append, List.length_append]
    exact Nat.add_le_add one.1 two.1
  · rw [refs_append, List.length_append]
    exact Nat.add_le_add one.2 two.2

theorem of_ref_within (cell : Cell) : (ofRef cell).Within 0 1 :=
  ⟨Nat.le_refl 0, Nat.le_refl 1⟩

theorem word_within (width value : Nat) : (word width value).Within width 0 :=
  ⟨(number_bits_length width value).le, Nat.le_refl 0⟩

theorem bool_within (value : Bool) : (ofBits [value]).Within 1 0 :=
  ⟨Nat.le_refl 1, Nat.le_refl 0⟩

theorem maybe_ref_within (cell : Option Cell) : (maybeRef cell).Within 1 1 := by
  cases cell with
  | none => exact ⟨Nat.le_refl 1, Nat.zero_le 1⟩
  | some cell => exact ⟨Nat.le_refl 1, Nat.le_refl 1⟩

theorem only_if_within {present : Bool} {contents : Contents} {bits refs : Nat}
    (bounded : present = true → contents.Within bits refs) :
    (onlyIf present contents).Within bits refs := by
  cases present with
  | true => exact bounded rfl
  | false => exact ⟨Nat.zero_le bits, Nat.zero_le refs⟩

def before (contents : Contents) (rest : Slice) : Slice where
  bits := contents.bits ++ rest.bits
  refs := contents.refs ++ rest.refs

theorem append_before (first second : Contents) (rest : Slice) :
    (first ++ second).before rest = first.before (second.before rest) := by
  simp only [before, bits_append, refs_append, List.append_assoc]

theorem before_nothing (contents : Contents) :
    contents.before ⟨[], []⟩ = beginParse contents.cell := by
  simp only [before, List.append_nil]
  rfl

end Contents

/-! ## Storing -/

section Storing

variable {first second contents : Contents} {store next : Builder → Option Builder}

def held (builder : Builder) : Contents := ⟨builder.bits, builder.refs⟩

theorem held_fits (builder : Builder) : (held builder).Fits := ⟨builder.bitsFit, builder.refsFit⟩

def holding (contents : Contents) (fits : contents.Fits) : Builder :=
  ⟨contents.bits, contents.refs, fits.1, fits.2⟩

/-- The builder with the contents behind its own, if both fit into a cell. -/
def extend (builder : Builder) (contents : Contents) : Option Builder :=
  if fits : (held builder ++ contents).Fits then some (holding (held builder ++ contents) fits)
  else none

def Writes (store : Builder → Option Builder) (contents : Contents) : Prop :=
  ∀ builder, store builder = extend builder contents

theorem fits_front (fits : (first ++ second).Fits) : first.Fits := by
  obtain ⟨bits, refs⟩ := fits
  rw [Contents.bits_append, List.length_append] at bits
  rw [Contents.refs_append, List.length_append] at refs
  exact ⟨by omega, by omega⟩

theorem extend_eq {builder : Builder} {total : Contents} (same : held builder ++ contents = total)
    (fits : total.Fits) : extend builder contents = some (holding total fits) := by
  subst same
  exact dif_pos fits

theorem extend_empty (builder : Builder) : extend builder .empty = some builder :=
  extend_eq (Contents.append_empty _) (held_fits builder)

theorem extend_extend (builder : Builder) (first second : Contents) :
    ((extend builder first).bind fun partly => extend partly second) =
      extend builder (first ++ second) := by
  by_cases part : (held builder ++ first).Fits
  · rw [extend_eq rfl part, Option.bind_some]
    have same : held (holding _ part) ++ second = held builder ++ (first ++ second) :=
      Contents.append_assoc _ _ _
    rw [extend, extend]
    simp only [same]
  · have whole : ¬ (held builder ++ (first ++ second)).Fits := by
      intro fits
      rw [← Contents.append_assoc] at fits
      exact part (fits_front fits)
    rw [extend, dif_neg part, Option.bind_none, extend, dif_neg whole]

theorem Writes.andThen (one : Writes store first) (two : Writes next second) :
    Writes (fun builder => (store builder).bind next) (first ++ second) := by
  intro builder
  change (store builder).bind next = _
  rw [← extend_extend, one builder]
  congr 1
  funext partly
  exact two partly

theorem extend_store {Result : Type} (writes : Writes store second) (builder : Builder)
    (first : Contents) (next : Builder → Option Result) :
    ((extend builder first).bind fun partly => (store partly).bind next) =
      (extend builder (first ++ second)).bind next := by
  rw [← extend_extend, Option.bind_assoc]
  congr 1
  funext partly
  rw [writes partly]

theorem writes_nothing : Writes some .empty := by
  intro builder
  exact (extend_empty builder).symm

theorem writes_bits (bits : List Bool) : Writes (·.storeBits bits) (.ofBits bits) := by
  intro builder
  change builder.storeBits bits = _
  have same : held builder ++ .ofBits bits = ⟨builder.bits ++ bits, builder.refs⟩ := by
    ext1
    · rfl
    · exact List.append_nil _
  by_cases fits : (builder.bits ++ bits).length ≤ maxBits
  · rw [Builder.storeBits, dif_pos fits, extend_eq same ⟨fits, builder.refsFit⟩]
    rfl
  · rw [Builder.storeBits, dif_neg fits, extend, dif_neg fun whole => fits whole.1]

theorem writes_ref (cell : Cell) : Writes (·.storeRef cell) (.ofRef cell) := by
  intro builder
  change builder.storeRef cell = _
  have same : held builder ++ .ofRef cell = ⟨builder.bits, builder.refs ++ [cell]⟩ := by
    ext1
    · exact List.append_nil _
    · rfl
  by_cases fits : (builder.refs ++ [cell]).length ≤ maxRefs
  · rw [Builder.storeRef, dif_pos fits, extend_eq same ⟨builder.bitsFit, fits⟩]
    rfl
  · rw [Builder.storeRef, dif_neg fits, extend, dif_neg fun whole => fits whole.2]

theorem writes_word {width value : Nat} (small : value < 2 ^ width) :
    Writes (·.storeUInt value width) (.word width value) := by
  intro builder
  change builder.storeUInt value width = _
  rw [Builder.storeUInt, if_pos small]
  exact writes_bits _ builder

theorem writes_uint32 (value : UInt32) :
    Writes (·.storeUInt value.toNat 32) (.word 32 value.toNat) :=
  writes_word value.toNat_lt

theorem writes_big_uint {value : Int} {width : Nat} (positive : 0 ≤ value)
    (small : value < 2 ^ width) :
    Writes (·.storeBigUInt value width) (.word width value.toNat) := by
  intro builder
  have below : value.toNat < 2 ^ width := by
    have cast : ((value.toNat : Nat) : Int) < ((2 ^ width : Nat) : Int) := by
      rw [Int.toNat_of_nonneg positive]
      exact_mod_cast small
    exact_mod_cast cast
  change builder.storeBigUInt value width = _
  rw [Builder.storeBigUInt, if_pos positive]
  exact writes_word below builder

theorem writes_bool (value : Bool) : Writes (·.storeBoolBit value) (.ofBits [value]) :=
  writes_bits [value]

theorem writes_maybe_ref (cell : Option Cell) :
    Writes (·.storeMaybeRef cell) (.maybeRef cell) := by
  cases cell with
  | none => exact writes_bits [false]
  | some cell => exact (writes_bits [true]).andThen (writes_ref cell)

theorem writes_refs (refs : List Cell) :
    Writes (refs.foldlM fun partly ref => partly.storeRef ref) ⟨[], refs⟩ := by
  induction refs with
  | nil => exact writes_nothing
  | cons cell refs induction => exact (writes_ref cell).andThen induction

theorem writes_cell (contents : Contents) : Writes (·.storeCell contents.cell) contents := by
  have whole := (writes_bits contents.bits).andThen (writes_refs contents.refs)
  have same : Contents.ofBits contents.bits ++ ⟨[], contents.refs⟩ = contents := by
    ext1
    · exact List.append_nil _
    · rfl
  rw [same] at whole
  exact whole

theorem built_cell {total : Contents} (same : contents = total) (fits : total.Fits) :
    ((extend beginCell contents).bind fun last => some last.endCell) = some total.cell := by
  subst same
  rw [extend_eq (Contents.empty_append contents) fits]
  rfl

/-- A chain of stores into a new cell builds a cell exactly if its contents fit. -/
theorem Writes.builds (writes : Writes store contents) :
    ((store beginCell).bind fun last => some last.endCell) =
      if contents.Fits then some contents.cell else none := by
  rw [writes beginCell]
  split_ifs with fits
  · exact built_cell rfl fits
  · have large : ¬ (held beginCell ++ contents).Fits := fits
    rw [extend, dif_neg large, Option.bind_none]

theorem Writes.overflows (writes : Writes store contents) (large : ¬ contents.Fits) :
    store beginCell = none := by
  rw [writes beginCell]
  exact dif_neg large

end Storing

/-! ## Amounts -/

def leastBytes (value : Nat) : Nat :=
  ((List.range 16).find? fun count => decide (value < 256 ^ count)).getD 0

def sizedAmount (length value : Nat) : Contents := .word 4 length ++ .word (8 * length) value

def amount (value : Nat) : Contents := sizedAmount (leastBytes value) value

theorem least_bytes_found {value : Nat} (small : value < 2 ^ 120) :
    (List.range 16).find? (fun count => decide (value < 256 ^ count)) =
      some (leastBytes value) := by
  have found : ((List.range 16).find? fun count => decide (value < 256 ^ count)).isSome := by
    rw [List.find?_isSome]
    have bound : (256 : Nat) ^ 15 = 2 ^ 120 := by norm_num
    exact ⟨15, by simp, by simpa [bound] using small⟩
  obtain ⟨count, here⟩ := Option.isSome_iff_exists.mp found
  rw [leastBytes, here, Option.getD_some]

theorem least_bytes_spec {value : Nat} (small : value < 2 ^ 120) :
    leastBytes value < 16 ∧ value < 256 ^ leastBytes value := by
  have found := least_bytes_found small
  have member := List.mem_of_find?_eq_some found
  have holds := List.find?_some found
  exact ⟨List.mem_range.mp member, of_decide_eq_true holds⟩

theorem pow_bytes (length : Nat) : 2 ^ (8 * length) = 256 ^ length := by
  rw [Nat.pow_mul]

theorem writes_amount {value : Int} (positive : 0 ≤ value) (small : value < 2 ^ 120) :
    Writes (·.storeBigCoins value) (amount value.toNat) := by
  intro builder
  have below : value.toNat < 2 ^ 120 := by omega
  obtain ⟨short, holds⟩ := least_bytes_spec below
  have length : leastBytes value.toNat < 2 ^ 4 := short
  have fits : value.toNat < 2 ^ (8 * leastBytes value.toNat) := by
    rw [pow_bytes]
    exact holds
  change builder.storeBigCoins value = _
  rw [Builder.storeBigCoins, if_pos positive, least_bytes_found below]
  exact ((writes_word length).andThen (writes_word fits)) builder

theorem amount_within {value : Nat} (small : value < 2 ^ 120) : (amount value).Within 124 0 := by
  obtain ⟨short, -⟩ := least_bytes_spec small
  obtain ⟨bits, refs⟩ := (Contents.word_within 4 (leastBytes value)).append
    (Contents.word_within (8 * leastBytes value) value)
  exact ⟨bits.trans (by omega), refs⟩

/-! ## Loading -/

section Loading

variable {slice rest : Slice} {width value : Nat}

theorem load_word (small : value < 2 ^ width) (rest : Slice) :
    ((Contents.word width value).before rest).loadUInt width = some (value, rest) := by
  have size := number_bits_length width value
  have enough : width ≤ (numberBits width value ++ rest.bits).length := by
    rw [List.length_append, size]
    exact Nat.le_add_right _ _
  have front : (numberBits width value ++ rest.bits).take width = numberBits width value :=
    List.take_left' size
  have back : (numberBits width value ++ rest.bits).drop width = rest.bits :=
    List.drop_left' size
  change (if width ≤ (numberBits width value ++ rest.bits).length then _ else _) = _
  rw [if_pos enough]
  change some (bitsNumber ((numberBits width value ++ rest.bits).take width),
    (⟨(numberBits width value ++ rest.bits).drop width, rest.refs⟩ : Slice)) = _
  rw [front, back, bits_number_number_bits, Nat.mod_eq_of_lt small]

theorem load_word_found (found : slice.loadUInt width = some (value, rest)) :
    slice = (Contents.word width value).before rest ∧ value < 2 ^ width := by
  unfold Slice.loadUInt at found
  split_ifs at found with enough
  cases found
  have size : (slice.bits.take width).length = width := List.length_take_of_le enough
  have spelled := number_bits_bits_number (slice.bits.take width)
  have below := bits_number_lt (slice.bits.take width)
  rw [size] at spelled below
  refine ⟨?_, below⟩
  simp only [Contents.word, Contents.ofBits, Contents.before, spelled, List.take_append_drop,
    List.nil_append]

theorem load_bool (value : Bool) (rest : Slice) :
    ((Contents.ofBits [value]).before rest).loadBoolBit = some (value, rest) := rfl

theorem load_bool_found {value : Bool} (found : slice.loadBoolBit = some (value, rest)) :
    slice = (Contents.ofBits [value]).before rest := by
  obtain ⟨bits, refs⟩ := slice
  cases bits with
  | nil => cases found
  | cons bit bits =>
      cases found
      rfl

theorem load_ref (cell : Cell) (rest : Slice) :
    ((Contents.ofRef cell).before rest).loadRef = some (cell, rest) := rfl

theorem load_maybe_ref (cell : Option Cell) (rest : Slice) :
    ((Contents.maybeRef cell).before rest).loadMaybeRef = some (cell, rest) := by
  cases cell with
  | none => rfl
  | some cell => rfl

theorem load_maybe_ref_found {cell : Option Cell}
    (found : slice.loadMaybeRef = some (cell, rest)) :
    slice = (Contents.maybeRef cell).before rest := by
  obtain ⟨⟨present, after⟩, bit, found⟩ := Option.bind_eq_some_iff.mp found
  rw [load_bool_found bit]
  cases present with
  | false =>
      cases found
      rfl
  | true =>
      obtain ⟨bits, refs⟩ := after
      cases refs with
      | nil => cases found
      | cons inner refs =>
          cases found
          rfl

/-- `loadBigCoins` for a reader that insists on the least number of bytes. -/
def loadMinimalCoins (slice : Slice) : Option (Nat × Slice) := do
  let (length, behind) ← slice.loadUInt 4
  let (value, rest) ← behind.loadUInt (8 * length)
  if length = leastBytes value then some (value, rest) else none

theorem load_sized_amount {length : Nat} (short : length < 16) (small : value < 256 ^ length)
    (rest : Slice) :
    ((sizedAmount length value).before rest).loadBigCoins = some (value, rest) := by
  have fits : value < 2 ^ (8 * length) := by
    rw [pow_bytes]
    exact small
  have first := load_word (show length < 2 ^ 4 from short)
    ((Contents.word (8 * length) value).before rest)
  rw [sizedAmount, Contents.append_before, Slice.loadBigCoins, first]
  exact load_word fits rest

theorem load_amount (small : value < 2 ^ 120) (rest : Slice) :
    ((amount value).before rest).loadBigCoins = some (value, rest) := by
  obtain ⟨short, fits⟩ := least_bytes_spec small
  exact load_sized_amount short fits rest

theorem load_minimal (small : value < 2 ^ 120) (rest : Slice) :
    loadMinimalCoins ((amount value).before rest) = some (value, rest) := by
  obtain ⟨short, fits⟩ := least_bytes_spec small
  rw [← pow_bytes] at fits
  have first := load_word (show leastBytes value < 2 ^ 4 from short)
    ((Contents.word (8 * leastBytes value) value).before rest)
  have second := load_word fits rest
  rw [amount, sizedAmount, Contents.append_before, loadMinimalCoins, first, Option.bind_eq_bind,
    Option.bind_some]
  dsimp only
  rw [second, Option.bind_some]
  exact if_pos rfl

theorem load_minimal_found (found : loadMinimalCoins slice = some (value, rest)) :
    slice = (amount value).before rest ∧ value < 2 ^ 120 := by
  obtain ⟨⟨length, behind⟩, first, found⟩ := Option.bind_eq_some_iff.mp found
  obtain ⟨⟨read, after⟩, second, found⟩ := Option.bind_eq_some_iff.mp found
  dsimp only at found
  split_ifs at found with least
  cases found
  obtain ⟨rfl, short⟩ := load_word_found first
  obtain ⟨rfl, fits⟩ := load_word_found second
  constructor
  · rw [amount, ← least, sizedAmount, Contents.append_before]
  · calc value < 2 ^ (8 * length) := fits
      _ ≤ 2 ^ 120 := Nat.pow_le_pow_right (by decide) (by omega)

end Loading

/-! ## Reading programs -/

section Reading

variable {Err Value Result : Type} {program : GoM Slice Err Value}
  {next : Value → GoM Slice Err Result}

/-- A load whose failure is returned as the given error. -/
def reading (error : Err) (load : Slice → Option (Value × Slice)) : GoM Slice Err Value := do
  let slice ← get
  match load slice with
  | none => fail error
  | some (value, rest) => do
      set rest
      pure value

/-- The program returns the value from any slice that starts with the contents. -/
def Consumes (program : GoM Slice Err Value) (contents : Contents) (value : Value) : Prop :=
  ∀ rest, exec program (contents.before rest) = (.ok value, rest)

/-- Whatever the program reads, it stands in the slice as the predicate says. -/
def Takes (program : GoM Slice Err Value) (found : Value → Contents → Prop) : Prop :=
  ∀ slice value rest, exec program slice = (.ok value, rest) →
    ∃ contents, slice = contents.before rest ∧ found value contents

theorem consumes_pure (value : Value) :
    Consumes (pure value : GoM Slice Err Value) .empty value := by
  intro rest
  rfl

theorem Consumes.bind {first second : Contents} {value : Value} {result : Result}
    (one : Consumes program first value) (two : Consumes (next value) second result) :
    Consumes (program >>= next) (first ++ second) result := by
  intro rest
  rw [Contents.append_before, exec_bind_ok (one _)]
  exact two rest

theorem Consumes.map {contents : Contents} {value : Value} (read : Consumes program contents value)
    (build : Value → Result) :
    Consumes (program >>= fun value => pure (build value)) contents (build value) := by
  have whole : Consumes (program >>= fun value => pure (build value)) (contents ++ .empty)
      (build value) := read.bind (consumes_pure (build value))
  rwa [Contents.append_empty] at whole

theorem consumes_reading {error : Err} {load : Slice → Option (Value × Slice)}
    {contents : Contents} {value : Value}
    (loads : ∀ rest, load (contents.before rest) = some (value, rest)) :
    Consumes (reading error load) contents value := by
  intro rest
  rw [reading, exec_bind_ok (exec_get _), loads rest]
  rfl

theorem takes_pure {value : Value} {found : Value → Contents → Prop}
    (holds : found value .empty) : Takes (pure value : GoM Slice Err Value) found := by
  intro slice result rest ran
  cases ran
  exact ⟨.empty, rfl, holds⟩

theorem takes_fail {error : Err} {found : Value → Contents → Prop} :
    Takes (fail error : GoM Slice Err Value) found := by
  intro slice value rest ran
  cases ran

theorem Takes.bind {here : Value → Contents → Prop} {found : Result → Contents → Prop}
    (one : Takes program here)
    (two : ∀ value first, here value first →
      Takes (next value) fun result second => found result (first ++ second)) :
    Takes (program >>= next) found := by
  intro slice result rest ran
  rw [exec_bind] at ran
  split at ran
  · rename_i value after first
    obtain ⟨contents, rfl, holds⟩ := one slice value after first
    obtain ⟨others, rfl, whole⟩ := two value contents holds after result rest ran
    exact ⟨contents ++ others, (Contents.append_before _ _ _).symm, whole⟩
  · cases ran

theorem takes_reading {error : Err} {load : Slice → Option (Value × Slice)}
    {found : Value → Contents → Prop}
    (loads : ∀ slice value rest, load slice = some (value, rest) →
      ∃ contents, slice = contents.before rest ∧ found value contents) :
    Takes (reading error load) found := by
  intro slice value rest ran
  rw [reading, exec_bind_ok (exec_get _)] at ran
  split at ran
  · cases ran
  · rename_i result after read
    cases ran
    exact loads slice value rest read

theorem takes_word {error : Err} {width : Nat} :
    Takes (reading error (·.loadUInt width)) fun value contents =>
      contents = .word width value ∧ value < 2 ^ width := by
  apply takes_reading
  intro slice value rest found
  obtain ⟨whole, small⟩ := load_word_found found
  exact ⟨_, whole, rfl, small⟩

theorem takes_minimal {error : Err} :
    Takes (reading error loadMinimalCoins) fun value contents =>
      contents = amount value ∧ value < 2 ^ 120 := by
  apply takes_reading
  intro slice value rest found
  obtain ⟨whole, small⟩ := load_minimal_found found
  exact ⟨_, whole, rfl, small⟩

end Reading

end Gocoon.CellLayout
