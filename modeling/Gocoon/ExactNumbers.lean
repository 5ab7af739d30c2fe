import Gocoon.JsonFloats

/-!
# Values with exact numbers

What a JSON text says, with the exact values of its number literals, and what is left of it
when it is decoded and encoded again. Integers are compared exactly, other numbers as floats.
A number that passes through a `float64` comes back as the shortest decimal that rounds to the
same float: an integer survives if it is that decimal.
-/

namespace Gocoon.ExactNumbers

open Gocoon.LittleEndianBytes
open Gocoon.Utf8Text
open Gocoon.JsonText
open Gocoon.JsonPrinting
open Gocoon.JsonValues
open Gocoon.BinaryRounding
open Gocoon.ShortestDecimals
open Gocoon.DecimalLiterals
open Gocoon.JsonFloats

set_option autoImplicit false

/-! ## Numbers everywhere in a value -/

section Everywhere

variable {Number Other : Type}

mutual

def Everywhere (holds : Number → Prop) : Value Number → Prop
  | .num value => holds value
  | .arr items => EverywhereItems holds items
  | .obj members => EverywhereMembers holds members
  | _ => True

def EverywhereItems (holds : Number → Prop) : List (Value Number) → Prop
  | [] => True
  | item :: rest => Everywhere holds item ∧ EverywhereItems holds rest

def EverywhereMembers (holds : Number → Prop) : List (List Byte × Value Number) → Prop
  | [] => True
  | (_, value) :: rest => Everywhere holds value ∧ EverywhereMembers holds rest

end

variable {holds : Number → Prop}

theorem everywhere_items_iff (items : List (Value Number)) :
    EverywhereItems holds items ↔ ∀ item ∈ items, Everywhere holds item := by
  induction items with
  | nil => simp [EverywhereItems]
  | cons item rest induction => rw [EverywhereItems, induction, List.forall_mem_cons]

theorem everywhere_members_iff (members : List (List Byte × Value Number)) :
    EverywhereMembers holds members ↔ ∀ member ∈ members, Everywhere holds member.2 := by
  induction members with
  | nil => simp [EverywhereMembers]
  | cons member rest induction => rw [EverywhereMembers, induction, List.forall_mem_cons]

theorem everywhere_arr (items : List (Value Number)) :
    Everywhere holds (.arr items) ↔ ∀ item ∈ items, Everywhere holds item :=
  everywhere_items_iff items

theorem everywhere_obj (members : List (List Byte × Value Number)) :
    Everywhere holds (.obj members) ↔ ∀ member ∈ members, Everywhere holds member.2 :=
  everywhere_members_iff members

theorem everywhere_map (change : Number → Other) (string : List Byte → List Byte)
    {holdsOther : Other → Prop} (value : Value Number) :
    Everywhere holdsOther (mapValue change string value) ↔
      Everywhere (fun number => holdsOther (change number)) value := by
  induction value using value_induction with
  | null | bool | num | str => exact Iff.rfl
  | arr items induction =>
      simp only [mapValue, map_items_eq, everywhere_arr, List.forall_mem_map]
      exact forall₂_congr induction
  | obj members induction =>
      simp only [mapValue, map_members_eq, everywhere_obj, List.forall_mem_map]
      exact forall₂_congr induction

theorem everywhere_congr {other : Number → Prop} {value : Value Number}
    (same : Everywhere (fun number => holds number ↔ other number) value) :
    Everywhere holds value ↔ Everywhere other value := by
  induction value using value_induction with
  | null | bool | str => exact Iff.rfl
  | num => exact same
  | arr items induction =>
      rw [everywhere_arr] at same
      rw [everywhere_arr, everywhere_arr]
      exact forall₂_congr fun item inside => induction item inside (same item inside)
  | obj members induction =>
      rw [everywhere_obj] at same
      rw [everywhere_obj, everywhere_obj]
      exact forall₂_congr fun member inside => induction member inside (same member inside)

theorem Everywhere.imp {other : Number → Prop} {value : Value Number}
    (every : Everywhere holds value) (implies : ∀ number, holds number → other number) :
    Everywhere other value := by
  induction value using value_induction with
  | null | bool | str => trivial
  | num number => exact implies number every
  | arr items induction =>
      rw [everywhere_arr] at every ⊢
      exact fun item inside => induction item inside (every item inside)
  | obj members induction =>
      rw [everywhere_obj] at every ⊢
      exact fun member inside => induction member inside (every member inside)

theorem everywhere_normalize {value : Value Number} (every : Everywhere holds value) :
    Everywhere holds (JsonValues.normalize value) := by
  induction value using value_induction with
  | null | bool | str => trivial
  | num => exact every
  | arr items induction =>
      rw [everywhere_arr] at every
      rw [JsonValues.normalize, normalize_items_eq, everywhere_arr, List.forall_mem_map]
      exact fun item inside => induction item inside (every item inside)
  | obj members induction =>
      rw [everywhere_obj] at every
      rw [JsonValues.normalize, normalize_members_eq, everywhere_obj]
      intro member inside
      obtain ⟨source, listed, rfl⟩ := List.mem_map.mp (mem_of_members inside)
      exact induction source listed (every source listed)

end Everywhere

/-! ## Maps of values -/

section Maps

variable {Number Other Final : Type}

theorem map_map (first : Number → Other) (second : Other → Final) (value : Value Number) :
    mapValue second id (mapValue first id value) =
      mapValue (fun number => second (first number)) id value := by
  induction value using value_induction with
  | null | bool | num | str => rfl
  | arr items induction =>
      simp only [mapValue, map_items_eq, List.map_map, Value.arr.injEq]
      exact List.map_congr_left induction
  | obj members induction =>
      simp only [mapValue, map_members_eq, List.map_map, Value.obj.injEq]
      apply List.map_congr_left
      intro member inside
      exact Prod.ext rfl (induction member inside)

theorem map_insert (change : Number → Other) (key : List Byte) (value : Value Number)
    (object : List (List Byte × Value Number)) :
    mapMembers change id (insertKey key value object) =
      insertKey key (mapValue change id value) (mapMembers change id object) := by
  rw [map_members_eq, map_members_eq]
  exact insert_map (mapValue change id) key value object

theorem map_of_members (change : Number → Other) (members : List (List Byte × Value Number)) :
    mapMembers change id (ofMembers members) = ofMembers (mapMembers change id members) := by
  have every : ∀ object : List (List Byte × Value Number),
      mapMembers change id
          (members.foldl (fun object member => insertKey member.1 member.2 object) object) =
        (mapMembers change id members).foldl
          (fun object member => insertKey member.1 member.2 object)
          (mapMembers change id object) := by
    induction members with
    | nil => exact fun _ => rfl
    | cons member rest induction =>
        intro object
        rw [List.foldl_cons, induction, map_insert]
        rfl
  exact every []

theorem forall₂_map_eq {First Second Result : Type} {related : First → Second → Prop}
    {left : List First} {right : List Second} (all : List.Forall₂ related left right)
    {onLeft : First → Result} {onRight : Second → Result}
    (same : ∀ first ∈ left, ∀ second, related first second → onRight second = onLeft first) :
    right.map onRight = left.map onLeft := by
  induction all with
  | nil => rfl
  | cons here others induction =>
      obtain ⟨first, rest⟩ := List.forall_mem_cons.mp same
      rw [List.map_cons, List.map_cons, first _ here, induction rest]

theorem decode_map {parseNumber : List Byte → Option Number} {change : Number → Other}
    {read : List Byte → Other}
    (agrees : ∀ literal number, parseNumber literal = some number → change number = read literal)
    {tree : Json} (clean : Clean tree) {value : Value Number}
    (decoded : decodeValue parseNumber tree = some value) :
    mapValue change id value = mapValue read id (JsonValues.normalize tree) := by
  induction tree using value_induction generalizing value with
  | null | bool =>
      cases decoded
      rfl
  | str string =>
      cases decoded
      simp only [Clean, mapValue, Value.str.injEq] at clean
      simp only [JsonValues.normalize, mapValue, clean, id]
  | num literal =>
      obtain ⟨number, parsed, rfl⟩ := Option.map_eq_some_iff.mp decoded
      simp only [JsonValues.normalize, mapValue, agrees literal number parsed]
  | arr items induction =>
      obtain ⟨values, listed, rfl⟩ := Option.map_eq_some_iff.mp decoded
      simp only [Clean, mapValue, map_items_eq, Value.arr.injEq] at clean
      simp only [JsonValues.normalize, mapValue, map_items_eq, normalize_items_eq, Value.arr.injEq,
        List.map_map]
      apply forall₂_map_eq (decode_items_some listed)
      intro item inside value read
      exact induction item inside (map_eq_self_iff.mp clean item inside) read
  | obj members induction =>
      obtain ⟨values, listed, rfl⟩ := Option.map_eq_some_iff.mp decoded
      simp only [Clean, mapValue, map_members_eq, Value.obj.injEq] at clean
      simp only [JsonValues.normalize, mapValue, map_of_members, Value.obj.injEq]
      congr 1
      simp only [map_members_eq, normalize_members_eq, List.map_map]
      apply forall₂_map_eq (decode_members_some listed)
      intro member inside entry held
      obtain ⟨key, read⟩ := held
      have fixed := map_eq_self_iff.mp clean member inside
      have sameKey : coerce member.1 = member.1 := congrArg Prod.fst fixed
      apply Prod.ext
      · simp [key, sameKey]
      · exact induction member inside (congrArg Prod.snd fixed) read

theorem decode_isSome_iff {parseNumber : List Byte → Option Number} (tree : Json) :
    (∃ value, decodeValue parseNumber tree = some value) ↔
      Everywhere (fun literal => ∃ number, parseNumber literal = some number) tree := by
  induction tree using value_induction with
  | null | bool | str => simp [decodeValue, Everywhere]
  | num literal => simp [decodeValue, Everywhere]
  | arr items induction =>
      have every : (∃ values, decodeItems parseNumber items = some values) ↔
          ∀ item ∈ items, ∃ value, decodeValue parseNumber item = some value := by
        clear induction
        induction items with
        | nil => simp [decodeItems]
        | cons item rest induction =>
            rw [List.forall_mem_cons, ← induction]
            simp [decodeItems, Option.bind_eq_some_iff]
      rw [everywhere_arr, ← forall₂_congr induction, ← every]
      simp [decodeValue]
  | obj members induction =>
      have every : (∃ values, decodeMembers parseNumber members = some values) ↔
          ∀ member ∈ members, ∃ value, decodeValue parseNumber member.2 = some value := by
        clear induction
        induction members with
        | nil => simp [decodeMembers]
        | cons member rest induction =>
            rw [List.forall_mem_cons, ← induction]
            simp [decodeMembers, Option.bind_eq_some_iff]
      rw [everywhere_obj, ← forall₂_congr induction, ← every]
      simp [decodeValue]

theorem normalize_map (change : Number → Other) (value : Value Number) :
    JsonValues.normalize (mapValue change coerce value) =
      mapValue change id (JsonValues.normalize value) := by
  have again : ∀ text : List Byte, coerce (coerce text) = coerce text :=
    fun text => coerce_of_well_formed (coerce_well_formed text)
  induction value using value_induction with
  | null | bool | num => rfl
  | str string => simp [mapValue, JsonValues.normalize, again]
  | arr items induction =>
      simp only [mapValue, JsonValues.normalize, map_items_eq, normalize_items_eq, List.map_map,
        Value.arr.injEq]
      exact List.map_congr_left induction
  | obj members induction =>
      simp only [mapValue, JsonValues.normalize, map_of_members, Value.obj.injEq]
      congr 1
      simp only [map_members_eq, normalize_members_eq, List.map_map]
      apply List.map_congr_left
      intro member inside
      exact Prod.ext (again member.1) (induction member inside)

end Maps

/-! ## Numbers -/

section Numbers

def exactNumber (literal : List Byte) : ℚ := (split literal).value

def floatValue (q : ℚ) : ℚ := if q < 0 then -nearest binary64 (-q) else nearest binary64 q

/-- Integers are compared exactly, other numbers as floats. -/
def SameNumber (first second : ℚ) : Prop :=
  if first.den = 1 ∧ second.den = 1 then first = second else floatValue first = floatValue second

/-- What a number has become once it was decoded and encoded. -/
def reprint (q : ℚ) : ℚ :=
  if q < 0 then -shortestValue binary64 decimalTop (nearest binary64 (-q))
  else shortestValue binary64 decimalTop (nearest binary64 q)

/-- An integer that is the shortest one with its float. -/
def Survives (q : ℚ) : Prop := q.den = 1 → IsShortest binary64 q.num.natAbs

theorem format_exact (literal : List Byte) (float : Float64)
    (parsed : parseFloat literal = some float) :
    exactNumber (formatFloat float) = reprint (exactNumber literal) := by
  have parts : split (formatFloat float) = float.parts :=
    NumberParts.split_text float.parts_valid
  have nonneg := magnitude_nonneg (split literal)
  unfold parseFloat at parsed
  split_ifs at parsed with inRange
  rw [exactNumber, parts, NumberParts.value, float.parts_negative, float.parts_magnitude]
  cases parsed
  rw [exactNumber, NumberParts.value, reprint]
  dsimp only
  cases (split literal).negative with
  | false => simp [not_lt.mpr nonneg]
  | true =>
      rcases nonneg.eq_or_lt with zero | positive
      · simp [← zero, nearest_zero, shortest_zero (show 0 ≤ decimalTop by decide)]
      · simp [positive]

def Bounded (q : ℚ) : Prop := nearest binary64 |q| < 2 ^ 1024

theorem bounded_exact {literal : List Byte} (inRange : InRange literal) :
    Bounded (exactNumber literal) := by
  have nonneg := magnitude_nonneg (split literal)
  have magnitude : |exactNumber literal| = (split literal).magnitude := by
    rw [exactNumber, NumberParts.value]
    split_ifs
    · rw [abs_neg, abs_of_nonneg nonneg]
    · rw [abs_of_nonneg nonneg]
  rw [Bounded, magnitude]
  exact inRange

theorem bounded_number {q : ℚ} (bounded : Bounded q) :
    IsNumber binary64 decimalTop (nearest binary64 |q|) where
  rounded := nearest_nearest (abs_nonneg q)
  nonneg := nearest_nonneg binary64 (abs_nonneg q)
  below := bounded.trans two_pow_lt_ten_pow

theorem reprint_signed (q : ℚ) :
    (q < 0 ∧ q = -|q| ∧
        reprint q = -shortestValue binary64 decimalTop (nearest binary64 |q|)) ∨
      (0 ≤ q ∧ q = |q| ∧
        reprint q = shortestValue binary64 decimalTop (nearest binary64 |q|)) := by
  rcases lt_or_ge q 0 with negative | nonneg
  · left
    have magnitude := abs_of_neg negative
    exact ⟨negative, by rw [magnitude, neg_neg], by rw [reprint, if_pos negative, magnitude]⟩
  · right
    have magnitude := abs_of_nonneg nonneg
    exact ⟨nonneg, magnitude.symm, by rw [reprint, if_neg (not_lt.mpr nonneg), magnitude]⟩

theorem float_reprint {q : ℚ} (bounded : Bounded q) : floatValue q = floatValue (reprint q) := by
  have number := bounded_number bounded
  have nonneg := shortest_nonneg (by decide) number
  have rounds := shortest_rounds (by decide) number
  rcases reprint_signed q with ⟨negative, value, printed⟩ | ⟨positive, value, printed⟩
  · rw [printed, floatValue, if_pos negative, ← abs_of_neg negative, floatValue]
    rcases nonneg.eq_or_lt with zero | positive
    · rw [← zero] at rounds ⊢
      rw [← rounds, nearest_zero, neg_zero, if_neg (lt_irrefl 0), nearest_zero]
    · rw [if_pos (neg_neg_of_pos positive), neg_neg, rounds]
  · rw [printed, floatValue, floatValue, if_neg (not_lt.mpr positive), if_neg (not_lt.mpr nonneg),
      rounds, ← value]

theorem same_reprint_iff {q : ℚ} (bounded : Bounded q) :
    SameNumber q (reprint q) ↔ Survives q := by
  by_cases whole : q.den = 1
  · have magnitude : |q| = (q.num.natAbs : ℚ) := by
      nth_rewrite 1 [← Rat.coe_int_num_of_den_eq_one whole]
      rw [Nat.cast_natAbs, Int.cast_abs]
    have below := (bounded_number bounded).below
    rw [magnitude] at below
    obtain ⟨printed, spelled⟩ := printed_whole (by decide) (by decide) below
    have integer : (reprint q).den = 1 := by
      rcases reprint_signed q with ⟨-, -, same⟩ | ⟨-, -, same⟩
      · rw [same, magnitude, spelled]
        simp
      · rw [same, magnitude, spelled]
        simp
    have shortest := shortest_integer_iff (by decide) (by decide) below
    rw [← magnitude] at shortest
    rw [SameNumber, if_pos ⟨whole, integer⟩, Survives, ← shortest, forall_prop_of_true whole]
    rcases reprint_signed q with ⟨-, value, same⟩ | ⟨-, value, same⟩
    · rw [same]
      nth_rewrite 1 [value]
      rw [neg_inj, eq_comm]
    · rw [same]
      nth_rewrite 1 [value]
      rw [eq_comm]
  · rw [SameNumber, if_neg fun both => whole both.1, Survives]
    exact iff_of_true (float_reprint bounded) fun integer => absurd integer whole

end Numbers

/-! ## Values -/

section Values

mutual

/-- Equality of values with exact integers. -/
def SameValue : Value ℚ → Value ℚ → Prop
  | .null, .null => True
  | .bool first, .bool second => first = second
  | .num first, .num second => SameNumber first second
  | .str first, .str second => first = second
  | .arr first, .arr second => SameItems first second
  | .obj first, .obj second => SameMembers first second
  | _, _ => False

def SameItems : List (Value ℚ) → List (Value ℚ) → Prop
  | [], [] => True
  | first :: rest, second :: others => SameValue first second ∧ SameItems rest others
  | _, _ => False

def SameMembers : List (List Byte × Value ℚ) → List (List Byte × Value ℚ) → Prop
  | [], [] => True
  | (key, first) :: rest, (other, second) :: others =>
      (key = other ∧ SameValue first second) ∧ SameMembers rest others
  | _, _ => False

end

theorem same_map_iff (change : ℚ → ℚ) (value : Value ℚ) :
    SameValue value (mapValue change id value) ↔
      Everywhere (fun number => SameNumber number (change number)) value := by
  induction value using value_induction with
  | null => simp [mapValue, SameValue, Everywhere]
  | bool | str => simp [mapValue, SameValue, Everywhere]
  | num => simp [mapValue, SameValue, Everywhere]
  | arr items induction =>
      rw [mapValue, SameValue, everywhere_arr]
      induction items with
      | nil => simp [mapItems, SameItems]
      | cons item rest step =>
          obtain ⟨here, later⟩ := List.forall_mem_cons.mp induction
          rw [mapItems, SameItems, here, step later, List.forall_mem_cons]
  | obj members induction =>
      rw [mapValue, SameValue, everywhere_obj]
      induction members with
      | nil => simp [mapMembers, SameMembers]
      | cons member rest step =>
          obtain ⟨here, later⟩ := List.forall_mem_cons.mp induction
          rw [mapMembers, SameMembers, here, step later, List.forall_mem_cons]
          simp

/-- The value that a text denotes, with exact numbers; a later duplicate of a key replaces an
earlier one. -/
def exactValue (tree : Json) : Value ℚ :=
  mapValue exactNumber id (JsonValues.normalize tree)

def exactObject (members : List (List Byte × Json)) : List (List Byte × Value ℚ) :=
  mapMembers exactNumber id (ofMembers (normalizeMembers members))

theorem exact_object_ascending (members : List (List Byte × Json)) :
    Ascending (exactObject members) := by
  rw [exactObject, map_members_eq, Ascending, List.pairwise_map]
  exact ascending_of_members _

def recode (value : Value Float64) : Value ℚ :=
  mapValue (fun float => exactNumber (formatFloat float)) id value

theorem recode_decoded {tree : Json} (clean : Clean tree) {value : Value Float64}
    (decoded : decodeValue parseFloat tree = some value) :
    recode value = mapValue reprint id (exactValue tree) := by
  rw [recode, exactValue, map_map]
  exact decode_map format_exact clean decoded

theorem exact_printed (value : Value Float64) :
    exactValue (mapValue formatFloat coerce value) = recode (JsonValues.normalize value) := by
  rw [exactValue, normalize_map, map_map]
  rfl

/-- A kept value is the same exactly when its integers survive. -/
theorem same_reprinted_iff {value : Value ℚ} (bounded : Everywhere Bounded value) :
    SameValue value (mapValue reprint id value) ↔ Everywhere Survives value := by
  rw [same_map_iff]
  exact everywhere_congr (bounded.imp fun number held => same_reprint_iff held)

theorem exact_bounded {tree : Json} (inRange : Everywhere InRange tree) :
    Everywhere Bounded (exactValue tree) := by
  rw [exactValue, everywhere_map]
  exact (everywhere_normalize inRange).imp fun literal held => bounded_exact held

theorem parse_in_range_iff (literal : List Byte) :
    (∃ float, parseFloat literal = some float) ↔ InRange literal := by
  unfold parseFloat
  split_ifs with inRange <;> simp [inRange]

theorem decodes_iff (tree : Json) :
    (∃ value, decodeValue parseFloat tree = some value) ↔ Everywhere InRange tree := by
  rw [decode_isSome_iff]
  constructor
  · exact fun every => every.imp fun literal => (parse_in_range_iff literal).mp
  · exact fun every => every.imp fun literal => (parse_in_range_iff literal).mpr

theorem same_insert_iff (change : ℚ → ℚ) (key : List Byte) (first second : Value ℚ)
    {object : List (List Byte × Value ℚ)} (ascending : Ascending object) :
    SameMembers (insertKey key first object)
        (insertKey key second (mapMembers change id object)) ↔
      SameValue first second ∧
        ∀ member ∈ object, member.1 ≠ key →
          SameValue member.2 (mapValue change id member.2) := by
  have unset : ∀ members : List (List Byte × Value ℚ),
      SameMembers members (mapMembers change id members) ↔
        ∀ member ∈ members, SameValue member.2 (mapValue change id member.2) := by
    intro members
    have whole := same_map_iff change (.obj members)
    rw [mapValue, SameValue, everywhere_obj] at whole
    rw [whole]
    exact forall₂_congr fun member _ => (same_map_iff change member.2).symm
  induction object with
  | nil => simp [insertKey, mapMembers, SameMembers]
  | cons member rest induction =>
      obtain ⟨above, others⟩ := List.pairwise_cons.mp ascending
      obtain ⟨name, value⟩ := member
      simp only [insertKey, mapMembers, id]
      split_ifs with same before
      · -- The key is here, and all keys behind it are larger.
        subst same
        have apart : ∀ member ∈ rest, member.1 ≠ key := fun member inside equal =>
          List.lt_irrefl key (equal ▸ above member inside)
        rw [SameMembers, unset, List.forall_mem_cons]
        simp only [true_and, ne_eq, not_true_eq_false, false_implies, and_congr_right_iff]
        intro _
        exact forall₂_congr fun member inside =>
          ⟨fun held _ => held, fun held => held (apart member inside)⟩
      · have apart : ∀ member ∈ (name, value) :: rest, member.1 ≠ key := by
          rw [List.forall_mem_cons]
          refine ⟨fun equal => List.lt_irrefl key (equal ▸ before), ?_⟩
          intro member inside equal
          have beyond : key < member.1 := List.lt_trans before (above member inside)
          exact List.lt_irrefl key (equal ▸ beyond)
        have kept := unset ((name, value) :: rest)
        simp only [mapMembers, id] at kept
        rw [SameMembers, kept]
        simp only [true_and, and_congr_right_iff]
        intro _
        exact forall₂_congr fun member inside =>
          ⟨fun held _ => held, fun held => held (apart member inside)⟩
      · have here : (name, value).1 ≠ key := Ne.symm same
        rw [SameMembers, List.forall_mem_cons]
        simp only [true_and, here, ne_eq, not_false_eq_true, true_implies]
        exact (and_congr_right fun _ => induction others).trans and_left_comm

end Values

end Gocoon.ExactNumbers
