import Gocoon.JsonPrinting

/-!
# Decoding into Go values

`any` values hold floats and maps instead of literals and member lists. A map is kept with
its keys in ascending byte order, which is also the order in which it is marshalled. Of the
floats only what the encoder and the decoder promise each other is assumed: a formatted
number is a literal that parses to the same number. Struct fields match keys up to case,
the last match wins, and a value of the wrong type is an error that does not stop the
decoder.
-/

namespace Gocoon.JsonValues

open Gocoon.LittleEndianBytes
open Gocoon.Utf8Text
open Gocoon.JsonText
open Gocoon.JsonPrinting

set_option autoImplicit false

/-- The finite floats with `strconv.ParseFloat`, which refuses literals out of range, and the
number format of the encoder, the shortest literal that parses to the number. -/
structure Floats where
  Number : Type
  parseFloat : List Byte → Option Number
  formatFloat : Number → List Byte
  formatLiteral : ∀ number, NumberLiteral (formatFloat number)
  parseFormat : ∀ number, parseFloat (formatFloat number) = some number

def literalFloats : Floats where
  Number := { literal : List Byte // NumberLiteral literal }
  parseFloat := fun literal =>
    if whole : scanNumber literal = some (literal, []) then some ⟨literal, whole⟩ else none
  formatFloat := Subtype.val
  formatLiteral := Subtype.property
  parseFormat := fun number => dif_pos number.property

abbrev Any (floats : Floats) := Value floats.Number

/-! ## Maps -/

section Maps

variable {Held : Type}

/-- `object[key] = value` on a map with ascending keys. -/
def insertKey (key : List Byte) (value : Held) : List (List Byte × Held) → List (List Byte × Held)
  | [] => [(key, value)]
  | member :: rest =>
      if key = member.1 then (key, value) :: rest
      else if key < member.1 then (key, value) :: member :: rest
      else member :: insertKey key value rest

/-- `delete(object, key)`. -/
def deleteKey (key : List Byte) (object : List (List Byte × Held)) : List (List Byte × Held) :=
  object.filter fun member => member.1 ≠ key

/-- The map that a member list decodes to: a later duplicate replaces an earlier one. -/
def ofMembers (members : List (List Byte × Held)) : List (List Byte × Held) :=
  members.foldl (fun object member => insertKey member.1 member.2 object) []

def Ascending (object : List (List Byte × Held)) : Prop :=
  object.Pairwise fun first second => first.1 < second.1

theorem lookup_insert_same (key : List Byte) (value : Held) (object : List (List Byte × Held)) :
    (insertKey key value object).lookup key = some value := by
  induction object with
  | nil => simp [insertKey]
  | cons member rest induction =>
      unfold insertKey
      split_ifs with same before
      · simp
      · simp
      · have other : (key == member.1) = false := by simpa using same
        rw [List.lookup_cons, other, induction]

theorem lookup_insert_other {key other : List Byte} (apart : other ≠ key) (value : Held)
    (object : List (List Byte × Held)) :
    (insertKey key value object).lookup other = object.lookup other := by
  have differs : (other == key) = false := by simpa using apart
  induction object with
  | nil => simp [insertKey, List.lookup_cons, differs]
  | cons member rest induction =>
      unfold insertKey
      split_ifs with same before
      · rw [List.lookup_cons, List.lookup_cons, ← same, differs]
      · rw [List.lookup_cons, differs]
      · rw [List.lookup_cons, List.lookup_cons, induction]

theorem lookup_delete_same (key : List Byte) (object : List (List Byte × Held)) :
    (deleteKey key object).lookup key = none := by
  rw [List.lookup_eq_none_iff]
  intro member inside
  have other : member.1 ≠ key := by simpa using (List.mem_filter.mp inside).2
  simpa using Ne.symm other

theorem lookup_delete_other {key other : List Byte} (apart : other ≠ key)
    (object : List (List Byte × Held)) :
    (deleteKey key object).lookup other = object.lookup other := by
  induction object with
  | nil => rfl
  | cons member rest induction =>
      by_cases gone : member.1 = key
      · have skipped : (other == member.1) = false := by simpa [gone] using apart
        rw [deleteKey, List.filter_cons_of_neg (by simpa using gone), List.lookup_cons, skipped]
        exact induction
      · rw [deleteKey, List.filter_cons_of_pos (by simpa using gone), List.lookup_cons,
          List.lookup_cons]
        rw [deleteKey] at induction
        rw [induction]

theorem mem_insert {key : List Byte} {value : Held} {object : List (List Byte × Held)}
    {member : List Byte × Held} (inside : member ∈ insertKey key value object) :
    member = (key, value) ∨ member ∈ object := by
  induction object with
  | nil => simpa [insertKey] using inside
  | cons head rest induction =>
      unfold insertKey at inside
      split_ifs at inside
      · rcases List.mem_cons.mp inside with here | later
        · exact .inl here
        · exact .inr (List.mem_cons_of_mem _ later)
      · simpa using inside
      · rcases List.mem_cons.mp inside with here | later
        · exact .inr (here ▸ List.mem_cons_self)
        · rcases induction later with new | old
          · exact .inl new
          · exact .inr (List.mem_cons_of_mem _ old)

theorem insert_ascending {object : List (List Byte × Held)} (ascending : Ascending object)
    (key : List Byte) (value : Held) : Ascending (insertKey key value object) := by
  induction object with
  | nil => simp [insertKey, Ascending]
  | cons head rest induction =>
      obtain ⟨first, others⟩ := List.pairwise_cons.mp ascending
      unfold insertKey
      split_ifs with same before
      · rw [Ascending, List.pairwise_cons]
        exact ⟨fun member inside => same ▸ first member inside, others⟩
      · rw [Ascending, List.pairwise_cons]
        refine ⟨?_, ascending⟩
        intro member inside
        rcases List.mem_cons.mp inside with here | later
        · exact here ▸ before
        · exact List.lt_trans before (first member later)
      · have after : head.1 < key := Std.lt_of_le_of_ne (List.not_lt.mp before) (Ne.symm same)
        rw [Ascending, List.pairwise_cons]
        refine ⟨?_, induction others⟩
        intro member inside
        rcases mem_insert inside with new | old
        · exact new ▸ after
        · exact first member old

theorem delete_ascending {object : List (List Byte × Held)} (ascending : Ascending object)
    (key : List Byte) : Ascending (deleteKey key object) :=
  List.Pairwise.filter _ ascending

theorem insert_above {object : List (List Byte × Held)} {key : List Byte}
    (above : ∀ member ∈ object, member.1 < key) (value : Held) :
    insertKey key value object = object ++ [(key, value)] := by
  induction object with
  | nil => rfl
  | cons head rest induction =>
      have less := above head (by simp)
      have apart : key ≠ head.1 := by
        rintro rfl
        exact List.lt_irrefl _ less
      have notBefore : ¬ key < head.1 := fun before =>
        List.lt_irrefl _ (List.lt_trans less before)
      rw [insertKey, if_neg apart, if_neg notBefore,
        induction fun member inside => above member (by simp [inside]), List.cons_append]

theorem foldl_insert_ascending (members object : List (List Byte × Held))
    (ascending : Ascending (object ++ members)) :
    members.foldl (fun object member => insertKey member.1 member.2 object) object =
      object ++ members := by
  induction members generalizing object with
  | nil => simp
  | cons member members induction =>
      have above : ∀ earlier ∈ object, earlier.1 < member.1 := by
        intro earlier inside
        exact (List.pairwise_append.mp ascending).2.2 earlier inside member (by simp)
      rw [List.foldl_cons, insert_above above]
      rw [induction (object ++ [(member.1, member.2)]) (by simpa using ascending)]
      simp

theorem of_members_ascending {object : List (List Byte × Held)} (ascending : Ascending object) :
    ofMembers object = object :=
  foldl_insert_ascending object [] ascending

theorem ascending_of_members (members : List (List Byte × Held)) :
    Ascending (ofMembers members) := by
  have every : ∀ object : List (List Byte × Held), Ascending object →
      Ascending (members.foldl (fun object member => insertKey member.1 member.2 object)
        object) := by
    induction members with
    | nil => exact fun object ascending => ascending
    | cons member members induction =>
        exact fun object ascending => induction _ (insert_ascending ascending _ _)
  exact every [] List.Pairwise.nil

theorem mem_foldl_insert {members object : List (List Byte × Held)}
    {member : List Byte × Held}
    (inside : member ∈
      members.foldl (fun object member => insertKey member.1 member.2 object) object) :
    member ∈ members ∨ member ∈ object := by
  induction members generalizing object with
  | nil => exact .inr inside
  | cons head members induction =>
      rcases induction inside with later | here
      · exact .inl (List.mem_cons_of_mem _ later)
      · rcases mem_insert here with new | old
        · exact .inl (new ▸ List.mem_cons_self)
        · exact .inr old

theorem mem_of_members {members : List (List Byte × Held)} {member : List Byte × Held}
    (inside : member ∈ ofMembers members) : member ∈ members := by
  rcases mem_foldl_insert inside with found | none
  · exact found
  · cases none

theorem lookup_map {Other : Type} (change : Held → Other) (key : List Byte)
    (object : List (List Byte × Held)) :
    (object.map fun member => (member.1, change member.2)).lookup key =
      (object.lookup key).map change := by
  induction object with
  | nil => rfl
  | cons member rest induction =>
      rw [List.map_cons, List.lookup_cons, List.lookup_cons, induction]
      cases key == member.1 <;> rfl

theorem insert_map {Other : Type} (change : Held → Other) (key : List Byte) (value : Held)
    (object : List (List Byte × Held)) :
    (insertKey key value object).map (fun member => (member.1, change member.2)) =
      insertKey key (change value) (object.map fun member => (member.1, change member.2)) := by
  induction object with
  | nil => rfl
  | cons member rest induction =>
      simp only [insertKey, List.map_cons]
      split_ifs
      · rfl
      · rfl
      · rw [List.map_cons, induction]

theorem lookup_iff_mem {object : List (List Byte × Held)} (ascending : Ascending object)
    (key : List Byte) (value : Held) :
    object.lookup key = some value ↔ (key, value) ∈ object := by
  induction object with
  | nil => simp
  | cons member rest induction =>
      obtain ⟨first, others⟩ := List.pairwise_cons.mp ascending
      obtain ⟨name, held⟩ := member
      rw [List.lookup_cons, List.mem_cons, Prod.mk.injEq]
      by_cases same : key = name
      · subst same
        have apart : (key, value) ∉ rest := fun inside =>
          List.lt_irrefl key (first (key, value) inside)
        simp [apart, eq_comm]
      · have other : (key == name) = false := by simpa using same
        simp [other, same, induction others]

end Maps

/-! ## The empty interface -/

section Decoding

variable {Number : Type}

mutual

def decodeValue (parseFloat : List Byte → Option Number) : Json → Option (Value Number)
  | .null => some .null
  | .bool value => some (.bool value)
  | .num literal => (parseFloat literal).map .num
  | .str value => some (.str value)
  | .arr items => (decodeItems parseFloat items).map .arr
  | .obj members => (decodeMembers parseFloat members).map fun decoded => .obj (ofMembers decoded)

def decodeItems (parseFloat : List Byte → Option Number) :
    List Json → Option (List (Value Number))
  | [] => some []
  | item :: rest => (decodeValue parseFloat item).bind fun decoded =>
      (decodeItems parseFloat rest).map fun others => decoded :: others

def decodeMembers (parseFloat : List Byte → Option Number) :
    List (List Byte × Json) → Option (List (List Byte × Value Number))
  | [] => some []
  | (key, value) :: rest => (decodeValue parseFloat value).bind fun decoded =>
      (decodeMembers parseFloat rest).map fun others => (key, decoded) :: others

end

mutual

/-- What is left of a value after it was marshalled and decoded again. -/
def normalize : Value Number → Value Number
  | .null => .null
  | .bool value => .bool value
  | .num value => .num value
  | .str value => .str (coerce value)
  | .arr items => .arr (normalizeItems items)
  | .obj members => .obj (ofMembers (normalizeMembers members))

def normalizeItems : List (Value Number) → List (Value Number)
  | [] => []
  | item :: rest => normalize item :: normalizeItems rest

def normalizeMembers : List (List Byte × Value Number) → List (List Byte × Value Number)
  | [] => []
  | (key, value) :: rest => (coerce key, normalize value) :: normalizeMembers rest

end

theorem normalize_items_eq (items : List (Value Number)) :
    normalizeItems items = items.map normalize := by
  induction items with
  | nil => rfl
  | cons item rest induction => rw [normalizeItems, induction, List.map_cons]

theorem normalize_members_eq (members : List (List Byte × Value Number)) :
    normalizeMembers members =
      members.map fun member => (coerce member.1, normalize member.2) := by
  induction members with
  | nil => rfl
  | cons member rest induction => rw [normalizeMembers, induction, List.map_cons]

/-- All strings are UTF-8 and all maps have ascending keys: the values that survive being
marshalled, and all that the decoder returns. -/
inductive Normal : Value Number → Prop where
  | null : Normal .null
  | bool (value : Bool) : Normal (.bool value)
  | num (value : Number) : Normal (.num value)
  | str {value : List Byte} (well : WellFormed value) : Normal (.str value)
  | arr {items : List (Value Number)} (all : ∀ item ∈ items, Normal item) : Normal (.arr items)
  | obj {members : List (List Byte × Value Number)} (ascending : Ascending members)
      (keys : ∀ member ∈ members, WellFormed member.1)
      (values : ∀ member ∈ members, Normal member.2) : Normal (.obj members)

theorem Normal.of_keys {members : List (List Byte × Value Number)} (keys : List (List Byte))
    (named : members.map Prod.fst = keys) (ascending : keys.Pairwise (· < ·))
    (ascii : ∀ key ∈ keys, key.Forall (· < 0x80))
    (values : ∀ member ∈ members, Normal member.2) : Normal (.obj members) := by
  subst named
  apply Normal.obj (List.pairwise_map.mp ascending) _ values
  intro member inside
  exact well_formed_literal (ascii member.1 (List.mem_map_of_mem inside))

theorem normalize_normal {value : Value Number} (normal : Normal value) :
    normalize value = value := by
  induction value using value_induction with
  | null | bool | num => rfl
  | str value =>
      cases normal with
      | str well => rw [normalize, coerce_of_well_formed well]
  | arr items induction =>
      cases normal with
      | arr all =>
          rw [normalize, normalize_items_eq]
          congr 1
          exact map_eq_self_iff.mpr fun item member => induction item member (all item member)
  | obj members induction =>
      cases normal with
      | obj ascending keys values =>
          have same : members.map (fun member => (coerce member.1, normalize member.2)) =
              members := by
            rw [map_eq_self_iff]
            intro member inside
            exact Prod.ext (coerce_of_well_formed (keys member inside))
              (induction member inside (values member inside))
          rw [normalize, normalize_members_eq, same, of_members_ascending ascending]

variable {parseFloat : List Byte → Option Number}

theorem decode_items_some {items : List Json} {decoded : List (Value Number)}
    (read : decodeItems parseFloat items = some decoded) :
    List.Forall₂ (fun item value => decodeValue parseFloat item = some value) items decoded := by
  induction items generalizing decoded with
  | nil =>
      cases read
      exact .nil
  | cons item rest induction =>
      obtain ⟨value, here, read⟩ := Option.bind_eq_some_iff.mp read
      obtain ⟨others, later, same⟩ := Option.map_eq_some_iff.mp read
      cases same
      exact .cons here (induction later)

theorem decode_members_some {members : List (List Byte × Json)}
    {decoded : List (List Byte × Value Number)}
    (read : decodeMembers parseFloat members = some decoded) :
    List.Forall₂ (fun member entry => entry.1 = member.1 ∧
      decodeValue parseFloat member.2 = some entry.2) members decoded := by
  induction members generalizing decoded with
  | nil =>
      cases read
      exact .nil
  | cons member rest induction =>
      obtain ⟨value, here, read⟩ := Option.bind_eq_some_iff.mp read
      obtain ⟨others, later, same⟩ := Option.map_eq_some_iff.mp read
      cases same
      exact .cons ⟨rfl, here⟩ (induction later)

theorem forall₂_right {First Second : Type} {related : First → Second → Prop}
    {left : List First} {right : List Second} (all : List.Forall₂ related left right)
    {second : Second} (inside : second ∈ right) : ∃ first ∈ left, related first second := by
  induction all with
  | nil => cases inside
  | cons here others induction =>
      rcases List.mem_cons.mp inside with same | later
      · exact ⟨_, List.mem_cons_self, same ▸ here⟩
      · obtain ⟨first, found, held⟩ := induction later
        exact ⟨first, List.mem_cons_of_mem _ found, held⟩

theorem decode_depth {tree : Json} {value : Value Number}
    (read : decodeValue parseFloat tree = some value) : depth value ≤ depth tree := by
  induction tree using value_induction generalizing value with
  | null | bool | str =>
      cases read
      exact Nat.le_refl _
  | num literal =>
      obtain ⟨number, -, rfl⟩ := Option.map_eq_some_iff.mp read
      exact Nat.le_refl _
  | arr items induction =>
      obtain ⟨decoded, listed, rfl⟩ := Option.map_eq_some_iff.mp read
      apply Nat.succ_le_succ
      rw [depth_items_le]
      intro item inside
      obtain ⟨source, found, here⟩ := forall₂_right (decode_items_some listed) inside
      exact Nat.le_trans (induction source found here)
        ((depth_items_le items _).mp (Nat.le_refl _) source found)
  | obj members induction =>
      obtain ⟨decoded, listed, rfl⟩ := Option.map_eq_some_iff.mp read
      apply Nat.succ_le_succ
      rw [depth_members_le]
      intro member inside
      obtain ⟨source, found, -, here⟩ :=
        forall₂_right (decode_members_some listed) (mem_of_members inside)
      exact Nat.le_trans (induction source found here)
        ((depth_members_le members _).mp (Nat.le_refl _) source found)

theorem decode_normal {tree : Json} {value : Value Number} (clean : Clean tree)
    (read : decodeValue parseFloat tree = some value) : Normal value := by
  induction tree using value_induction generalizing value with
  | null =>
      cases read
      exact .null
  | bool held =>
      cases read
      exact .bool held
  | str string =>
      cases read
      simp only [Clean, mapValue, Value.str.injEq] at clean
      exact .str ((coerce_eq_iff string).mp clean)
  | num literal =>
      obtain ⟨number, -, rfl⟩ := Option.map_eq_some_iff.mp read
      exact .num number
  | arr items induction =>
      obtain ⟨decoded, listed, rfl⟩ := Option.map_eq_some_iff.mp read
      simp only [Clean, mapValue, map_items_eq, Value.arr.injEq] at clean
      apply Normal.arr
      intro item inside
      obtain ⟨source, found, here⟩ := forall₂_right (decode_items_some listed) inside
      exact induction source found (map_eq_self_iff.mp clean source found) here
  | obj members induction =>
      obtain ⟨decoded, listed, rfl⟩ := Option.map_eq_some_iff.mp read
      simp only [Clean, mapValue, map_members_eq, Value.obj.injEq] at clean
      apply Normal.obj (ascending_of_members decoded)
      · intro entry inside
        obtain ⟨source, found, key, -⟩ :=
          forall₂_right (decode_members_some listed) (mem_of_members inside)
        have fixed := map_eq_self_iff.mp clean source found
        rw [key]
        exact (coerce_eq_iff _).mp (congrArg Prod.fst fixed)
      · intro entry inside
        obtain ⟨source, found, -, here⟩ :=
          forall₂_right (decode_members_some listed) (mem_of_members inside)
        have fixed := map_eq_self_iff.mp clean source found
        exact induction source found (congrArg Prod.snd fixed) here

variable {format : Number → List Byte}

theorem decode_items_written {items : List (Value Number)}
    (every : ∀ item ∈ items,
      decodeValue parseFloat (mapValue format coerce item) = some (normalize item)) :
    decodeItems parseFloat (mapItems format coerce items) = some (normalizeItems items) := by
  induction items with
  | nil => rfl
  | cons item rest induction =>
      obtain ⟨here, later⟩ := List.forall_mem_cons.mp every
      simp only [mapItems, decodeItems, here, induction later, Option.bind_some, Option.map_some,
        normalizeItems]

theorem decode_members_written {members : List (List Byte × Value Number)}
    (every : ∀ member ∈ members,
      decodeValue parseFloat (mapValue format coerce member.2) = some (normalize member.2)) :
    decodeMembers parseFloat (mapMembers format coerce members) =
      some (normalizeMembers members) := by
  induction members with
  | nil => rfl
  | cons member rest induction =>
      obtain ⟨here, later⟩ := List.forall_mem_cons.mp every
      simp only [mapMembers, decodeMembers, here, induction later, Option.bind_some,
        Option.map_some, normalizeMembers]

theorem decode_written (parseFormat : ∀ number, parseFloat (format number) = some number)
    (value : Value Number) :
    decodeValue parseFloat (mapValue format coerce value) = some (normalize value) := by
  induction value using value_induction with
  | null | bool | str => rfl
  | num value => simp [mapValue, decodeValue, parseFormat, normalize]
  | arr items induction => simp [mapValue, decodeValue, decode_items_written induction, normalize]
  | obj members induction =>
      simp [mapValue, decodeValue, decode_members_written induction, normalize]

end Decoding

section Marshalling

variable (floats : Floats)

/-- `json.Marshal` of a value without cycles. -/
def marshal (value : Any floats) : List Byte := print floats.formatFloat value

/-- `json.Unmarshal` into an `any`: the text must be JSON and its numbers must be in range. -/
def unmarshal (text : List Byte) : Option (Any floats) :=
  (parse text).bind (decodeValue floats.parseFloat)

theorem unmarshal_depth {text : List Byte} {value : Any floats}
    (read : unmarshal floats text = some value) : depth value ≤ maxNestingDepth := by
  obtain ⟨tree, parsed, decoded⟩ := Option.bind_eq_some_iff.mp read
  obtain ⟨_, denotes⟩ := parse_denotes parsed
  exact Nat.le_trans (decode_depth decoded) (value_text_depth denotes)

theorem unmarshal_normal {text : List Byte} {value : Any floats}
    (read : unmarshal floats text = some value) : Normal value := by
  obtain ⟨tree, parsed, decoded⟩ := Option.bind_eq_some_iff.mp read
  obtain ⟨_, denotes⟩ := parse_denotes parsed
  exact decode_normal (value_text_clean denotes) decoded

theorem unmarshal_marshal (value : Any floats) :
    unmarshal floats (marshal floats value) =
      if depth value ≤ maxNestingDepth then some (normalize value) else none := by
  rw [unmarshal, marshal, parse_printed floats.formatLiteral]
  split_ifs
  · exact decode_written floats.parseFormat value
  · rfl

inductive DecodeError where
  | malformed
  | mismatch
  deriving DecidableEq

/-- `json.Unmarshal` into a `map[string]any`; `null` leaves the map nil. -/
def unmarshalMap (text : List Byte) :
    Except DecodeError (Option (List (List Byte × Any floats))) :=
  match parse text with
  | none => .error .malformed
  | some .null => .ok none
  | some (.obj members) =>
      match decodeMembers floats.parseFloat members with
      | none => .error .mismatch
      | some decoded => .ok (some (ofMembers decoded))
  | some _ => .error .mismatch

theorem unmarshal_map_iff (text : List Byte) (object : List (List Byte × Any floats)) :
    unmarshalMap floats text = .ok (some object) ↔ unmarshal floats text = some (.obj object) := by
  simp only [unmarshalMap, unmarshal]
  rcases parse text with _ | tree
  · simp
  · cases tree with
    | null | bool | str => simp [decodeValue]
    | num literal =>
        simp only [Option.bind_some, decodeValue]
        cases floats.parseFloat literal <;> simp
    | arr items =>
        simp only [Option.bind_some, decodeValue]
        cases decodeItems floats.parseFloat items <;> simp
    | obj members =>
        simp only [Option.bind_some, decodeValue]
        cases decodeMembers floats.parseFloat members <;> simp

theorem unmarshal_map_nil_iff (text : List Byte) :
    unmarshalMap floats text = .ok none ↔ parse text = some .null := by
  simp only [unmarshalMap]
  rcases parse text with _ | tree
  · simp
  · cases tree with
    | null => simp
    | bool | num | str | arr => simp
    | obj members =>
        dsimp only
        cases decodeMembers floats.parseFloat members <;> simp

theorem unmarshal_map_marshal {object : List (List Byte × Any floats)}
    (ascending : Ascending object) (keys : ∀ member ∈ object, WellFormed member.1)
    (shallow : depthMembers object < maxNestingDepth) :
    unmarshalMap floats (marshal floats (.obj object)) =
      .ok (some (object.map fun member => (member.1, normalize member.2))) := by
  have fits : depth (.obj object : Any floats) ≤ maxNestingDepth := shallow
  rw [unmarshal_map_iff, unmarshal_marshal, if_pos fits, normalize, normalize_members_eq]
  have sameKeys : object.map (fun member => (coerce member.1, normalize member.2)) =
      object.map fun member => (member.1, normalize member.2) := by
    apply List.map_congr_left
    intro member inside
    rw [coerce_of_well_formed (keys member inside)]
  rw [sameKeys, of_members_ascending]
  exact List.pairwise_map.mpr ascending

end Marshalling

/-! ## Struct fields -/

/-- The members of the object that the text is, with the texts of their values. -/
def objectMembers (text : List Byte) : List Member :=
  match parseObject (parseValue (maxNestingDepth - 1)) (skipSpace text) with
  | some (members, _) => members
  | none => []

/-- The members that `json.Unmarshal` into a struct looks at; `null` has none. -/
def structMembers (text : List Byte) : Except DecodeError (List Member) :=
  match parse text with
  | none => .error .malformed
  | some .null => .ok []
  | some (.obj _) => .ok (objectMembers text)
  | some _ => .error .mismatch

/-- `foldName` of `encoding/json`. Names of fields are ASCII here, and U+017F and U+212A are
the only runes outside ASCII that fold into it, so all others are kept as they are. -/
def foldPiece : Piece → List Byte
  | .rune bytes =>
      if bytes = [0xC5, 0xBF] then [0x53]
      else if bytes = [0xE2, 0x84, 0xAA] then [0x4B]
      else bytes.map fun byte => if within 0x61 0x7A byte then byte - 0x20 else byte
  | .stray _ => replacement

def foldName (name : List Byte) : List Byte := (pieces name).flatMap foldPiece

/-- Stores one member into a field. A value that the field cannot take is recorded as an error
and leaves the field as it was. -/
def storeField {Held : Type} (name : List Byte) (store : Held → Member → Option Held)
    (state : Held × Bool) (member : Member) : Held × Bool :=
  if foldName member.key = foldName name then
    match store state.1 member with
    | some next => (next, state.2)
    | none => (state.1, true)
  else state

/-- A field of a struct after all members, and whether one of them had the wrong type. -/
def decodeField {Held : Type} (name : List Byte) (store : Held → Member → Option Held)
    (zero : Held) (members : List Member) : Held × Bool :=
  members.foldl (storeField name store) (zero, false)

def storeString (held : List Byte) (member : Member) : Option (List Byte) :=
  match member.value with
  | .str value => some value
  | .null => some held
  | _ => none

def sliceItems {Number : Type} : Value Number → Option (List (Value Number))
  | .arr items => some items
  | .null => some []
  | _ => none

/-- A field of type `[]json.RawMessage`, of which only the items are kept. -/
def storeSlice (_ : List Json) (member : Member) : Option (List Json) := sliceItems member.value

/-- A field of type `json.RawMessage` takes every value, `null` included. -/
def storeRaw (_ : List Byte) (member : Member) : Option (List Byte) := some member.raw

/-- The values that the field takes, under every spelling of its name. -/
def spelledValues {Number : Type} (name : List Byte) (entries : List (List Byte × Value Number)) :
    List (Value Number) :=
  (entries.filter fun entry => foldName entry.1 = foldName name).map Prod.snd

theorem spelled_values_taken {Number : Type} {name key : List Byte}
    (taken : foldName key = foldName name) (value : Value Number)
    (entries : List (List Byte × Value Number)) :
    spelledValues name ((key, value) :: entries) = value :: spelledValues name entries := by
  simp [spelledValues, taken]

theorem spelled_values_other {Number : Type} {name key : List Byte}
    (other : foldName key ≠ foldName name) (value : Value Number)
    (entries : List (List Byte × Value Number)) :
    spelledValues name ((key, value) :: entries) = spelledValues name entries := by
  simp [spelledValues, other]

def stringValue {Number : Type} : Value Number → Option (List Byte)
  | .str value => some value
  | _ => none

theorem string_field_last (name : List Byte) (members : List Member) (state : List Byte × Bool) :
    (members.foldl (storeField name storeString) state).1 =
      (((spelledValues name (members.map Member.pair)).filterMap stringValue).getLast?).getD
        state.1 := by
  induction members generalizing state with
  | nil => rfl
  | cons member members induction =>
      have pair : member.pair = (member.key, member.value) := rfl
      rw [List.foldl_cons, induction, List.map_cons, pair, storeField]
      by_cases taken : foldName member.key = foldName name
      · rw [if_pos taken, spelled_values_taken taken]
        rcases shape : member.value with _ | _ | _ | value | _ | _
        all_goals simp [storeString, stringValue, shape, List.getLast?_cons]
      · rw [if_neg taken, spelled_values_other taken]

/-- Whether a slice field that held `held` decodes without an error and ends up with items:
the last of its values counts. -/
def fillsSlice {Number : Type} (held : List (Value Number)) (values : List (Value Number)) :
    Bool :=
  values.all (fun value => (sliceItems value).isSome) &&
    decide (0 < ((values.getLast?.map fun value => (sliceItems value).getD []).getD held).length)

theorem slice_field_last (name : List Byte) (members : List Member) (held : List Json)
    (failed : Bool) :
    (!(members.foldl (storeField name storeSlice) (held, failed)).2 &&
      decide (0 < (members.foldl (storeField name storeSlice) (held, failed)).1.length)) =
      (!failed && fillsSlice held (spelledValues name (members.map Member.pair))) := by
  induction members generalizing held failed with
  | nil => rfl
  | cons member members induction =>
      have pair : member.pair = (member.key, member.value) := rfl
      rw [List.foldl_cons, List.map_cons, pair, storeField]
      by_cases taken : foldName member.key = foldName name
      · rw [if_pos taken, spelled_values_taken taken]
        rcases stored : sliceItems member.value with _ | items
        · simp only [storeSlice, stored]
          rw [induction]
          simp [fillsSlice, stored]
        · simp only [storeSlice, stored]
          rw [induction]
          simp only [fillsSlice, List.all_cons, stored, Option.isSome_some, Bool.true_and,
            List.getLast?_cons]
          cases (spelledValues name (members.map Member.pair)).getLast? <;> simp [stored]
      · rw [if_neg taken, spelled_values_other taken, induction]

theorem spelled_values_map {Number Other : Type} (name : List Byte)
    (change : Value Number → Value Other) (entries : List (List Byte × Value Number)) :
    spelledValues name (entries.map fun entry => (entry.1, change entry.2)) =
      (spelledValues name entries).map change := by
  simp [spelledValues, List.filter_map, Function.comp_def]

theorem spelled_values_insert {Number : Type} {name key : List Byte}
    (other : foldName key ≠ foldName name) (value : Value Number)
    (object : List (List Byte × Value Number)) :
    spelledValues name (insertKey key value object) = spelledValues name object := by
  induction object with
  | nil => exact spelled_values_other other value []
  | cons member rest induction =>
      unfold insertKey
      split_ifs with same before
      · obtain ⟨held, old⟩ := member
        cases same
        rw [spelled_values_other other, spelled_values_other other]
      · exact spelled_values_other other value _
      · simp only [spelledValues, List.filter_cons] at induction ⊢
        split_ifs
        · rw [List.map_cons, List.map_cons, induction]
        · exact induction

theorem slice_items_map {Number Other : Type} (number : Number → Other)
    (string : List Byte → List Byte) (value : Value Number) :
    sliceItems (mapValue number string value) =
      (sliceItems value).map (mapItems number string) := by
  cases value <;> rfl

theorem fills_slice_map {Number Other : Type} (number : Number → Other)
    (string : List Byte → List Byte) (values : List (Value Number)) :
    fillsSlice [] (values.map (mapValue number string)) = fillsSlice [] values := by
  have length : ∀ value : Value Number,
      ((sliceItems (mapValue number string value)).getD []).length =
        ((sliceItems value).getD []).length := by
    intro value
    rw [slice_items_map]
    cases sliceItems value <;> simp [map_items_eq]
  simp only [fillsSlice, List.all_map, Function.comp_def, slice_items_map, Option.isSome_map,
    List.getLast?_map, Option.map_map]
  cases values.getLast? with
  | none => rfl
  | some value =>
      have same := length value
      rw [slice_items_map] at same
      simp [same]

theorem struct_members_marshal (floats : Floats) {object : List (List Byte × Any floats)}
    (shallow : depthMembers object < maxNestingDepth) :
    structMembers (marshal floats (.obj object)) =
      .ok (object.map (readMember floats.formatFloat)) := by
  have fits : depth (.obj object : Any floats) ≤ maxNestingDepth := shallow
  have parsed : parse (marshal floats (.obj object)) =
      some (mapValue floats.formatFloat coerce (.obj object)) := by
    rw [marshal, parse_printed floats.formatLiteral, if_pos fits]
  have every : ∀ member ∈ object,
      ParsesWithin floats.formatFloat (maxNestingDepth - 1) member.2 :=
    fun member _ => parse_value_printed floats.formatLiteral member.2 _
  have read := parse_object_printed floats.formatLiteral every []
  rw [List.append_nil, if_pos (Nat.le_sub_one_of_lt shallow)] at read
  simp only [structMembers, parsed, mapValue, objectMembers]
  have skipped : skipSpace (marshal floats (.obj object)) = marshal floats (.obj object) :=
    skip_space_cons (by decide) _
  rw [skipped, marshal, read]

end Gocoon.JsonValues
