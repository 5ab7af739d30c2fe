import Gocoon.LittleEndianBytes

/-!
# The TL binary format

A wire type is a serialiser and a parser that reads one value from the front of a byte
string. `Fits` is the set of values the format can carry: a byte string has a length of at
most three bytes and a vector a count of four. On these the parser returns the value and
exactly the bytes behind it. Constructors of a schema are put together from the primitive
types, so that a declaration is written down field by field and its round trip is never
proved again.
-/

namespace Gocoon.TypeLanguage

open Gocoon.LittleEndianBytes

set_option autoImplicit false

structure WireType (Value : Type) where
  serialize : Value → List Byte
  parse : List Byte → Option (Value × List Byte)
  Fits : Value → Prop
  parse_serialize : ∀ value rest, Fits value → parse (serialize value ++ rest) = some (value, rest)

namespace WireType

variable {First Second Value Other : Type}

/-- Exactly `count` bytes. -/
def fixed (count : Nat) : WireType { bytes : List Byte // bytes.length = count } where
  serialize := Subtype.val
  parse := fun input =>
    if enough : count ≤ input.length then
      some (⟨input.take count, List.length_take_of_le enough⟩, input.drop count)
    else none
  Fits := fun _ => True
  parse_serialize := by
    rintro ⟨bytes, rfl⟩ rest -
    simp

/-- The type of the same bytes under another reading. -/
def view (wire : WireType First) (build : First → Value) (fields : Value → First)
    (inverse : ∀ value, build (fields value) = value) : WireType Value where
  serialize := fun value => wire.serialize (fields value)
  parse := fun input => (wire.parse input).map fun found => (build found.1, found.2)
  Fits := fun value => wire.Fits (fields value)
  parse_serialize := by
    intro value rest fits
    rw [wire.parse_serialize (fields value) rest fits, Option.map_some, inverse]

/-- A field followed by others, whose layout may depend on it. -/
def next (first : WireType First) (second : First → WireType Second) :
    WireType (First × Second) where
  serialize := fun value => first.serialize value.1 ++ (second value.1).serialize value.2
  parse := fun input =>
    (first.parse input).bind fun (head, behind) =>
      ((second head).parse behind).map fun (tail, rest) => ((head, tail), rest)
  Fits := fun value => first.Fits value.1 ∧ (second value.1).Fits value.2
  parse_serialize := by
    rintro ⟨head, tail⟩ rest ⟨headFits, tailFits⟩
    rw [List.append_assoc, first.parse_serialize head _ headFits, Option.bind_some]
    dsimp only
    rw [(second head).parse_serialize tail rest tailFits]
    rfl

def pair (first : WireType First) (second : WireType Second) : WireType (First × Second) :=
  first.next fun _ => second

def nothing : WireType Unit where
  serialize := fun _ => []
  parse := fun input => some ((), input)
  Fits := fun _ => True
  parse_serialize := by
    intro value rest _
    rfl

/-- The type `#`, an unsigned word. -/
def nat : WireType UInt32 :=
  (fixed 4).view (fun bytes => uint32 bytes.val)
    (fun word => ⟨putUint32 word, put_uint32_length word⟩) fun word => by
      simpa using uint32_put_append word []

def int : WireType Int32 := nat.view UInt32.toInt32 Int32.toUInt32 Int32.toInt32_toUInt32

def word64 : WireType UInt64 :=
  (fixed 8).view (fun bytes => uint64 bytes.val)
    (fun word => ⟨putUint64 word, put_uint64_length word⟩) fun word => by
      simpa using uint64_put_append word []

def long : WireType Int64 := word64.view UInt64.toInt64 Int64.toUInt64 Int64.toInt64_toUInt64

/-- A double is kept as its bit pattern. -/
def double : WireType UInt64 := word64

def int256 : WireType { bytes : List Byte // bytes.length = 32 } := fixed 32

/-- The zero bytes that fill a string up to a multiple of four. -/
def fill (written : Nat) : List Byte := List.replicate ((4 - written % 4) % 4) 0

def parseData (header length : Nat) (input : List Byte) : Option (List Byte × List Byte) :=
  (splitExactly length input).bind fun (data, behind) =>
    (splitExactly (fill (header + length)).length behind).map fun (_, rest) => (data, rest)

def parseString : List Byte → Option (List Byte × List Byte)
  | [] => none
  | lead :: input =>
      if lead.toNat < 254 then parseData 1 lead.toNat input
      else if lead = 254 then
        (splitExactly 3 input).bind fun (length, behind) => parseData 4 (decodeLE length) behind
      else none

theorem parse_data_append (header : Nat) (data rest : List Byte) :
    parseData header data.length (data ++ fill (header + data.length) ++ rest) =
      some (data, rest) := by
  unfold parseData
  rw [List.append_assoc, split_exactly_append, Option.bind_some]
  dsimp only
  rw [split_exactly_append]
  rfl

/-- Up to 253 bytes have a length of one byte; a lead byte of 254 announces three. -/
def string : WireType (List Byte) where
  serialize := fun data =>
    if data.length < 254 then
      UInt8.ofNat data.length :: (data ++ fill (1 + data.length))
    else 254 :: (encodeLE 3 data.length ++ (data ++ fill (4 + data.length)))
  parse := parseString
  Fits := fun data => data.length < 2 ^ 24
  parse_serialize := by
    intro data rest fits
    by_cases short : data.length < 254
    · have size : (UInt8.ofNat data.length).toNat = data.length := by
        rw [UInt8.toNat_ofNat']
        omega
      rw [if_pos short, List.cons_append, parseString, if_pos (by omega), size]
      exact parse_data_append 1 data rest
    · have value : decodeLE (encodeLE 3 data.length) = data.length := by
        rw [decode_encode_le]
        exact Nat.mod_eq_of_lt fits
      have split := split_exactly_append (encodeLE 3 data.length)
        (data ++ fill (4 + data.length) ++ rest)
      rw [encode_le_length] at split
      rw [if_neg short, List.cons_append, parseString, if_neg (by decide), if_pos rfl,
        List.append_assoc, split, Option.bind_some]
      dsimp only
      rw [value]
      exact parse_data_append 4 data rest

/-- A constructor number in front of the fields. -/
def boxed (number : UInt32) (fields : WireType Value) : WireType Value where
  serialize := fun value => nat.serialize number ++ fields.serialize value
  parse := fun input =>
    (nat.parse input).bind fun (found, behind) =>
      if found = number then fields.parse behind else none
  Fits := fields.Fits
  parse_serialize := by
    intro value rest fits
    rw [List.append_assoc, nat.parse_serialize number _ trivial, Option.bind_some]
    dsimp only
    rw [if_pos rfl, fields.parse_serialize value rest fits]

/-- A boxed type with two constructors. -/
def either (leftNumber rightNumber : UInt32) (distinct : leftNumber ≠ rightNumber)
    (left : WireType First) (right : WireType Second) : WireType (First ⊕ Second) where
  serialize
    | .inl value => nat.serialize leftNumber ++ left.serialize value
    | .inr value => nat.serialize rightNumber ++ right.serialize value
  parse := fun input =>
    (nat.parse input).bind fun (found, behind) =>
      if found = leftNumber then (left.parse behind).map fun (value, rest) => (.inl value, rest)
      else if found = rightNumber then
        (right.parse behind).map fun (value, rest) => (.inr value, rest)
      else none
  Fits
    | .inl value => left.Fits value
    | .inr value => right.Fits value
  parse_serialize := by
    intro value rest fits
    cases value with
    | inl value =>
        rw [List.append_assoc, nat.parse_serialize leftNumber _ trivial, Option.bind_some]
        dsimp only
        rw [if_pos rfl, left.parse_serialize value rest fits]
        rfl
    | inr value =>
        rw [List.append_assoc, nat.parse_serialize rightNumber _ trivial, Option.bind_some]
        dsimp only
        rw [if_neg distinct.symm, if_pos rfl, right.parse_serialize value rest fits]
        rfl

/-- A field that is present exactly when a flag is set. -/
def gated (present : Bool) (field : WireType Value) : WireType (Option Value) where
  serialize
    | none => []
    | some value => field.serialize value
  parse := fun input =>
    if present then (field.parse input).map fun (value, rest) => (some value, rest)
    else some (none, input)
  Fits
    | none => present = false
    | some value => present = true ∧ field.Fits value
  parse_serialize := by
    intro value rest fits
    cases value with
    | none =>
        rw [if_neg (by simp [show present = false from fits])]
        rfl
    | some value =>
        rw [if_pos fits.1, field.parse_serialize value rest fits.2]
        rfl

theorem gated_present {present : Bool} {field : WireType Value}
    {value : Option Value} (fits : (gated present field).Fits value) (set : present = true) :
    ∃ found, value = some found ∧ field.Fits found := by
  cases value with
  | none =>
      have absent : present = false := fits
      rw [set] at absent
      cases absent
  | some found => exact ⟨found, rfl, fits.2⟩

theorem gated_absent {present : Bool} {field : WireType Value}
    {value : Option Value} (fits : (gated present field).Fits value) (clear : present = false) :
    value = none := by
  cases value with
  | none => rfl
  | some found =>
      have set : present = true := fits.1
      rw [clear] at set
      cases set

def parseItems (item : WireType Value) : Nat → List Byte → Option (List Value × List Byte)
  | 0, input => some ([], input)
  | count + 1, input =>
      (item.parse input).bind fun (value, behind) =>
        (parseItems item count behind).map fun (values, rest) => (value :: values, rest)

theorem parse_items_append (item : WireType Value) (values : List Value) (rest : List Byte)
    (fits : ∀ value ∈ values, item.Fits value) :
    parseItems item values.length (values.flatMap item.serialize ++ rest) =
      some (values, rest) := by
  induction values with
  | nil => rfl
  | cons value values ih =>
      have others := ih fun other member => fits other (List.mem_cons_of_mem _ member)
      rw [List.length_cons, parseItems, List.flatMap_cons, List.append_assoc,
        item.parse_serialize value _ (fits value List.mem_cons_self), Option.bind_some]
      dsimp only
      rw [others]
      rfl

/-- A count and that many bare items. -/
def vector (item : WireType Value) : WireType (List Value) where
  serialize := fun values =>
    nat.serialize (UInt32.ofNat values.length) ++ values.flatMap item.serialize
  parse := fun input =>
    (nat.parse input).bind fun (count, behind) => parseItems item count.toNat behind
  Fits := fun values => values.length < 2 ^ 32 ∧ ∀ value ∈ values, item.Fits value
  parse_serialize := by
    rintro values rest ⟨counted, fits⟩
    have size : (UInt32.ofNat values.length).toNat = values.length := by
      rw [UInt32.toNat_ofNat']
      exact Nat.mod_eq_of_lt counted
    rw [List.append_assoc, nat.parse_serialize _ _ trivial, Option.bind_some]
    dsimp only
    rw [size]
    exact parse_items_append item values rest fits

theorem parse_whole (wire : WireType Value) (value : Value) (fits : wire.Fits value) :
    wire.parse (wire.serialize value) = some (value, []) := by
  have whole := wire.parse_serialize value [] fits
  rwa [List.append_nil] at whole

section Short

/-- Whoever fits its bytes into less than `2 ^ 24` has made every length inside fit. -/
def ShortFits (wire : WireType Value) (value : Value) : Prop :=
  (wire.serialize value).length < 2 ^ 24 → wire.Fits value

theorem short_string (data : List Byte) : string.ShortFits data := by
  intro short
  change data.length < 2 ^ 24
  have inside : data.length ≤ (string.serialize data).length := by
    unfold string
    dsimp only
    split
    · simp only [List.length_cons, List.length_append]
      omega
    · simp only [List.length_cons, List.length_append]
      omega
  omega

theorem short_view {wire : WireType First} {build : First → Value} {fields : Value → First}
    {inverse : ∀ value, build (fields value) = value} {value : Value}
    (short : wire.ShortFits (fields value)) : (wire.view build fields inverse).ShortFits value :=
  short

theorem short_next {first : WireType First} {second : First → WireType Second} {head : First}
    {tail : Second} (headShort : first.ShortFits head) (tailShort : (second head).ShortFits tail) :
    (first.next second).ShortFits (head, tail) := by
  intro short
  have total : (first.serialize head).length + ((second head).serialize tail).length < 2 ^ 24 := by
    rw [← List.length_append]
    exact short
  exact ⟨headShort (by omega), tailShort (by omega)⟩

theorem short_pair {first : WireType First} {second : WireType Second} {head : First}
    {tail : Second} (headShort : first.ShortFits head) (tailShort : second.ShortFits tail) :
    (first.pair second).ShortFits (head, tail) :=
  short_next headShort tailShort

theorem short_boxed {number : UInt32} {fields : WireType Value} {value : Value}
    (short : fields.ShortFits value) : (boxed number fields).ShortFits value := by
  intro bound
  apply short
  have total : (nat.serialize number).length + (fields.serialize value).length < 2 ^ 24 := by
    rw [← List.length_append]
    exact bound
  omega

theorem items_length (item : WireType Value) (values : List Value)
    (nonempty : ∀ value ∈ values, 0 < (item.serialize value).length) :
    values.length ≤ (values.flatMap item.serialize).length := by
  induction values with
  | nil => exact Nat.le_refl 0
  | cons value values ih =>
      have first := nonempty value List.mem_cons_self
      have rest := ih fun other member => nonempty other (List.mem_cons_of_mem _ member)
      rw [List.flatMap_cons, List.length_append, List.length_cons]
      omega

theorem item_length (item : WireType Value) (values : List Value) {value : Value}
    (member : value ∈ values) :
    (item.serialize value).length ≤ (values.flatMap item.serialize).length := by
  obtain ⟨front, back, rfl⟩ := List.append_of_mem member
  rw [List.flatMap_append, List.flatMap_cons, List.length_append, List.length_append]
  omega

theorem short_vector {item : WireType Value} {values : List Value}
    (nonempty : ∀ value ∈ values, 0 < (item.serialize value).length)
    (short : ∀ value ∈ values, item.ShortFits value) : (vector item).ShortFits values := by
  intro bound
  have total : (nat.serialize (UInt32.ofNat values.length)).length +
      (values.flatMap item.serialize).length < 2 ^ 24 := by
    rw [← List.length_append]
    exact bound
  have counted := items_length item values nonempty
  constructor
  · omega
  · intro value member
    have inside := item_length item values member
    exact short value member (by omega)

end Short

end WireType

end Gocoon.TypeLanguage
