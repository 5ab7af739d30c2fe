import Gocoon.Utf8Text
import Mathlib.Data.List.TakeWhile

/-!
# JSON texts and the trees they denote

A parser of JSON over bytes, with the limits of Go's scanner: arrays and objects nest at
most `depth` deep, strings may hold any bytes and are coerced to UTF-8 while they are
unquoted, and members keep their order, their duplicates and the text of their values.
`ValueText depth` is the grammar, by the same recursion on the depth as the parser. Whatever
is claimed of an accepted text is proved by induction on the grammar, and `parse_value_sound`
carries it to the parser.
-/

namespace Gocoon.JsonText

open Gocoon.LittleEndianBytes
open Gocoon.Utf8Text

set_option autoImplicit false

inductive Value (Number : Type) where
  | null
  | bool (value : Bool)
  | num (value : Number)
  | str (value : List Byte)
  | arr (items : List (Value Number))
  | obj (members : List (List Byte × Value Number))

abbrev Json := Value (List Byte)

abbrev Parser (Result : Type) := List Byte → Option (Result × List Byte)

def comma : Byte := 0x2C
def colon : Byte := 0x3A
def quoteMark : Byte := 0x22
def backslash : Byte := 0x5C
def openBracket : Byte := 0x5B
def closeBracket : Byte := 0x5D
def openBrace : Byte := 0x7B
def closeBrace : Byte := 0x7D

/-! ## Lexical parts -/

def isSpace (byte : Byte) : Bool := [0x20, 0x09, 0x0A, 0x0D].contains byte

def skipSpace (text : List Byte) : List Byte := text.dropWhile isSpace

def expect (wanted : Byte) : List Byte → Option (List Byte)
  | [] => none
  | byte :: rest => if byte = wanted then some rest else none

def keyword (word text : List Byte) : Option (List Byte) :=
  if word.isPrefixOf text then some (text.drop word.length) else none

def digit (byte : Byte) : Bool := within 0x30 0x39 byte

def scanDigits : Parser (List Byte) := fun text =>
  if text.takeWhile digit = [] then none
  else some (text.takeWhile digit, text.dropWhile digit)

def optionalByte (accepted : List Byte) : Parser (List Byte)
  | [] => some ([], [])
  | byte :: rest =>
      if accepted.contains byte then some ([byte], rest) else some ([], byte :: rest)

def scanInteger : Parser (List Byte) := fun text =>
  match expect 0x30 text with
  | some rest => some ([0x30], rest)
  | none => scanDigits text

/-- A part that is absent unless the text starts with one of `marks`. -/
def optionalPart (marks : List Byte) (part : Parser (List Byte)) : Parser (List Byte)
  | [] => some ([], [])
  | byte :: rest =>
      if marks.contains byte then
        (part rest).map fun (scanned, after) => (byte :: scanned, after)
      else some ([], byte :: rest)

def andThen (first second : Parser (List Byte)) : Parser (List Byte) := fun text =>
  (first text).bind fun (front, rest) =>
    (second rest).map fun (back, after) => (front ++ back, after)

/-- The longest number literal at the head of the text. -/
def scanNumber : Parser (List Byte) :=
  andThen (optionalByte [0x2D])
    (andThen scanInteger
      (andThen (optionalPart [0x2E] scanDigits)
        (optionalPart [0x65, 0x45] (andThen (optionalByte [0x2B, 0x2D]) scanDigits))))

/-! ## Strings -/

def hexValue (byte : Byte) : Option Nat :=
  if within 0x30 0x39 byte then some (byte.toNat - 0x30)
  else if within 0x61 0x66 byte then some (byte.toNat - 0x61 + 10)
  else if within 0x41 0x46 byte then some (byte.toNat - 0x41 + 10)
  else none

def hexDigits : Nat → Nat → Parser Nat
  | 0, value, text => some (value, text)
  | _ + 1, _, [] => none
  | count + 1, value, byte :: rest =>
      (hexValue byte).bind fun next => hexDigits count (16 * value + next) rest

def fourHex : Parser Nat := hexDigits 4 0

/-- The second half of a surrogate pair, if one follows. -/
def lowSurrogate (text : List Byte) : Option (Nat × List Byte) :=
  (expect backslash text).bind fun rest =>
    (expect 0x75 rest).bind fun rest =>
      (fourHex rest).bind fun (low, after) =>
        if 0xDC00 ≤ low ∧ low < 0xE000 then some (low, after) else none

def unicodeEscape : Parser (List Byte) := fun text =>
  (fourHex text).map fun (point, rest) =>
    if isSurrogate point then
      match lowSurrogate rest with
      | some (low, after) =>
          if point < 0xDC00 then
            (encodeRune (0x10000 + (point - 0xD800) * 0x400 + (low - 0xDC00)), after)
          else (replacement, rest)
      | none => (replacement, rest)
    else (encodeRune point, rest)

def simpleEscapes : List (Byte × Byte) :=
  [(0x22, 0x22), (0x5C, 0x5C), (0x2F, 0x2F), (0x62, 0x08), (0x66, 0x0C), (0x6E, 0x0A),
    (0x72, 0x0D), (0x74, 0x09)]

def escape : Parser (List Byte)
  | [] => none
  | byte :: rest =>
      if byte = 0x75 then unicodeEscape rest
      else (simpleEscapes.lookup byte).map fun value => ([value], rest)

def character (first : Byte) : Parser (List Byte) := fun rest =>
  if first = backslash then escape rest
  else if first < 0x20 then none
  else some ((nextPiece first rest).1.coerced, (nextPiece first rest).2)

def characters : Nat → Parser (List Byte)
  | 0, _ => none
  | _ + 1, [] => none
  | fuel + 1, first :: rest =>
      if first = quoteMark then some ([], rest)
      else (character first rest).bind fun (chunk, after) =>
        (characters fuel after).map fun (others, final) => (chunk ++ others, final)

def parseString : Parser (List Byte) := fun text =>
  (expect quoteMark text).bind fun rest => characters rest.length rest

/-! ## Values -/

def parseScalar : Parser Json := fun text =>
  match parseString text with
  | some (value, rest) => some (.str value, rest)
  | none =>
    match keyword [0x6E, 0x75, 0x6C, 0x6C] text with
    | some rest => some (.null, rest)
    | none =>
      match keyword [0x74, 0x72, 0x75, 0x65] text with
      | some rest => some (.bool true, rest)
      | none =>
        match keyword [0x66, 0x61, 0x6C, 0x73, 0x65] text with
        | some rest => some (.bool false, rest)
        | none => (scanNumber text).map fun (literal, rest) => (.num literal, rest)

def entries {Entry : Type} (entry : Parser Entry) (close : Byte) : Nat → Parser (List Entry)
  | 0, _ => none
  | fuel + 1, text =>
      (entry text).bind fun (first, rest) =>
        match expect comma (skipSpace rest) with
        | some more => (entries entry close fuel more).map fun (others, after) =>
            (first :: others, after)
        | none => (expect close (skipSpace rest)).map fun after => ([first], after)

/-- A list of entries, possibly empty, up to its closing byte. -/
def parseList {Entry : Type} (entry : Parser Entry) (close : Byte) : Parser (List Entry) :=
  fun text =>
    match expect close (skipSpace text) with
    | some rest => some ([], rest)
    | none => entries entry close text.length text

structure Member where
  key : List Byte
  raw : List Byte
  value : Json

def Member.pair (member : Member) : List Byte × Json := (member.key, member.value)

def parseItem (value : Parser Json) : Parser Json := fun text => value (skipSpace text)

def parseMember (value : Parser Json) : Parser Member := fun text =>
  (parseString (skipSpace text)).bind fun (key, rest) =>
    (expect colon (skipSpace rest)).bind fun rest =>
      (value (skipSpace rest)).map fun (found, after) =>
        (⟨key, (skipSpace rest).take ((skipSpace rest).length - after.length), found⟩, after)

def parseArray (value : Parser Json) : Parser (List Json) := fun text =>
  (expect openBracket text).bind (parseList (parseItem value) closeBracket)

def parseObject (value : Parser Json) : Parser (List Member) := fun text =>
  (expect openBrace text).bind (parseList (parseMember value) closeBrace)

def parseValue : Nat → Parser Json
  | 0 => parseScalar
  | depth + 1 => fun text =>
      if (expect openBracket text).isSome then
        (parseArray (parseValue depth) text).map fun (items, rest) => (.arr items, rest)
      else if (expect openBrace text).isSome then
        (parseObject (parseValue depth) text).map fun (members, rest) =>
          (.obj (members.map Member.pair), rest)
      else parseScalar text

/-- `maxNestingDepth` of `encoding/json`. -/
def maxNestingDepth : Nat := 10000

/-- A whole text: one value with white space around it. -/
def parse (text : List Byte) : Option Json :=
  (parseValue maxNestingDepth (skipSpace text)).bind fun (value, rest) =>
    if skipSpace rest = [] then some value else none

/-! ## What a parser reads -/

/-- Every text the parser accepts starts with a part that `holds` describes, and the parser
returns what is behind that part. -/
def Sound {Result : Type} (parser : Parser Result) (holds : List Byte → Result → Prop) : Prop :=
  ∀ text result rest, parser text = some (result, rest) →
    ∃ front, text = front ++ rest ∧ holds front result

theorem skip_space_split (text : List Byte) :
    ∃ space, text = space ++ skipSpace text ∧ ∀ byte ∈ space, isSpace byte = true := by
  refine ⟨text.takeWhile isSpace, List.takeWhile_append_dropWhile.symm, ?_⟩
  intro byte member
  exact List.mem_takeWhile_imp member

theorem expect_eq_some {wanted : Byte} {text rest : List Byte} :
    expect wanted text = some rest ↔ text = wanted :: rest := by
  cases text with
  | nil => simp [expect]
  | cons byte after =>
      simp only [expect, List.cons.injEq]
      split_ifs with same
      · simp [same]
      · simp [same]

@[simp] theorem expect_cons (byte : Byte) (rest : List Byte) :
    expect byte (byte :: rest) = some rest :=
  expect_eq_some.mpr rfl

theorem keyword_eq_some {word text rest : List Byte} (found : keyword word text = some rest) :
    text = word ++ rest := by
  simp only [keyword, List.isPrefixOf_iff_prefix] at found
  split_ifs at found with starts
  · obtain ⟨after, rfl⟩ := starts
    simp only [List.drop_left, Option.some.injEq] at found
    rw [found]

/-! ### Numbers -/

def numberByte (byte : Byte) : Bool := digit byte || [0x2B, 0x2D, 0x2E, 0x45, 0x65].contains byte

def NumberBytes (text literal : List Byte) : Prop :=
  text = literal ∧ ∀ byte ∈ literal, numberByte byte = true

theorem NumberBytes.append {front back : List Byte} (left : NumberBytes front front)
    (right : NumberBytes back back) : NumberBytes (front ++ back) (front ++ back) := by
  apply And.intro rfl
  intro byte member
  rcases List.mem_append.mp member with early | late
  · exact left.2 byte early
  · exact right.2 byte late

theorem scan_digits_sound : Sound scanDigits NumberBytes := by
  intro text literal rest found
  simp only [scanDigits] at found
  split_ifs at found with empty
  cases found
  refine ⟨_, List.takeWhile_append_dropWhile.symm, rfl, ?_⟩
  intro byte member
  have isDigit := List.mem_takeWhile_imp member
  simp [numberByte, isDigit]

theorem optional_byte_sound {accepted : List Byte}
    (numeric : accepted.all numberByte = true) : Sound (optionalByte accepted) NumberBytes := by
  intro text literal rest found
  cases text with
  | nil =>
      cases found
      exact ⟨[], rfl, rfl, by simp⟩
  | cons byte after =>
      simp only [optionalByte, List.contains_iff_mem] at found
      split_ifs at found with member
      · cases found
        exact ⟨[byte], rfl, rfl, by simpa using List.all_eq_true.mp numeric byte member⟩
      · cases found
        exact ⟨[], rfl, rfl, by simp⟩

theorem scan_integer_sound : Sound scanInteger NumberBytes := by
  intro text literal rest found
  unfold scanInteger at found
  split at found
  · rename_i after zero
    cases found
    exact ⟨[0x30], expect_eq_some.mp zero, rfl, List.forall_iff_forall_mem.mp (by decide)⟩
  · exact scan_digits_sound text literal rest found

theorem optional_part_sound {marks : List Byte} {part : Parser (List Byte)}
    (numeric : marks.all numberByte = true) (sound : Sound part NumberBytes) :
    Sound (optionalPart marks part) NumberBytes := by
  intro text literal rest found
  cases text with
  | nil =>
      cases found
      exact ⟨[], rfl, rfl, by simp⟩
  | cons byte after =>
      simp only [optionalPart, List.contains_iff_mem] at found
      split_ifs at found with member
      · obtain ⟨⟨scanned, final⟩, read, same⟩ := Option.map_eq_some_iff.mp found
        cases same
        obtain ⟨front, rfl, rfl, bytes⟩ := sound after scanned _ read
        refine ⟨byte :: front, rfl, rfl, ?_⟩
        intro other inside
        rcases List.mem_cons.mp inside with here | later
        · exact here ▸ List.all_eq_true.mp numeric byte member
        · exact bytes other later
      · cases found
        exact ⟨[], rfl, rfl, by simp⟩

theorem and_then_sound {first second : Parser (List Byte)} (left : Sound first NumberBytes)
    (right : Sound second NumberBytes) : Sound (andThen first second) NumberBytes := by
  intro text literal rest found
  obtain ⟨⟨front, middle⟩, one, found⟩ := Option.bind_eq_some_iff.mp found
  obtain ⟨⟨back, after⟩, two, same⟩ := Option.map_eq_some_iff.mp found
  cases same
  obtain ⟨_, rfl, rfl, leftBytes⟩ := left text front middle one
  obtain ⟨_, rfl, rfl, rightBytes⟩ := right middle back _ two
  exact ⟨_, (List.append_assoc _ _ _).symm, NumberBytes.append ⟨rfl, leftBytes⟩ ⟨rfl, rightBytes⟩⟩

theorem scan_number_sound : Sound scanNumber NumberBytes := by
  apply and_then_sound (optional_byte_sound (by decide))
  apply and_then_sound scan_integer_sound
  apply and_then_sound (optional_part_sound (by decide) scan_digits_sound)
  apply optional_part_sound (by decide)
  exact and_then_sound (optional_byte_sound (by decide)) scan_digits_sound

/-! ### Strings -/

/-- What stands between the quotes of a string literal: a backslash takes the byte behind it
along, and no other byte is a quote. -/
inductive StringBody : List Byte → Prop where
  | nil : StringBody []
  | plain {byte : Byte} {rest : List Byte} (notQuote : byte ≠ quoteMark)
      (notEscape : byte ≠ backslash) (others : StringBody rest) : StringBody (byte :: rest)
  | escaped (byte : Byte) {rest : List Byte} (others : StringBody rest) :
      StringBody (backslash :: byte :: rest)

theorem StringBody.append {front back : List Byte} (left : StringBody front)
    (right : StringBody back) : StringBody (front ++ back) := by
  induction left with
  | nil => exact right
  | plain notQuote notEscape others induction => exact .plain notQuote notEscape induction
  | escaped byte others induction => exact .escaped byte induction

theorem StringBody.of_plain {bytes : List Byte}
    (plain : ∀ byte ∈ bytes, byte ≠ quoteMark ∧ byte ≠ backslash) : StringBody bytes := by
  induction bytes with
  | nil => exact .nil
  | cons byte rest induction =>
      have here := plain byte (by simp)
      exact .plain here.1 here.2 (induction fun other member => plain other (by simp [member]))

theorem hex_value_plain {byte : Byte} {value : Nat} (found : hexValue byte = some value) :
    byte ≠ quoteMark ∧ byte ≠ backslash := by
  constructor
  · rintro rfl
    cases found
  · rintro rfl
    cases found

theorem hex_value_lt {byte : Byte} {value : Nat} (found : hexValue byte = some value) :
    value < 16 := by
  simp only [hexValue, within, decide_eq_true_eq, UInt8.le_iff_toNat_le] at found
  split_ifs at found with decimal lower upper
  · cases found
    have most : byte.toNat ≤ 57 := decimal.2
    omega
  · cases found
    have most : byte.toNat ≤ 102 := lower.2
    omega
  · cases found
    have most : byte.toNat ≤ 70 := upper.2
    omega

theorem hex_digits_sound (count start : Nat) :
    Sound (hexDigits count start) fun front value =>
      StringBody front ∧ value < 16 ^ count * (start + 1) := by
  induction count generalizing start with
  | zero =>
      intro text value rest found
      cases found
      exact ⟨[], rfl, .nil, by simp⟩
  | succ count induction =>
      intro text value rest found
      cases text with
      | nil => cases found
      | cons byte after =>
          obtain ⟨next, hex, found⟩ := Option.bind_eq_some_iff.mp found
          obtain ⟨front, rfl, body, bounded⟩ := induction _ after value rest found
          have plain := hex_value_plain hex
          have small := hex_value_lt hex
          refine ⟨byte :: front, rfl, .plain plain.1 plain.2 body, ?_⟩
          calc value < 16 ^ count * (16 * start + next + 1) := bounded
            _ ≤ 16 ^ count * (16 * (start + 1)) := Nat.mul_le_mul_left _ (by omega)
            _ = 16 ^ (count + 1) * (start + 1) := by ring

theorem four_hex_sound :
    Sound fourHex fun front value => StringBody front ∧ value < 0x10000 := by
  intro text value rest found
  obtain ⟨front, same, body, bounded⟩ := hex_digits_sound 4 0 text value rest found
  exact ⟨front, same, body, by simpa using bounded⟩

theorem low_surrogate_sound :
    Sound lowSurrogate fun front low => StringBody front ∧ 0xDC00 ≤ low ∧ low < 0xE000 := by
  intro text low rest found
  obtain ⟨afterSlash, slash, found⟩ := Option.bind_eq_some_iff.mp found
  obtain ⟨afterMark, mark, found⟩ := Option.bind_eq_some_iff.mp found
  obtain ⟨⟨value, after⟩, hex, found⟩ := Option.bind_eq_some_iff.mp found
  simp only at found
  split_ifs at found with bounds
  cases found
  obtain ⟨front, same, body, -⟩ := four_hex_sound _ _ _ hex
  rw [expect_eq_some] at slash mark
  exact ⟨backslash :: 0x75 :: front, by rw [slash, mark, same]; rfl, .escaped _ body, bounds⟩

/-- What one character of a string literal reads and returns. -/
def CharacterText (front chunk : List Byte) : Prop := StringBody front ∧ WellFormed chunk

theorem unicode_escape_sound : Sound unicodeEscape CharacterText := by
  intro text chunk rest found
  obtain ⟨⟨point, after⟩, hex, decoded⟩ := Option.map_eq_some_iff.mp found
  obtain ⟨front, rfl, body, bounded⟩ := four_hex_sound _ _ _ hex
  simp only at decoded
  by_cases surrogate : isSurrogate point = true
  · rw [if_pos surrogate] at decoded
    simp only [isSurrogate, decide_eq_true_eq] at surrogate
    split at decoded
    · rename_i low final pair
      obtain ⟨back, rfl, tail, lower, upper⟩ := low_surrogate_sound _ _ _ pair
      split_ifs at decoded with first
      · obtain ⟨rfl, rfl⟩ := Prod.mk.inj decoded
        refine ⟨front ++ back, by simp, body.append tail, IsRune.wellFormed ?_⟩
        apply encode_rune_is_rune (by omega)
        simp only [isSurrogate, decide_eq_false_iff_not]
        omega
      · cases decoded
        exact ⟨front, rfl, body, replacement_is_rune.wellFormed⟩
    · cases decoded
      exact ⟨front, rfl, body, replacement_is_rune.wellFormed⟩
  · rw [if_neg surrogate] at decoded
    cases decoded
    have proper : isSurrogate point = false := by simpa using surrogate
    exact ⟨front, rfl, body, (encode_rune_is_rune (by omega) proper).wellFormed⟩

theorem escape_sound {text chunk rest : List Byte} (found : escape text = some (chunk, rest)) :
    ∃ front, backslash :: text = front ++ rest ∧ CharacterText front chunk := by
  cases text with
  | nil => cases found
  | cons byte after =>
      simp only [escape] at found
      split_ifs at found with unicode
      · obtain ⟨front, rfl, body, well⟩ := unicode_escape_sound _ _ _ found
        exact ⟨backslash :: byte :: front, rfl, .escaped byte body, well⟩
      · obtain ⟨value, listed, same⟩ := Option.map_eq_some_iff.mp found
        cases same
        refine ⟨[backslash, byte], rfl, .escaped byte .nil, ?_⟩
        have ascii : ∀ entry ∈ simpleEscapes, entry.2 < 0x80 :=
          List.forall_iff_forall_mem.mp (by decide)
        obtain ⟨before, _, pairs, -⟩ := List.lookup_eq_some_iff.mp listed
        exact (is_rune_ascii (ascii (byte, value) (by rw [pairs]; simp))).wellFormed

theorem next_piece_sound {first : Byte} (rest : List Byte) (notQuote : first ≠ quoteMark)
    (notEscape : first ≠ backslash) :
    ∃ front, first :: rest = front ++ (nextPiece first rest).2 ∧
      CharacterText front (nextPiece first rest).1.coerced := by
  rcases next_piece_cases first rest with ⟨bytes, after, rune, whole, cut⟩ | alone
  · rw [cut]
    refine ⟨bytes, whole, StringBody.of_plain ?_, rune.wellFormed⟩
    cases bytes with
    | nil => simp
    | cons head tail =>
        cases whole
        intro byte member
        rcases List.mem_cons.mp member with here | later
        · exact here ▸ ⟨notQuote, notEscape⟩
        · have large := rune.large_tail byte later
          constructor
          · rintro rfl
            exact large (by decide)
          · rintro rfl
            exact large (by decide)
  · rw [alone]
    exact ⟨[first], rfl, .plain notQuote notEscape .nil, replacement_is_rune.wellFormed⟩

theorem character_sound {first : Byte} {rest chunk after : List Byte}
    (notQuote : first ≠ quoteMark) (found : character first rest = some (chunk, after)) :
    ∃ front, first :: rest = front ++ after ∧ CharacterText front chunk := by
  unfold character at found
  split_ifs at found with slash control
  · rw [slash]
    exact escape_sound found
  · cases found
    exact next_piece_sound rest notQuote slash

theorem characters_sound {fuel : Nat} {text value rest : List Byte}
    (found : characters fuel text = some (value, rest)) :
    ∃ body, text = body ++ quoteMark :: rest ∧ CharacterText body value := by
  induction fuel generalizing text value with
  | zero => cases found
  | succ fuel induction =>
      cases text with
      | nil => cases found
      | cons first others =>
          simp only [characters] at found
          split_ifs at found with closing
          · cases found
            exact ⟨[], by rw [closing]; rfl, .nil, .nil⟩
          · obtain ⟨⟨chunk, after⟩, one, found⟩ := Option.bind_eq_some_iff.mp found
            obtain ⟨⟨more, final⟩, many, same⟩ := Option.map_eq_some_iff.mp found
            cases same
            obtain ⟨front, whole, body, well⟩ := character_sound closing one
            obtain ⟨back, rfl, tail, wellTail⟩ := induction many
            exact ⟨front ++ back, by rw [whole, List.append_assoc], body.append tail,
              well.append wellTail⟩

def StringText (text value : List Byte) : Prop :=
  ∃ body, text = quoteMark :: body ++ [quoteMark] ∧ CharacterText body value

theorem parse_string_sound : Sound parseString StringText := by
  intro text value rest found
  obtain ⟨after, opened, found⟩ := Option.bind_eq_some_iff.mp found
  obtain ⟨body, rfl, denotes⟩ := characters_sound found
  rw [expect_eq_some] at opened
  exact ⟨quoteMark :: body ++ [quoteMark], by simp [opened], body, rfl, denotes⟩

/-! ### Values -/

def SpaceText (text : List Byte) : Prop := ∀ byte ∈ text, isSpace byte = true

inductive ScalarText : List Byte → Json → Prop where
  | string {text value : List Byte} (literal : StringText text value) :
      ScalarText text (.str value)
  | null : ScalarText [0x6E, 0x75, 0x6C, 0x6C] .null
  | true : ScalarText [0x74, 0x72, 0x75, 0x65] (.bool true)
  | false : ScalarText [0x66, 0x61, 0x6C, 0x73, 0x65] (.bool false)
  | number {literal : List Byte} (bytes : NumberBytes literal literal) :
      ScalarText literal (.num literal)

inductive EntriesText {Entry : Type} (entry : List Byte → Entry → Prop) :
    List Byte → List Entry → Prop where
  | last {text space : List Byte} {first : Entry} (reads : entry text first)
      (trailing : SpaceText space) : EntriesText entry (text ++ space) [first]
  | more {text space rest : List Byte} {first : Entry} {others : List Entry}
      (reads : entry text first) (trailing : SpaceText space)
      (following : EntriesText entry rest others) :
      EntriesText entry (text ++ space ++ comma :: rest) (first :: others)

inductive ListText {Entry : Type} (entry : List Byte → Entry → Prop) :
    List Byte → List Entry → Prop where
  | empty {space : List Byte} (blank : SpaceText space) : ListText entry space []
  | entries {text : List Byte} {items : List Entry} (reads : EntriesText entry text items) :
      ListText entry text items

def ItemText (value : List Byte → Json → Prop) (text : List Byte) (item : Json) : Prop :=
  ∃ space raw, text = space ++ raw ∧ SpaceText space ∧ value raw item

def MemberText (value : List Byte → Json → Prop) (text : List Byte) (member : Member) : Prop :=
  ∃ before key gap after, text = before ++ key ++ gap ++ colon :: after ++ member.raw ∧
    SpaceText before ∧ StringText key member.key ∧ SpaceText gap ∧ SpaceText after ∧
    value member.raw member.value

inductive NestedText (value : List Byte → Json → Prop) : List Byte → Json → Prop where
  | array {text : List Byte} {items : List Json} (reads : ListText (ItemText value) text items) :
      NestedText value (openBracket :: text ++ [closeBracket]) (.arr items)
  | object {text : List Byte} {members : List Member}
      (reads : ListText (MemberText value) text members) :
      NestedText value (openBrace :: text ++ [closeBrace]) (.obj (members.map Member.pair))

def ValueText : Nat → List Byte → Json → Prop
  | 0 => ScalarText
  | depth + 1 => fun text value => ScalarText text value ∨ NestedText (ValueText depth) text value

theorem parse_scalar_sound : Sound parseScalar ScalarText := by
  intro text value rest found
  unfold parseScalar at found
  split at found
  · rename_i string after read
    cases found
    obtain ⟨front, same, literal⟩ := parse_string_sound _ _ _ read
    exact ⟨front, same, .string literal⟩
  split at found
  · rename_i after read
    cases found
    exact ⟨_, keyword_eq_some read, .null⟩
  split at found
  · rename_i after read
    cases found
    exact ⟨_, keyword_eq_some read, .true⟩
  split at found
  · rename_i after read
    cases found
    exact ⟨_, keyword_eq_some read, .false⟩
  · obtain ⟨⟨literal, after⟩, read, same⟩ := Option.map_eq_some_iff.mp found
    cases same
    obtain ⟨front, whole, rfl, bytes⟩ := scan_number_sound _ _ _ read
    exact ⟨front, whole, .number ⟨rfl, bytes⟩⟩

section Lists

variable {Entry : Type} {entry : Parser Entry} {reads : List Byte → Entry → Prop} {close : Byte}

theorem entries_sound (sound : Sound entry reads) (fuel : Nat) :
    Sound (entries entry close fuel) fun text items =>
      ∃ body, text = body ++ [close] ∧ EntriesText reads body items := by
  induction fuel with
  | zero =>
      intro text items rest found
      cases found
  | succ fuel induction =>
      intro text items rest found
      obtain ⟨⟨first, after⟩, one, listed⟩ := Option.bind_eq_some_iff.mp found
      obtain ⟨front, rfl, here⟩ := sound _ _ _ one
      obtain ⟨space, split, blank⟩ := skip_space_split after
      simp only at listed
      split at listed
      · rename_i more separated
        obtain ⟨⟨others, final⟩, many, same⟩ := Option.map_eq_some_iff.mp listed
        cases same
        obtain ⟨_, rfl, body, rfl, following⟩ := induction _ _ _ many
        rw [expect_eq_some] at separated
        refine ⟨front ++ space ++ comma :: body ++ [close], ?_, _, rfl,
          .more here blank following⟩
        rw [split, separated]
        simp
      · obtain ⟨final, closed, same⟩ := Option.map_eq_some_iff.mp listed
        cases same
        rw [expect_eq_some] at closed
        refine ⟨front ++ space ++ [close], ?_, _, rfl, .last here blank⟩
        rw [split, closed]
        simp

theorem parse_list_sound (sound : Sound entry reads) :
    Sound (parseList entry close) fun text items =>
      ∃ body, text = body ++ [close] ∧ ListText reads body items := by
  intro text items rest found
  unfold parseList at found
  split at found
  · rename_i after closed
    cases found
    obtain ⟨space, split, blank⟩ := skip_space_split text
    rw [expect_eq_some] at closed
    exact ⟨space ++ [close], by rw [split, closed]; simp, space, rfl, .empty blank⟩
  · obtain ⟨front, same, body, whole, listed⟩ := entries_sound sound _ _ _ _ found
    exact ⟨front, same, body, whole, .entries listed⟩

end Lists

section Nesting

variable {value : Parser Json} {reads : List Byte → Json → Prop}

theorem parse_item_sound (sound : Sound value reads) :
    Sound (parseItem value) (ItemText reads) := by
  intro text item rest found
  obtain ⟨space, split, blank⟩ := skip_space_split text
  obtain ⟨raw, same, here⟩ := sound _ _ _ found
  exact ⟨space ++ raw, by rw [split, same, List.append_assoc], space, raw, rfl, blank, here⟩

theorem parse_member_sound (sound : Sound value reads) :
    Sound (parseMember value) (MemberText reads) := by
  intro text member rest found
  obtain ⟨⟨key, afterKey⟩, named, found⟩ := Option.bind_eq_some_iff.mp found
  obtain ⟨afterColon, separated, found⟩ := Option.bind_eq_some_iff.mp found
  obtain ⟨⟨held, after⟩, read, same⟩ := Option.map_eq_some_iff.mp found
  cases same
  obtain ⟨before, splitBefore, blankBefore⟩ := skip_space_split text
  obtain ⟨name, sameName, literal⟩ := parse_string_sound _ _ _ named
  obtain ⟨gap, splitGap, blankGap⟩ := skip_space_split afterKey
  obtain ⟨space, splitSpace, blankSpace⟩ := skip_space_split afterColon
  obtain ⟨raw, sameRaw, here⟩ := sound _ _ _ read
  rw [expect_eq_some] at separated
  -- The text of the value is what the parser of values has read.
  have cut : (skipSpace afterColon).take ((skipSpace afterColon).length - rest.length) = raw := by
    rw [sameRaw, List.length_append, Nat.add_sub_cancel, List.take_left]
  refine ⟨before ++ name ++ gap ++ colon :: space ++ raw, ?_, before, name, gap, space, ?_,
    blankBefore, literal, blankGap, blankSpace, ?_⟩
  · rw [splitBefore, sameName, splitGap, separated, splitSpace, sameRaw]
    simp
  · simp only [cut]
  · simp only [cut]
    exact here

theorem parse_array_sound (sound : Sound value reads) :
    Sound (parseArray value) fun text items => ∃ body,
      text = openBracket :: body ++ [closeBracket] ∧ ListText (ItemText reads) body items := by
  intro text items rest found
  obtain ⟨inner, opened, listed⟩ := Option.bind_eq_some_iff.mp found
  obtain ⟨_, rfl, body, rfl, items⟩ := parse_list_sound (parse_item_sound sound) _ _ _ listed
  rw [expect_eq_some] at opened
  exact ⟨openBracket :: body ++ [closeBracket], by simp [opened], body, rfl, items⟩

theorem parse_object_sound (sound : Sound value reads) :
    Sound (parseObject value) fun text members => ∃ body,
      text = openBrace :: body ++ [closeBrace] ∧ ListText (MemberText reads) body members := by
  intro text members rest found
  obtain ⟨inner, opened, listed⟩ := Option.bind_eq_some_iff.mp found
  obtain ⟨_, rfl, body, rfl, members⟩ := parse_list_sound (parse_member_sound sound) _ _ _ listed
  rw [expect_eq_some] at opened
  exact ⟨openBrace :: body ++ [closeBrace], by simp [opened], body, rfl, members⟩

end Nesting

theorem parse_value_sound (depth : Nat) : Sound (parseValue depth) (ValueText depth) := by
  induction depth with
  | zero => exact parse_scalar_sound
  | succ depth induction =>
      intro text value rest found
      simp only [parseValue] at found
      split_ifs at found with array object
      · obtain ⟨⟨items, after⟩, read, same⟩ := Option.map_eq_some_iff.mp found
        cases same
        obtain ⟨_, rfl, body, rfl, listed⟩ := parse_array_sound induction _ _ _ read
        exact ⟨_, rfl, .inr (.array listed)⟩
      · obtain ⟨⟨members, after⟩, read, same⟩ := Option.map_eq_some_iff.mp found
        cases same
        obtain ⟨_, rfl, body, rfl, listed⟩ := parse_object_sound induction _ _ _ read
        exact ⟨_, rfl, .inr (.object listed)⟩
      · obtain ⟨front, same, scalar⟩ := parse_scalar_sound _ _ _ found
        exact ⟨front, same, .inl scalar⟩

end Gocoon.JsonText
