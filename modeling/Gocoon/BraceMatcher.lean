import Gocoon.ToolTranslation

/-!
# The brace matcher on JSON texts

`extractJSONObject` counts braces outside strings. A text is neutral if the matcher runs over
it and is then as deep as before; every JSON value is neutral, by induction on its grammar,
so that the matcher started at an object stops exactly at the object's end.
-/

namespace Gocoon.BraceMatcher

open Gocoon.LittleEndianBytes
open Gocoon.TlPrimitives (GoString ascii)
open Gocoon.JsonText
open Gocoon.ToolTranslation

set_option autoImplicit false

section Steps

variable {depth : Int} {byte : Byte} {rest : List Byte}

theorem match_plain (notQuote : byte ≠ quoteMark) (notOpen : byte ≠ openBrace)
    (notClose : byte ≠ closeBrace) :
    matchBraces depth false false (byte :: rest) =
      (matchBraces depth false false rest).map (byte :: ·) := by
  simp [matchBraces, notQuote, notOpen, notClose]

theorem match_quote :
    matchBraces depth false false (quoteMark :: rest) =
      (matchBraces depth true false rest).map (quoteMark :: ·) := by
  simp [matchBraces]

theorem match_open :
    matchBraces depth false false (openBrace :: rest) =
      (matchBraces (depth + 1) false false rest).map (openBrace :: ·) := by
  simp [matchBraces, show openBrace ≠ quoteMark by decide]

theorem match_close (inner : depth - 1 ≠ 0) :
    matchBraces depth false false (closeBrace :: rest) =
      (matchBraces (depth - 1) false false rest).map (closeBrace :: ·) := by
  simp [matchBraces, show closeBrace ≠ quoteMark by decide,
    show closeBrace ≠ openBrace by decide, inner]

theorem match_close_last (outermost : depth - 1 = 0) :
    matchBraces depth false false (closeBrace :: rest) = some [closeBrace] := by
  simp [matchBraces, show closeBrace ≠ quoteMark by decide,
    show closeBrace ≠ openBrace by decide, outermost]

theorem match_string_plain (notQuote : byte ≠ quoteMark) (notEscape : byte ≠ backslash) :
    matchBraces depth true false (byte :: rest) =
      (matchBraces depth true false rest).map (byte :: ·) := by
  simp [matchBraces, notQuote, notEscape]

theorem match_string_escape :
    matchBraces depth true false (backslash :: byte :: rest) =
      (matchBraces depth true false rest).map fun found => backslash :: byte :: found := by
  simp [matchBraces, Option.map_map, Function.comp_def]

theorem match_string_end :
    matchBraces depth true false (quoteMark :: rest) =
      (matchBraces depth false false rest).map (quoteMark :: ·) := by
  simp [matchBraces, show quoteMark ≠ backslash by decide]

end Steps

/-- The matcher runs over the text, inside an object, and is then as deep as before. -/
def Neutral (text : List Byte) : Prop :=
  ∀ (depth : Int) (rest : List Byte), 0 < depth →
    matchBraces depth false false (text ++ rest) =
      (matchBraces depth false false rest).map (text ++ ·)

theorem Neutral.nil : Neutral [] := by
  intro depth rest inside
  simp

theorem Neutral.append {front back : List Byte} (left : Neutral front) (right : Neutral back) :
    Neutral (front ++ back) := by
  intro depth rest inside
  rw [List.append_assoc, left depth _ inside, right depth rest inside, Option.map_map]
  simp [Function.comp_def]

theorem Neutral.plain {byte : Byte} (notQuote : byte ≠ quoteMark) (notOpen : byte ≠ openBrace)
    (notClose : byte ≠ closeBrace) : Neutral [byte] := by
  intro depth rest inside
  exact match_plain notQuote notOpen notClose

theorem Neutral.of_plain {bytes : List Byte}
    (plain : ∀ byte ∈ bytes, byte ≠ quoteMark ∧ byte ≠ openBrace ∧ byte ≠ closeBrace) :
    Neutral bytes := by
  induction bytes with
  | nil => exact .nil
  | cons byte rest induction =>
      obtain ⟨here, later⟩ := List.forall_mem_cons.mp plain
      exact (Neutral.plain here.1 here.2.1 here.2.2).append (induction later)

theorem match_string_body {body : List Byte} (inString : StringBody body) (depth : Int)
    (rest : List Byte) :
    matchBraces depth true false (body ++ rest) =
      (matchBraces depth true false rest).map (body ++ ·) := by
  induction inString with
  | nil => simp
  | plain notQuote notEscape others induction =>
      rw [List.cons_append, match_string_plain notQuote notEscape, induction, Option.map_map]
      rfl
  | escaped byte others induction =>
      rw [List.cons_append, List.cons_append, match_string_escape, induction, Option.map_map]
      rfl

theorem neutral_string {text value : List Byte} (literal : StringText text value) :
    Neutral text := by
  obtain ⟨body, rfl, inString, -⟩ := literal
  intro depth rest inside
  rw [List.cons_append, List.cons_append, List.append_assoc, match_quote,
    match_string_body inString, List.singleton_append, match_string_end]
  simp [Option.map_map, Function.comp_def]

theorem neutral_braces {inner : List Byte} (neutral : Neutral inner) :
    Neutral (openBrace :: inner ++ [closeBrace]) := by
  intro depth rest inside
  have deeper : depth + 1 - 1 = depth := by omega
  rw [List.cons_append, List.cons_append, List.append_assoc, match_open,
    neutral (depth + 1) _ (by omega), List.singleton_append, match_close (by omega), deeper]
  simp [Option.map_map, Function.comp_def]

theorem neutral_space {space : List Byte} (blank : SpaceText space) : Neutral space := by
  apply Neutral.of_plain
  intro byte member
  have spaces : ∀ other ∈ ([0x20, 0x09, 0x0A, 0x0D] : List Byte),
      other ≠ quoteMark ∧ other ≠ openBrace ∧ other ≠ closeBrace :=
    List.forall_iff_forall_mem.mp (by decide)
  have isSpace := blank byte member
  simp only [JsonText.isSpace, List.contains_iff_mem] at isSpace
  exact spaces byte isSpace

theorem neutral_number {literal : List Byte} (bytes : NumberBytes literal literal) :
    Neutral literal := by
  apply Neutral.of_plain
  intro byte member
  have numeric := bytes.2 byte member
  refine ⟨?_, ?_, ?_⟩ <;>
  · rintro rfl
    cases numeric

theorem neutral_scalar {text : List Byte} {value : Json} (scalar : ScalarText text value) :
    Neutral text := by
  cases scalar with
  | string literal => exact neutral_string literal
  | null => exact .of_plain (List.forall_iff_forall_mem.mp (by decide))
  | true => exact .of_plain (List.forall_iff_forall_mem.mp (by decide))
  | false => exact .of_plain (List.forall_iff_forall_mem.mp (by decide))
  | number bytes => exact neutral_number bytes

theorem neutral_list {Entry : Type} {entry : List Byte → Entry → Prop}
    (neutral : ∀ text item, entry text item → Neutral text) {text : List Byte}
    {items : List Entry} (listed : ListText entry text items) : Neutral text := by
  cases listed with
  | empty blank => exact neutral_space blank
  | entries reads =>
      induction reads with
      | last here trailing => exact (neutral _ _ here).append (neutral_space trailing)
      | more here trailing following induction =>
          have separator : Neutral [comma] := .plain (by decide) (by decide) (by decide)
          exact ((neutral _ _ here).append (neutral_space trailing)).append
            (separator.append induction)

section Nesting

variable {value : List Byte → Json → Prop} (neutral : ∀ text tree, value text tree → Neutral text)

include neutral

theorem neutral_items {text : List Byte} {items : List Json}
    (listed : ListText (ItemText value) text items) : Neutral text := by
  apply neutral_list _ listed
  rintro _ item ⟨space, raw, rfl, blank, here⟩
  exact (neutral_space blank).append (neutral raw item here)

theorem neutral_members {text : List Byte} {members : List Member}
    (listed : ListText (MemberText value) text members) : Neutral text := by
  apply neutral_list _ listed
  rintro _ member ⟨before, key, gap, after, rfl, blankBefore, literal, blankGap, blankAfter, here⟩
  have separator : Neutral [colon] := .plain (by decide) (by decide) (by decide)
  have name := ((neutral_space blankBefore).append (neutral_string literal)).append
    (neutral_space blankGap)
  exact (name.append (separator.append (neutral_space blankAfter))).append (neutral _ _ here)

end Nesting

theorem neutral_value {limit : Nat} {text : List Byte} {value : Json}
    (denotes : ValueText limit text value) : Neutral text := by
  induction limit generalizing text value with
  | zero => exact neutral_scalar denotes
  | succ limit induction =>
      have nested : ∀ text tree, ValueText limit text tree → Neutral text :=
        fun text tree here => induction here
      rcases denotes with scalar | composed
      · exact neutral_scalar scalar
      · cases composed with
        | array reads =>
            have opening : Neutral [openBracket] := .plain (by decide) (by decide) (by decide)
            have closing : Neutral [closeBracket] := .plain (by decide) (by decide) (by decide)
            exact (opening.append (neutral_items nested reads)).append closing
        | object reads => exact neutral_braces (neutral_members nested reads)

theorem extract_object {limit : Nat} {text front back : List Byte}
    {members : List (List Byte × Json)} (denotes : ValueText limit text (.obj members)) :
    extractJSONObject (front ++ text ++ back) front.length = some text := by
  cases limit with
  | zero => cases denotes
  | succ limit =>
      rcases denotes with scalar | composed
      · cases scalar
      · cases composed with
        | @object inner members reads =>
            have neutral := neutral_members (fun _ _ here => neutral_value here) reads
            have run := neutral 1 ([closeBrace] ++ back) (by decide)
            rw [extractJSONObject, List.append_assoc, List.drop_left, if_pos (by simp)]
            rw [List.cons_append, List.cons_append, List.append_assoc, match_open]
            simp only [Int.zero_add]
            rw [run, List.singleton_append, match_close_last (by decide)]
            simp

/-- A valid object: the parser reads the text to its end, for some bound on the nesting. -/
def ValidObject (text : GoString) : Prop :=
  ∃ limit members, parseObject (parseValue limit) text = some (members, [])

theorem valid_object_extracted {text : GoString} (valid : ValidObject text)
    (front back : GoString) :
    extractJSONObject (front ++ text ++ back) front.length = some text := by
  obtain ⟨limit, members, read⟩ := valid
  obtain ⟨whole, same, body, rfl, listed⟩ :=
    parse_object_sound (parse_value_sound limit) _ _ _ read
  have denotes : ValueText (limit + 1) (openBrace :: body ++ [closeBrace])
      (.obj (members.map Member.pair)) := .inr (.object listed)
  rw [List.append_nil] at same
  rw [same]
  exact extract_object denotes

def trickyObject : GoString :=
  ascii "\x7b\"a\\\\\":[\x7b\x7d,\"\x7d\\\"\x7b\"],\"\":-1.5e3\x7d"

theorem tricky_object_extracted :
    ValidObject trickyObject ∧
      extractJSONObject (ascii "\x7b\"" ++ trickyObject ++ ascii "\x7d\x7d") 2 =
        some trickyObject := by
  have read : (parseObject (parseValue 2) trickyObject).map Prod.snd = some [] := by
    decide +kernel
  have valid : ValidObject trickyObject := by
    obtain ⟨⟨members, rest⟩, found, rfl⟩ := Option.map_eq_some_iff.mp read
    exact ⟨2, members, found⟩
  exact ⟨valid, valid_object_extracted valid (ascii "\x7b\"") (ascii "\x7d\x7d")⟩

end Gocoon.BraceMatcher
