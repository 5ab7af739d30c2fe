import Gocoon.JsonText

/-!
# Printing values, and parsing what was printed

`print` writes a value without white space, with the escapes of Go's encoder: besides the
quote, the backslash and the control characters it escapes `<`, `>`, `&`, U+2028 and U+2029,
and a byte outside UTF-8 is written as U+FFFD. Parsing the result gives the value back with
its strings coerced to UTF-8, exactly when the value is not nested deeper than the parser
goes.
-/

namespace Gocoon.JsonPrinting

open Gocoon.LittleEndianBytes
open Gocoon.Utf8Text
open Gocoon.JsonText

set_option autoImplicit false

/-! ## Recursion over values -/

section Recursion

variable {Number Other : Type}

mutual

def depth : Value Number → Nat
  | .arr items => depthItems items + 1
  | .obj members => depthMembers members + 1
  | _ => 0

def depthItems : List (Value Number) → Nat
  | [] => 0
  | item :: rest => max (depth item) (depthItems rest)

def depthMembers : List (List Byte × Value Number) → Nat
  | [] => 0
  | (_, value) :: rest => max (depth value) (depthMembers rest)

end

mutual

/-- Every number and every string of the value replaced, the keys of objects included. -/
def mapValue (number : Number → Other) (string : List Byte → List Byte) :
    Value Number → Value Other
  | .null => .null
  | .bool value => .bool value
  | .num value => .num (number value)
  | .str value => .str (string value)
  | .arr items => .arr (mapItems number string items)
  | .obj members => .obj (mapMembers number string members)

def mapItems (number : Number → Other) (string : List Byte → List Byte) :
    List (Value Number) → List (Value Other)
  | [] => []
  | item :: rest => mapValue number string item :: mapItems number string rest

def mapMembers (number : Number → Other) (string : List Byte → List Byte) :
    List (List Byte × Value Number) → List (List Byte × Value Other)
  | [] => []
  | (key, value) :: rest =>
      (string key, mapValue number string value) :: mapMembers number string rest

end

theorem map_items_eq (number : Number → Other) (string : List Byte → List Byte)
    (items : List (Value Number)) :
    mapItems number string items = items.map (mapValue number string) := by
  induction items with
  | nil => rfl
  | cons item rest induction => rw [mapItems, induction, List.map_cons]

theorem map_members_eq (number : Number → Other) (string : List Byte → List Byte)
    (members : List (List Byte × Value Number)) :
    mapMembers number string members =
      members.map fun member => (string member.1, mapValue number string member.2) := by
  induction members with
  | nil => rfl
  | cons member rest induction => rw [mapMembers, induction, List.map_cons]

theorem depth_items_le (items : List (Value Number)) (limit : Nat) :
    depthItems items ≤ limit ↔ ∀ item ∈ items, depth item ≤ limit := by
  induction items with
  | nil => simp [depthItems]
  | cons item rest induction => simp [depthItems, induction]

theorem depth_members_le (members : List (List Byte × Value Number)) (limit : Nat) :
    depthMembers members ≤ limit ↔ ∀ member ∈ members, depth member.2 ≤ limit := by
  induction members with
  | nil => simp [depthMembers]
  | cons member rest induction =>
      simp only [depthMembers, Nat.max_le, induction, List.forall_mem_cons]

/-- Induction over values, with the hypothesis for every item and every member at once. -/
@[elab_as_elim]
theorem value_induction {motive : Value Number → Prop} (null : motive .null)
    (bool : ∀ value, motive (.bool value)) (num : ∀ value, motive (.num value))
    (str : ∀ value, motive (.str value))
    (arr : ∀ items, (∀ item ∈ items, motive item) → motive (.arr items))
    (obj : ∀ members, (∀ member ∈ members, motive member.2) → motive (.obj members))
    (value : Value Number) : motive value :=
  @Value.rec Number motive (fun items => ∀ item ∈ items, motive item)
    (fun members => ∀ member ∈ members, motive member.2) (fun member => motive member.2)
    null bool num str arr obj
    (by simp) (fun _ _ head tail => List.forall_mem_cons.mpr ⟨head, tail⟩)
    (by simp) (fun _ _ head tail => List.forall_mem_cons.mpr ⟨head, tail⟩)
    (fun _ _ held => held) value

theorem map_eq_self_iff {Item : Type} {change : Item → Item} {items : List Item} :
    items.map change = items ↔ ∀ item ∈ items, change item = item := by
  nth_rewrite 2 [← List.map_id items]
  exact List.map_inj_left

end Recursion

/-! ## What the parser returns -/

theorem list_text_entries {Entry : Type} {entry : List Byte → Entry → Prop} {text : List Byte}
    {items : List Entry} (listed : ListText entry text items) :
    ∀ item ∈ items, ∃ part, entry part item := by
  cases listed with
  | empty blank => simp
  | entries reads =>
      induction reads with
      | last here trailing => simpa using ⟨_, here⟩
      | more here trailing following induction =>
          exact List.forall_mem_cons.mpr ⟨⟨_, here⟩, induction⟩

theorem value_text_depth {limit : Nat} {text : List Byte} {value : Json}
    (denotes : ValueText limit text value) : depth value ≤ limit := by
  induction limit generalizing text value with
  | zero => cases denotes <;> exact Nat.le_refl _
  | succ limit induction =>
      rcases denotes with scalar | nested
      · cases scalar <;> exact Nat.zero_le _
      · cases nested with
        | array reads =>
            apply Nat.succ_le_succ
            rw [depth_items_le]
            intro item member
            obtain ⟨_, _, raw, -, -, here⟩ := list_text_entries reads item member
            exact induction here
        | object reads =>
            apply Nat.succ_le_succ
            rw [depth_members_le, List.forall_mem_map]
            intro member listed
            obtain ⟨_, _, _, _, _, -, -, -, -, -, here⟩ := list_text_entries reads member listed
            exact induction here

def Clean {Number : Type} (value : Value Number) : Prop := mapValue id coerce value = value

theorem value_text_clean {limit : Nat} {text : List Byte} {value : Json}
    (denotes : ValueText limit text value) : Clean value := by
  have scalars : ∀ text value, ScalarText text value → Clean value := by
    intro text value scalar
    cases scalar with
    | string literal =>
        obtain ⟨_, -, -, well⟩ := literal
        rw [Clean, mapValue, coerce_of_well_formed well]
    | null | true | false | number => rfl
  induction limit generalizing text value with
  | zero => exact scalars text value denotes
  | succ limit induction =>
      rcases denotes with scalar | nested
      · exact scalars text value scalar
      · cases nested with
        | array reads =>
            rw [Clean, mapValue, map_items_eq]
            congr 1
            rw [map_eq_self_iff]
            intro item member
            obtain ⟨_, _, raw, -, -, here⟩ := list_text_entries reads item member
            exact induction here
        | object reads =>
            rw [Clean, mapValue, map_members_eq]
            congr 1
            rw [map_eq_self_iff]
            intro pair listed
            obtain ⟨member, inside, rfl⟩ := List.mem_map.mp listed
            obtain ⟨_, _, _, _, _, -, -, ⟨_, -, -, well⟩, -, -, here⟩ :=
              list_text_entries reads member inside
            exact Prod.ext (coerce_of_well_formed well) (induction here)

theorem parse_denotes {text : List Byte} {value : Json} (parsed : parse text = some value) :
    ∃ part, ValueText maxNestingDepth part value := by
  obtain ⟨⟨found, rest⟩, read, ended⟩ := Option.bind_eq_some_iff.mp parsed
  simp only at ended
  split_ifs at ended
  cases ended
  obtain ⟨part, -, denotes⟩ := parse_value_sound _ _ _ _ read
  exact ⟨part, denotes⟩

/-! ## The depth limit -/

section Limits

variable {Entry : Type} {entry other : Parser Entry} {close : Byte}

/-- A list is read alike by two parsers that agree on its entries. -/
theorem entries_agree {fuel : Nat} {text rest : List Byte} {items : List Entry}
    (agree : ∀ item ∈ items, ∀ text rest, entry text = some (item, rest) →
      other text = some (item, rest))
    (read : entries entry close fuel text = some (items, rest)) :
    entries other close fuel text = some (items, rest) := by
  induction fuel generalizing text items with
  | zero => cases read
  | succ fuel induction =>
      rw [entries] at read ⊢
      obtain ⟨⟨first, after⟩, here, read⟩ := Option.bind_eq_some_iff.mp read
      dsimp only at read
      rcases separated : expect comma (skipSpace after) with _ | more
      · rw [separated] at read
        obtain ⟨final, closed, same⟩ := Option.map_eq_some_iff.mp read
        cases same
        rw [agree first (by simp) text after here]
        simp [separated, closed]
      · rw [separated] at read
        obtain ⟨⟨others, final⟩, later, same⟩ := Option.map_eq_some_iff.mp read
        cases same
        obtain ⟨agreeHere, agreeLater⟩ := List.forall_mem_cons.mp agree
        rw [agreeHere text after here]
        simp [separated, induction agreeLater later]

theorem parse_list_agree {text rest : List Byte} {items : List Entry}
    (agree : ∀ item ∈ items, ∀ text rest, entry text = some (item, rest) →
      other text = some (item, rest))
    (read : parseList entry close text = some (items, rest)) :
    parseList other close text = some (items, rest) := by
  unfold parseList at read ⊢
  rcases closed : expect close (skipSpace text) with _ | after
  · rw [closed] at read
    exact entries_agree agree read
  · rw [closed] at read
    exact read

theorem parse_member_agree {value changed : Parser Json} {member : Member}
    (agree : ∀ text rest, value text = some (member.value, rest) →
      changed text = some (member.value, rest)) {text rest : List Byte}
    (read : parseMember value text = some (member, rest)) :
    parseMember changed text = some (member, rest) := by
  obtain ⟨⟨key, afterKey⟩, named, read⟩ := Option.bind_eq_some_iff.mp read
  obtain ⟨afterColon, separated, read⟩ := Option.bind_eq_some_iff.mp read
  obtain ⟨⟨held, after⟩, here, same⟩ := Option.map_eq_some_iff.mp read
  cases same
  simp [parseMember, named, separated, agree _ _ here]

theorem parse_object_agree {value changed : Parser Json} {text rest : List Byte}
    {members : List Member}
    (agree : ∀ member ∈ members, ∀ text rest, value text = some (member.value, rest) →
      changed text = some (member.value, rest))
    (read : parseObject value text = some (members, rest)) :
    parseObject changed text = some (members, rest) := by
  obtain ⟨inner, opened, listed⟩ := Option.bind_eq_some_iff.mp read
  have again := parse_list_agree
    (fun member inside _ _ here => parse_member_agree (agree member inside) here) listed
  rw [parseObject, opened, Option.bind_some, again]

theorem parse_scalar_any {text rest : List Byte} {value : Json}
    (read : parseScalar text = some (value, rest)) (limit : Nat) :
    parseValue limit text = some (value, rest) := by
  have notArray : ∀ after, parseScalar (openBracket :: after) = none := fun _ => rfl
  have notObject : ∀ after, parseScalar (openBrace :: after) = none := fun _ => rfl
  cases limit with
  | zero => exact read
  | succ limit =>
      simp only [parseValue]
      split_ifs with array object
      · obtain ⟨after, opened⟩ := Option.isSome_iff_exists.mp array
        rw [expect_eq_some.mp opened, notArray] at read
        cases read
      · obtain ⟨after, opened⟩ := Option.isSome_iff_exists.mp object
        rw [expect_eq_some.mp opened, notObject] at read
        cases read
      · exact read

/-- A value that was read within one limit is read within every limit that its depth keeps. -/
theorem parse_value_limit {limit : Nat} {text rest : List Byte} {value : Json}
    (read : parseValue limit text = some (value, rest)) {bound : Nat}
    (fits : depth value ≤ bound) : parseValue bound text = some (value, rest) := by
  induction limit generalizing text rest value bound with
  | zero => exact parse_scalar_any read bound
  | succ limit induction =>
      simp only [parseValue] at read
      split_ifs at read with array object
      · obtain ⟨⟨items, after⟩, listed, same⟩ := Option.map_eq_some_iff.mp read
        cases same
        cases bound with
        | zero => cases fits
        | succ bound =>
            have every : ∀ item ∈ items, depth item ≤ bound :=
              (depth_items_le items bound).mp (Nat.le_of_succ_le_succ fits)
            obtain ⟨inner, opened, entries⟩ := Option.bind_eq_some_iff.mp listed
            have again : parseArray (parseValue bound) text = some (items, after) := by
              rw [parseArray, opened, Option.bind_some]
              apply parse_list_agree _ entries
              intro item inside text rest here
              exact induction here (every item inside)
            simp only [parseValue, if_pos array, again, Option.map_some]
      · obtain ⟨⟨members, after⟩, listed, same⟩ := Option.map_eq_some_iff.mp read
        cases same
        cases bound with
        | zero => cases fits
        | succ bound =>
            have every : ∀ member ∈ members.map Member.pair, depth member.2 ≤ bound :=
              (depth_members_le _ bound).mp (Nat.le_of_succ_le_succ fits)
            have again : parseObject (parseValue bound) text = some (members, after) := by
              apply parse_object_agree _ listed
              intro member inside text rest here
              exact induction here (every member.pair (List.mem_map_of_mem inside))
            simp only [parseValue, if_neg array, if_pos object, again, Option.map_some]
      · exact parse_scalar_any read bound

end Limits

/-! ## Quoting -/

def hexDigit (value : Nat) : Byte :=
  if value < 10 then UInt8.ofNat (0x30 + value) else UInt8.ofNat (0x61 + (value - 10))

def controlEscapes : List (Byte × Byte) :=
  [(0x08, 0x62), (0x0C, 0x66), (0x0A, 0x6E), (0x0D, 0x72), (0x09, 0x74)]

def quoteAscii (byte : Byte) : List Byte :=
  if byte = quoteMark ∨ byte = backslash then [backslash, byte]
  else match controlEscapes.lookup byte with
    | some letter => [backslash, letter]
    | none =>
        if byte < 0x20 ∨ byte = 0x3C ∨ byte = 0x3E ∨ byte = 0x26 then
          [backslash, 0x75, 0x30, 0x30, hexDigit (byte.toNat / 16), hexDigit (byte.toNat % 16)]
        else [byte]

def lineSeparator : List Byte := [0xE2, 0x80, 0xA8]

def paragraphSeparator : List Byte := [0xE2, 0x80, 0xA9]

def quoteRune (bytes : List Byte) : List Byte :=
  match bytes with
  | [byte] => quoteAscii byte
  | _ =>
      if bytes = lineSeparator then [backslash, 0x75, 0x32, 0x30, 0x32, 0x38]
      else if bytes = paragraphSeparator then [backslash, 0x75, 0x32, 0x30, 0x32, 0x39]
      else bytes

def quotePiece : Piece → List Byte
  | .rune bytes => quoteRune bytes
  | .stray _ => [backslash, 0x75, 0x66, 0x66, 0x66, 0x64]

def quoteBody (string : List Byte) : List Byte := (pieces string).flatMap quotePiece

def quote (string : List Byte) : List Byte := quoteMark :: quoteBody string ++ [quoteMark]

/-- The ways in which the quoted form spells a rune. -/
inductive Spelling : List Byte → List Byte → Prop where
  | plain {first : Byte} {tail : List Byte} (rune : IsRune (first :: tail))
      (notQuote : first ≠ quoteMark) (notEscape : first ≠ backslash)
      (printable : ¬ first < 0x20) : Spelling (first :: tail) (first :: tail)
  | short {letter value : Byte} (notUnicode : letter ≠ 0x75)
      (listed : simpleEscapes.lookup letter = some value) : Spelling [backslash, letter] [value]
  | unicode {digits : List Byte} {point : Nat} (hex : fourHex digits = some (point, []))
      (proper : isSurrogate point = false) :
      Spelling (backslash :: 0x75 :: digits) (encodeRune point)

theorem hex_digits_append {count start value : Nat} {text rest : List Byte} (more : List Byte)
    (read : hexDigits count start text = some (value, rest)) :
    hexDigits count start (text ++ more) = some (value, rest ++ more) := by
  induction count generalizing start text with
  | zero =>
      cases read
      rfl
  | succ count induction =>
      cases text with
      | nil => cases read
      | cons byte after =>
          obtain ⟨next, hex, read⟩ := Option.bind_eq_some_iff.mp read
          simp only [List.cons_append, hexDigits, hex, Option.bind_some]
          exact induction read

theorem Spelling.reads {spelled denoted : List Byte} (spelling : Spelling spelled denoted) :
    ∃ first tail, spelled = first :: tail ∧ first ≠ quoteMark ∧
      ∀ rest, character first (tail ++ rest) = some (denoted, rest) := by
  cases spelling with
  | @plain first tail rune notQuote notEscape printable =>
      refine ⟨first, tail, rfl, notQuote, ?_⟩
      intro rest
      have whole := pieces_rune rune rest
      have sized := rune.size_append rest
      rw [List.cons_append] at sized
      simp [character, notEscape, printable, nextPiece, sized, Piece.coerced]
  | @short letter value notUnicode listed =>
      refine ⟨backslash, [letter], rfl, by decide, ?_⟩
      intro rest
      simp [character, escape, notUnicode, listed]
  | @unicode digits point hex proper =>
      refine ⟨backslash, 0x75 :: digits, rfl, by decide, ?_⟩
      intro rest
      have read := hex_digits_append rest hex
      simp [character, escape, unicodeEscape, fourHex, read, proper]

theorem quote_ascii_spelling {byte : Byte} (small : byte < 0x80) :
    Spelling (quoteAscii byte) [byte] := by
  unfold quoteAscii
  by_cases marks : byte = quoteMark ∨ byte = backslash
  · rw [if_pos marks]
    rcases marks with rfl | rfl
    · exact .short (by decide) (by decide)
    · exact .short (by decide) (by decide)
  rw [if_neg marks]
  split
  · rename_i letter listed
    have known : ∀ entry ∈ controlEscapes, entry.2 ≠ 0x75 ∧
        simpleEscapes.lookup entry.2 = some entry.1 := List.forall_iff_forall_mem.mp (by decide)
    obtain ⟨_, _, pairs, -⟩ := List.lookup_eq_some_iff.mp listed
    have here := known (byte, letter) (by rw [pairs]; simp)
    exact .short here.1 here.2
  · split_ifs with special
    · have every : ∀ value < 0x80, fourHex [0x30, 0x30, hexDigit (value / 16),
          hexDigit (value % 16)] = some (value, []) := by decide +kernel
      have below : byte.toNat < 0x80 := UInt8.lt_iff_toNat_lt.mp small
      have single : encodeRune byte.toNat = [byte] := by
        rw [encodeRune, if_pos below, UInt8.ofNat_toNat]
      rw [← single]
      apply Spelling.unicode (every _ below)
      simp only [isSurrogate, decide_eq_false_iff_not]
      omega
    · apply Spelling.plain (is_rune_ascii small)
      · exact fun same => marks (.inl same)
      · exact fun same => marks (.inr same)
      · exact fun control => special (.inl control)

theorem replacement_spelling :
    Spelling [backslash, 0x75, 0x66, 0x66, 0x66, 0x64] replacement :=
  (.unicode (by decide) (by decide) : Spelling _ (encodeRune 0xFFFD))

theorem line_separator_spelling :
    Spelling [backslash, 0x75, 0x32, 0x30, 0x32, 0x38] lineSeparator :=
  (.unicode (by decide) (by decide) : Spelling _ (encodeRune 0x2028))

theorem paragraph_separator_spelling :
    Spelling [backslash, 0x75, 0x32, 0x30, 0x32, 0x39] paragraphSeparator :=
  (.unicode (by decide) (by decide) : Spelling _ (encodeRune 0x2029))

theorem quote_rune_spelling {bytes : List Byte} (rune : IsRune bytes) :
    Spelling (quoteRune bytes) bytes := by
  cases bytes with
  | nil => cases rune
  | cons first tail =>
      rcases rune.ascii_or_large with ⟨small, rfl⟩ | large
      · exact quote_ascii_spelling small
      · have several : ∃ second others, tail = second :: others := by
          cases tail with
          | nil =>
              cases rune with
              | ascii rest small => exact absurd small large
          | cons second others => exact ⟨second, others, rfl⟩
        obtain ⟨second, others, rfl⟩ := several
        simp only [quoteRune]
        split_ifs with line paragraph
        · rw [line]
          exact line_separator_spelling
        · rw [paragraph]
          exact paragraph_separator_spelling
        · have above : ∀ byte : Byte, byte < 0x80 → first ≠ byte := by
            rintro byte small rfl
            exact large small
          apply Spelling.plain rune (above _ (by decide)) (above _ (by decide))
          intro control
          exact large (UInt8.lt_trans control (by decide))

theorem quote_body_rune {bytes : List Byte} (rune : IsRune bytes) (rest : List Byte) :
    quoteBody (bytes ++ rest) = quoteRune bytes ++ quoteBody rest := by
  simp [quoteBody, pieces_rune rune, quotePiece]

theorem quote_body_stray {byte : Byte} {rest : List Byte}
    (alone : nextPiece byte rest = (.stray byte, rest)) :
    quoteBody (byte :: rest) = [backslash, 0x75, 0x66, 0x66, 0x66, 0x64] ++ quoteBody rest := by
  simp [quoteBody, pieces_cons, alone, quotePiece]

theorem characters_spelling {spelled denoted : List Byte} (spelling : Spelling spelled denoted)
    {text others rest : List Byte} {fuel : Nat}
    (following : characters fuel text = some (others, rest)) :
    characters (fuel + 1) (spelled ++ text) = some (denoted ++ others, rest) := by
  obtain ⟨first, tail, rfl, notQuote, read⟩ := spelling.reads
  simp only [List.cons_append, characters, if_neg notQuote, read, Option.bind_some, following,
    Option.map_some]

theorem characters_quoted (string rest : List Byte) :
    ∀ fuel, (quoteBody string).length < fuel →
      characters fuel (quoteBody string ++ quoteMark :: rest) = some (coerce string, rest) := by
  induction string using pieces_induction with
  | nil =>
      intro fuel enough
      cases fuel with
      | zero => cases enough
      | succ fuel => simp [quoteBody, pieces_nil, characters, coerce]
  | rune bytes after isRune induction =>
      have spelling := quote_rune_spelling isRune
      obtain ⟨first, tail, spelled, -⟩ := spelling.reads
      intro fuel enough
      rw [quote_body_rune isRune, List.length_append, spelled, List.length_cons] at enough
      rw [quote_body_rune isRune, coerce_rune isRune, List.append_assoc]
      cases fuel with
      | zero => cases enough
      | succ fuel => exact characters_spelling spelling (induction fuel (by omega))
  | stray byte after alone induction =>
      intro fuel enough
      rw [quote_body_stray alone, List.length_append] at enough
      rw [quote_body_stray alone, coerce_stray alone, List.append_assoc]
      cases fuel with
      | zero => cases enough
      | succ fuel =>
          exact characters_spelling replacement_spelling (induction fuel (by
            simp only [List.length_cons] at enough
            omega))

theorem parse_string_quoted (string rest : List Byte) :
    parseString (quote string ++ rest) = some (coerce string, rest) := by
  simp only [quote, parseString, List.cons_append, List.append_assoc, List.nil_append,
    expect_cons, Option.bind_some]
  apply characters_quoted
  simp

/-! ## Printing -/

def separated : List (List Byte) → List Byte
  | [] => []
  | [part] => part
  | part :: next :: rest => part ++ comma :: separated (next :: rest)

section Printing

variable {Number : Type} (format : Number → List Byte)

mutual

def print : Value Number → List Byte
  | .null => [0x6E, 0x75, 0x6C, 0x6C]
  | .bool true => [0x74, 0x72, 0x75, 0x65]
  | .bool false => [0x66, 0x61, 0x6C, 0x73, 0x65]
  | .num value => format value
  | .str value => quote value
  | .arr items => openBracket :: separated (printItems items) ++ [closeBracket]
  | .obj members => openBrace :: separated (printMembers members) ++ [closeBrace]

def printItems : List (Value Number) → List (List Byte)
  | [] => []
  | item :: rest => print item :: printItems rest

def printMembers : List (List Byte × Value Number) → List (List Byte)
  | [] => []
  | (key, value) :: rest => (quote key ++ colon :: print value) :: printMembers rest

end

def printMember (member : List Byte × Value Number) : List Byte :=
  quote member.1 ++ colon :: print format member.2

theorem print_items_eq (items : List (Value Number)) :
    printItems format items = items.map (print format) := by
  induction items with
  | nil => rfl
  | cons item rest induction => rw [printItems, induction, List.map_cons]

theorem print_members_eq (members : List (List Byte × Value Number)) :
    printMembers format members = members.map (printMember format) := by
  induction members with
  | nil => rfl
  | cons member rest induction =>
      rw [printMembers, induction, List.map_cons]
      rfl

end Printing

/-- The byte `<`, which is printed as an escape only. -/
def angle : Byte := 0x3C

theorem quote_ascii_no_angle (byte : Byte) : angle ∉ quoteAscii byte := by
  have every : ∀ value < 256, angle ∉ quoteAscii (UInt8.ofNat value) := by decide +kernel
  simpa using every byte.toNat byte.toNat_lt

theorem quote_rune_no_angle {bytes : List Byte} (rune : IsRune bytes) :
    angle ∉ quoteRune bytes := by
  cases bytes with
  | nil => cases rune
  | cons first tail =>
      cases tail with
      | nil => exact quote_ascii_no_angle first
      | cons second others =>
          simp only [quoteRune]
          split_ifs
          · decide
          · decide
          · intro found
            rcases List.mem_cons.mp found with here | later
            · rcases rune.ascii_or_large with ⟨-, none⟩ | large
              · cases none
              · exact large (here ▸ by decide)
            · exact rune.large_tail angle later (by decide)

theorem quote_no_angle (string : List Byte) : angle ∉ quote string := by
  have body : angle ∉ quoteBody string := by
    induction string using pieces_induction with
    | nil => decide
    | rune bytes rest isRune induction =>
        rw [quote_body_rune isRune, List.mem_append, not_or]
        exact ⟨quote_rune_no_angle isRune, induction⟩
    | stray byte rest alone induction =>
        rw [quote_body_stray alone, List.mem_append, not_or]
        exact ⟨by decide, induction⟩
  simp only [quote, List.cons_append, List.mem_cons, List.mem_append, List.not_mem_nil,
    or_false, not_or]
  exact ⟨by decide, body, by decide⟩

theorem quote_ascii_small {byte : Byte} (small : byte < 0x80) :
    ∀ spelled ∈ quoteAscii byte, spelled < 0x80 := by
  have every : ∀ value < 128, (quoteAscii (UInt8.ofNat value)).Forall (· < 0x80) := by
    decide +kernel
  have held := every byte.toNat (UInt8.lt_iff_toNat_lt.mp small)
  rw [UInt8.ofNat_toNat] at held
  exact List.forall_iff_forall_mem.mp held

theorem quote_rune_well_formed {bytes : List Byte} (rune : IsRune bytes) :
    WellFormed (quoteRune bytes) := by
  cases bytes with
  | nil => cases rune
  | cons first tail =>
      cases tail with
      | nil =>
          rcases rune.ascii_or_large with ⟨small, -⟩ | large
          · exact well_formed_ascii (quote_ascii_small small)
          · cases rune with
            | ascii rest small => exact absurd small large
      | cons second others =>
          simp only [quoteRune]
          split_ifs
          · exact well_formed_literal (by decide)
          · exact well_formed_literal (by decide)
          · exact rune.wellFormed

theorem quote_well_formed (string : List Byte) : WellFormed (quote string) := by
  have body : WellFormed (quoteBody string) := by
    induction string using pieces_induction with
    | nil => exact .nil
    | rune bytes rest isRune induction =>
        rw [quote_body_rune isRune]
        exact (quote_rune_well_formed isRune).append induction
    | stray byte rest alone induction =>
        rw [quote_body_stray alone]
        exact (well_formed_literal (by decide)).append induction
  have mark : WellFormed [quoteMark] := well_formed_literal (by decide)
  exact (mark.append body).append mark

theorem separated_well_formed {parts : List (List Byte)}
    (well : ∀ part ∈ parts, WellFormed part) : WellFormed (separated parts) := by
  induction parts with
  | nil => exact .nil
  | cons part rest induction =>
      obtain ⟨here, later⟩ := List.forall_mem_cons.mp well
      cases rest with
      | nil => exact here
      | cons next rest =>
          have separator : WellFormed [comma] := well_formed_literal (by decide)
          exact here.append (separator.append (induction later))

theorem mem_separated {byte : Byte} {parts : List (List Byte)} (inside : byte ∈ separated parts) :
    byte = comma ∨ ∃ part ∈ parts, byte ∈ part := by
  induction parts with
  | nil => cases inside
  | cons part rest induction =>
      cases rest with
      | nil => exact .inr ⟨part, List.mem_cons_self, inside⟩
      | cons next rest =>
          rw [separated, List.mem_append, List.mem_cons] at inside
          rcases inside with here | separator | later
          · exact .inr ⟨part, List.mem_cons_self, here⟩
          · exact .inl separator
          · rcases induction later with separator | ⟨found, listed, here⟩
            · exact .inl separator
            · exact .inr ⟨found, List.mem_cons_of_mem _ listed, here⟩

/-! ## Parsing what was printed -/

/-- No byte that could continue a number comes next. -/
def Stops (rest : List Byte) : Prop := ∀ byte ∈ rest.head?, numberByte byte = false

/-- The parser stops by itself in front of such a rest. -/
def Local (parser : Parser (List Byte)) : Prop :=
  ∀ text scanned after more, parser text = some (scanned, after) → Stops more →
    parser (text ++ more) = some (scanned, after ++ more)

theorem digit_of_stops {first : Byte} {rest : List Byte} (stops : Stops (first :: rest)) :
    digit first = false := by
  have other := stops first rfl
  simp only [numberByte, Bool.or_eq_false_iff] at other
  exact other.1

theorem scan_digits_local : Local scanDigits := by
  have span : ∀ text more, Stops more →
      (text ++ more).takeWhile digit = text.takeWhile digit ∧
        (text ++ more).dropWhile digit = text.dropWhile digit ++ more := by
    intro text more stops
    induction text with
    | nil =>
        cases more with
        | nil => simp
        | cons first rest => simp [digit_of_stops stops]
    | cons byte text induction =>
        by_cases isDigit : digit byte = true
        · simp [isDigit, induction.1, induction.2]
        · simp [isDigit]
  intro text scanned after more read stops
  have same := span text more stops
  simp only [scanDigits] at read ⊢
  rw [same.1, same.2]
  split_ifs at read ⊢ with empty
  cases read
  rfl

theorem not_contains_of_stops {accepted : List Byte} {first : Byte} {rest : List Byte}
    (numeric : accepted.all numberByte = true) (stops : Stops (first :: rest)) :
    first ∉ accepted := by
  intro member
  have other := stops first rfl
  rw [List.all_eq_true.mp numeric first member] at other
  cases other

theorem optional_byte_local {accepted : List Byte}
    (numeric : accepted.all numberByte = true) : Local (optionalByte accepted) := by
  intro text scanned after more read stops
  cases text with
  | nil =>
      cases read
      cases more with
      | nil => rfl
      | cons first rest => simp [optionalByte, not_contains_of_stops numeric stops]
  | cons byte text =>
      simp only [optionalByte, List.cons_append, List.contains_iff_mem] at read ⊢
      split_ifs at read ⊢
      · cases read
        rfl
      · cases read
        rfl

theorem scan_integer_local : Local scanInteger := by
  intro text scanned after more read stops
  cases text with
  | nil => cases read
  | cons byte text =>
      have extended := scan_digits_local (byte :: text) scanned after more
      simp only [scanInteger, expect, List.cons_append] at read extended ⊢
      by_cases zero : byte = 0x30
      · rw [if_pos zero] at read ⊢
        cases read
        rfl
      · rw [if_neg zero] at read ⊢
        exact extended read stops

theorem optional_part_local {marks : List Byte} {part : Parser (List Byte)}
    (numeric : marks.all numberByte = true) (isLocal : Local part) :
    Local (optionalPart marks part) := by
  intro text scanned after more read stops
  cases text with
  | nil =>
      cases read
      cases more with
      | nil => rfl
      | cons first rest => simp [optionalPart, not_contains_of_stops numeric stops]
  | cons byte text =>
      simp only [optionalPart, List.cons_append, List.contains_iff_mem] at read ⊢
      by_cases marked : byte ∈ marks
      · rw [if_pos marked] at read ⊢
        obtain ⟨⟨inner, final⟩, found, same⟩ := Option.map_eq_some_iff.mp read
        cases same
        rw [isLocal text inner _ more found stops, Option.map_some]
      · rw [if_neg marked] at read ⊢
        cases read
        rfl

theorem and_then_local {first second : Parser (List Byte)} (left : Local first)
    (right : Local second) : Local (andThen first second) := by
  intro text scanned after more read stops
  obtain ⟨⟨front, middle⟩, one, found⟩ := Option.bind_eq_some_iff.mp read
  obtain ⟨⟨back, final⟩, two, same⟩ := Option.map_eq_some_iff.mp found
  cases same
  rw [andThen, left text front middle more one stops, Option.bind_some]
  simp only
  rw [right middle back _ more two stops, Option.map_some]

theorem scan_number_local : Local scanNumber := by
  apply and_then_local (optional_byte_local (by decide))
  apply and_then_local scan_integer_local
  apply and_then_local (optional_part_local (by decide) scan_digits_local)
  apply optional_part_local (by decide)
  exact and_then_local (optional_byte_local (by decide)) scan_digits_local

def NumberLiteral (literal : List Byte) : Prop := scanNumber literal = some (literal, [])

theorem NumberLiteral.starts {literal : List Byte} (whole : NumberLiteral literal) :
    ∃ first tail, literal = first :: tail ∧ numberByte first = true := by
  cases literal with
  | nil => cases whole
  | cons first tail =>
      obtain ⟨front, same, rfl, bytes⟩ := scan_number_sound _ _ _ whole
      exact ⟨first, tail, rfl, bytes first (by simp)⟩

theorem NumberLiteral.scans {literal : List Byte} (whole : NumberLiteral literal)
    {rest : List Byte} (stops : Stops rest) : scanNumber (literal ++ rest) = some (literal, rest) :=
  scan_number_local literal literal [] rest whole stops

theorem stops_cons {byte : Byte} (other : numberByte byte = false) (rest : List Byte) :
    Stops (byte :: rest) := by
  intro first here
  cases here
  exact other

theorem expect_other {wanted byte : Byte} (other : byte ≠ wanted) (rest : List Byte) :
    expect wanted (byte :: rest) = none :=
  if_neg other

theorem skip_space_cons {byte : Byte} (other : isSpace byte = false) (rest : List Byte) :
    skipSpace (byte :: rest) = byte :: rest := by
  simp [skipSpace, other]

theorem keyword_append (word rest : List Byte) : keyword word (word ++ rest) = some rest := by
  simp [keyword]

theorem keyword_other {first : Byte} {word : List Byte} {byte : Byte} (other : first ≠ byte)
    (rest : List Byte) : keyword (first :: word) (byte :: rest) = none := by
  simp [keyword, other]

theorem parse_string_other {byte : Byte} (other : byte ≠ quoteMark) (rest : List Byte) :
    parseString (byte :: rest) = none := by
  simp [parseString, expect_other other]

theorem parse_scalar_number {literal rest : List Byte} (whole : NumberLiteral literal)
    (stops : Stops rest) : parseScalar (literal ++ rest) = some (.num literal, rest) := by
  have scanned := whole.scans stops
  obtain ⟨first, tail, rfl, numeric⟩ := whole.starts
  have other : ∀ byte, numberByte byte = false → byte ≠ first := by
    rintro byte notNumeric rfl
    rw [numeric] at notNumeric
    cases notNumeric
  rw [List.cons_append] at scanned ⊢
  simp [parseScalar, parse_string_other (other quoteMark (by decide)).symm,
    keyword_other (other 0x6E (by decide)), keyword_other (other 0x74 (by decide)),
    keyword_other (other 0x66 (by decide)), scanned]

theorem parse_value_scalar {byte : Byte} (notArray : byte ≠ openBracket)
    (notObject : byte ≠ openBrace) (limit : Nat) (rest : List Byte) :
    parseValue limit (byte :: rest) = parseScalar (byte :: rest) := by
  cases limit with
  | zero => rfl
  | succ limit => simp [parseValue, expect_other notArray, expect_other notObject]

/-- Whether the byte can follow an entry: it ends numbers and is no white space. -/
def delimiter (byte : Byte) : Bool := !numberByte byte && !isSpace byte

section Entries

variable {Source Entry : Type} {entry : Parser Entry} {close : Byte} {spell : Source → List Byte}
  {denote : Source → Entry} {fits : Source → Prop} [DecidablePred fits]

/-- Entries that are parsed exactly when they fit are parsed as a list exactly when all of
them fit. -/
theorem entries_spelled (closes : delimiter close = true) (notComma : close ≠ comma)
    (source : Source) (others : List Source)
    (reads : ∀ item ∈ source :: others, ∀ rest, Stops rest → entry (spell item ++ rest) =
      if fits item then some (denote item, rest) else none)
    (rest : List Byte) (fuel : Nat) (enough : others.length < fuel) :
    entries entry close fuel (separated ((source :: others).map spell) ++ close :: rest) =
      if ∀ item ∈ source :: others, fits item then
        some ((source :: others).map denote, rest) else none := by
  simp only [delimiter, Bool.and_eq_true, Bool.not_eq_true'] at closes
  induction others generalizing source fuel with
  | nil =>
      cases fuel with
      | zero => cases enough
      | succ fuel =>
          have here := reads source (by simp) (close :: rest) (stops_cons closes.1 rest)
          simp only [List.map_cons, List.map_nil, separated, entries, here, List.mem_singleton,
            forall_eq]
          by_cases fit : fits source
          · simp [fit, skip_space_cons closes.2, expect_other notComma]
          · simp [fit]
  | cons next others induction =>
      cases fuel with
      | zero => cases enough
      | succ fuel =>
          simp only [List.map_cons, separated, List.append_assoc, List.cons_append]
          have here := reads source (by simp)
            (comma :: (separated (spell next :: others.map spell) ++ close :: rest))
            (stops_cons (by decide) _)
          have later := induction next (fun item member => reads item (by simp [member])) fuel
            (by simpa using enough)
          simp only [List.map_cons] at later
          rw [entries, here]
          by_cases fit : fits source
          · have blank : isSpace comma = false := by decide
            rw [if_pos fit, Option.bind_some]
            simp only [skip_space_cons blank, expect_cons, later]
            by_cases fitOthers : ∀ item ∈ next :: others, fits item
            · rw [if_pos fitOthers, if_pos (List.forall_mem_cons.mpr ⟨fit, fitOthers⟩)]
              rfl
            · rw [if_neg fitOthers,
                if_neg fun every => fitOthers (List.forall_mem_cons.mp every).2]
              rfl
          · rw [if_neg fit, if_neg fun every => fit (every source (by simp))]
            rfl

theorem separated_length (spelled : ∀ source : Source, spell source ≠ []) (first : Source)
    (others : List Source) :
    others.length < (separated ((first :: others).map spell)).length := by
  induction others generalizing first with
  | nil =>
      simpa [separated] using List.length_pos_iff.mpr (spelled first)
  | cons next others induction =>
      have shorter := induction next
      simp only [List.map_cons, separated, List.length_append, List.length_cons] at shorter ⊢
      omega

theorem parse_list_spelled (closes : delimiter close = true) (notComma : close ≠ comma)
    (sources : List Source)
    (opens : ∀ item, ∃ first tail, spell item = first :: tail ∧
      first ≠ close ∧ isSpace first = false)
    (reads : ∀ item ∈ sources, ∀ rest, Stops rest → entry (spell item ++ rest) =
      if fits item then some (denote item, rest) else none)
    (rest : List Byte) :
    parseList entry close (separated (sources.map spell) ++ close :: rest) =
      if ∀ item ∈ sources, fits item then some (sources.map denote, rest) else none := by
  have closing := closes
  simp only [delimiter, Bool.and_eq_true, Bool.not_eq_true'] at closing
  cases sources with
  | nil => simp [parseList, separated, skip_space_cons closing.2]
  | cons source others =>
      have front : ∃ first tail, separated ((source :: others).map spell) = first :: tail ∧
          first ≠ close ∧ isSpace first = false := by
        obtain ⟨first, tail, spelled, notClose, blank⟩ := opens source
        cases others with
        | nil => exact ⟨first, tail, spelled, notClose, blank⟩
        | cons next others =>
            simp only [List.map_cons, separated, spelled, List.cons_append]
            exact ⟨first, _, rfl, notClose, blank⟩
      have nonempty : ∀ item, spell item ≠ [] := by
        intro item
        obtain ⟨first, tail, spelled, -⟩ := opens item
        simp [spelled]
      have enough := separated_length nonempty source others
      rw [parseList]
      obtain ⟨first, tail, whole, notClose, blank⟩ := front
      have unopened : expect close
          (skipSpace (separated ((source :: others).map spell) ++ close :: rest)) = none := by
        rw [whole, List.cons_append, skip_space_cons blank, expect_other notClose]
      rw [unopened]
      apply entries_spelled closes notComma source others reads
      simp only [List.length_append, List.length_cons]
      omega

end Entries

section RoundTrip

variable {Number : Type} {format : Number → List Byte}

theorem quote_starts (string : List Byte) : ∃ tail, quote string = quoteMark :: tail := ⟨_, rfl⟩

theorem print_starts (literals : ∀ number, NumberLiteral (format number))
    (value : Value Number) :
    ∃ first tail, print format value = first :: tail ∧ first ≠ closeBracket ∧
      first ≠ closeBrace ∧ isSpace first = false := by
  cases value with
  | null => exact ⟨_, _, rfl, by decide⟩
  | bool value => cases value <;> exact ⟨_, _, rfl, by decide⟩
  | num value =>
      obtain ⟨first, tail, same, numeric⟩ := (literals value).starts
      refine ⟨first, tail, same, ?_, ?_, ?_⟩
      · rintro rfl
        cases numeric
      · rintro rfl
        cases numeric
      · by_contra space
        have every : ∀ byte ∈ ([0x20, 0x09, 0x0A, 0x0D] : List Byte),
            numberByte byte = false := List.forall_iff_forall_mem.mp (by decide)
        have member : first ∈ ([0x20, 0x09, 0x0A, 0x0D] : List Byte) := by
          simpa only [isSpace, Bool.not_eq_false, List.contains_iff_mem] using space
        rw [every first member] at numeric
        cases numeric
  | str value => exact ⟨_, _, rfl, by decide⟩
  | arr items => exact ⟨_, _, rfl, by decide⟩
  | obj members => exact ⟨_, _, rfl, by decide⟩

theorem parse_scalar_printed (literals : ∀ number, NumberLiteral (format number))
    {value : Value Number} (scalar : depth value = 0) (rest : List Byte) (stops : Stops rest) :
    parseScalar (print format value ++ rest) = some (mapValue format coerce value, rest) := by
  cases value with
  | null => rfl
  | bool value => cases value <;> rfl
  | num value => exact parse_scalar_number (literals value) stops
  | str value => simp only [parseScalar, print, parse_string_quoted, mapValue]
  | arr items => cases scalar
  | obj members => cases scalar

theorem print_scalar_starts (literals : ∀ number, NumberLiteral (format number))
    {value : Value Number} (scalar : depth value = 0) :
    ∃ first tail, print format value = first :: tail ∧ first ≠ openBracket ∧
      first ≠ openBrace := by
  cases value with
  | null => exact ⟨_, _, rfl, by decide⟩
  | bool value => cases value <;> exact ⟨_, _, rfl, by decide⟩
  | num value =>
      obtain ⟨first, tail, same, numeric⟩ := (literals value).starts
      refine ⟨first, tail, same, ?_, ?_⟩
      · rintro rfl
        cases numeric
      · rintro rfl
        cases numeric
  | str value => exact ⟨_, _, rfl, by decide⟩
  | arr items => cases scalar
  | obj members => cases scalar

theorem parse_value_of_scalar (literals : ∀ number, NumberLiteral (format number))
    {value : Value Number} (scalar : depth value = 0) (limit : Nat) (rest : List Byte)
    (stops : Stops rest) :
    parseValue limit (print format value ++ rest) =
      if depth value ≤ limit then some (mapValue format coerce value, rest) else none := by
  have parsed := parse_scalar_printed literals scalar rest stops
  obtain ⟨first, tail, spelled, notArray, notObject⟩ := print_scalar_starts literals scalar
  rw [spelled, List.cons_append] at parsed ⊢
  rw [parse_value_scalar notArray notObject, parsed, scalar, if_pos (Nat.zero_le _)]

def readMember (format : Number → List Byte) (member : List Byte × Value Number) : Member where
  key := coerce member.1
  raw := print format member.2
  value := mapValue format coerce member.2

/-- The value parses in front of every rest that ends numbers, if it is not too deep. -/
def ParsesWithin (format : Number → List Byte) (limit : Nat) (value : Value Number) : Prop :=
  ∀ rest, Stops rest → parseValue limit (print format value ++ rest) =
    if depth value ≤ limit then some (mapValue format coerce value, rest) else none

theorem print_no_angle (literals : ∀ number, NumberLiteral (format number))
    (value : Value Number) : angle ∉ print format value := by
  induction value using value_induction with
  | null =>
      rw [print]
      decide
  | bool value =>
      cases value <;>
      · rw [print]
        decide
  | num value =>
      obtain ⟨front, -, rfl, bytes⟩ := scan_number_sound _ _ _ (literals value)
      intro found
      have numeric := bytes angle found
      cases numeric
  | str value => exact quote_no_angle value
  | arr items induction =>
      simp only [print, print_items_eq, List.cons_append, List.mem_cons, List.mem_append,
        List.not_mem_nil, or_false, not_or]
      refine ⟨by decide, ?_, by decide⟩
      intro found
      rcases mem_separated found with separator | ⟨part, listed, here⟩
      · cases separator
      · obtain ⟨item, member, rfl⟩ := List.mem_map.mp listed
        exact induction item member here
  | obj members induction =>
      simp only [print, print_members_eq, List.cons_append, List.mem_cons, List.mem_append,
        List.not_mem_nil, or_false, not_or]
      refine ⟨by decide, ?_, by decide⟩
      intro found
      rcases mem_separated found with separator | ⟨part, listed, here⟩
      · cases separator
      · obtain ⟨member, inside, rfl⟩ := List.mem_map.mp listed
        rw [printMember, List.mem_append, List.mem_cons] at here
        rcases here with key | separator | value
        · exact quote_no_angle _ key
        · cases separator
        · exact induction member inside value

theorem number_byte_small {byte : Byte} (numeric : numberByte byte = true) : byte < 0x80 := by
  have marks : ∀ mark ∈ ([0x2B, 0x2D, 0x2E, 0x45, 0x65] : List Byte), mark < 0x80 :=
    List.forall_iff_forall_mem.mp (by decide)
  rw [numberByte, Bool.or_eq_true, List.contains_iff_mem] at numeric
  rcases numeric with isDigit | mark
  · rw [digit, within, decide_eq_true_eq] at isDigit
    have last : (0x39 : Byte) < 0x80 := by decide
    exact UInt8.lt_of_le_of_lt isDigit.2 last
  · exact marks byte mark

theorem print_well_formed (literals : ∀ number, NumberLiteral (format number))
    (value : Value Number) : WellFormed (print format value) := by
  have bracketed : ∀ (first last : Byte) (inner : List Byte), first < 0x80 → last < 0x80 →
      WellFormed inner → WellFormed (first :: inner ++ [last]) := by
    intro first last inner smallFirst smallLast well
    exact ((is_rune_ascii smallFirst).wellFormed.append well).append
      (is_rune_ascii smallLast).wellFormed
  induction value using value_induction with
  | null =>
      rw [print]
      exact well_formed_literal (by decide)
  | bool value =>
      cases value <;>
      · rw [print]
        exact well_formed_literal (by decide)
  | num value =>
      obtain ⟨front, -, rfl, bytes⟩ := scan_number_sound _ _ _ (literals value)
      apply well_formed_ascii
      intro byte inside
      exact number_byte_small (bytes byte inside)
  | str value => exact quote_well_formed value
  | arr items induction =>
      rw [print, print_items_eq]
      apply bracketed _ _ _ (by decide) (by decide)
      apply separated_well_formed
      rw [List.forall_mem_map]
      exact induction
  | obj members induction =>
      rw [print, print_members_eq]
      apply bracketed _ _ _ (by decide) (by decide)
      apply separated_well_formed
      rw [List.forall_mem_map]
      intro member inside
      have separator : WellFormed [colon] := well_formed_literal (by decide)
      exact (quote_well_formed member.1).append (separator.append (induction member inside))

theorem parse_item_printed (literals : ∀ number, NumberLiteral (format number)) {limit : Nat}
    {item : Value Number} (parses : ParsesWithin format limit item) (rest : List Byte)
    (stops : Stops rest) :
    parseItem (parseValue limit) (print format item ++ rest) =
      if depth item ≤ limit then some (mapValue format coerce item, rest) else none := by
  have parsed := parses rest stops
  obtain ⟨first, tail, spelled, -, -, blank⟩ := print_starts literals item
  rw [spelled, List.cons_append] at parsed ⊢
  rw [parseItem, skip_space_cons blank, parsed]

theorem parse_member_printed (literals : ∀ number, NumberLiteral (format number)) {limit : Nat}
    {member : List Byte × Value Number} (parses : ParsesWithin format limit member.2)
    (rest : List Byte) (stops : Stops rest) :
    parseMember (parseValue limit) (printMember format member ++ rest) =
      if depth member.2 ≤ limit then some (readMember format member, rest) else none := by
  have parsed := parses rest stops
  obtain ⟨first, tail, spelled, -, -, blank⟩ := print_starts literals member.2
  have skipped : skipSpace (print format member.2 ++ rest) = print format member.2 ++ rest := by
    rw [spelled, List.cons_append, skip_space_cons blank]
  have key : parseString (skipSpace (printMember format member ++ rest)) =
      some (coerce member.1, colon :: (print format member.2 ++ rest)) := by
    have read := parse_string_quoted member.1 (colon :: (print format member.2 ++ rest))
    obtain ⟨inner, quoted⟩ := quote_starts member.1
    simp only [printMember, quoted, List.cons_append, List.append_assoc] at read ⊢
    rw [skip_space_cons (by decide), read]
  simp only [parseMember, key, Option.bind_some,
    skip_space_cons (by decide : isSpace colon = false), expect_cons, skipped, parsed]
  by_cases fits : depth member.2 ≤ limit
  · simp [fits, readMember]
  · simp [fits]

theorem parse_array_printed (literals : ∀ number, NumberLiteral (format number)) {limit : Nat}
    {items : List (Value Number)} (parses : ∀ item ∈ items, ParsesWithin format limit item)
    (rest : List Byte) :
    parseArray (parseValue limit) (print format (.arr items) ++ rest) =
      if depthItems items ≤ limit then some (items.map (mapValue format coerce), rest)
      else none := by
  simp only [depth_items_le, print, parseArray, List.cons_append, expect_cons, Option.bind_some,
    List.append_assoc, print_items_eq]
  apply parse_list_spelled (by decide) (by decide)
  · intro item
    obtain ⟨first, tail, spelled, notClose, -, blank⟩ := print_starts literals item
    exact ⟨first, tail, spelled, notClose, blank⟩
  · intro item member
    exact parse_item_printed literals (parses item member)

theorem parse_object_printed (literals : ∀ number, NumberLiteral (format number)) {limit : Nat}
    {members : List (List Byte × Value Number)}
    (parses : ∀ member ∈ members, ParsesWithin format limit member.2) (rest : List Byte) :
    parseObject (parseValue limit) (print format (.obj members) ++ rest) =
      if depthMembers members ≤ limit then some (members.map (readMember format), rest)
      else none := by
  simp only [depth_members_le, print, parseObject, List.cons_append, expect_cons,
    Option.bind_some, List.append_assoc, print_members_eq]
  apply parse_list_spelled (by decide) (by decide)
  · intro member
    exact ⟨_, _, rfl, by decide⟩
  · intro member listed
    exact parse_member_printed literals (parses member listed)

theorem parse_value_printed (literals : ∀ number, NumberLiteral (format number))
    (value : Value Number) (limit : Nat) : ParsesWithin format limit value := by
  induction value using value_induction generalizing limit with
  | null | bool | num | str => exact parse_value_of_scalar literals rfl limit
  | arr items induction =>
      intro rest stops
      cases limit with
      | zero => rfl
      | succ limit =>
          have parsed := parse_array_printed literals
            (fun item member => induction item member limit) rest
          have opened : (expect openBracket (print format (.arr items) ++ rest)).isSome := by
            simp [print]
          simp only [parseValue]
          rw [if_pos opened, parsed]
          simp only [depth, Nat.add_le_add_iff_right, mapValue, map_items_eq]
          split_ifs <;> rfl
  | obj members induction =>
      intro rest stops
      cases limit with
      | zero => rfl
      | succ limit =>
          have parsed := parse_object_printed literals
            (fun member listed => induction member listed limit) rest
          have notArray : ¬ (expect openBracket (print format (.obj members) ++ rest)).isSome := by
            simp [print, expect_other (by decide : openBrace ≠ openBracket)]
          have opened : (expect openBrace (print format (.obj members) ++ rest)).isSome := by
            simp [print]
          simp only [parseValue]
          rw [if_neg notArray, if_pos opened, parsed]
          simp only [depth, Nat.add_le_add_iff_right, mapValue, map_members_eq]
          split_ifs
          · simp [Member.pair, readMember]
          · rfl

/-- A printed value is parsed exactly when it is not nested too deep, and as the value itself
with its strings coerced to UTF-8. -/
theorem parse_printed (literals : ∀ number, NumberLiteral (format number))
    (value : Value Number) :
    parse (print format value) =
      if depth value ≤ maxNestingDepth then some (mapValue format coerce value) else none := by
  have parsed := parse_value_printed literals value maxNestingDepth [] (by simp [Stops])
  obtain ⟨first, tail, spelled, -, -, blank⟩ := print_starts literals value
  rw [List.append_nil] at parsed
  have skipped : skipSpace (print format value) = print format value := by
    rw [spelled, skip_space_cons blank]
  rw [parse, skipped, parsed]
  split_ifs <;> rfl

end RoundTrip

end Gocoon.JsonPrinting
