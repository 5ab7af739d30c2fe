import Gocoon.Utf8Text
import Mathlib.Data.List.DropRight
import Mathlib.Data.List.Infix

/-!
# Searching and trimming byte strings

`strings.Index`, `strings.ReplaceAll`, `strings.TrimLeft`, `strings.TrimRight` and
`strings.TrimSpace`. The lemmas about `index` say where the search goes on behind a part of
the text that cannot hold an occurrence: a part without the first byte of the pattern, or a
part without an occurrence that is followed by a byte foreign to the pattern.
-/

namespace Gocoon.GoStrings

open Gocoon.LittleEndianBytes
open Gocoon.Utf8Text

set_option autoImplicit false

/-- `strings.Index`: where the first occurrence starts. -/
def index (pattern : List Byte) : List Byte → Option Nat
  | [] => if pattern = [] then some 0 else none
  | byte :: rest =>
      if pattern.isPrefixOf (byte :: rest) then some 0
      else (index pattern rest).map (· + 1)

theorem index_eq_none_iff (pattern text : List Byte) :
    index pattern text = none ↔ ¬ pattern <:+: text := by
  induction text with
  | nil =>
      simp only [index, List.infix_nil]
      split_ifs with empty <;> simp [empty]
  | cons byte rest induction =>
      simp only [index, List.isPrefixOf_iff_prefix, List.infix_cons_iff]
      split_ifs with starts
      · simp [starts]
      · simp [starts, induction]

theorem index_start (pattern rest : List Byte) : index pattern (pattern ++ rest) = some 0 := by
  cases pattern with
  | nil => cases rest <;> simp [index]
  | cons byte pattern => simp [index]

theorem index_skip {first : Byte} {pattern front : List Byte} (foreign : first ∉ front)
    (rest : List Byte) :
    index (first :: pattern) (front ++ rest) =
      (index (first :: pattern) rest).map (· + front.length) := by
  induction front with
  | nil => simp
  | cons byte front induction =>
      simp only [List.mem_cons, not_or] at foreign
      have apart : (first == byte) = false := by simpa using foreign.1
      simp only [List.cons_append, index, List.isPrefixOf, apart, Bool.false_and,
        Bool.false_eq_true, if_false, induction foreign.2, Option.map_map, List.length_cons]
      congr 1

theorem prefix_before_foreign {separator : Byte} {pattern front rest : List Byte}
    (foreign : separator ∉ pattern) (starts : pattern <+: front ++ separator :: rest) :
    pattern <+: front := by
  induction front generalizing pattern with
  | nil =>
      cases pattern with
      | nil => exact List.nil_prefix
      | cons byte pattern =>
          obtain ⟨rfl, -⟩ := List.cons_prefix_cons.mp starts
          exact absurd List.mem_cons_self foreign
  | cons first front induction =>
      cases pattern with
      | nil => exact List.nil_prefix
      | cons byte pattern =>
          obtain ⟨rfl, later⟩ := List.cons_prefix_cons.mp starts
          exact List.cons_prefix_cons.mpr
            ⟨rfl, induction (fun member => foreign (List.mem_cons_of_mem _ member)) later⟩

theorem index_separated {separator : Byte} {pattern front : List Byte}
    (foreign : separator ∉ pattern) (absent : ¬ pattern <:+: front) (rest : List Byte) :
    index pattern (front ++ separator :: rest) =
      (index pattern rest).map (· + (front.length + 1)) := by
  induction front with
  | nil =>
      have notHere : ¬ pattern <+: separator :: rest := fun starts =>
        absent (prefix_before_foreign foreign (starts : pattern <+: [] ++ _)).isInfix
      simp [index, List.isPrefixOf_iff_prefix, notHere]
  | cons byte front induction =>
      have notHere : ¬ pattern <+: (byte :: front) ++ separator :: rest := fun starts =>
        absent (prefix_before_foreign foreign starts).isInfix
      have later := induction fun inside => absent (inside.trans (List.suffix_cons _ _).isInfix)
      rw [List.cons_append] at notHere ⊢
      simp only [index, List.isPrefixOf_iff_prefix, notHere, if_false, later, Option.map_map,
        List.length_cons]
      congr 1

theorem index_length {pattern text : List Byte} {start : Nat}
    (found : index pattern text = some start) : start + pattern.length ≤ text.length := by
  induction text generalizing start with
  | nil =>
      simp only [index] at found
      split_ifs at found with empty
      cases found
      simp [empty]
  | cons byte rest induction =>
      simp only [index, List.isPrefixOf_iff_prefix] at found
      split_ifs at found with here
      · cases found
        simpa using here.length_le
      · obtain ⟨later, inside, rfl⟩ := Option.map_eq_some_iff.mp found
        have bound := induction inside
        rw [List.length_cons]
        omega

theorem index_within {pattern text : List Byte} {start : Nat}
    (found : index pattern text = some start) (rest : List Byte) :
    index pattern (text ++ rest) = some start := by
  induction text generalizing start with
  | nil =>
      simp only [index] at found
      split_ifs at found with empty
      cases found
      rw [empty]
      exact index_start [] _
  | cons byte text induction =>
      simp only [index, List.isPrefixOf_iff_prefix] at found
      rw [List.cons_append]
      simp only [index, List.isPrefixOf_iff_prefix]
      split_ifs at found with here
      · cases found
        exact if_pos (here.trans (List.prefix_append (byte :: text) rest))
      · obtain ⟨later, inside, rfl⟩ := Option.map_eq_some_iff.mp found
        have fits := index_length inside
        have notHere : ¬ pattern <+: byte :: (text ++ rest) := by
          intro starts
          apply here
          apply List.prefix_of_prefix_length_le starts (List.prefix_append (byte :: text) rest)
          rw [List.length_cons]
          omega
        rw [if_neg notHere, induction inside]
        rfl

theorem index_occurs {pattern text : List Byte} {start : Nat}
    (found : index pattern text = some start) :
    ∃ front rest, text = front ++ (pattern ++ rest) ∧ front.length = start := by
  induction text generalizing start with
  | nil =>
      simp only [index] at found
      split_ifs at found with empty
      cases found
      exact ⟨[], [], by simp [empty], rfl⟩
  | cons byte text induction =>
      simp only [index, List.isPrefixOf_iff_prefix] at found
      split_ifs at found with here
      · cases found
        obtain ⟨rest, whole⟩ := here
        exact ⟨[], rest, whole.symm, rfl⟩
      · obtain ⟨later, inside, rfl⟩ := Option.map_eq_some_iff.mp found
        obtain ⟨front, rest, whole, length⟩ := induction inside
        exact ⟨byte :: front, rest, by rw [whole, List.cons_append], by simp [length]⟩

/-- The text splits at the first occurrence of a pattern, which does not occur before. -/
theorem index_split {first : Byte} {pattern text : List Byte} {start : Nat}
    (found : index (first :: pattern) text = some start) :
    ∃ front rest, text = front ++ (first :: pattern ++ rest) ∧ front.length = start ∧
      ¬ first :: pattern <:+: front := by
  obtain ⟨front, rest, whole, length⟩ := index_occurs found
  refine ⟨front, rest, whole, length, ?_⟩
  intro occurs
  rcases earlier : index (first :: pattern) front with _ | other
  · exact (index_eq_none_iff _ _).mp earlier occurs
  · have same := index_within earlier (first :: pattern ++ rest)
    have bound := index_length earlier
    rw [← whole, found] at same
    cases same
    rw [length, List.length_cons] at bound
    omega

theorem index_beyond {first : Byte} {pattern front : List Byte} (single : first ∉ pattern)
    (absent : ¬ first :: pattern <:+: front) (rest : List Byte) :
    index (first :: pattern) (front ++ first :: rest) =
      (index (first :: pattern) (first :: rest)).map (· + front.length) := by
  induction front with
  | nil => simp
  | cons byte front induction =>
      have notHere : ¬ first :: pattern <+: byte :: (front ++ first :: rest) := by
        intro starts
        obtain ⟨rfl, later⟩ := List.cons_prefix_cons.mp starts
        apply absent
        exact (List.cons_prefix_cons.mpr ⟨rfl, prefix_before_foreign single later⟩).isInfix
      have later := induction fun inside => absent (inside.trans (List.suffix_cons _ _).isInfix)
      rw [List.cons_append, index]
      simp only [List.isPrefixOf_iff_prefix, notHere, if_false, later, Option.map_map,
        List.length_cons]
      congr 1

theorem index_first {first : Byte} {pattern front : List Byte} (single : first ∉ pattern)
    (absent : ¬ first :: pattern <:+: front) (rest : List Byte) :
    index (first :: pattern) (front ++ (first :: pattern ++ rest)) = some front.length := by
  have start := index_start (first :: pattern) rest
  rw [List.cons_append] at start ⊢
  rw [index_beyond single absent, start, Option.map_some, Nat.zero_add]

/-- No part of the pattern, other than the whole, is both its start and its end. -/
def Unbordered (pattern : List Byte) : Prop :=
  ∀ size < pattern.length, 0 < size →
    pattern.take size ≠ pattern.drop (pattern.length - size)

theorem index_unbordered {pattern front : List Byte} (unbordered : Unbordered pattern)
    (absent : ¬ pattern <:+: front) (rest : List Byte) :
    index pattern (front ++ (pattern ++ rest)) = some front.length := by
  induction front with
  | nil => exact index_start pattern rest
  | cons byte front induction =>
      have notHere : ¬ pattern <+: (byte :: front) ++ (pattern ++ rest) := by
        intro starts
        by_cases fits : pattern.length ≤ (byte :: front).length
        · have inside := List.prefix_of_prefix_length_le starts (List.prefix_append _ _) fits
          exact absent inside.isInfix
        · -- The end of the pattern is then a start of it, too.
          obtain ⟨more, same⟩ := starts
          have positive : 0 < (byte :: front).length := Nat.succ_pos _
          have overlap := congrArg (List.drop (byte :: front).length) same
          rw [List.drop_left, List.drop_append_of_le_length (by omega)] at overlap
          generalize (byte :: front).length = count at overlap fits positive
          have border := List.prefix_of_prefix_length_le ⟨more, overlap⟩
            (List.prefix_append pattern rest) (by rw [List.length_drop]; omega)
          have size : (pattern.drop count).length = pattern.length - count := List.length_drop
          apply unbordered (pattern.length - count) (by omega) (by omega)
          rw [← size, ← List.prefix_iff_eq_take.mp border, size]
          congr 1
          omega
      have later := induction fun inside => absent (inside.trans (List.suffix_cons _ _).isInfix)
      rw [List.cons_append] at notHere ⊢
      rw [index]
      simp only [List.isPrefixOf_iff_prefix, notHere, if_false, later, Option.map_some,
        List.length_cons]

theorem infix_ending {last : Byte} {part text back : List Byte} (apart : last ∉ back)
    (occurs : part ++ [last] <:+: text ++ back) : part ++ [last] <:+: text := by
  obtain ⟨before, after, same⟩ := occurs
  rcases List.append_eq_append_iff.mp same with ⟨gap, rfl, -⟩ | ⟨gap, ending, rfl⟩
  · exact ⟨before, gap, rfl⟩
  · rcases List.eq_nil_or_concat' gap with rfl | ⟨others, byte, rfl⟩
    · exact ⟨before, [], by simpa using ending⟩
    · rw [← List.append_assoc, ← List.append_assoc] at ending
      have ends : last = byte := List.append_singleton_inj.mp ending |>.2
      exact absurd (by simp [ends]) apart

/-- The search runs over the part, whatever follows it. -/
def Passes (pattern front : List Byte) : Prop :=
  ∀ rest, index pattern (front ++ rest) = (index pattern rest).map (· + front.length)

theorem passes_foreign {first : Byte} {pattern front : List Byte} (foreign : first ∉ front) :
    Passes (first :: pattern) front :=
  fun rest => index_skip foreign rest

theorem passes_closed {last : Byte} {pattern front : List Byte} (foreign : last ∉ pattern)
    (absent : ¬ pattern <:+: front) : Passes pattern (front ++ [last]) := by
  intro rest
  rw [List.append_assoc, List.singleton_append, index_separated foreign absent,
    List.length_append, List.length_singleton]

theorem passes_tag {first : Byte} {pattern name : List Byte} (single : first ∉ name)
    (size : Nat) (inPattern : size ≤ pattern.length) (inName : size ≤ name.length)
    (apart : pattern.take size ≠ name.take size) :
    Passes (first :: pattern) (first :: name) := by
  intro rest
  have notHere : ¬ first :: pattern <+: first :: (name ++ rest) := by
    intro starts
    obtain ⟨-, later⟩ := List.cons_prefix_cons.mp starts
    obtain ⟨more, whole⟩ := later
    apply apart
    have taken := congrArg (List.take size) whole
    rwa [List.take_append_of_le_length inPattern, List.take_append_of_le_length inName] at taken
  rw [List.cons_append, index]
  simp only [List.isPrefixOf_iff_prefix, notHere, if_false, index_skip single, Option.map_map,
    List.length_cons]
  congr 1

/-- `strings.ReplaceAll`, for a nonempty pattern. -/
def replaceFrom (pattern replacing : List Byte) : Nat → List Byte → List Byte
  | 0, text => text
  | fuel + 1, text =>
      match index pattern text with
      | none => text
      | some start =>
          text.take start ++ replacing ++
            replaceFrom pattern replacing fuel (text.drop (start + pattern.length))

def replaceAll (text pattern replacing : List Byte) : List Byte :=
  replaceFrom pattern replacing text.length text

theorem replace_from_absent {pattern text : List Byte} (absent : ¬ pattern <:+: text)
    (replacing : List Byte) (fuel : Nat) : replaceFrom pattern replacing fuel text = text := by
  cases fuel with
  | zero => rfl
  | succ fuel => rw [replaceFrom, (index_eq_none_iff _ _).mpr absent]

theorem replace_from_found {pattern front rest : List Byte}
    (found : index pattern (front ++ (pattern ++ rest)) = some front.length)
    (replacing : List Byte) (fuel : Nat) :
    replaceFrom pattern replacing (fuel + 1) (front ++ (pattern ++ rest)) =
      front ++ replacing ++ replaceFrom pattern replacing fuel rest := by
  have behind : (front ++ (pattern ++ rest)).drop (front.length + pattern.length) = rest := by
    rw [← List.drop_drop, List.drop_left, List.drop_left]
  rw [replaceFrom, found]
  dsimp only
  rw [List.take_left, behind]

/-- `strings.TrimLeft` with a cutset of one byte. -/
def trimLeft (text : List Byte) (cut : Byte) : List Byte := text.dropWhile (· = cut)

/-- `strings.TrimRight` with a cutset of one byte. -/
def trimRight (text : List Byte) (cut : Byte) : List Byte := text.rdropWhile (· = cut)

/-- The runes of `unicode.IsSpace`. -/
def spaceRunes : List (List Byte) :=
  [[0x09], [0x0A], [0x0B], [0x0C], [0x0D], [0x20], [0xC2, 0x85], [0xC2, 0xA0],
    [0xE1, 0x9A, 0x80], [0xE2, 0x80, 0x80], [0xE2, 0x80, 0x81], [0xE2, 0x80, 0x82],
    [0xE2, 0x80, 0x83], [0xE2, 0x80, 0x84], [0xE2, 0x80, 0x85], [0xE2, 0x80, 0x86],
    [0xE2, 0x80, 0x87], [0xE2, 0x80, 0x88], [0xE2, 0x80, 0x89], [0xE2, 0x80, 0x8A],
    [0xE2, 0x80, 0xA8], [0xE2, 0x80, 0xA9], [0xE2, 0x80, 0xAF], [0xE2, 0x81, 0x9F],
    [0xE3, 0x80, 0x80]]

def isSpacePiece : Piece → Bool
  | .rune bytes => spaceRunes.contains bytes
  | .stray _ => false

/-- `strings.TrimSpace`. A leading byte never continues a rune, so decoding from the end meets
the same runes as decoding from the start. -/
def trimSpace (text : List Byte) : List Byte :=
  (((pieces text).dropWhile isSpacePiece).rdropWhile isSpacePiece).flatMap Piece.bytes

theorem trim_space_well_formed {text : List Byte} (well : WellFormed text) :
    WellFormed (trimSpace text) := by
  apply well_formed_of_pieces
  intro piece inside
  have kept := (List.rdropWhile_prefix isSpacePiece _).subset inside
  exact well.pieces_whole piece ((List.dropWhile_suffix isSpacePiece).subset kept)

theorem space_piece_bytes {piece : Piece} (space : isSpacePiece piece = true) :
    ∀ byte ∈ piece.bytes, byte ≤ 0x20 ∨ 0x80 ≤ byte := by
  have listed : spaceRunes.Forall fun bytes => bytes.Forall fun byte =>
      byte ≤ 0x20 ∨ 0x80 ≤ byte := by decide
  cases piece with
  | stray byte => cases space
  | rune bytes =>
      have inside : bytes ∈ spaceRunes := List.contains_iff_mem.mp space
      exact List.forall_iff_forall_mem.mp (List.forall_iff_forall_mem.mp listed bytes inside)

theorem trim_space_split (text : List Byte) :
    ∃ front back, text = front ++ (trimSpace text ++ back) ∧
      (∀ byte ∈ front, byte ≤ 0x20 ∨ 0x80 ≤ byte) ∧ ∀ byte ∈ back, byte ≤ 0x20 ∨ 0x80 ≤ byte := by
  have spaces : ∀ parts : List Piece, (∀ piece ∈ parts, isSpacePiece piece = true) →
      ∀ byte ∈ parts.flatMap Piece.bytes, byte ≤ 0x20 ∨ 0x80 ≤ byte := by
    intro parts all byte inside
    obtain ⟨piece, listed, here⟩ := List.mem_flatMap.mp inside
    exact space_piece_bytes (all piece listed) byte here
  refine ⟨((pieces text).takeWhile isSpacePiece).flatMap Piece.bytes,
    (((pieces text).dropWhile isSpacePiece).rtakeWhile isSpacePiece).flatMap Piece.bytes,
    ?_, ?_, ?_⟩
  · rw [trimSpace, ← List.flatMap_append, List.rdropWhile_append_rtakeWhile, ← List.flatMap_append,
      List.takeWhile_append_dropWhile, pieces_bytes]
  · exact spaces _ fun piece inside => List.mem_takeWhile_imp inside
  · exact spaces _ fun piece inside => List.mem_rtakeWhile_imp inside

theorem trim_space_newline (text : List Byte) : trimSpace (text ++ [0x0A]) = trimSpace text := by
  have cut : pieces (text ++ [0x0A]) = pieces text ++ [.rune [0x0A]] :=
    pieces_append_ascii (by decide) text []
  have space : isSpacePiece (.rune [0x0A]) = true := by decide
  rw [trimSpace, trimSpace, cut, List.dropWhile_append]
  split_ifs with allSpace
  · simp [List.isEmpty_iff.mp allSpace, space]
  · rw [List.rdropWhile_concat_pos _ _ _ space]

theorem trim_space_newlines (text : List Byte) (count : Nat) :
    trimSpace (text ++ List.replicate count 0x0A) = trimSpace text := by
  induction count with
  | zero => simp
  | succ count induction =>
      rw [List.replicate_succ', ← List.append_assoc, trim_space_newline, induction]

theorem trim_space_between {first last : Byte} (asciiFirst : first < 0x80)
    (asciiLast : last < 0x80) (solidFirst : isSpacePiece (.rune [first]) = false)
    (solidLast : isSpacePiece (.rune [last]) = false) (inner : List Byte) :
    trimSpace (first :: inner ++ [last]) = first :: inner ++ [last] := by
  have cut : pieces (first :: inner ++ [last]) =
      .rune [first] :: (pieces inner ++ [.rune [last]]) := by
    have start := pieces_rune (is_rune_ascii asciiFirst) (inner ++ [last])
    rw [List.singleton_append, pieces_append_ascii asciiLast] at start
    rw [List.cons_append, start]
    congr 2
    exact pieces_rune (is_rune_ascii asciiLast) []
  have whole := pieces_bytes (first :: inner ++ [last])
  rw [cut] at whole
  rw [trimSpace, cut, List.dropWhile_cons_of_neg (by simp [solidFirst]), ← List.cons_append,
    List.rdropWhile_concat_neg _ _ _ (by simp [solidLast]), List.cons_append, whole]

end Gocoon.GoStrings
