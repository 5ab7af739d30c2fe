import Gocoon.LittleEndianBytes

/-!
# UTF-8 inside byte strings

A byte string need not be UTF-8. `pieces` cuts one into the well formed runes it holds and
the stray bytes between them, which is how a loop over `utf8.DecodeRune` walks it, and
`coerce` puts the replacement character in the place of every stray byte. What `coerce`
returns is well formed, and it leaves exactly the well formed strings alone.
-/

namespace Gocoon.Utf8Text

open Gocoon.LittleEndianBytes

set_option autoImplicit false

def within (low high byte : Byte) : Bool := decide (low ≤ byte ∧ byte ≤ high)

/-- The size of the sequence that a byte above the ASCII range starts, and the bounds of the
byte behind it. Overlong forms, surrogates and everything above U+10FFFF are excluded by the
bounds of the second byte. -/
def leading (first : Byte) : Option (Nat × Byte × Byte) :=
  if within 0xC2 0xDF first then some (2, 0x80, 0xBF)
  else if first = 0xE0 then some (3, 0xA0, 0xBF)
  else if first = 0xED then some (3, 0x80, 0x9F)
  else if within 0xE1 0xEF first then some (3, 0x80, 0xBF)
  else if first = 0xF0 then some (4, 0x90, 0xBF)
  else if within 0xF1 0xF3 first then some (4, 0x80, 0xBF)
  else if first = 0xF4 then some (4, 0x80, 0x8F)
  else none

/-- Whether `rest` starts with `count` continuation bytes. -/
def continues : Nat → List Byte → Bool
  | 0, _ => true
  | _ + 1, [] => false
  | count + 1, byte :: rest => within 0x80 0xBF byte && continues count rest

def longSize (size : Nat) (low high : Byte) : List Byte → Nat
  | [] => 0
  | second :: others =>
      if within low high second && continues (size - 2) others then size else 0

def runeSize : List Byte → Nat
  | [] => 0
  | first :: rest =>
      if first < 0x80 then 1
      else match leading first with
        | none => 0
        | some (size, low, high) => longSize size low high rest

theorem leading_size {first low high : Byte} {size : Nat}
    (found : leading first = some (size, low, high)) : 2 ≤ size ∧ size ≤ 4 := by
  simp only [leading] at found
  split_ifs at found <;> · injection found with parts; injection parts with same; omega

theorem continues_length {count : Nat} {rest : List Byte} (held : continues count rest = true) :
    count ≤ rest.length := by
  induction count generalizing rest with
  | zero => exact Nat.zero_le _
  | succ count induction =>
      cases rest with
      | nil => exact absurd held (by simp [continues])
      | cons byte rest =>
          simp only [continues, Bool.and_eq_true] at held
          have shorter := induction held.2
          simp only [List.length_cons]
          omega

theorem continues_append {count : Nat} {rest : List Byte} (more : List Byte)
    (enough : count ≤ rest.length) : continues count (rest ++ more) = continues count rest := by
  induction count generalizing rest with
  | zero => simp [continues]
  | succ count induction =>
      cases rest with
      | nil => exact absurd enough (by simp)
      | cons byte rest =>
          simp only [List.length_cons, Nat.add_le_add_iff_right] at enough
          simp only [List.cons_append, continues, induction enough]

theorem continues_take {count size : Nat} {rest : List Byte} (held : continues count rest = true)
    (kept : count ≤ size) : continues count (rest.take size) = true := by
  have enough := continues_length held
  have short : count ≤ (rest.take size).length := by
    rw [List.length_take]
    omega
  rw [← continues_append (rest.drop size) short, List.take_append_drop]
  exact held

/-- What `runeSize` has found: an ASCII byte, or a leading byte with its continuation. -/
inductive RuneAt : List Byte → Nat → Prop where
  | ascii {first : Byte} (rest : List Byte) (small : first < 0x80) : RuneAt (first :: rest) 1
  | long {first second low high : Byte} {others : List Byte} {size : Nat}
      (large : ¬ first < 0x80) (starts : leading first = some (size, low, high))
      (bounded : within low high second = true)
      (continued : continues (size - 2) others = true) :
      RuneAt (first :: second :: others) size

theorem rune_at_of_size {text : List Byte} (found : runeSize text ≠ 0) :
    RuneAt text (runeSize text) := by
  cases text with
  | nil => exact absurd rfl found
  | cons first rest =>
      by_cases small : first < 0x80
      · rw [runeSize, if_pos small]
        exact .ascii rest small
      · rw [runeSize, if_neg small] at found ⊢
        rcases shape : leading first with _ | ⟨size, low, high⟩
        · exact absurd (by rw [shape]) found
        · simp only [shape] at found ⊢
          cases rest with
          | nil => exact absurd rfl found
          | cons second others =>
              by_cases held : (within low high second && continues (size - 2) others) = true
              · rw [longSize, if_pos held]
                simp only [Bool.and_eq_true] at held
                exact .long small shape held.1 held.2
              · exact absurd (by rw [longSize, if_neg held]) found

theorem RuneAt.size_eq {text : List Byte} {size : Nat} (rune : RuneAt text size) :
    runeSize text = size := by
  cases rune with
  | ascii rest small => rw [runeSize, if_pos small]
  | long large starts bounded continued =>
      rw [runeSize, if_neg large, starts]
      simp [longSize, bounded, continued]

theorem RuneAt.positive {text : List Byte} {size : Nat} (rune : RuneAt text size) : 0 < size := by
  cases rune with
  | ascii rest small => exact Nat.one_pos
  | long large starts bounded continued =>
      have sized := leading_size starts
      omega

theorem RuneAt.fits {text : List Byte} {size : Nat} (rune : RuneAt text size) :
    size ≤ text.length := by
  cases rune with
  | ascii rest small => simp
  | long large starts bounded continued =>
      have enough := continues_length continued
      simp only [List.length_cons]
      omega

theorem RuneAt.append {text : List Byte} {size : Nat} (rune : RuneAt text size)
    (more : List Byte) : RuneAt (text ++ more) size := by
  cases rune with
  | ascii rest small => exact .ascii (rest ++ more) small
  | long large starts bounded continued =>
      apply RuneAt.long large starts bounded
      exact (continues_append more (continues_length continued)).trans continued

theorem RuneAt.take {text : List Byte} {size : Nat} (rune : RuneAt text size) :
    RuneAt (text.take size) size := by
  cases rune with
  | ascii rest small => exact .ascii _ small
  | long large starts bounded continued =>
      rename_i first second low high others
      obtain ⟨extra, rfl⟩ : ∃ extra, size = extra + 2 := ⟨size - 2, by
        have sized := leading_size starts
        omega⟩
      exact .long large starts bounded (continues_take continued (Nat.le_refl _))

def IsRune (bytes : List Byte) : Prop := RuneAt bytes bytes.length

theorem IsRune.size_append {bytes : List Byte} (rune : IsRune bytes) (rest : List Byte) :
    runeSize (bytes ++ rest) = bytes.length :=
  (RuneAt.append rune rest).size_eq

theorem is_rune_ascii {byte : Byte} (small : byte < 0x80) : IsRune [byte] := .ascii [] small

/-- A rune of several bytes holds no ASCII byte; in particular its first byte is none. -/
theorem IsRune.ascii_or_large {first : Byte} {rest : List Byte} (rune : IsRune (first :: rest)) :
    first < 0x80 ∧ rest = [] ∨ ¬ first < 0x80 := by
  cases rest with
  | nil =>
      by_cases small : first < 0x80
      · exact .inl ⟨small, rfl⟩
      · exact .inr small
  | cons second others =>
      cases rune with
      | long large starts bounded continued => exact .inr large

theorem leading_low {first low high : Byte} {size : Nat}
    (found : leading first = some (size, low, high)) : 0x80 ≤ low := by
  simp only [leading] at found
  split_ifs at found <;> · cases found; decide

theorem large_of_within {low high byte : Byte} (atLeast : 0x80 ≤ low)
    (bounded : within low high byte = true) : ¬ byte < 0x80 := by
  simp only [within, decide_eq_true_eq] at bounded
  exact UInt8.not_lt.mpr (UInt8.le_trans atLeast bounded.1)

theorem large_of_continues {count : Nat} {rest : List Byte}
    (held : continues count rest = true) : ∀ byte ∈ rest.take count, ¬ byte < 0x80 := by
  induction count generalizing rest with
  | zero => simp
  | succ count induction =>
      cases rest with
      | nil => simp
      | cons first rest =>
          simp only [continues, Bool.and_eq_true] at held
          intro byte member
          rw [List.take_succ_cons, List.mem_cons] at member
          rcases member with here | later
          · rw [here]
            exact large_of_within (by decide) held.1
          · exact induction held.2 byte later

theorem IsRune.large_tail {first : Byte} {rest : List Byte} (rune : IsRune (first :: rest)) :
    ∀ byte ∈ rest, ¬ byte < 0x80 := by
  cases rest with
  | nil => simp
  | cons second others =>
      cases rune with
      | long large starts bounded continued =>
          have whole := large_of_continues continued
          simp only [List.length_cons, Nat.reduceSubDiff,
            List.take_length] at whole
          intro byte member
          rcases List.mem_cons.mp member with here | later
          · rw [here]
            exact large_of_within (leading_low starts) bounded
          · exact whole byte later

inductive WellFormed : List Byte → Prop where
  | nil : WellFormed []
  | cons {bytes rest : List Byte} (rune : IsRune bytes) (others : WellFormed rest) :
      WellFormed (bytes ++ rest)

theorem WellFormed.append {front back : List Byte} (wellFront : WellFormed front)
    (wellBack : WellFormed back) : WellFormed (front ++ back) := by
  induction wellFront with
  | nil => exact wellBack
  | cons rune others induction =>
      rw [List.append_assoc]
      exact .cons rune induction

theorem well_formed_ascii {text : List Byte} (ascii : ∀ byte ∈ text, byte < 0x80) :
    WellFormed text := by
  induction text with
  | nil => exact .nil
  | cons byte rest induction =>
      obtain ⟨here, later⟩ := List.forall_mem_cons.mp ascii
      exact .cons (is_rune_ascii here) (induction later)

theorem well_formed_literal {text : List Byte} (ascii : text.Forall (· < 0x80)) :
    WellFormed text :=
  well_formed_ascii (List.forall_iff_forall_mem.mp ascii)

theorem IsRune.wellFormed {bytes : List Byte} (rune : IsRune bytes) : WellFormed bytes := by
  rw [← List.append_nil bytes]
  exact .cons rune .nil

/-! ## Cutting a text into runes and stray bytes -/

inductive Piece where
  | rune (bytes : List Byte)
  | stray (byte : Byte)
  deriving DecidableEq

def nextPiece (first : Byte) (rest : List Byte) : Piece × List Byte :=
  match runeSize (first :: rest) with
  | 0 => (.stray first, rest)
  | size + 1 => (.rune (first :: rest.take size), rest.drop size)

def piecesFrom : Nat → List Byte → List Piece
  | 0, _ => []
  | _ + 1, [] => []
  | fuel + 1, first :: rest =>
      (nextPiece first rest).1 :: piecesFrom fuel (nextPiece first rest).2

def pieces (text : List Byte) : List Piece := piecesFrom text.length text

theorem next_piece_shorter (first : Byte) (rest : List Byte) :
    (nextPiece first rest).2.length ≤ rest.length := by
  unfold nextPiece
  split
  · exact Nat.le_refl _
  · simp

theorem pieces_from_enough (text : List Byte) (fuel : Nat) (enough : text.length ≤ fuel) :
    piecesFrom fuel text = pieces text := by
  induction fuel using Nat.strong_induction_on generalizing text with
  | _ fuel induction =>
      cases text with
      | nil => cases fuel <;> rfl
      | cons first rest =>
          obtain ⟨less, rfl⟩ : ∃ less, fuel = less + 1 := ⟨fuel - 1, by
            simp only [List.length_cons] at enough
            omega⟩
          have shorter := next_piece_shorter first rest
          simp only [List.length_cons, Nat.add_le_add_iff_right] at enough
          rw [pieces, List.length_cons, piecesFrom, piecesFrom,
            induction less (Nat.lt_succ_self _) _ (by omega)]
          rcases Nat.lt_or_ge rest.length (less + 1) with smaller | larger
          · rw [induction rest.length smaller _ shorter]
          · omega

theorem pieces_nil : pieces [] = [] := rfl

theorem pieces_cons (first : Byte) (rest : List Byte) :
    pieces (first :: rest) =
      (nextPiece first rest).1 :: pieces (nextPiece first rest).2 := by
  rw [pieces, List.length_cons, piecesFrom,
    pieces_from_enough _ _ (next_piece_shorter first rest)]

theorem pieces_rune {bytes : List Byte} (rune : IsRune bytes) (rest : List Byte) :
    pieces (bytes ++ rest) = .rune bytes :: pieces rest := by
  have sized := rune.size_append rest
  cases bytes with
  | nil => cases rune
  | cons first others =>
      simp only [List.cons_append, List.length_cons] at sized
      rw [List.cons_append, pieces_cons]
      simp [nextPiece, sized]

def Piece.bytes : Piece → List Byte
  | .rune bytes => bytes
  | .stray byte => [byte]

/-- The encoding of U+FFFD. -/
def replacement : List Byte := [0xEF, 0xBF, 0xBD]

def Piece.coerced : Piece → List Byte
  | .rune bytes => bytes
  | .stray _ => replacement

def coerce (text : List Byte) : List Byte := (pieces text).flatMap Piece.coerced

theorem replacement_is_rune : IsRune replacement := by
  have sized : runeSize replacement = replacement.length := by decide
  rw [IsRune, ← sized]
  exact rune_at_of_size (by decide)

/-- One piece of a text: a whole rune with the text behind it, or a stray byte. -/
theorem next_piece_cases (first : Byte) (rest : List Byte) :
    (∃ bytes after, IsRune bytes ∧ first :: rest = bytes ++ after ∧
      nextPiece first rest = (.rune bytes, after)) ∨
      nextPiece first rest = (.stray first, rest) := by
  unfold nextPiece
  split
  · exact .inr rfl
  · rename_i size sized
    left
    have rune := (rune_at_of_size (by rw [sized]; exact Nat.succ_ne_zero _) :
      RuneAt (first :: rest) (runeSize (first :: rest)))
    rw [sized] at rune
    have fits := rune.fits
    simp only [List.length_cons] at fits
    have width : (first :: rest.take size).length = size + 1 := by
      simp only [List.length_cons, List.length_take]
      omega
    refine ⟨first :: rest.take size, rest.drop size, ?_, by simp, rfl⟩
    rw [IsRune, width]
    exact rune.take

theorem pieces_induction {motive : List Byte → Prop} (nil : motive [])
    (rune : ∀ bytes rest, IsRune bytes → motive rest → motive (bytes ++ rest))
    (stray : ∀ byte rest, nextPiece byte rest = (.stray byte, rest) → motive rest →
      motive (byte :: rest))
    (text : List Byte) : motive text := by
  induction size : text.length using Nat.strong_induction_on generalizing text with
  | _ size induction =>
      cases text with
      | nil => exact nil
      | cons first rest =>
          rcases next_piece_cases first rest with ⟨bytes, after, isRune, whole, -⟩ | alone
          · rw [whole] at size ⊢
            have positive := isRune.positive
            simp only [List.length_append] at size
            exact rune bytes after isRune (induction after.length (by omega) after rfl)
          · simp only [List.length_cons] at size
            exact stray first rest alone (induction rest.length (by omega) rest rfl)

theorem pieces_bytes (text : List Byte) : (pieces text).flatMap Piece.bytes = text := by
  induction text using pieces_induction with
  | nil => rfl
  | rune bytes rest isRune induction => simp [pieces_rune isRune, Piece.bytes, induction]
  | stray byte rest alone induction => simp [pieces_cons, alone, Piece.bytes, induction]

/-- An ASCII byte starts a new piece, whatever stands in front of it. -/
theorem stray_before_ascii {byte next : Byte} {rest : List Byte} (small : next < 0x80)
    (alone : nextPiece byte rest = (.stray byte, rest)) (more : List Byte) :
    nextPiece byte (rest ++ next :: more) = (.stray byte, rest ++ next :: more) := by
  rcases next_piece_cases byte (rest ++ next :: more) with ⟨bytes, after, isRune, whole, -⟩ | held
  · exfalso
    cases bytes with
    | nil => cases isRune
    | cons head tail =>
        obtain ⟨rfl, split⟩ := List.cons.inj whole
        rcases List.append_eq_append_iff.mp split with ⟨extra, rfl, cut⟩ | ⟨extra, rfl, -⟩
        · cases extra with
          | nil =>
              rw [List.append_nil] at isRune
              have one := pieces_rune isRune []
              rw [List.append_nil, pieces_cons, alone] at one
              cases one
          | cons first others =>
              obtain ⟨rfl, -⟩ := List.cons.inj cut
              exact isRune.large_tail next (by simp) small
        · have one := pieces_rune isRune extra
          rw [List.cons_append, pieces_cons, alone] at one
          cases one
  · exact held

theorem pieces_append_ascii {next : Byte} (small : next < 0x80) (front rest : List Byte) :
    pieces (front ++ next :: rest) = pieces front ++ pieces (next :: rest) := by
  induction front using pieces_induction with
  | nil => rfl
  | rune bytes others isRune induction =>
      rw [List.append_assoc, pieces_rune isRune, pieces_rune isRune, induction, List.cons_append]
  | stray byte others alone induction =>
      rw [List.cons_append, pieces_cons, stray_before_ascii small alone, pieces_cons byte others,
        alone, induction, List.cons_append]

/-! ## Parts of a well-formed text -/

def Piece.IsWhole : Piece → Prop
  | .rune bytes => IsRune bytes
  | .stray _ => False

theorem well_formed_of_pieces {parts : List Piece} (whole : ∀ piece ∈ parts, piece.IsWhole) :
    WellFormed (parts.flatMap Piece.bytes) := by
  induction parts with
  | nil => exact .nil
  | cons piece parts induction =>
      obtain ⟨here, later⟩ := List.forall_mem_cons.mp whole
      rw [List.flatMap_cons]
      cases piece with
      | rune bytes => exact .cons here (induction later)
      | stray byte => exact here.elim

theorem WellFormed.pieces_whole {text : List Byte} (well : WellFormed text) :
    ∀ piece ∈ pieces text, piece.IsWhole := by
  induction well with
  | nil => exact fun piece inside => absurd inside List.not_mem_nil
  | cons rune others induction =>
      rw [pieces_rune rune, List.forall_mem_cons]
      exact ⟨rune, induction⟩

/-- A well-formed text can be cut in front of every ASCII byte. -/
theorem WellFormed.cut {next : Byte} {front rest : List Byte}
    (well : WellFormed (front ++ next :: rest)) (small : next < 0x80) :
    WellFormed front ∧ WellFormed (next :: rest) := by
  have whole := well.pieces_whole
  rw [pieces_append_ascii small, List.forall_mem_append] at whole
  have left := well_formed_of_pieces whole.1
  have right := well_formed_of_pieces whole.2
  rw [pieces_bytes] at left right
  exact ⟨left, right⟩

theorem WellFormed.behind {text rest : List Byte} (well : WellFormed (text ++ rest))
    (ascii : ∀ byte ∈ text, byte < 0x80) : WellFormed rest := by
  induction text with
  | nil => exact well
  | cons byte text induction =>
      obtain ⟨small, others⟩ := List.forall_mem_cons.mp ascii
      have whole := well.pieces_whole
      have cut := pieces_rune (is_rune_ascii small) (text ++ rest)
      rw [List.singleton_append] at cut
      rw [List.cons_append, cut, List.forall_mem_cons] at whole
      have tail := well_formed_of_pieces whole.2
      rw [pieces_bytes] at tail
      exact induction tail others

theorem coerce_rune {bytes : List Byte} (rune : IsRune bytes) (rest : List Byte) :
    coerce (bytes ++ rest) = bytes ++ coerce rest := by
  simp [coerce, pieces_rune rune, Piece.coerced]

theorem coerce_stray {byte : Byte} {rest : List Byte}
    (alone : nextPiece byte rest = (.stray byte, rest)) :
    coerce (byte :: rest) = replacement ++ coerce rest := by
  simp [coerce, pieces_cons, alone, Piece.coerced]

theorem coerce_well_formed (text : List Byte) : WellFormed (coerce text) := by
  induction text using pieces_induction with
  | nil => exact .nil
  | rune bytes rest isRune induction =>
      rw [coerce_rune isRune]
      exact .cons isRune induction
  | stray byte rest alone induction =>
      rw [coerce_stray alone]
      exact .cons replacement_is_rune induction

theorem coerce_of_well_formed {text : List Byte} (well : WellFormed text) :
    coerce text = text := by
  induction well with
  | nil => rfl
  | cons rune others induction => rw [coerce_rune rune, induction]

theorem coerce_eq_iff (text : List Byte) : coerce text = text ↔ WellFormed text := by
  constructor
  · intro same
    rw [← same]
    exact coerce_well_formed text
  · exact coerce_of_well_formed

/-! ## Encoding a code point -/

def encodeRune (point : Nat) : List Byte :=
  if point < 0x80 then [UInt8.ofNat point]
  else if point < 0x800 then
    [UInt8.ofNat (0xC0 + point / 64), UInt8.ofNat (0x80 + point % 64)]
  else if point < 0x10000 then
    [UInt8.ofNat (0xE0 + point / 4096), UInt8.ofNat (0x80 + point / 64 % 64),
      UInt8.ofNat (0x80 + point % 64)]
  else
    [UInt8.ofNat (0xF0 + point / 262144), UInt8.ofNat (0x80 + point / 4096 % 64),
      UInt8.ofNat (0x80 + point / 64 % 64), UInt8.ofNat (0x80 + point % 64)]

def isSurrogate (point : Nat) : Bool := decide (0xD800 ≤ point ∧ point < 0xE000)

theorem within_of_nat {low high : Byte} {value : Nat} (lower : low.toNat ≤ value)
    (upper : value ≤ high.toNat) : within low high (UInt8.ofNat value) = true := by
  have small : value < 2 ^ 8 := Nat.lt_of_le_of_lt upper high.toNat_lt
  simp only [within, decide_eq_true_eq, UInt8.le_iff_toNat_le, UInt8.toNat_ofNat_of_lt' small]
  exact ⟨lower, upper⟩

theorem continuation_of_nat (value : Nat) :
    within 0x80 0xBF (UInt8.ofNat (0x80 + value % 64)) = true := by
  apply within_of_nat
  · exact Nat.le_add_right _ _
  · change 128 + value % 64 ≤ 191
    omega

theorem large_of_nat {value : Nat} (lower : 0x80 ≤ value) (upper : value < 0x100) :
    ¬ UInt8.ofNat value < 0x80 := by
  rw [UInt8.lt_iff_toNat_lt, UInt8.toNat_ofNat_of_lt' upper]
  exact Nat.not_lt.mpr lower

def secondBounds (lead : Nat) : Byte × Byte :=
  if lead = 0xE0 then (0xA0, 0xBF) else if lead = 0xED then (0x80, 0x9F)
  else if lead = 0xF0 then (0x90, 0xBF) else if lead = 0xF4 then (0x80, 0x8F) else (0x80, 0xBF)

def sizeOf (lead : Nat) : Nat := if lead < 0xE0 then 2 else if lead < 0xF0 then 3 else 4

theorem leading_of_nat {lead : Nat} (lower : 0xC2 ≤ lead) (upper : lead < 0xF5) :
    leading (UInt8.ofNat lead) = some (sizeOf lead, secondBounds lead) := by
  have every : ∀ lead < 0xF5, 0xC2 ≤ lead →
      leading (UInt8.ofNat lead) = some (sizeOf lead, secondBounds lead) := by decide +kernel
  exact every lead upper lower

theorem second_of_nat {lead value : Nat} (small : value < 64)
    (overlongThree : lead = 0xE0 → 32 ≤ value) (surrogate : lead = 0xED → value < 32)
    (overlongFour : lead = 0xF0 → 16 ≤ value) (beyond : lead = 0xF4 → value < 16) :
    within (secondBounds lead).1 (secondBounds lead).2 (UInt8.ofNat (0x80 + value)) = true := by
  unfold secondBounds
  split_ifs with e0 ed f0 f4
  · have least := overlongThree e0
    exact within_of_nat (by change 160 ≤ _; omega) (by change _ ≤ 191; omega)
  · have most := surrogate ed
    exact within_of_nat (by change 128 ≤ _; omega) (by change _ ≤ 159; omega)
  · have least := overlongFour f0
    exact within_of_nat (by change 144 ≤ _; omega) (by change _ ≤ 191; omega)
  · have most := beyond f4
    exact within_of_nat (by change 128 ≤ _; omega) (by change _ ≤ 143; omega)
  · exact within_of_nat (by change 128 ≤ _; omega) (by change _ ≤ 191; omega)

/-- A leading byte, a second byte within its bounds and the right number of continuation
bytes make a rune. -/
theorem is_rune_of_nat {lead value : Nat} {others : List Byte} (lower : 0xC2 ≤ lead)
    (upper : lead < 0xF5) (width : others.length + 2 = sizeOf lead)
    (second : within (secondBounds lead).1 (secondBounds lead).2 (UInt8.ofNat value) = true)
    (continued : continues others.length others = true) :
    IsRune (UInt8.ofNat lead :: UInt8.ofNat value :: others) := by
  have starts := leading_of_nat lower upper
  rw [← width] at starts
  exact .long (large_of_nat (by omega) (by omega)) starts second continued

theorem encode_rune_is_rune {point : Nat} (bounded : point < 0x110000)
    (proper : isSurrogate point = false) : IsRune (encodeRune point) := by
  simp only [isSurrogate, decide_eq_false_iff_not, not_and, not_lt] at proper
  unfold encodeRune
  split_ifs with one two three
  · apply is_rune_ascii
    rw [UInt8.lt_iff_toNat_lt, UInt8.toNat_ofNat_of_lt' (Nat.lt_trans one (by decide))]
    exact one
  · apply is_rune_of_nat (by omega) (by omega)
    · rw [sizeOf, if_pos (by omega)]
      rfl
    · apply second_of_nat <;> omega
    · rfl
  · apply is_rune_of_nat (by omega) (by omega)
    · rw [sizeOf, if_neg (by omega), if_pos (by omega)]
      rfl
    · apply second_of_nat <;> omega
    · simp only [List.length_cons, List.length_nil, continues, continuation_of_nat, Bool.and_self]
  · apply is_rune_of_nat (by omega) (by omega)
    · rw [sizeOf, if_neg (by omega), if_neg (by omega)]
      rfl
    · apply second_of_nat <;> omega
    · simp only [List.length_cons, List.length_nil, continues, continuation_of_nat, Bool.and_self]

end Gocoon.Utf8Text
