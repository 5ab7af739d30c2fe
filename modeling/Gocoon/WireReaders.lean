import Gocoon.CocoonSchema
import Gocoon.InferencePackets
import Gocoon.ReaderGrammars

/-!
# Readers that follow the format

The parser of a wire type is a grammar: it accepts an input as what is kept of the parsed value.
The reader of an `http.response` follows the parser of the declaration, so a response is found in
an answer exactly if the format has one there.
-/

namespace Gocoon.WireReaders

open Gocoon.LittleEndianBytes
open Gocoon.GoProgram
open Gocoon.TlPrimitives
open Gocoon.TlTypes
open Gocoon.TypeLanguage
open Gocoon.TypeLanguage.WireType
open Gocoon.ReaderSafety
open Gocoon.ReaderGrammars
open Gocoon.InferencePackets

set_option autoImplicit false

section Rules

variable {Wire First Second Value Other : Type} {errors : TlError → Prop}

def Parsed (wire : WireType Wire) (kept : Wire → Value) (input : List Byte) (found : Value)
    (rest : List Byte) : Prop :=
  ∃ value, wire.parse input = some (value, rest) ∧ found = kept value

theorem parsed_view {wire : WireType First} {build : First → Wire} {fields : Wire → First}
    {inverse : ∀ value, build (fields value) = value} {kept : Wire → Value}
    {input rest : List Byte} {found : Value} :
    Parsed (wire.view build fields inverse) kept input found rest ↔
      Parsed wire (fun first => kept (build first)) input found rest := by
  constructor
  · rintro ⟨value, parsed, rfl⟩
    obtain ⟨⟨first, behind⟩, accepted, same⟩ := Option.map_eq_some_iff.mp parsed
    obtain ⟨rfl, rfl⟩ := Prod.mk.inj same
    exact ⟨first, accepted, rfl⟩
  · rintro ⟨first, accepted, rfl⟩
    refine ⟨build first, ?_, rfl⟩
    simp only [WireType.view, accepted, Option.map_some]

theorem follows_view {wire : WireType First} {build : First → Wire} {fields : Wire → First}
    {inverse : ∀ value, build (fields value) = value} {program : ReadM Value}
    {kept : Wire → Value}
    (follows : Follows program (Parsed wire fun first => kept (build first)) errors) :
    Follows program (Parsed (wire.view build fields inverse) kept) errors :=
  follows.congr fun _ _ _ => parsed_view.symm

/-- A field that is read and dropped. -/
theorem follows_skip {first : WireType First} {second : WireType Second} {program : ReadM Value}
    {next : ReadM Other} {keptFirst : First → Value} {keptSecond : Second → Other}
    (one : Follows program (Parsed first keptFirst) errors)
    (two : Follows next (Parsed second keptSecond) errors) :
    Follows (program >>= fun _ => next)
      (Parsed (first.pair second) fun value => keptSecond value.2) errors := by
  apply (one.bind fun _ => two).congr
  intro input out rest
  constructor
  · rintro ⟨_, middle, ⟨head, front, rfl⟩, tail, back, rfl⟩
    refine ⟨(head, tail), ?_, rfl⟩
    simp only [pair, WireType.next, front, Option.bind_some, back, Option.map_some]
  · rintro ⟨value, parsed, rfl⟩
    obtain ⟨⟨head, behind⟩, front, fielded⟩ := Option.bind_eq_some_iff.mp parsed
    obtain ⟨⟨tail, ending⟩, back, same⟩ := Option.map_eq_some_iff.mp fielded
    obtain ⟨rfl, rfl⟩ := Prod.mk.inj same
    exact ⟨_, behind, ⟨head, front, rfl⟩, tail, back, rfl⟩

theorem follows_nat : Follows readUint32 (Parsed nat fun word => word) CutOff := by
  apply follows_view
  apply ((follows_raw 4).map uint32).congr
  intro input word rest
  constructor
  · rintro ⟨bytes, ⟨rfl, size⟩, rfl⟩
    refine ⟨⟨bytes, size⟩, ?_, rfl⟩
    simp [fixed, size, List.take_left', List.drop_left']
  · rintro ⟨bytes, parsed, rfl⟩
    simp only [fixed] at parsed
    split_ifs at parsed with enough
    cases parsed
    exact ⟨_, ⟨(List.take_append_drop 4 input).symm, List.length_take_of_le enough⟩, rfl⟩

theorem follows_int : Follows readInt32 (Parsed int fun word => word) CutOff := by
  apply follows_view
  apply (follows_nat.map UInt32.toInt32).congr
  intro input word rest
  constructor
  · rintro ⟨_, ⟨value, parsed, rfl⟩, rfl⟩
    exact ⟨_, parsed, rfl⟩
  · rintro ⟨value, parsed, rfl⟩
    exact ⟨_, ⟨value, parsed, rfl⟩, rfl⟩

theorem follows_boxed {fields : WireType Wire} {program : ReadM Value} {kept : Wire → Value}
    (follows : Follows program (Parsed fields kept) errors) (number : UInt32) (error : TlError) :
    Follows (readUint32 >>= fun id => if id ≠ number then fail error else program)
      (Parsed (WireType.boxed number fields) kept) fun _ => True := by
  apply ((follows_nat.mono fun _ _ => trivial).bind fun id => (follows_fail trivial).if_then
    (follows.mono fun _ _ => trivial)).congr
  intro input out rest
  constructor
  · rintro ⟨id, middle, ⟨found, front, rfl⟩, behind⟩
    split_ifs at behind with same
    obtain ⟨value, back, rfl⟩ := behind
    refine ⟨value, ?_, rfl⟩
    simp only [WireType.boxed, front, Option.bind_some]
    rw [if_pos (not_not.mp same), back]
  · rintro ⟨value, parsed, rfl⟩
    obtain ⟨⟨found, behind⟩, front, fielded⟩ := Option.bind_eq_some_iff.mp parsed
    dsimp only at fielded
    split_ifs at fielded with same
    refine ⟨found, behind, ⟨found, front, rfl⟩, ?_⟩
    rw [if_neg (not_not.mpr same)]
    exact ⟨value, fielded, rfl⟩

end Rules

section Strings

theorem fill_length (written : Nat) : (fill written).length = padding written := by
  rw [fill, List.length_replicate, padding]

theorem parse_data_found {header length : Nat} {input data rest : List Byte}
    (parsed : parseData header length input = some (data, rest)) :
    ∃ pad, input = data ++ (pad ++ rest) ∧ data.length = length ∧
      pad.length = padding (header + length) := by
  obtain ⟨⟨found, behind⟩, front, back⟩ := Option.bind_eq_some_iff.mp parsed
  obtain ⟨⟨pad, after⟩, split, same⟩ := Option.map_eq_some_iff.mp back
  obtain ⟨rfl, rfl⟩ := Prod.mk.inj same
  obtain ⟨size, rfl⟩ := split_exactly_sound front
  obtain ⟨padded, rfl⟩ := split_exactly_sound split
  rw [fill_length] at padded
  exact ⟨pad, rfl, size, padded⟩

theorem parse_string_found {input data rest : List Byte}
    (parsed : parseString input = some (data, rest)) :
    Written StringForm input data rest := by
  cases input with
  | nil => cases parsed
  | cons lead input =>
      rw [parseString] at parsed
      split_ifs at parsed with small mark
      · obtain ⟨pad, rfl, size, padded⟩ := parse_data_found parsed
        have below : lead < 0xfe := UInt8.lt_iff_toNat_lt.mpr small
        refine ⟨_, ⟨[lead], pad, ?_, ?_, rfl⟩, by simp⟩
        · rw [size]
          exact .short lead below
        · rw [size]
          exact padded
      · subst mark
        obtain ⟨⟨digits, behind⟩, front, back⟩ := Option.bind_eq_some_iff.mp parsed
        obtain ⟨three, rfl⟩ := split_exactly_sound front
        obtain ⟨pad, rfl, size, padded⟩ := parse_data_found back
        refine ⟨_, ⟨254 :: digits, pad, ?_, ?_, rfl⟩, by simp⟩
        · rw [size]
          exact .long digits three
        · rw [size, List.length_cons, three]
          exact padded

theorem parse_data_delimited {header : Nat} {data pad : List Byte} (rest : List Byte)
    (padded : pad.length = padding (header + data.length)) :
    parseData header data.length (data ++ (pad ++ rest)) = some (data, rest) := by
  have split := split_exactly_append pad rest
  rw [padded, ← fill_length] at split
  rw [parseData, split_exactly_append, Option.bind_some]
  dsimp only
  rw [split, Option.map_some]

theorem parse_string_delimited {header data pad : List Byte} (rest : List Byte)
    (form : LengthHeader header data.length)
    (padded : pad.length = padding (header.length + data.length)) :
    parseString (header ++ (data ++ (pad ++ rest))) = some (data, rest) := by
  generalize size : data.length = length at form
  cases form with
  | short first small =>
      have below : first.toNat < 254 := UInt8.lt_iff_toNat_lt.mp small
      rw [List.singleton_append, parseString, if_pos below, ← size]
      exact parse_data_delimited rest padded
  | long digits three =>
      have split := split_exactly_append digits (data ++ (pad ++ rest))
      rw [three] at split
      rw [List.length_cons, three] at padded
      rw [List.cons_append, parseString, if_neg (by decide), if_pos rfl, split, Option.bind_some]
      dsimp only
      rw [← size]
      exact parse_data_delimited rest padded

theorem follows_string : Follows readBytes (Parsed string fun data => data) CutOff := by
  apply follows_bytes.congr
  intro input data rest
  constructor
  · rintro ⟨_, ⟨header, pad, form, padded, rfl⟩, rfl⟩
    refine ⟨data, ?_, rfl⟩
    change parseString (header ++ (data ++ pad) ++ rest) = _
    rw [List.append_assoc, List.append_assoc]
    exact parse_string_delimited rest form padded
  · rintro ⟨_, parsed, rfl⟩
    exact parse_string_found parsed

end Strings

section Responses

theorem follows_header : Follows (readString >>= fun _ => readString)
    (Parsed CocoonSchema.httpHeader fun header => header.value) CutOff := by
  apply follows_view
  exact follows_skip follows_string follows_string

theorem follows_headers (count : Nat) : Follows (skipHeaders count) (fun input _ rest =>
    ∃ headers, parseItems CocoonSchema.httpHeader count input = some (headers, rest)) CutOff := by
  induction count with
  | zero =>
      apply (follows_pure ()).congr
      intro input done rest
      simp [parseItems]
  | succ count induction =>
      have loop : skipHeaders (count + 1) =
          (readString >>= fun _ => readString) >>= fun _ => skipHeaders count := by
        rw [bind_assoc]
        rfl
      rw [loop]
      apply (follows_header.bind fun _ => induction).congr
      intro input done rest
      constructor
      · rintro ⟨_, middle, ⟨header, front, rfl⟩, others, back⟩
        refine ⟨header :: others, ?_⟩
        simp only [parseItems, front, Option.bind_some, back, Option.map_some]
      · rintro ⟨headers, parsed⟩
        obtain ⟨⟨header, behind⟩, front, back⟩ := Option.bind_eq_some_iff.mp parsed
        obtain ⟨⟨others, ending⟩, more, same⟩ := Option.map_eq_some_iff.mp back
        obtain ⟨rfl, rfl⟩ := Prod.mk.inj same
        exact ⟨_, behind, ⟨header, front, rfl⟩, others, more⟩

theorem follows_header_vector : Follows (readVectorLen >>= skipHeaders)
    (Parsed (vector CocoonSchema.httpHeader) fun _ => ()) CutOff := by
  apply ((follows_nat.map UInt32.toNat).bind follows_headers).congr
  intro input done rest
  constructor
  · rintro ⟨_, middle, ⟨_, ⟨count, front, rfl⟩, rfl⟩, headers, back⟩
    refine ⟨headers, ?_, rfl⟩
    simp only [vector, front, Option.bind_some, back]
  · rintro ⟨headers, parsed, rfl⟩
    obtain ⟨⟨count, behind⟩, front, back⟩ := Option.bind_eq_some_iff.mp parsed
    exact ⟨_, behind, ⟨_, ⟨count, front, rfl⟩, rfl⟩, headers, back⟩

theorem follows_response : Follows readHTTPResponsePayload
    (Parsed CocoonSchema.httpResponse fun response => response.payload) fun _ => True := by
  have number := CocoonSchema.declared_numbers.2.2.1
  have fields := follows_skip follows_string <| follows_skip follows_int <|
    follows_skip follows_string <| follows_skip follows_header_vector follows_string
  simp only [bind_assoc] at fields
  unfold CocoonSchema.httpResponse readHTTPResponsePayload
  rw [number]
  apply follows_boxed
  apply follows_view
  exact fields

/-- The payload is found exactly if the format's parser finds a response. -/
theorem response_payload_eq (body : List Byte) :
    decodeHTTPResponsePayload body =
      .ok ((CocoonSchema.httpResponse.parse body).map fun found => found.1.payload) := by
  unfold decodeHTTPResponsePayload
  rcases ran : exec readHTTPResponsePayload (newReader body) with ⟨fault | payload, after⟩
  · obtain ⟨error, rfl, -⟩ := follows_response.fails _ _ _ ran
    -- a parsed response would have been read
    cases parsed : CocoonSchema.httpResponse.parse body with
    | none => rfl
    | some found =>
        obtain ⟨bytes, rfl, read⟩ :=
          follows_response.covers body found.1.payload found.2 ⟨found.1, parsed, rfl⟩
        have whole := read [] found.2
        rw [List.nil_append, List.length_nil] at whole
        rw [newReader, whole] at ran
        cases ran
  · obtain ⟨response, parsed, rfl⟩ := follows_response.heeds _ _ _ ran
    have input : (newReader body).buf.drop (newReader body).pos = body := rfl
    rw [input] at parsed
    rw [parsed]
    rfl

end Responses

end Gocoon.WireReaders
