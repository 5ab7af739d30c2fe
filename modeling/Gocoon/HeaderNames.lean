import Gocoon.InferenceRequest

/-!
# One length and one type in a request

The headers of a forwarded request are collected in a map whose keys are compared byte by byte,
and HTTP compares names without regard to case. The encoder's own two headers are there once
each. A second one gets in exactly when the caller gives one of the two names in another
spelling, together with a value that is not empty.
-/

namespace Gocoon.HeaderNames

open Gocoon.LittleEndianBytes
open Gocoon.TlPrimitives
open Gocoon.GoMaps
open Gocoon.CocoonSchema
open Gocoon.InferenceRequest

set_option autoImplicit false

/-! ## Names without regard to case -/

section Names

/-- An ASCII letter in lower case; other bytes are left as they are. -/
def lowered (byte : Byte) : Byte := if 0x41 ≤ byte ∧ byte ≤ 0x5a then byte + 0x20 else byte

def SameName (left right : GoString) : Prop := left.map lowered = right.map lowered

instance (left right : GoString) : Decidable (SameName left right) :=
  inferInstanceAs (Decidable (left.map lowered = right.map lowered))

def named (name : GoString) (headers : List HttpHeader) : List HttpHeader :=
  headers.filter fun header => SameName header.name name

variable {headers : List HttpHeader} {header : HttpHeader}

theorem named_eq_singleton_iff (distinct : (headers.map HttpHeader.name).Nodup)
    (present : header ∈ headers) :
    named header.name headers = [header] ↔
      ∀ other ∈ headers, SameName other.name header.name → other.name = header.name := by
  constructor
  · intro single other inside spelled
    have listed : other ∈ named header.name headers :=
      List.mem_filter.mpr ⟨inside, decide_eq_true spelled⟩
    rw [single, List.mem_singleton] at listed
    rw [listed]
  · intro alone
    have only : ∀ other ∈ named header.name headers, other = header := by
      intro other listed
      obtain ⟨inside, spelled⟩ := List.mem_filter.mp listed
      exact List.inj_on_of_nodup_map distinct inside present
        (alone other inside (of_decide_eq_true spelled))
    have itself : header ∈ named header.name headers :=
      List.mem_filter.mpr ⟨present, decide_eq_true rfl⟩
    have once : (named header.name headers).Nodup := (distinct.of_map _).filter _
    have copies := List.eq_replicate_of_mem only
    have positive := List.length_pos_of_mem itself
    rw [copies, List.nodup_replicate] at once
    have one : (named header.name headers).length = 1 := Nat.le_antisymm once positive
    rw [copies, one]
    rfl

end Names

/-! ## The two headers of the encoder -/

section Request

variable (copying writing : MapOrder GoString GoString) (q : Query)

/-- The caller gives no header under another spelling of the name. -/
def NotRespelled (name : GoString) : Prop :=
  ∀ given value, q.headers.lookup given = some value → value ≠ [] → SameName given name →
    given = name

theorem fixed_names_apart : ¬ SameName contentLength contentType ∧
    ¬ SameName contentType contentLength := by decide

theorem vector_spelling_iff {name : GoString} (fixed : name ∈ [contentLength, contentType]) :
    (∀ header ∈ (requestValue copying writing q).headers, SameName header.name name →
      header.name = name) ↔ NotRespelled q name := by
  have own : ∀ other ∈ [contentLength, contentType], SameName other name → other = name := by
    simp only [List.mem_cons, List.not_mem_nil, or_false] at fixed
    simp only [List.mem_cons, List.not_mem_nil, or_false, forall_eq_or_imp, forall_eq]
    rcases fixed with rfl | rfl
    · exact ⟨fun _ => rfl, fun same => absurd same fixed_names_apart.2⟩
    · exact ⟨fun same => absurd same fixed_names_apart.1, fun _ => rfl⟩
  have nonempty : name ≠ [] := by
    rintro rfl
    revert fixed
    decide
  constructor
  · intro single given value found kept spelled
    by_cases isLength : given = contentLength
    · rw [isLength] at spelled ⊢
      exact own contentLength (by simp) spelled
    · apply single ⟨given, value⟩ _ spelled
      have named : given ≠ [] := by
        rintro rfl
        exact nonempty (List.map_eq_nil_iff.mp spelled.symm)
      refine (mem_header_vector copying q writing _).mpr ?_
      rw [headerValue, if_neg isLength, found]
      simp [Option.filter, named, kept]
  · intro unspelled header listed spelled
    have held := (mem_header_vector copying q writing header).mp listed
    by_cases isLength : header.name = contentLength
    · rw [isLength] at spelled ⊢
      exact own contentLength (by simp) spelled
    · rw [headerValue, if_neg isLength] at held
      split at held
      · rename_i value given
        obtain ⟨found, kept⟩ := Option.filter_eq_some_iff.mp given
        simp only [decide_eq_true_eq] at kept
        exact unspelled header.name value found kept.2 spelled
      · split_ifs at held with isType
        rw [isType] at spelled ⊢
        exact own contentType (by simp) spelled

theorem length_present :
    (⟨contentLength, itoa q.body.length⟩ : HttpHeader) ∈
      (requestValue copying writing q).headers := by
  refine (mem_header_vector copying q writing _).mpr ?_
  rw [headerValue, if_pos rfl]

theorem type_present :
    ∃ value, (⟨contentType, value⟩ : HttpHeader) ∈ (requestValue copying writing q).headers := by
  have other : contentType ≠ contentLength := by decide
  cases given : givenValue q contentType with
  | some value =>
      refine ⟨value, (mem_header_vector copying q writing _).mpr ?_⟩
      rw [headerValue, if_neg other]
      rw [givenValue] at given
      rw [given]
  | none =>
      refine ⟨ascii "application/json", (mem_header_vector copying q writing _).mpr ?_⟩
      rw [headerValue, if_neg other]
      rw [givenValue] at given
      rw [given]
      exact if_pos rfl

theorem vector_distinct :
    ((requestValue copying writing q).headers.map HttpHeader.name).Nodup :=
  header_vector_distinct writing _

end Request

/-- For every query and every order of the two loops, what is written is the serialisation of a
request. Among its headers there is exactly one that goes by the name `Content-Length`, which
holds the decimal length of the body, and exactly one by the name `Content-Type`, if and only
if the caller gives neither name, with a value, in a spelling of its own. -/
theorem forwarded_length_single_iff (copying writing : MapOrder GoString GoString) (q : Query) :
    encodeHTTPRequest copying writing q =
        httpRequest.serialize (requestValue copying writing q) ∧
      (((named contentLength (requestValue copying writing q).headers).map HttpHeader.value =
          [itoa q.body.length] ∧
        (named contentType (requestValue copying writing q).headers).length = 1) ↔
      NotRespelled q contentLength ∧ NotRespelled q contentType) := by
  refine ⟨encode_http_request_bytes copying writing q, ?_⟩
  have distinct := vector_distinct copying writing q
  have lengthHere := length_present copying writing q
  obtain ⟨value, typeHere⟩ := type_present copying writing q
  rw [← vector_spelling_iff copying writing q (by decide : contentLength ∈ _),
    ← vector_spelling_iff copying writing q (by decide : contentType ∈ _)]
  have lengthIff := named_eq_singleton_iff distinct lengthHere
  have typeIff := named_eq_singleton_iff distinct typeHere
  dsimp only at lengthIff typeIff
  rw [← lengthIff, ← typeIff]
  have lengthListed : (⟨contentLength, itoa q.body.length⟩ : HttpHeader) ∈
      named contentLength (requestValue copying writing q).headers :=
    List.mem_filter.mpr ⟨lengthHere, decide_eq_true rfl⟩
  have typeListed : (⟨contentType, value⟩ : HttpHeader) ∈
      named contentType (requestValue copying writing q).headers :=
    List.mem_filter.mpr ⟨typeHere, decide_eq_true rfl⟩
  constructor
  · intro ⟨values, count⟩
    have oneLength := congrArg List.length values
    rw [List.length_map, List.length_singleton] at oneLength
    obtain ⟨first, single⟩ := List.length_eq_one_iff.mp oneLength
    obtain ⟨second, other⟩ := List.length_eq_one_iff.mp count
    rw [single, List.mem_singleton] at lengthListed
    rw [other, List.mem_singleton] at typeListed
    rw [single, other, lengthListed, typeListed]
    exact ⟨rfl, rfl⟩
  · intro ⟨single, other⟩
    rw [single, other]
    exact ⟨rfl, rfl⟩

def lowerCaseQuery : Query where
  model := []
  body := []
  path := []
  headers := AList.insert (ascii "content-length") (ascii "5") ∅
  maxCoefficient := 0
  maxTokens := 0
  timeout := 0
  enableDebug := false

theorem two_lengths_sent :
    (named contentLength (requestValue (storedOrder _ _) (storedOrder _ _)
      lowerCaseQuery).headers).map HttpHeader.value = [ascii "0", ascii "5"] ∧
    itoa lowerCaseQuery.body.length = ascii "0" := by
  refine ⟨?_, ?_⟩
  · decide +kernel
  · decide +kernel

end Gocoon.HeaderNames
