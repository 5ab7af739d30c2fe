import Gocoon.ChatPassthrough

/-!
# The request that is forwarded

The handler finds the model and the tools through struct fields, which take every spelling of
their names, and rewrites maps, whose keys are exact. The forwarded body is the wanted one
exactly when the two readings of the request agree: the model stands under its exact key, or
is replaced by a name that is UTF-8, and tools that were found under any spelling stand under
their exact key, or the body needed no rewriting in the first place.
-/

namespace Gocoon.ForwardedRequest

open Gocoon.LittleEndianBytes
open Gocoon.GoProgram
open Gocoon.TlPrimitives (GoString ascii)
open Gocoon.Utf8Text
open Gocoon.JsonText
open Gocoon.JsonPrinting
open Gocoon.JsonValues
open Gocoon.GoStrings
open Gocoon.ToolTranslation
open Gocoon.ChatPassthrough
open Gocoon.InferenceRequest (Query)
open Gocoon.ProxyAnswers (WorkerType)

set_option autoImplicit false

/-! ## Maps that can be sent -/

section Maps

variable {floats : Floats}

/-- A map whose marshalled form decodes again, with the same keys. -/
structure Sendable (object : Object floats) : Prop where
  ascending : Ascending object
  keys : ∀ member ∈ object, WellFormed member.1
  shallow : ∀ member ∈ object, depth member.2 < maxNestingDepth

theorem Sendable.depth_lt {object : Object floats} (sendable : Sendable object) :
    depthMembers object < maxNestingDepth := by
  have below : depthMembers object ≤ maxNestingDepth - 1 := by
    rw [depth_members_le]
    exact fun member inside => Nat.le_sub_one_of_lt (sendable.shallow member inside)
  exact Nat.lt_of_le_of_lt below (by decide)

theorem Sendable.insert {object : Object floats} (sendable : Sendable object) {key : GoString}
    (well : WellFormed key) {value : Any floats} (flat : depth value < maxNestingDepth) :
    Sendable (insertKey key value object) where
  ascending := insert_ascending sendable.ascending key value
  keys := by
    intro member inside
    rcases mem_insert inside with rfl | old
    · exact well
    · exact sendable.keys member old
  shallow := by
    intro member inside
    rcases mem_insert inside with rfl | old
    · exact flat
    · exact sendable.shallow member old

theorem Sendable.delete {object : Object floats} (sendable : Sendable object) (key : GoString) :
    Sendable (deleteKey key object) where
  ascending := delete_ascending sendable.ascending key
  keys := fun member inside => sendable.keys member (List.mem_filter.mp inside).1
  shallow := fun member inside => sendable.shallow member (List.mem_filter.mp inside).1

theorem scalar_shallow {value : Any floats} (scalar : depth value = 0) :
    depth value < maxNestingDepth := by
  rw [scalar]
  decide

structure Decoded (object : Object floats) : Prop extends Sendable object where
  normal : ∀ member ∈ object, Normal member.2

theorem unmarshal_decoded {body : GoString} {object : Object floats}
    (read : unmarshalMap floats body = .ok (some object)) : Decoded object := by
  have value := (unmarshal_map_iff floats body object).mp read
  have bounded := unmarshal_depth floats value
  have every : ∀ member ∈ object, depth member.2 ≤ maxNestingDepth - 1 :=
    (depth_members_le object _).mp (Nat.le_sub_one_of_lt bounded)
  cases unmarshal_normal floats value with
  | obj ascending keys values =>
      refine ⟨⟨ascending, keys, ?_⟩, values⟩
      exact fun member inside => Nat.lt_of_le_of_lt (every member inside) (by decide)

theorem Decoded.lookup_normal {object : Object floats} (decoded : Decoded object)
    (key : GoString) : (object.lookup key).map JsonValues.normalize = object.lookup key := by
  rcases found : object.lookup key with _ | value
  · rfl
  · obtain ⟨before, after, whole, -⟩ := List.lookup_eq_some_iff.mp found
    have normal := decoded.normal (key, value) (by rw [whole]; simp)
    rw [Option.map_some, normalize_normal normal]

theorem unmarshal_sendable {object : Object floats} (sendable : Sendable object) :
    unmarshalMap floats (marshal floats (.obj object)) =
      .ok (some (object.map fun member => (member.1, JsonValues.normalize member.2))) :=
  unmarshal_map_marshal floats sendable.ascending sendable.keys sendable.depth_lt

/-- The body is a request without streaming for the model and, if it had tools, without the
fields that the proxy refuses. -/
def WantedBody (floats : Floats) (model : GoString) (hadTools : Bool) (body : GoString) : Prop :=
  ∃ object, unmarshalMap floats body = .ok (some object) ∧
    object.lookup (ascii "stream") = some (.bool false) ∧
    object.lookup (ascii "model") = some (.str model) ∧
    (hadTools = true → ∀ field ∈ unsupportedFields, object.lookup field = none)

theorem normalize_eq_false {value : Any floats} :
    JsonValues.normalize value = .bool false ↔ value = .bool false := by
  cases value <;> simp [JsonValues.normalize]

theorem wanted_marshal {object : Object floats} (sendable : Sendable object) (model : GoString)
    (hadTools : Bool) :
    WantedBody floats model hadTools (marshal floats (.obj object)) ↔
      object.lookup (ascii "stream") = some (.bool false) ∧
        (object.lookup (ascii "model")).map JsonValues.normalize = some (.str model) ∧
        (hadTools = true → ∀ field ∈ unsupportedFields, object.lookup field = none) := by
  have streams : ∀ found : Option (Any floats),
      found.map JsonValues.normalize = some (.bool false) ↔ found = some (.bool false) := by
    intro found
    cases found <;> simp [normalize_eq_false]
  simp only [WantedBody, unmarshal_sendable sendable, Except.ok.injEq, Option.some.injEq,
    exists_eq_left', lookup_map, streams, Option.map_eq_none_iff]

end Maps

/-! ## Translated objects -/

section Depth

variable {floats : Floats}

theorem depth_insert {object : Object floats} {limit : Nat} {value : Any floats}
    (bounded : depthMembers object ≤ limit) (flat : depth value ≤ limit) (key : GoString) :
    depthMembers (insertKey key value object) ≤ limit := by
  rw [depth_members_le] at bounded ⊢
  intro member inside
  rcases mem_insert inside with rfl | old
  · exact flat
  · exact bounded member old

theorem depth_delete {object : Object floats} {limit : Nat}
    (bounded : depthMembers object ≤ limit) (key : GoString) :
    depthMembers (deleteKey key object) ≤ limit := by
  rw [depth_members_le] at bounded ⊢
  exact fun member inside => bounded member (List.mem_filter.mp inside).1

theorem message_depth (role content : GoString) (limit : Nat) :
    depth (.obj (ofMembers [(ascii "role", .str role), (ascii "content", .str content)]) :
      Any floats) ≤ limit + 1 := by
  apply Nat.succ_le_succ
  rw [depth_members_le]
  intro member inside
  have listed := mem_of_members inside
  simp only [List.mem_cons, List.not_mem_nil, or_false] at listed
  rcases listed with rfl | rfl <;> exact Nat.zero_le _

theorem rewrite_message_depth {limit : Nat} (injection : GoString) (sysFound : Bool)
    {message : Any floats} (bounded : depth message ≤ limit + 1) :
    depth (rewriteMessage injection sysFound message).1 ≤ limit + 1 := by
  unfold rewriteMessage
  split
  · rename_i fields
    have inner : depthMembers fields ≤ limit := Nat.le_of_succ_le_succ bounded
    dsimp only
    split_ifs with system assistant tool
    · exact Nat.succ_le_succ (depth_insert inner (Nat.zero_le _) _)
    · apply Nat.succ_le_succ
      rcases rewritten : rewriteAssistantToolCalls fields with _ | changed
      · exact inner
      · unfold rewriteAssistantToolCalls at rewritten
        split at rewritten
        · cases rewritten
          exact depth_delete (depth_insert inner (Nat.zero_le _) _) _
        · cases rewritten
    · exact message_depth _ _ limit
    · exact bounded
  · exact bounded

theorem rewrite_history_depth {limit : Nat} (injection : GoString) {messages : List (Any floats)}
    (bounded : ∀ message ∈ messages, depth message ≤ limit + 1) (sysFound : Bool) :
    ∀ message ∈ (rewriteHistoryMessages injection sysFound messages).1,
      depth message ≤ limit + 1 := by
  induction messages generalizing sysFound with
  | nil => simp [rewriteHistoryMessages]
  | cons message rest induction =>
      obtain ⟨here, later⟩ := List.forall_mem_cons.mp bounded
      rw [rewriteHistoryMessages]
      exact List.forall_mem_cons.mpr
        ⟨rewrite_message_depth injection sysFound here, induction later _⟩

end Depth

section Translation

variable (floats : RunnerFloats)

theorem lookup_drop_unsupported (object : Object floats.toFloats) (key : GoString) :
    (dropUnsupported floats object).lookup key =
      if key ∈ unsupportedFields then none else object.lookup key := by
  have every : ∀ (fields : List GoString) (object : Object floats.toFloats),
      (fields.foldl (fun object field => deleteKey field object) object).lookup key =
        if key ∈ fields then none else object.lookup key := by
    intro fields
    induction fields with
    | nil => simp
    | cons field fields induction =>
        intro object
        rw [List.foldl_cons, induction]
        by_cases same : key = field
        · simp [same, lookup_delete_same]
        · simp [same, lookup_delete_other same]
  exact every unsupportedFields object

theorem lookup_default_penalty {object : Object floats.toFloats} {key : GoString}
    (other : key ≠ ascii "presence_penalty") :
    (defaultPenalty floats object).lookup key = object.lookup key := by
  unfold defaultPenalty
  split
  · rfl
  · exact lookup_insert_other other _ _

theorem translated_stream (object : Object floats.toFloats)
    (tools : List (Any floats.toFloats)) :
    (translateObject floats object tools).lookup (ascii "stream") = some (.bool false) := by
  rw [translateObject, lookup_default_penalty floats (by decide), lookup_insert_same]

theorem translated_model (object : Object floats.toFloats) (tools : List (Any floats.toFloats)) :
    (translateObject floats object tools).lookup (ascii "model") =
      object.lookup (ascii "model") := by
  rw [translateObject, lookup_default_penalty floats (by decide),
    lookup_insert_other (by decide), lookup_drop_unsupported,
    if_neg (by decide), lookup_insert_other (by decide)]

theorem translated_unsupported (object : Object floats.toFloats)
    (tools : List (Any floats.toFloats)) :
    ∀ field ∈ unsupportedFields, (translateObject floats object tools).lookup field = none := by
  have others : ∀ field ∈ unsupportedFields,
      field ≠ ascii "presence_penalty" ∧ field ≠ ascii "stream" := by decide
  intro field listed
  have apart := others field listed
  rw [translateObject, lookup_default_penalty floats apart.1, lookup_insert_other apart.2,
    lookup_drop_unsupported, if_pos listed]

theorem entry_depth {object : Object floats.toFloats}
    (shallow : ∀ member ∈ object, depth member.2 < maxNestingDepth) (key : GoString) :
    depth (entry object key) < maxNestingDepth := by
  rw [entry]
  rcases found : object.lookup key with _ | value
  · exact scalar_shallow rfl
  · obtain ⟨before, after, whole, -⟩ := List.lookup_eq_some_iff.mp found
    exact shallow (key, value) (by rw [whole]; simp)

theorem items_of_depth {value item : Any floats.toFloats} {limit : Nat}
    (bounded : depth value ≤ limit + 1) (inside : item ∈ itemsOf value) : depth item ≤ limit := by
  cases value with
  | arr items => exact (depth_items_le items limit).mp (Nat.le_of_succ_le_succ bounded) item inside
  | null | bool | num | str | obj => cases inside

theorem translate_messages_depth {object : Object floats.toFloats}
    (shallow : ∀ member ∈ object, depth member.2 < maxNestingDepth)
    (tools : List (Any floats.toFloats)) :
    depth (.arr (translateMessages floats object tools) : Any floats.toFloats) <
      maxNestingDepth := by
  obtain ⟨limit, deepest⟩ : ∃ limit, maxNestingDepth = limit + 3 := ⟨9997, rfl⟩
  have history := entry_depth floats shallow (ascii "messages")
  rw [deepest] at history ⊢
  have messages : ∀ message ∈ itemsOf (entry object (ascii "messages")),
      depth message ≤ limit + 1 :=
    fun message inside => items_of_depth floats (Nat.le_of_lt_succ history) inside
  have rewritten := rewrite_history_depth (buildToolInjection tools) messages false
  have system : depth (.obj (ofMembers [(ascii "role", .str (ascii "system")),
      (ascii "content", .str (trimLeft (buildToolInjection tools) 0x0A))]) :
        Any floats.toFloats) ≤ limit + 1 := message_depth _ _ limit
  apply Nat.lt_succ_of_le
  apply Nat.succ_le_succ
  rw [depth_items_le, translateMessages]
  dsimp only
  split_ifs
  · exact rewritten
  · exact List.forall_mem_cons.mpr ⟨system, rewritten⟩

theorem drop_unsupported_sendable {object : Object floats.toFloats} (sendable : Sendable object) :
    Sendable (dropUnsupported floats object) := by
  have every : ∀ (fields : List GoString) (object : Object floats.toFloats), Sendable object →
      Sendable (fields.foldl (fun object field => deleteKey field object) object) := by
    intro fields
    induction fields with
    | nil => exact fun object sendable => sendable
    | cons field fields induction =>
        exact fun object sendable => induction _ (sendable.delete field)
  exact every unsupportedFields object sendable

theorem default_penalty_sendable {object : Object floats.toFloats}
    (sendable : Sendable object) : Sendable (defaultPenalty floats object) := by
  unfold defaultPenalty
  split
  · exact sendable
  · exact sendable.insert (well_formed_literal (by decide)) (scalar_shallow rfl)

theorem translated_sendable {object : Object floats.toFloats} (sendable : Sendable object)
    (tools : List (Any floats.toFloats)) : Sendable (translateObject floats object tools) := by
  apply default_penalty_sendable
  apply Sendable.insert _ (well_formed_literal (by decide)) (scalar_shallow rfl)
  apply drop_unsupported_sendable
  exact sendable.insert (well_formed_literal (by decide))
    (translate_messages_depth floats sendable.shallow tools)

end Translation

/-! ## The last step -/

section Finishing

variable (floats : RunnerFloats)

/-- Tools that were found stand under their exact key, or nothing is left to be rewritten. Only
the keys that are dropped for an empty or missing list of tools may be there. -/
def ToolsSettled {floats : Floats} (object : Object floats) : Prop :=
  (∃ tool tools, object.lookup (ascii "tools") = some (.arr (tool :: tools))) ∨
    object.lookup (ascii "stream") = some (.bool false) ∧
      ∀ field ∈ unsupportedFields, field = ascii "tools" ∨
        (field = ascii "tool_choice" ∧ (object.lookup (ascii "tools")).isSome) ∨
        object.lookup field = none

theorem null_without_tools {body : GoString}
    (read : unmarshalMap floats.toFloats body = .ok none) : requestHasTools body = false := by
  have parsed : parse body = some .null := (unmarshal_map_nil_iff floats.toFloats body).mp read
  rw [requestHasTools, structMembers, parsed]
  rfl

theorem finish_reads {routed final : GoString} (finished : finishBody floats routed = .ok final) :
    ∃ object, unmarshalMap floats.toFloats routed = .ok (some object) := by
  unfold finishBody translateRequestBody forceNonStream setBodyKey at finished
  rcases read : unmarshalMap floats.toFloats routed with cause | _ | object
  · rw [read] at finished
    cases tools : requestHasTools routed <;> rw [tools] at finished <;> cases finished
  · rw [read, null_without_tools floats read] at finished
    cases finished
  · exact ⟨object, rfl⟩

variable {object : Object floats.toFloats}

theorem forced_wanted (decoded : Decoded object) (model : GoString) :
    WantedBody floats.toFloats model false (marshal floats.toFloats
        (.obj (insertKey (ascii "stream") (.bool false) object))) ↔
      object.lookup (ascii "model") = some (.str model) := by
  have sendable : Sendable (insertKey (ascii "stream") (.bool false) object) :=
    decoded.toSendable.insert (well_formed_literal (by decide)) (scalar_shallow rfl)
  rw [wanted_marshal sendable, lookup_insert_same, lookup_insert_other (by decide),
    decoded.lookup_normal]
  simp

theorem translated_wanted (decoded : Decoded object) (tools : List (Any floats.toFloats))
    (model : GoString) :
    WantedBody floats.toFloats model true
        (marshal floats.toFloats (.obj (translateObject floats object tools))) ↔
      object.lookup (ascii "model") = some (.str model) := by
  rw [wanted_marshal (translated_sendable floats decoded.toSendable tools), translated_stream,
    translated_model, decoded.lookup_normal]
  simp only [true_and, and_iff_left_iff_imp]
  exact fun _ _ => translated_unsupported floats object tools

theorem untouched_wanted {routed : GoString}
    (read : unmarshalMap floats.toFloats routed = .ok (some object))
    (absent : object.lookup (ascii "tools") = none) (model : GoString) :
    WantedBody floats.toFloats model true routed ↔
      object.lookup (ascii "model") = some (.str model) ∧ ToolsSettled object := by
  have settled : ToolsSettled object ↔ object.lookup (ascii "stream") = some (.bool false) ∧
      ∀ field ∈ unsupportedFields, object.lookup field = none := by
    simp only [ToolsSettled, absent, Option.isSome_none, Bool.false_eq_true, and_false, false_or,
      reduceCtorEq, exists_false]
    apply and_congr_right
    intro _
    apply forall₂_congr
    intro field listed
    constructor
    · rintro (rfl | gone)
      · exact absent
      · exact gone
    · exact .inr
  simp only [WantedBody, read, Except.ok.injEq, Option.some.injEq, exists_eq_left', settled,
    forall_const]
  tauto

theorem dropped_wanted (decoded : Decoded object)
    (present : (object.lookup (ascii "tools")).isSome)
    (empty : ∀ tool tools, object.lookup (ascii "tools") ≠ some (.arr (tool :: tools)))
    (model : GoString) :
    WantedBody floats.toFloats model true (marshal floats.toFloats
        (.obj (deleteKey (ascii "tool_choice") (deleteKey (ascii "tools") object)))) ↔
      object.lookup (ascii "model") = some (.str model) ∧ ToolsSettled object := by
  have sendable := (decoded.toSendable.delete (ascii "tools")).delete (ascii "tool_choice")
  have kept : ∀ key, key ≠ ascii "tools" → key ≠ ascii "tool_choice" →
      (deleteKey (ascii "tool_choice") (deleteKey (ascii "tools") object)).lookup key =
        object.lookup key := by
    intro key notTools notChoice
    rw [lookup_delete_other notChoice, lookup_delete_other notTools]
  have gone : ∀ field, (deleteKey (ascii "tool_choice")
      (deleteKey (ascii "tools") object)).lookup field = none ↔
        field = ascii "tools" ∨ field = ascii "tool_choice" ∨ object.lookup field = none := by
    intro field
    by_cases choice : field = ascii "tool_choice"
    · simp [choice, lookup_delete_same]
    · by_cases tools : field = ascii "tools"
      · rw [tools, lookup_delete_other (by decide), lookup_delete_same]
        simp
      · simp [kept field tools choice, tools, choice]
  rw [wanted_marshal sendable, kept _ (by decide) (by decide),
    kept _ (by decide) (by decide), decoded.lookup_normal]
  simp only [gone, ToolsSettled, present, and_true, forall_const]
  simp only [empty, exists_false, false_or]
  tauto

theorem finish_wanted {routed final : GoString}
    (read : unmarshalMap floats.toFloats routed = .ok (some object))
    (finished : finishBody floats routed = .ok final) (model : GoString) :
    WantedBody floats.toFloats model (requestHasTools routed) final ↔
      object.lookup (ascii "model") = some (.str model) ∧
        (requestHasTools routed = true → ToolsSettled object) := by
  have decoded := unmarshal_decoded read
  rw [finishBody] at finished
  cases found : requestHasTools routed with
  | false =>
      rw [found, forceNonStream, setBodyKey, read] at finished
      cases finished
      rw [forced_wanted floats decoded]
      simp
  | true =>
      rw [found, translateRequestBody, read] at finished
      simp only [if_true, forall_const] at finished ⊢
      split at finished
      · rename_i translated done
        cases finished
        split at done
        · rename_i absent
          cases done
          exact untouched_wanted floats read absent model
        · rename_i tool tools listed
          cases done
          have settled : ToolsSettled object := .inl ⟨tool, tools, listed⟩
          rw [translated_wanted floats decoded]
          simp [settled]
        · rename_i value empty listed
          cases done
          apply dropped_wanted floats decoded (by simp [listed])
          intro tool tools same
          rw [listed] at same
          cases same
          exact empty tool tools rfl
      · cases finished

end Finishing

/-! ## What the probes find -/

def requestedModel (members : List Member) : GoString :=
  (((spelledValues (ascii "model") (members.map Member.pair)).filterMap stringValue).getLast?).getD
    []

/-- Every spelling of `tools` holds an array or `null`, and the last one an array with items. -/
def announcesTools {Number : Type} (entries : List (GoString × Value Number)) : Bool :=
  fillsSlice [] (spelledValues (ascii "tools") entries)

theorem probe_model_eq {body : GoString} {members : List Member}
    (read : structMembers body = .ok members) : probeModel body = requestedModel members := by
  rw [probeModel, read]
  exact string_field_last (ascii "model") members ([], false)

theorem has_tools_eq {body : GoString} {members : List Member}
    (read : structMembers body = .ok members) :
    requestHasTools body = announcesTools (members.map Member.pair) := by
  rw [requestHasTools, read]
  exact slice_field_last (ascii "tools") members [] false

section Probing

variable {floats : Floats}

theorem struct_members_of_map {body : GoString} {object : Object floats}
    (read : unmarshalMap floats body = .ok (some object)) :
    structMembers body = .ok (objectMembers body) := by
  unfold unmarshalMap at read
  rw [structMembers]
  split at read
  · cases read
  · cases read
  · rfl
  · cases read

theorem has_tools_marshalled {object : Object floats} (sendable : Sendable object) :
    requestHasTools (marshal floats (.obj object)) = announcesTools object := by
  rw [has_tools_eq (struct_members_marshal floats sendable.depth_lt), announcesTools,
    announcesTools, List.map_map]
  have entries : object.map (Member.pair ∘ readMember floats.formatFloat) =
      object.map fun entry => (entry.1, mapValue floats.formatFloat coerce entry.2) := by
    apply List.map_congr_left
    intro entry inside
    exact Prod.ext (coerce_of_well_formed (sendable.keys entry inside)) rfl
  rw [entries, spelled_values_map, fills_slice_map]

end Probing

/-! ## Which model is resolved -/

def fallbackModel (models : List WorkerType) : Option GoString :=
  (models.find? fun model => decide (model.workers.length ≠ 0 ∧ model.name ≠ [])).map (·.name)

/-- A request for no model in particular is given the fallback. -/
def ReplacesModel (models : List WorkerType) (requested : GoString) : Prop :=
  (requested = [] ∨ requested = ascii "default") ∧ fallbackModel models ≠ some requested

theorem resolve_unnamed {requested : GoString}
    (unnamed : requested = [] ∨ requested = ascii "default") (fallback : GoString)
    (models : List WorkerType) :
    resolveFrom requested fallback models =
      if fallback = [] then
        match fallbackModel models with
        | some name => .ok name
        | none => .error .noWorkers
      else .ok fallback := by
  induction models generalizing fallback with
  | nil => simp [resolveFrom, unnamed, fallbackModel]
  | cons model models induction =>
      have never : ¬ (requested ≠ [] ∧ requested ≠ ascii "default" ∧ requested = model.name) := by
        rintro ⟨nonempty, other, -⟩
        rcases unnamed with empty | default
        · exact nonempty empty
        · exact other default
      rw [resolveFrom]
      by_cases idle : model.workers.length = 0
      · have skipped : fallbackModel (model :: models) = fallbackModel models := by
          rw [fallbackModel, List.find?_cons_of_neg (by simp [idle]), fallbackModel]
        rw [if_pos idle, induction, skipped]
      · rw [if_neg idle]
        dsimp only
        rw [if_neg never, induction]
        by_cases first : fallback = []
        · rw [if_pos first, if_pos first]
          by_cases nameless : model.name = []
          · have skipped : fallbackModel (model :: models) = fallbackModel models := by
              rw [fallbackModel, List.find?_cons_of_neg (by simp [nameless]), fallbackModel]
            rw [if_pos nameless, skipped]
          · have taken : fallbackModel (model :: models) = some model.name := by
              rw [fallbackModel, List.find?_cons_of_pos (by simpa [nameless] using idle),
                Option.map_some]
            rw [if_neg nameless, taken]
        · rw [if_neg first, if_neg first, if_neg first]

theorem resolve_named {requested : GoString}
    (named : ¬ (requested = [] ∨ requested = ascii "default")) {fallback model : GoString}
    {models : List WorkerType} (resolved : resolveFrom requested fallback models = .ok model) :
    model = requested := by
  induction models generalizing fallback with
  | nil =>
      rw [resolveFrom] at resolved
      split_ifs at resolved
  | cons first models induction =>
      rw [resolveFrom] at resolved
      by_cases idle : first.workers.length = 0
      · rw [if_pos idle] at resolved
        exact induction resolved
      · rw [if_neg idle] at resolved
        dsimp only at resolved
        by_cases found : requested ≠ [] ∧ requested ≠ ascii "default" ∧ requested = first.name
        · rw [if_pos found] at resolved
          cases resolved
          rfl
        · rw [if_neg found] at resolved
          exact induction resolved

theorem resolve_replaces {requested model : GoString} {models : List WorkerType}
    (resolved : resolveModel (.ok models) requested = .ok model) :
    (model ≠ requested ↔ ReplacesModel models requested) ∧
      (ReplacesModel models requested → fallbackModel models = some model) := by
  rw [resolveModel] at resolved
  by_cases unnamed : requested = [] ∨ requested = ascii "default"
  · rw [resolve_unnamed unnamed, if_pos rfl] at resolved
    rcases found : fallbackModel models with _ | name
    · rw [found] at resolved
      cases resolved
    · rw [found] at resolved
      cases resolved
      simp [ReplacesModel, unnamed, found]
  · have same := resolve_named unnamed resolved
    simp [ReplacesModel, unnamed, same]

/-! ## The whole handler -/

/-- The two readings of the request agree. If the model is replaced, its new name is UTF-8, and
the tools are looked for in the map; otherwise the model that was asked for stands under its
exact key, and the tools are looked for in the body as it came. -/
def ReadingsAgree (floats : Floats) (models : List WorkerType) (body : GoString) : Prop :=
  ∃ object, unmarshalMap floats body = .ok (some object) ∧
    (ReplacesModel models (requestedModel (objectMembers body)) →
      (∀ name, fallbackModel models = some name → WellFormed name) ∧
        (announcesTools object = true → ToolsSettled object)) ∧
    (¬ ReplacesModel models (requestedModel (objectMembers body)) →
      object.lookup (ascii "model") = some (.str (requestedModel (objectMembers body))) ∧
        (announcesTools ((objectMembers body).map Member.pair) = true → ToolsSettled object))

section Handler

variable {floats : RunnerFloats}

theorem tools_settled_congr {object other : Object floats.toFloats}
    (same : ∀ key, key ≠ ascii "model" → object.lookup key = other.lookup key) :
    ToolsSettled object ↔ ToolsSettled other := by
  have fields : ∀ field ∈ unsupportedFields, field ≠ ascii "model" := by decide
  rw [ToolsSettled, ToolsSettled, same _ (by decide), same (ascii "stream")
    (by decide)]
  apply or_congr Iff.rfl
  apply and_congr Iff.rfl
  apply forall₂_congr
  intro field listed
  rw [same field (fields field listed)]

theorem replaced_reads {object : Object floats.toFloats} (decoded : Decoded object)
    (model : GoString) :
    ∃ changed, unmarshalMap floats.toFloats (marshal floats.toFloats
        (.obj (insertKey (ascii "model") (.str model) object))) = .ok (some changed) ∧
      changed.lookup (ascii "model") = some (.str (coerce model)) ∧
      ∀ key, key ≠ ascii "model" → changed.lookup key = object.lookup key := by
  have sendable : Sendable (insertKey (ascii "model") (.str model) object) :=
    decoded.toSendable.insert (well_formed_literal (by decide)) (scalar_shallow rfl)
  refine ⟨_, unmarshal_sendable sendable, ?_, ?_⟩
  · rw [lookup_map, lookup_insert_same, Option.map_some, JsonValues.normalize]
  · intro key other
    rw [lookup_map, lookup_insert_other other, decoded.lookup_normal]

theorem replaced_tools {object : Object floats.toFloats} (decoded : Decoded object)
    (model : GoString) :
    requestHasTools (marshal floats.toFloats
      (.obj (insertKey (ascii "model") (.str model) object))) = announcesTools object := by
  have sendable : Sendable (insertKey (ascii "model") (.str model) object) :=
    decoded.toSendable.insert (well_formed_literal (by decide)) (scalar_shallow rfl)
  rw [has_tools_marshalled sendable, announcesTools, announcesTools,
    spelled_values_insert (by decide)]

theorem replaced_wanted {object : Object floats.toFloats} (decoded : Decoded object)
    {model final : GoString}
    (finished : finishBody floats (marshal floats.toFloats
      (.obj (insertKey (ascii "model") (.str model) object))) = .ok final) :
    WantedBody floats.toFloats model (announcesTools object) final ↔
      WellFormed model ∧ (announcesTools object = true → ToolsSettled object) := by
  obtain ⟨changed, read, named, others⟩ := replaced_reads decoded model
  have wanted := finish_wanted floats read finished model
  rw [replaced_tools decoded] at wanted
  rw [wanted, named, tools_settled_congr others, ← coerce_eq_iff]
  simp

theorem prepared {models : List WorkerType} {body : GoString} {forwarded : Forwarded}
    (done : prepareBody floats (.ok models) body = .ok forwarded) :
    resolveModel (.ok models) (probeModel body) = .ok forwarded.model ∧
      ∃ routed, routeBody floats body forwarded.model = .ok routed ∧
        finishBody floats routed = .ok forwarded.body ∧
        forwarded.hadTools = requestHasTools routed := by
  unfold prepareBody at done
  split at done
  · cases done
  · rename_i model resolved
    split at done
    · cases done
    · rename_i routed routes
      split at done
      · cases done
      · rename_i final finished
        cases done
        exact ⟨resolved, routed, routes, finished, rfl⟩

theorem replaced_routes {body model routed : GoString} (other : model ≠ probeModel body)
    (routes : routeBody floats body model = .ok routed) :
    ∃ object, unmarshalMap floats.toFloats body = .ok (some object) ∧
      routed = marshal floats.toFloats (.obj (insertKey (ascii "model") (.str model) object)) := by
  rw [routeBody, if_pos other, rewriteJSONModel, setBodyKey] at routes
  rcases read : unmarshalMap floats.toFloats body with cause | _ | object
  · rw [read] at routes
    cases routes
  · rw [read] at routes
    cases routes
  · rw [read] at routes
    cases routes
    exact ⟨object, rfl, rfl⟩

theorem prepared_wanted_iff {models : List WorkerType} {body : GoString} {forwarded : Forwarded}
    (done : prepareBody floats (.ok models) body = .ok forwarded) :
    WantedBody floats.toFloats forwarded.model forwarded.hadTools forwarded.body ↔
      ReadingsAgree floats.toFloats models body := by
  obtain ⟨resolved, routed, routes, finished, hadTools⟩ := prepared done
  rw [hadTools]
  by_cases other : forwarded.model ≠ probeModel body
  · obtain ⟨object, read, rfl⟩ := replaced_routes other routes
    have decoded := unmarshal_decoded read
    have probed := probe_model_eq (struct_members_of_map read)
    rw [probed] at resolved other
    have replaces := resolve_replaces resolved
    have replaced := replaces.1.mp other
    rw [replaced_tools decoded, replaced_wanted decoded finished, ReadingsAgree]
    simp only [read, Except.ok.injEq, Option.some.injEq, exists_eq_left', replaced,
      replaces.2 replaced, not_true_eq_false, false_imp_iff, and_true, forall_const, forall_eq']
  · rw [routeBody, if_neg other] at routes
    cases routes
    obtain ⟨object, read⟩ := finish_reads floats finished
    have members := struct_members_of_map read
    have probed := probe_model_eq members
    have same : forwarded.model = requestedModel (objectMembers body) := by
      rw [← probed]
      exact not_not.mp other
    rw [probed] at resolved
    have kept : ¬ ReplacesModel models (requestedModel (objectMembers body)) := by
      intro replaced
      exact (resolve_replaces resolved).1.mpr replaced same
    rw [finish_wanted floats read finished, has_tools_eq members, same, ReadingsAgree]
    simp only [read, Except.ok.injEq, Option.some.injEq, exists_eq_left', kept, false_imp_iff,
      not_false_eq_true, true_and, forall_const]

theorem handler_runs {initialized ready hadTools : Bool} {models : List WorkerType}
    {method requestURI contentType body : GoString} {query : Query}
    (reaches : handleChatCompletions floats ⟨initialized, ready, .ok models⟩
      ⟨method, requestURI, contentType, .ok body⟩ = .runs query hadTools) :
    ∃ forwarded, prepareBody floats (.ok models) body = .ok forwarded ∧
      query = chatQuery ⟨method, requestURI, contentType, .ok body⟩ forwarded ∧
      hadTools = forwarded.hadTools := by
  unfold handleChatCompletions at reaches
  split_ifs at reaches
  split at reaches
  · cases reaches
  · rename_i read received
    rw [readBody] at received
    split_ifs at received
    cases received
    split at reaches
    · cases reaches
    · cases reaches
    · rename_i forwarded done
      cases reaches
      exact ⟨forwarded, done, rfl, rfl⟩

end Handler

/-- For every request that reaches `RunQuery` and every list of advertised models: the body is
the wanted one, for the resolved model, exactly when the two readings of the request agree. -/
theorem forwarded_body_wanted_iff (floats : RunnerFloats) (initialized ready : Bool)
    (models : List WorkerType) (method requestURI contentType body : GoString) (query : Query)
    (hadTools : Bool)
    (reaches : handleChatCompletions floats ⟨initialized, ready, .ok models⟩
      ⟨method, requestURI, contentType, .ok body⟩ = .runs query hadTools) :
    (∃ model, resolveModel (.ok models) (probeModel body) = .ok model ∧
      WantedBody floats.toFloats model hadTools query.body) ↔
        ReadingsAgree floats.toFloats models body := by
  obtain ⟨forwarded, done, rfl, rfl⟩ := handler_runs reaches
  have wanted := prepared_wanted_iff done
  have resolved := (prepared done).1
  constructor
  · rintro ⟨model, named, held⟩
    rw [resolved] at named
    cases named
    exact wanted.mp held
  · intro agree
    exact ⟨forwarded.model, resolved, wanted.mpr agree⟩

/-! ### Two requests -/

theorem penalty_literal : NumberLiteral (ascii "1.5") := by
  unfold NumberLiteral
  decide +kernel

def literalRunnerFloats : RunnerFloats where
  toFloats := literalFloats
  defaultPresencePenalty := ⟨ascii "1.5", penalty_literal⟩
  penaltyLiteral := literalFloats.parseFormat ⟨ascii "1.5", penalty_literal⟩

def sampleModels : List WorkerType := [⟨ascii "x", [⟨1, 0, 1⟩]⟩]

def sampleRequest (body : GoString) : ChatRequest := ⟨ascii "POST", ascii "/", [], .ok body⟩

theorem sample_runs {body : GoString} {forwarded : Forwarded} (small : body.length ≤ maxBodyBytes)
    (done : prepareBody literalRunnerFloats (.ok sampleModels) body = .ok forwarded) :
    handleChatCompletions literalRunnerFloats ⟨true, true, .ok sampleModels⟩ (sampleRequest body) =
      .runs (chatQuery (sampleRequest body) forwarded) forwarded.hadTools := by
  have post : ascii "POST" ≠ ascii "OPTIONS" := by decide +kernel
  have read : readBody (.ok body) = .ok body := by
    rw [readBody, if_neg (Nat.not_lt.mpr small)]
  simp [handleChatCompletions, sampleRequest, post, read, done]

def exactBody : GoString := ascii "\x7b\"model\":\"x\",\"stream\":true\x7d"

def exactForwarded : Forwarded :=
  ⟨ascii "x", ascii "\x7b\"model\":\"x\",\"stream\":false\x7d", false⟩

theorem exact_body_prepared :
    prepareBody literalRunnerFloats (.ok sampleModels) exactBody = .ok exactForwarded := by
  decide +kernel

theorem exact_body_wanted :
    (∃ model, resolveModel (.ok sampleModels) (probeModel exactBody) = .ok model ∧
      WantedBody literalRunnerFloats.toFloats model exactForwarded.hadTools
        (chatQuery (sampleRequest exactBody) exactForwarded).body) ↔
      ReadingsAgree literalRunnerFloats.toFloats sampleModels exactBody :=
  forwarded_body_wanted_iff literalRunnerFloats true true sampleModels (ascii "POST") (ascii "/")
    [] exactBody (chatQuery (sampleRequest exactBody) exactForwarded) exactForwarded.hadTools
    (sample_runs (by decide +kernel) exact_body_prepared)

/-- Both fields are found under their capitalised names, and no exact key is there to be
rewritten. -/
def capitalBody : GoString :=
  ascii "\x7b\"Model\":\"x\",\"Tools\":[1]," ++ ascii "\"stream\":true\x7d"

def isTrue : Option (Any literalFloats) → Bool
  | some (.bool true) => true
  | _ => false

/-- The body is an object that asks for a stream and names no model. -/
def streamsUnnamed (body : GoString) : Bool :=
  match unmarshalMap literalFloats body with
  | .ok (some object) =>
      isTrue (object.lookup (ascii "stream")) && (object.lookup (ascii "model")).isNone
  | _ => false

theorem streams_unnamed_unwanted {body model : GoString} {hadTools : Bool}
    (streams : streamsUnnamed body = true) : ¬ WantedBody literalFloats model hadTools body := by
  rintro ⟨object, read, stopped, named, _⟩
  simp [streamsUnnamed, read, stopped, isTrue] at streams

def capitalForwarded : Forwarded := ⟨ascii "x", capitalBody, true⟩

/-- The request is forwarded as it came: streaming, and without a model. -/
theorem capital_body_forwarded :
    handleChatCompletions literalRunnerFloats ⟨true, true, .ok sampleModels⟩
        (sampleRequest capitalBody) =
      .runs (chatQuery (sampleRequest capitalBody) capitalForwarded) true ∧
    resolveModel (.ok sampleModels) (probeModel capitalBody) = .ok (ascii "x") ∧
    streamsUnnamed (chatQuery (sampleRequest capitalBody) capitalForwarded).body = true ∧
    ¬ WantedBody literalFloats (ascii "x") true
      (chatQuery (sampleRequest capitalBody) capitalForwarded).body := by
  have done : prepareBody literalRunnerFloats (.ok sampleModels) capitalBody =
      .ok capitalForwarded := by decide +kernel
  have resolved : resolveModel (.ok sampleModels) (probeModel capitalBody) = .ok (ascii "x") := by
    decide +kernel
  have streams : streamsUnnamed
      (chatQuery (sampleRequest capitalBody) capitalForwarded).body = true := by decide +kernel
  exact ⟨sample_runs (by decide +kernel) done, resolved, streams, streams_unnamed_unwanted streams⟩

end Gocoon.ForwardedRequest
