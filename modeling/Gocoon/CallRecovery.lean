import Gocoon.SpanRemoval

/-!
# Calls read out of an answer

A block whose object is a call is read as that call as long as its strings leave the search for
tags alone. The search is blind to strings: think spans are cut out of the answer before any
object is read, and behind a close tag in a string the search takes an open tag in a string for
the start of another block. Objects without think tags in which no call tag opens behind one that
closes are all read, in their order, and nothing else is.
-/

namespace Gocoon.CallRecovery

open Gocoon.LittleEndianBytes
open Gocoon.TlPrimitives (GoString ascii)
open Gocoon.JsonText
open Gocoon.JsonPrinting
open Gocoon.JsonValues
open Gocoon.GoStrings
open Gocoon.ToolTranslation
open Gocoon.BraceMatcher
open Gocoon.ToolCallHistory
open Gocoon.TaggedText
open Gocoon.SpanRemoval

set_option autoImplicit false

/-! ## Call objects -/

section Calls

def lastUnder (key : GoString) (members : List Member) : Option Member :=
  (members.filter fun member => member.key = key).getLast?

/-- The name and the arguments text of an object that has a string and an object under the
two keys, nested at most `limit` deep. -/
def callFields (limit : Nat) (json : GoString) : Option (GoString × GoString) :=
  match parseObject (parseValue limit) json with
  | some (members, []) =>
      match lastUnder (ascii "name") members, lastUnder (ascii "arguments") members with
      | some ⟨_, _, .str name⟩, some ⟨_, raw, .obj _⟩ => some (name, raw)
      | _, _ => none
  | _ => none

/-- The text is a JSON object with a name that is not empty and an object of arguments. -/
def IsCall (json name arguments : GoString) : Prop :=
  name ≠ [] ∧ ∃ limit, callFields limit json = some (name, arguments)

theorem IsCall.fields {json name arguments : GoString} (isCall : IsCall json name arguments) :
    ∃ limit members key key' raw tree,
      parseObject (parseValue limit) json = some (members, []) ∧
      lastUnder (ascii "name") members = some ⟨key, raw, .str name⟩ ∧
      lastUnder (ascii "arguments") members = some ⟨key', arguments, .obj tree⟩ := by
  obtain ⟨-, limit, fields⟩ := isCall
  unfold callFields at fields
  split at fields
  · rename_i members read
    split at fields
    · rename_i key raw string key' text tree named argued
      cases fields
      exact ⟨limit, members, key, key', raw, tree, read, named, argued⟩
    · cases fields
  · cases fields

theorem IsCall.braced {json name arguments : GoString} (isCall : IsCall json name arguments) :
    ∃ inner, json = openBrace :: (inner ++ [closeBrace]) := by
  obtain ⟨limit, members, -, -, -, -, read, -⟩ := isCall.fields
  obtain ⟨inner, opened, listed⟩ := Option.bind_eq_some_iff.mp read
  obtain ⟨_, whole, body, rfl, -⟩ :=
    parse_list_sound (parse_member_sound (parse_value_sound limit)) _ _ _ listed
  rw [List.append_nil] at whole
  rw [expect_eq_some.mp opened, whole]
  exact ⟨body, rfl⟩

end Calls

/-! ## Ordinary calls -/

section Ordinary

theorem raw_field_last (name : GoString) (members : List Member) (state : GoString × Bool) :
    members.foldl (storeField name storeRaw) state =
      ((((members.filter fun member => foldName member.key = foldName name).getLast?).map
        Member.raw).getD state.1, state.2) := by
  induction members generalizing state with
  | nil => rfl
  | cons member members induction =>
      rw [List.foldl_cons, induction, storeField]
      by_cases taken : foldName member.key = foldName name
      · simp only [storeRaw, List.filter_cons, taken, decide_true, if_true, List.getLast?_cons]
        cases (members.filter fun member => foldName member.key = foldName name).getLast? <;> rfl
      · simp [taken]

theorem string_field_taken {name : GoString} {members : List Member} (state : GoString × Bool) :
    (members.foldl (storeField name storeString) state).2 = false ↔ state.2 = false ∧
      ∀ member ∈ members, foldName member.key = foldName name →
        (storeString [] member).isSome = true := by
  induction members generalizing state with
  | nil => simp
  | cons member members induction =>
      rw [List.foldl_cons, induction, List.forall_mem_cons, ← and_assoc]
      apply and_congr_left'
      rw [storeField]
      split_ifs with spelled
      · unfold storeString
        cases member.value <;> simp [spelled]
      · simp [spelled]

/-- The object is not nested too deep, and the last string under a key that is spelled like `name`,
in any letter case, is the given one. -/
structure Named (members : List Member) (name : GoString) : Prop where
  shallow : ∀ member ∈ members, depth member.value < maxNestingDepth
  taken : ∀ member ∈ members, foldName member.key = foldName (ascii "name") →
    (storeString [] member).isSome = true
  named : ((spelledValues (ascii "name") (members.map Member.pair)).filterMap
    stringValue).getLast? = some name

/-- The last value under a key that is spelled like `arguments` has the given text, too. -/
structure Ordinary (members : List Member) (name arguments : GoString) : Prop extends
    Named members name where
  argued : ((members.filter fun member =>
    foldName member.key = foldName (ascii "arguments")).getLast?).map Member.raw = some arguments

instance (members : List Member) (name arguments : GoString) :
    Decidable (Ordinary members name arguments) :=
  decidable_of_iff (_ ∧ _ ∧ _ ∧ _)
    ⟨fun ⟨shallow, taken, named, argued⟩ => ⟨⟨shallow, taken, named⟩, argued⟩,
      fun ordinary => ⟨ordinary.shallow, ordinary.taken, ordinary.named, ordinary.argued⟩⟩

theorem Named.field {members : List Member} {name : GoString} (named : Named members name) :
    decodeField (ascii "name") storeString [] members = (name, false) := by
  apply Prod.ext
  · rw [decodeField, string_field_last, named.named]
    rfl
  · exact (string_field_taken _).mpr ⟨rfl, named.taken⟩

variable {json : GoString} {limit : Nat} {members : List Member}

theorem parse_value_braced (inner : GoString) :
    parseValue (limit + 1) (openBrace :: inner) =
      (parseObject (parseValue limit) (openBrace :: inner)).map fun (members, rest) =>
        (.obj (members.map Member.pair), rest) := by
  have notArray : (expect openBracket (openBrace :: inner)).isSome = false := rfl
  have object : (expect openBrace (openBrace :: inner)).isSome = true := rfl
  simp only [parseValue, notArray, Bool.false_eq_true, if_false, object, if_true]

theorem parse_value_object {rest : GoString}
    (read : parseObject (parseValue limit) json = some (members, rest)) :
    parseValue (limit + 1) json = some (.obj (members.map Member.pair), rest) := by
  obtain ⟨inner, opened, -⟩ := Option.bind_eq_some_iff.mp read
  obtain rfl := expect_eq_some.mp opened
  rw [parse_value_braced, read, Option.map_some]

theorem members_within (read : parseObject (parseValue limit) json = some (members, []))
    {bound : Nat} (more : limit ≤ bound) :
    parseObject (parseValue bound) json = some (members, []) := by
  apply parse_object_agree _ read
  intro member inside text rest here
  obtain ⟨_, -, denotes⟩ := parse_value_sound _ _ _ _ here
  exact parse_value_limit here (Nat.le_trans (value_text_depth denotes) more)

theorem members_unique {other : Nat} {members' : List Member}
    (read : parseObject (parseValue limit) json = some (members, []))
    (again : parseObject (parseValue other) json = some (members', [])) : members = members' := by
  have left := members_within read (Nat.le_max_left limit other)
  rw [members_within again (Nat.le_max_right limit other)] at left
  cases left
  rfl

theorem ordinary_members (read : parseObject (parseValue limit) json = some (members, []))
    (shallow : ∀ member ∈ members, depth member.value < maxNestingDepth) :
    structMembers json = .ok members := by
  have every : ∀ member ∈ members, depth member.value ≤ maxNestingDepth - 1 :=
    fun member inside => Nat.le_sub_one_of_lt (shallow member inside)
  have again : parseObject (parseValue (maxNestingDepth - 1)) json = some (members, []) := by
    apply parse_object_agree _ read
    intro member inside text rest here
    exact parse_value_limit here (every member inside)
  obtain ⟨inner, opened, -⟩ := Option.bind_eq_some_iff.mp read
  have starts := expect_eq_some.mp opened
  have skipped : skipSpace json = json := by
    rw [starts]
    exact skip_space_cons (by decide) inner
  have value : parseValue maxNestingDepth json = some (.obj (members.map Member.pair), []) :=
    parse_value_object again
  have parsed : parse json = some (.obj (members.map Member.pair)) := by
    rw [parse, skipped, value]
    rfl
  simp only [structMembers, parsed, objectMembers, skipped, again]

theorem last_under_mem {key : GoString} {member : Member}
    (found : lastUnder key members = some member) : member ∈ members :=
  (List.mem_filter.mp (List.mem_of_getLast? found)).1

theorem object_text {text : GoString} {tree : List (GoString × Json)}
    (denotes : ValueText limit text (.obj tree)) :
    ∃ inner, text = openBrace :: inner ++ [closeBrace] := by
  cases limit with
  | zero => cases denotes
  | succ limit =>
      rcases denotes with scalar | nested
      · cases scalar
      · cases nested with
        | object reads => exact ⟨_, rfl⟩

theorem object_raw (read : parseObject (parseValue limit) json = some (members, []))
    {member : Member} (inside : member ∈ members) {tree : List (GoString × Json)}
    (object : member.value = .obj tree) :
    ∃ inner, member.raw = openBrace :: inner ++ [closeBrace] := by
  obtain ⟨inner, opened, listed⟩ := Option.bind_eq_some_iff.mp read
  obtain ⟨_, -, body, -, entries⟩ :=
    parse_list_sound (parse_member_sound (parse_value_sound limit)) _ _ _ listed
  obtain ⟨_, _, _, _, _, -, -, -, -, -, here⟩ := list_text_entries entries member inside
  rw [object] at here
  exact object_text here

theorem decode_ordinary {name arguments inner : GoString}
    (read : parseObject (parseValue limit) json = some (members, []))
    (ordinary : Ordinary members name arguments) (notEmpty : name ≠ [])
    (spelled : arguments = openBrace :: inner ++ [closeBrace]) :
    decodeCall json = some (name, arguments) := by
  have argumentsField : decodeField (ascii "arguments") storeRaw [] members =
      (arguments, false) := by
    rw [decodeField, raw_field_last, ordinary.argued]
    rfl
  have trimmed : trimSpace arguments = arguments := by
    rw [spelled]
    exact trim_space_between (by decide) (by decide) (by decide) (by decide) inner
  have present : arguments ≠ [] ∧ arguments ≠ ascii "null" := by
    rw [spelled]
    constructor
    · exact List.cons_ne_nil _ _
    · intro same
      have first : some openBrace = (ascii "null").head? := congrArg List.head? same
      exact absurd first (by decide)
  simp only [decodeCall, ordinary_members read ordinary.shallow, ordinary.toNamed.field,
    argumentsField, trimmed]
  simp [notEmpty, present]

theorem object_extracted (read : parseObject (parseValue limit) json = some (members, []))
    (rest : GoString) : extractJSONObject (json ++ rest) 0 = some json := by
  obtain ⟨text, whole, denotes⟩ := parse_value_sound _ _ _ _ (parse_value_object read)
  have extracted := @extract_object _ text [] rest _ denotes
  rw [List.append_nil] at whole
  rwa [List.nil_append, List.length_nil, ← whole] at extracted

theorem ordinary_call_read {name arguments : GoString} (isCall : IsCall json name arguments)
    (read : parseObject (parseValue limit) json = some (members, []))
    (ordinary : Ordinary members name arguments) :
    (extractJSONObject json 0).bind decodeCall = some (name, arguments) := by
  obtain ⟨_, _, _, _, _, _, same, -, argued⟩ := isCall.fields
  obtain rfl := members_unique read same
  obtain ⟨inner, spelled⟩ := object_raw read (last_under_mem argued) rfl
  have extracted := object_extracted read []
  rw [List.append_nil] at extracted
  rw [extracted, Option.bind_some]
  exact decode_ordinary read ordinary isCall.1 spelled

end Ordinary

/-! ## One block -/

section Block

/-- A run stops at the byte, which is a closing brace, or it goes on behind it in a state that does
not depend on what follows. -/
def Steps (byte : Byte) (run : GoString → Option GoString) : Prop :=
  (byte = closeBrace ∧ ∀ rest, run rest = some [byte]) ∨
    ∃ depth inString escaped, ∀ rest,
      run rest = (matchBraces depth inString escaped rest).map (byte :: ·)

theorem Steps.either {byte : Byte} {left right : GoString → Option GoString} (condition : Prop)
    [Decidable condition] (whenTrue : condition → Steps byte left)
    (whenFalse : Steps byte right) :
    Steps byte fun rest => if condition then left rest else right rest := by
  by_cases holds : condition
  · simp only [if_pos holds]
    exact whenTrue holds
  · simp only [if_neg holds]
    exact whenFalse

theorem match_braces_step (depth : Int) (inString escaped : Bool) (byte : Byte) :
    Steps byte fun rest => matchBraces depth inString escaped (byte :: rest) := by
  have continues : ∀ depth inString escaped, Steps byte fun rest =>
      (matchBraces depth inString escaped rest).map (byte :: ·) :=
    fun depth inString escaped => .inr ⟨depth, inString, escaped, fun _ => rfl⟩
  simp only [matchBraces]
  apply Steps.either _ fun _ => continues _ _ _
  apply Steps.either
  · exact fun _ => .either _ (fun _ => continues _ _ _)
      (.either _ (fun _ => continues _ _ _) (continues _ _ _))
  · apply Steps.either _ fun _ => continues _ _ _
    apply Steps.either _ fun _ => continues _ _ _
    exact .either _ (fun closes => .either _ (fun _ => .inl ⟨closes, fun _ => rfl⟩)
      (continues _ _ _)) (continues _ _ _)

/-- The matcher does not look beyond the object that it returns. -/
theorem match_braces_append {depth : Int} {inString escaped : Bool} {text found : GoString}
    (matched : matchBraces depth inString escaped text = some found) (rest : GoString) :
    matchBraces depth inString escaped (text ++ rest) = some found := by
  induction text generalizing depth inString escaped found with
  | nil => cases matched
  | cons byte text induction =>
      rw [List.cons_append]
      rcases match_braces_step depth inString escaped byte with ⟨-, stops⟩ | ⟨_, _, _, continues⟩
      · dsimp only at stops
        rw [stops] at matched ⊢
        exact matched
      · dsimp only at continues
        rw [continues] at matched ⊢
        obtain ⟨others, later, rfl⟩ := Option.map_eq_some_iff.mp matched
        rw [induction later, Option.map_some]

theorem match_braces_split {depth : Int} {inString escaped : Bool} {text found : GoString}
    (matched : matchBraces depth inString escaped text = some found) :
    ∃ inner after, found = inner ++ [closeBrace] ∧ text = found ++ after := by
  induction text generalizing depth inString escaped found with
  | nil => cases matched
  | cons byte text induction =>
      rcases match_braces_step depth inString escaped byte with
        ⟨rfl, stops⟩ | ⟨_, _, _, continues⟩
      · dsimp only at stops
        rw [stops] at matched
        cases matched
        exact ⟨[], text, rfl, rfl⟩
      · dsimp only at continues
        rw [continues] at matched
        obtain ⟨others, later, rfl⟩ := Option.map_eq_some_iff.mp matched
        obtain ⟨inner, after, rfl, rfl⟩ := induction later
        exact ⟨byte :: inner, after, rfl, rfl⟩

theorem extract_append {front text found : GoString}
    (extracted : extractJSONObject text 0 = some found) (rest : GoString) :
    extractJSONObject (front ++ (text ++ rest)) front.length = some found := by
  unfold extractJSONObject at extracted ⊢
  rw [List.drop_zero] at extracted
  rw [List.drop_left]
  split_ifs at extracted with starts
  have head : (text ++ rest).head? = some openBrace := by
    rw [List.head?_append, starts]
    rfl
  rw [if_pos head]
  exact match_braces_append extracted rest

variable {before json after : GoString}

theorem call_of_block (plain : angle ∉ before ∧ openBrace ∉ before)
    {call : GoString × GoString}
    (read : (extractJSONObject json 0).bind decodeCall = some call) (rest : GoString) :
    callBehind ((before ++ (json ++ after)) ++ (toolCallCloseTag ++ rest)) = some call := by
  obtain ⟨raw, extracted, decoded⟩ := Option.bind_eq_some_iff.mp read
  obtain ⟨tail, rfl⟩ : ∃ tail, json = openBrace :: tail := by
    unfold extractJSONObject at extracted
    split_ifs at extracted with starts
    rw [List.drop_zero] at starts
    obtain ⟨tail, same⟩ := List.head?_eq_some_iff.mp starts
    exact ⟨tail, same⟩
  have lead : angle ∉ before ++ [openBrace] := by
    rw [List.mem_append, not_or]
    exact ⟨plain.1, by decide⟩
  -- The close tag comes behind the brace, so the brace is found in front of it.
  have closes : ∃ count, index toolCallCloseTag
      ((before ++ [openBrace]) ++ (tail ++ (after ++ (toolCallCloseTag ++ rest)))) =
        some (count + (before ++ [openBrace]).length) := by
    have occurs : ∃ count,
        index toolCallCloseTag (tail ++ (after ++ (toolCallCloseTag ++ rest))) = some count := by
      rw [← Option.isSome_iff_exists, Option.isSome_iff_ne_none, ne_eq, index_eq_none_iff, not_not]
      exact ⟨tail ++ after, rest, by simp⟩
    obtain ⟨count, found⟩ := occurs
    rw [close_tag_angle] at found ⊢
    exact ⟨count, by rw [index_skip lead, found, Option.map_some]⟩
  obtain ⟨count, closes⟩ := closes
  have whole : (before ++ (openBrace :: tail ++ after)) ++ (toolCallCloseTag ++ rest) =
      (before ++ [openBrace]) ++ (tail ++ (after ++ (toolCallCloseTag ++ rest))) := by simp
  have taken : ((before ++ [openBrace]) ++ (tail ++ (after ++ (toolCallCloseTag ++ rest)))).take
      (count + (before ++ [openBrace]).length) = before ++ ([openBrace] ++
        (tail ++ (after ++ (toolCallCloseTag ++ rest))).take count) := by
    rw [Nat.add_comm, List.take_length_add_append, List.append_assoc]
  have brace : index [openBrace] (before ++ ([openBrace] ++
      (tail ++ (after ++ (toolCallCloseTag ++ rest))).take count)) = some before.length := by
    rw [index_skip plain.2, index_start, Option.map_some, Nat.zero_add]
  have object : extractJSONObject ((before ++ [openBrace]) ++
      (tail ++ (after ++ (toolCallCloseTag ++ rest)))) before.length = some raw := by
    have found := @extract_append before _ _ extracted (after ++ (toolCallCloseTag ++ rest))
    simpa using found
  rw [callBehind, whole, closes, Option.bind_some, callInBlock, taken, brace, Option.bind_some,
    object, Option.bind_some, decoded]

end Block

/-! ## Whether a call is found -/

section Found

/-- A JSON object whose name the decoder takes, and which is not empty. -/
def CallObject (object : GoString) : Prop :=
  ∃ limit members name, parseObject (parseValue limit) object = some (members, []) ∧
    Named members name ∧ name ≠ []

/-- The first opening brace of a block starts a call object, which may reach beyond the block. -/
def BlockCall (inner rest : GoString) : Prop :=
  ∃ before tail object after, inner = before ++ openBrace :: tail ∧ openBrace ∉ before ∧
    openBrace :: (tail ++ (toolCallCloseTag ++ rest)) = object ++ after ∧ CallObject object

/-- One of the blocks from an open tag to the first close tag behind it holds a call. -/
inductive HasCall : GoString → Prop where
  | here {front inner rest : GoString} (untagged : ¬ toolCallOpenTag <:+: front)
      (first : ¬ toolCallCloseTag <:+: inner) (call : BlockCall inner rest) :
      HasCall (front ++ (toolCallOpenTag ++ (inner ++ (toolCallCloseTag ++ rest))))
  | later {front inner rest : GoString} (untagged : ¬ toolCallOpenTag <:+: front)
      (first : ¬ toolCallCloseTag <:+: inner) (later : HasCall rest) :
      HasCall (front ++ (toolCallOpenTag ++ (inner ++ (toolCallCloseTag ++ rest))))

theorem HasCall.hasSpan {text : GoString} (has : HasCall text) :
    HasSpan toolCallOpenTag toolCallCloseTag text := by
  cases has with
  | @here front inner rest _ _ _ => exact ⟨front, _, rfl, inner, rest, by simp⟩
  | @later front inner rest _ _ _ => exact ⟨front, _, rfl, inner, rest, by simp⟩

theorem call_object_decoded {object : GoString} (call : CallObject object) :
    (decodeCall object).isSome = true := by
  obtain ⟨limit, members, name, read, named, nonempty⟩ := call
  simp [decodeCall, ordinary_members read named.shallow, named.field, nonempty]

theorem struct_members_object {object inner : GoString} {members : List Member}
    (braced : object = openBrace :: inner ++ [closeBrace])
    (read : structMembers object = .ok members) :
    parseObject (parseValue (maxNestingDepth - 1)) object = some (members, []) := by
  have skipped : skipSpace object = object := by
    rw [braced]
    exact skip_space_cons (by decide) _
  have value : parseValue maxNestingDepth object =
      (parseObject (parseValue (maxNestingDepth - 1)) object).map fun (members, rest) =>
        (.obj (members.map Member.pair), rest) := by
    rw [braced]
    exact parse_value_braced _
  rw [structMembers, parse, skipped, value] at read
  rcases listed : parseObject (parseValue (maxNestingDepth - 1)) object with _ | ⟨found, rest⟩
  · rw [listed] at read
    cases read
  · rw [listed, Option.map_some, Option.bind_some] at read
    by_cases ended : skipSpace rest = []
    swap
    · simp [ended] at read
    simp only [ended, if_true, objectMembers, skipped, listed] at read
    cases read
    -- Only white space is behind the object, which ends with a brace.
    obtain ⟨space, whole, blank⟩ := skip_space_split rest
    rw [ended, List.append_nil] at whole
    obtain ⟨front, split, -⟩ := parse_value_sound _ _ _ _ (parse_value_object listed)
    rcases List.eq_nil_or_concat' rest with rfl | ⟨others, last, rfl⟩
    · rfl
    · have ending := congrArg List.getLast? (braced.symm.trans split)
      rw [← List.append_assoc, List.getLast?_concat, List.getLast?_concat] at ending
      obtain rfl := Option.some.inj ending
      exact absurd (blank closeBrace (by rw [← whole]; simp)) (by decide)

theorem decoded_call_object {object inner : GoString}
    (braced : object = openBrace :: inner ++ [closeBrace])
    (decoded : (decodeCall object).isSome = true) : CallObject object := by
  rw [decodeCall] at decoded
  split at decoded
  · cases decoded
  · next members read =>
      have listed := struct_members_object braced read
      obtain ⟨text, -, denotes⟩ := parse_value_sound _ _ _ _ (parse_value_object listed)
      have shallow := (depth_members_le _ _).mp (Nat.le_of_succ_le_succ (value_text_depth denotes))
      obtain ⟨unfailed, nonempty⟩ :
          (decodeField (ascii "name") storeString [] members).2 = false ∧
            (decodeField (ascii "name") storeString [] members).1 ≠ [] := by
        by_contra lost
        rw [Classical.not_and_iff_not_or_not, Bool.not_eq_false, not_not] at lost
        simp [lost] at decoded
      rw [decodeField, string_field_last] at nonempty
      cases last : ((spelledValues (ascii "name") (members.map Member.pair)).filterMap
          stringValue).getLast? with
      | none =>
          rw [last] at nonempty
          exact absurd rfl nonempty
      | some name =>
          rw [last] at nonempty
          refine ⟨_, members, name, listed, ⟨?_, ((string_field_taken _).mp unfailed).2, last⟩,
            nonempty⟩
          intro member inside
          exact Nat.lt_of_le_of_lt (shallow member.pair (List.mem_map_of_mem inside)) (by decide)

theorem call_behind_iff {inner rest : GoString} (first : ¬ toolCallCloseTag <:+: inner) :
    (callBehind (inner ++ (toolCallCloseTag ++ rest))).isSome = true ↔ BlockCall inner rest := by
  rw [callBehind, call_tags.closing.first first, Option.bind_some, callInBlock, List.take_left]
  constructor
  · intro decoded
    obtain ⟨call, found⟩ := Option.isSome_iff_exists.mp decoded
    obtain ⟨start, opened, found⟩ := Option.bind_eq_some_iff.mp found
    obtain ⟨object, extracted, isCall⟩ := Option.bind_eq_some_iff.mp found
    obtain ⟨before, tail, rfl, rfl, absent⟩ := index_split opened
    rw [extractJSONObject, List.append_assoc, List.drop_left] at extracted
    split_ifs at extracted
    obtain ⟨inner, after, braced, whole⟩ := match_braces_split extracted
    refine ⟨before, tail, object, after, rfl, ?_, by simpa using whole, ?_⟩
    · intro inside
      obtain ⟨front, back, rfl⟩ := List.append_of_mem inside
      exact absent ⟨front, back, by simp⟩
    · cases inner with
      | nil =>
          rw [braced] at whole
          cases whole
      | cons byte inner =>
          rw [braced] at whole
          obtain ⟨rfl, -⟩ := List.cons.inj whole
          exact decoded_call_object braced (Option.isSome_iff_exists.mpr ⟨call, isCall⟩)
  · rintro ⟨before, tail, object, after, rfl, apart, whole, isCall⟩
    have opened : index [openBrace] (before ++ openBrace :: tail) = some before.length := by
      have start := index_start [openBrace] tail
      rw [List.singleton_append] at start
      rw [index_skip apart, start, Option.map_some, Nat.zero_add]
    obtain ⟨limit, members, name, read, -⟩ := id isCall
    have extracted : extractJSONObject (before ++ openBrace :: tail ++ (toolCallCloseTag ++ rest))
        before.length = some object := by
      have here := object_extracted read after
      rw [← whole, extractJSONObject, List.drop_zero] at here
      rw [extractJSONObject, List.append_assoc, List.drop_left]
      exact here
    rw [opened, Option.bind_some, extracted, Option.bind_some]
    exact call_object_decoded isCall

variable {newID : Nat → GoString}

theorem collect_span {front inner : GoString} (untagged : ¬ toolCallOpenTag <:+: front)
    (first : ¬ toolCallCloseTag <:+: inner) (rest : GoString) (calls : List ExtractedCall) :
    collect newID calls
        (front ++ (toolCallOpenTag ++ (inner ++ (toolCallCloseTag ++ rest)))) =
      collect newID (addFound newID calls (callBehind (inner ++ (toolCallCloseTag ++ rest))))
        rest := by
  rw [collect_pass (call_tags.passed_to_open untagged _), collect_pair first]

theorem collect_open {front inner : GoString} (untagged : ¬ toolCallOpenTag <:+: front)
    (endless : ¬ toolCallCloseTag <:+: inner) (calls : List ExtractedCall) :
    collect newID calls (front ++ (toolCallOpenTag ++ inner)) = calls := by
  rw [collect_pass (call_tags.passed_to_open untagged _), collect_unclosed endless]

theorem add_found_ne_nil {calls : List ExtractedCall} {call : Option (GoString × GoString)} :
    addFound newID calls call ≠ [] ↔ calls ≠ [] ∨ call.isSome = true := by
  cases call <;> simp [addFound]

theorem collect_ne_nil {text : GoString} {pieces : List GoString}
    (outside : Outside toolCallOpenTag toolCallCloseTag text pieces)
    {calls : List ExtractedCall} (found : collect newID calls text ≠ []) :
    calls ≠ [] ∨ HasCall text := by
  induction outside generalizing calls with
  | plain untagged =>
      rw [collect_none ((index_eq_none_iff _ _).mpr untagged)] at found
      exact .inl found
  | unclosed untagged endless =>
      rw [collect_open untagged endless] at found
      exact .inl found
  | span untagged first later induction =>
      rw [collect_span untagged first] at found
      rcases induction found with added | has
      · refine (add_found_ne_nil.mp added).imp_right fun call => ?_
        exact .here untagged first ((call_behind_iff first).mp call)
      · exact .inr (.later untagged first has)

theorem collect_keeps {text : GoString} {pieces : List GoString}
    (outside : Outside toolCallOpenTag toolCallCloseTag text pieces)
    {calls : List ExtractedCall} (nonempty : calls ≠ []) : collect newID calls text ≠ [] := by
  induction outside generalizing calls with
  | plain untagged => rwa [collect_none ((index_eq_none_iff _ _).mpr untagged)]
  | unclosed untagged endless => rwa [collect_open untagged endless]
  | span untagged first later induction =>
      rw [collect_span untagged first]
      exact induction (add_found_ne_nil.mpr (.inl nonempty))

theorem HasCall.collected {text : GoString} (has : HasCall text) (calls : List ExtractedCall) :
    collect newID calls text ≠ [] := by
  induction has generalizing calls with
  | @here front inner rest untagged first call =>
      obtain ⟨pieces, outside⟩ := outside_exists call_tags rest
      rw [collect_span untagged first]
      exact collect_keeps outside (add_found_ne_nil.mpr (.inr ((call_behind_iff first).mpr call)))
  | later untagged first _ induction =>
      rw [collect_span untagged first]
      exact induction _

/-- A call is recovered from a text exactly if the text without its think spans has one. -/
theorem recovered_iff {content : GoString} {pieces : List GoString}
    (outside : Outside thinkOpenTag thinkCloseTag content pieces) :
    parseToolCallsFromText newID content ≠ [] ↔ HasCall pieces.flatten := by
  obtain ⟨left, further⟩ := outside_exists call_tags pieces.flatten
  have collected : parseToolCallsFromText newID content = collect newID [] pieces.flatten := by
    rw [parseToolCallsFromText]
    simp only [think_left outside]
    rfl
  rw [collected]
  exact ⟨fun found => (collect_ne_nil further found).resolve_left (absurd rfl), fun has =>
    has.collected []⟩

theorem no_call_without_spans {content : GoString}
    (noThink : ¬ HasSpan thinkOpenTag thinkCloseTag content)
    (noCall : ¬ HasSpan toolCallOpenTag toolCallCloseTag content) :
    parseToolCallsFromText newID content = [] := by
  obtain ⟨pieces, outside⟩ := outside_exists think_tags content
  by_contra found
  obtain ⟨inner, occurs⟩ := (has_span_iff _ _ _).mp ((recovered_iff outside).mp found).hasSpan
  exact noCall ((has_span_iff _ _ _).mpr
    ⟨inner, occurs.trans (outside.front noThink).isInfix⟩)

end Found

/-! ## Answers -/

/-- A call between its tags, with padding around it, behind a separator. The padding is white
space or any other text without `<`, and without an opening brace in front of the object. -/
structure CallBlock where
  separator : GoString
  before : GoString
  json : GoString
  after : GoString
  name : GoString
  arguments : GoString
  plainSeparator : angle ∉ separator
  plainBefore : angle ∉ before ∧ openBrace ∉ before
  plainAfter : angle ∉ after
  isCall : IsCall json name arguments

namespace CallBlock

def written (block : CallBlock) : GoString × GoString :=
  (block.separator, block.before ++ (block.json ++ block.after))

def call (block : CallBlock) : GoString × GoString := (block.name, block.arguments)

end CallBlock

def answer (blocks : List CallBlock) (last : GoString) : GoString :=
  weave last (blocks.map CallBlock.written)

/-- Somewhere behind a close tag there is an open tag. -/
def Reopened (text : GoString) : Prop :=
  ∃ front gap rest, text = front ++ (toolCallCloseTag ++ (gap ++ (toolCallOpenTag ++ rest)))

/-- The tags in the strings of the object do not mislead the search, and its members do not
mislead the decoder. -/
structure Undisturbed (json name arguments : GoString) : Prop where
  unthinking : ¬ thinkOpenTag <:+: json
  unopened : ¬ Reopened json
  ordinary : ∃ limit members, parseObject (parseValue limit) json = some (members, []) ∧
    Ordinary members name arguments

section Answers

variable {last : GoString} {blocks : List CallBlock}

theorem strip_think_answer (ending : angle ∉ last)
    (untagged : ∀ block ∈ blocks, ¬ thinkOpenTag <:+: block.json) :
    stripThinkBlocks (answer blocks last) = answer blocks last := by
  induction blocks with
  | nil =>
      apply strip_think_clean
      rw [think_angle]
      intro occurs
      exact ending (occurs.subset List.mem_cons_self)
  | cons block blocks induction =>
      obtain ⟨here, later⟩ := List.forall_mem_cons.mp untagged
      obtain ⟨inner, braced⟩ := block.isCall.braced
      have rest := induction later
      rw [answer] at rest
      rw [← List.cons_append] at braced
      rw [answer, List.map_cons, CallBlock.written, weave,
        strip_think_block block.plainSeparator block.plainBefore.1 block.plainAfter here braced,
        rest]

theorem block_unopened {block : CallBlock} (unopened : ¬ Reopened block.json) :
    ∃ leak, Scanned block.written.2 [] leak := by
  obtain ⟨inner, braced⟩ := block.isCall.braced
  rw [← List.cons_append] at braced
  have plain : ∀ {tag : GoString}, angle ∈ tag → ¬ tag <:+: block.after :=
    fun starts occurs => block.plainAfter (occurs.subset starts)
  have lead : Passes toolCallCloseTag block.before := by
    rw [close_tag_angle]
    exact passes_foreign block.plainBefore.1
  rcases closed : index toolCallCloseTag block.json with _ | close
  · refine ⟨[], .whole (absent_append lead (absent_append ?_ (plain (by decide))))⟩
    exact braced_passes (by decide) ((index_eq_none_iff _ _).mp closed) braced
  · rw [close_tag_angle] at closed
    obtain ⟨front, rest, whole, -, absent⟩ := index_split closed
    rw [← close_tag_angle] at whole absent
    have unmet : ¬ toolCallOpenTag <:+: rest := by
      rintro ⟨gap, tail, rfl⟩
      exact unopened ⟨front, gap, tail, by simp [whole]⟩
    obtain ⟨tail, restBraced⟩ := braced_tail (by decide) (whole.symm.trans braced)
    have split : block.written.2 =
        (block.before ++ front) ++ (toolCallCloseTag ++ (rest ++ block.after)) := by
      simp [CallBlock.written, whole]
    rw [split]
    exact ⟨_, .leaves (absent_append lead absent)
      (absent_append (braced_passes (by decide) unmet restBraced) (plain (by decide)))⟩

theorem collect_answer {newID : Nat → GoString} (ending : angle ∉ last)
    (undisturbed : ∀ block ∈ blocks, Undisturbed block.json block.name block.arguments)
    (calls : List ExtractedCall) :
    (collect newID calls (answer blocks last)).map (fun call => (call.name, call.arguments)) =
      calls.map (fun call => (call.name, call.arguments)) ++ blocks.map CallBlock.call := by
  induction blocks generalizing calls with
  | nil => simp [answer, weave, collect_none (plain_unopened ending)]
  | cons block blocks induction =>
      obtain ⟨here, later⟩ := List.forall_mem_cons.mp undisturbed
      obtain ⟨leak, scanned⟩ := block_unopened here.unopened
      obtain ⟨limit, members, read, ordinary⟩ := here.ordinary
      have found := @call_of_block _ _ block.after block.plainBefore _
        (ordinary_call_read block.isCall read ordinary) (answer blocks last)
      have plain : angle ∉ block.written.1 := block.plainSeparator
      have rest := induction later
      rw [answer] at found rest
      rw [answer, List.map_cons, weave, collect_pass (separator_passed plain _),
        collect_scanned scanned, List.foldl_cons, List.foldl_nil, rest]
      rw [show block.written.2 = block.before ++ (block.json ++ block.after) from rfl, found]
      simp [addFound, CallBlock.call]

/-- Exactly the calls of the objects are returned, in their order, whatever stands between the
blocks and around the objects, if no object holds a think tag, or a call tag that opens behind one
that closes, and the decoder takes name and arguments from the members that have them. -/
theorem calls_recovered (newID : Nat → GoString) (blocks : List CallBlock) (last : GoString)
    (ending : angle ∉ last)
    (undisturbed : ∀ block ∈ blocks, Undisturbed block.json block.name block.arguments) :
    (parseToolCallsFromText newID (answer blocks last)).map
        (fun call => (call.name, call.arguments)) =
      blocks.map (fun block => (block.name, block.arguments)) := by
  have cleaned :=
    strip_think_answer ending fun block inside => (undisturbed block inside).unthinking
  rw [parseToolCallsFromText]
  simp only [cleaned]
  exact collect_answer ending undisturbed []

end Answers

/-! ## Tags in strings -/

section Tags

def stringCall (string : GoString) : GoString :=
  ascii "\x7b\"name\":\"f\",\"arguments\":\x7b\"x\":\"" ++ string ++ ascii "\"\x7d\x7d"

def stringArguments (string : GoString) : GoString :=
  ascii "\x7b\"x\":\"" ++ string ++ ascii "\"\x7d"

def stringBlock (string : GoString)
    (isCall : IsCall (stringCall string) (ascii "f") (stringArguments string)) : CallBlock where
  separator := []
  before := []
  json := stringCall string
  after := []
  name := ascii "f"
  arguments := stringArguments string
  plainSeparator := by decide
  plainBefore := by decide
  plainAfter := by decide
  isCall := isCall

theorem close_tag_call : IsCall (stringCall toolCallCloseTag) (ascii "f")
    (stringArguments toolCallCloseTag) := ⟨by decide, 1, by decide +kernel⟩

theorem think_tag_call : IsCall (stringCall thinkOpenTag) (ascii "f")
    (stringArguments thinkOpenTag) := ⟨by decide, 1, by decide +kernel⟩

def tagPair : GoString := toolCallCloseTag ++ toolCallOpenTag ++ [openBrace]

theorem tag_pair_call : IsCall (stringCall tagPair) (ascii "f") (stringArguments tagPair) :=
  ⟨by decide, 1, by decide +kernel⟩

theorem close_tag_undisturbed : Undisturbed (stringCall toolCallCloseTag) (ascii "f")
    (stringArguments toolCallCloseTag) where
  unthinking := by decide +kernel
  unopened := by
    rintro ⟨front, gap, rest, whole⟩
    have absent : ¬ toolCallOpenTag <:+: stringCall toolCallCloseTag := by decide +kernel
    exact absent ⟨front ++ (toolCallCloseTag ++ gap), rest, by rw [whole]; simp⟩
  ordinary := by
    have outcome : (parseObject (parseValue 1) (stringCall toolCallCloseTag)).map (fun found =>
        (found.2, decide (Ordinary found.1 (ascii "f") (stringArguments toolCallCloseTag)))) =
        some ([], true) := by decide +kernel
    obtain ⟨⟨members, rest⟩, read, same⟩ := Option.map_eq_some_iff.mp outcome
    obtain ⟨rfl, ordinary⟩ := Prod.mk.inj same
    exact ⟨1, members, read, of_decide_eq_true ordinary⟩

/-- A close tag in a string does no harm by itself. -/
theorem close_tag_recovered :
    (parseToolCallsFromText (fun _ => ascii "tc")
        (answer [stringBlock toolCallCloseTag close_tag_call] (ascii " done"))).map
          (fun call => (call.name, call.arguments)) =
      [(ascii "f", stringArguments toolCallCloseTag)] :=
  calls_recovered _ [stringBlock toolCallCloseTag close_tag_call] (ascii " done") (by decide)
    (List.forall_mem_singleton.mpr close_tag_undisturbed)

/-- A think tag in a string takes the rest of the answer along, and a tag pair in a string makes
a call out of a separator. -/
theorem tagged_strings_misread :
    parseToolCallsFromText (fun _ => ascii "tc")
        (answer [stringBlock thinkOpenTag think_tag_call] []) = [] ∧
      (parseToolCallsFromText (fun _ => ascii "tc")
        (answer [stringBlock thinkOpenTag think_tag_call] [])).map
            (fun call => (call.name, call.arguments)) ≠
        [(ascii "f", stringArguments thinkOpenTag)] ∧
      (parseToolCallsFromText (fun _ => ascii "tc")
        (answer [stringBlock tagPair tag_pair_call]
          (ascii "\":1,\"name\":\"g\",\"arguments\":\x7b\x7d\x7d"))).map
            (fun call => (call.name, call.arguments)) =
        [(ascii "f", stringArguments tagPair), (ascii "g", ascii "\x7b\x7d")] := by
  have lost : parseToolCallsFromText (fun _ => ascii "tc")
      (answer [stringBlock thinkOpenTag think_tag_call] []) = [] := by decide +kernel
  refine ⟨lost, ?_, by decide +kernel⟩
  rw [lost]
  exact List.cons_ne_nil _ _ ∘ Eq.symm

end Tags

end Gocoon.CallRecovery
