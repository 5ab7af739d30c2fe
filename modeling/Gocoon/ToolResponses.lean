import Gocoon.ToolTranslation

/-!
# Tool results in their wrapper

A tool result is handed to the model between response tags, in CDATA sections. A section ends at
the first terminator behind its opening, so that a terminator in the result is split between two
sections. `cdataSections` reads the sections of a text; read in this way, the wrapper holds the
result and nothing else, whatever the result is.
-/

namespace Gocoon.ToolResponses

open Gocoon.LittleEndianBytes
open Gocoon.TlPrimitives (GoString ascii)
open Gocoon.JsonText
open Gocoon.JsonValues
open Gocoon.GoStrings
open Gocoon.ToolTranslation

set_option autoImplicit false

/-! ## Reading sections -/

def cdataOpen : GoString := ascii "<![CDATA["

def cdataClose : GoString := ascii "]]>"

/-- What `rewriteToolMessage` writes for a terminator. -/
def splitClose : GoString := ascii "]]]]><![CDATA[>"

/-- The contents of the sections of a text that has nothing but white space around them. -/
def readSections : Nat → GoString → Option (List GoString)
  | 0, text => if skipSpace text = [] then some [] else none
  | fuel + 1, text =>
      if skipSpace text = [] then some []
      else
        (keyword cdataOpen (skipSpace text)).bind fun behind =>
          (index cdataClose behind).bind fun stop =>
            (readSections fuel (behind.drop (stop + cdataClose.length))).map
              fun others => behind.take stop :: others

def cdataSections (text : GoString) : Option (List GoString) := readSections text.length text

theorem close_unbordered : Unbordered cdataClose := by
  unfold Unbordered
  decide

theorem close_bracket : cdataClose = closeBracket :: ascii "]>" := by decide

theorem close_ends : cdataClose = ascii "]]" ++ [0x3E] := by decide

theorem split_close_eq : splitClose = ascii "]]" ++ (cdataClose ++ (cdataOpen ++ [0x3E])) := by
  decide

theorem read_sections_end (fuel : Nat) : readSections fuel newline = some [] := by
  cases fuel with
  | zero => rfl
  | succ fuel => rfl

theorem read_sections_newline (fuel : Nat) (text : GoString) :
    readSections fuel (newline ++ text) = readSections fuel text := by
  have skipped : skipSpace (newline ++ text) = skipSpace text := rfl
  cases fuel with
  | zero => rw [readSections, readSections, skipped]
  | succ fuel => rw [readSections, readSections, skipped]

theorem read_section (fuel : Nat) {content : GoString} (absent : ¬ cdataClose <:+: content)
    (rest : GoString) :
    readSections (fuel + 1) (cdataOpen ++ (content ++ (cdataClose ++ rest))) =
      (readSections fuel rest).map fun others => content :: others := by
  have starts : skipSpace (cdataOpen ++ (content ++ (cdataClose ++ rest))) =
      cdataOpen ++ (content ++ (cdataClose ++ rest)) := rfl
  have opened : keyword cdataOpen (cdataOpen ++ (content ++ (cdataClose ++ rest))) =
      some (content ++ (cdataClose ++ rest)) := by
    have here : cdataOpen.isPrefixOf (cdataOpen ++ (content ++ (cdataClose ++ rest))) = true :=
      List.isPrefixOf_iff_prefix.mpr (List.prefix_append _ _)
    rw [keyword, if_pos here, List.drop_left]
  have behind : (content ++ (cdataClose ++ rest)).drop (content.length + cdataClose.length) =
      rest := by
    rw [← List.drop_drop, List.drop_left, List.drop_left]
  rw [readSections, starts, if_neg (by simp [cdataOpen, ascii]), opened, Option.bind_some,
    index_unbordered close_unbordered absent, Option.bind_some, behind, List.take_left]

/-! ## The sections of a result -/

/-- What a section of the wrapper starts with: nothing, or the end of a split terminator. -/
def SectionLead (lead : GoString) : Prop := lead = [] ∨ lead = [0x3E]

theorem SectionLead.absent {lead text : GoString} (leads : SectionLead lead)
    (absent : ¬ cdataClose <:+: text) : ¬ cdataClose <:+: lead ++ text := by
  rcases leads with rfl | rfl
  · exact absent
  · intro occurs
    rcases List.infix_cons_iff.mp occurs with starts | later
    · obtain ⟨same, -⟩ := List.cons_prefix_cons.mp starts
      exact absurd same (by decide)
    · exact absent later

theorem absent_brackets {text : GoString} (absent : ¬ cdataClose <:+: text) :
    ¬ cdataClose <:+: text ++ ascii "]]" := by
  intro occurs
  have apart : (0x3E : Byte) ∉ ascii "]]" := by decide
  rw [close_ends] at absent occurs
  exact absent (infix_ending apart occurs)

/-- A section that is opened in front of `lead` and `replaced` is read, with the sections that
`replaced` opens, as `lead` followed by `content`. -/
def SectionsHold (lead replaced content : GoString) : Prop :=
  ∃ sections, sections.flatten = lead ++ content ∧ sections.length ≤ replaced.length + 1 ∧
    ∀ reader, sections.length ≤ reader →
      readSections reader (cdataOpen ++ (lead ++ (replaced ++ (cdataClose ++ newline)))) =
        some sections

theorem plain_sections {lead content : GoString} (leads : SectionLead lead)
    (absent : ¬ cdataClose <:+: content) : SectionsHold lead content content := by
  refine ⟨[lead ++ content], by simp, by simp, ?_⟩
  intro reader enough
  obtain ⟨fuel, rfl⟩ := Nat.exists_eq_add_of_le' enough
  rw [List.length_singleton, ← List.append_assoc lead, read_section fuel (leads.absent absent),
    read_sections_end]
  rfl

/-- A split terminator ends a section behind its brackets, and the next one starts with the rest
of it. -/
theorem split_section (fuel : Nat) {lead front : GoString} (leads : SectionLead lead)
    (absent : ¬ cdataClose <:+: front) (rest : GoString) :
    readSections (fuel + 1) (cdataOpen ++ (lead ++ (front ++ splitClose ++ rest))) =
      (readSections fuel (cdataOpen ++ ([0x3E] ++ rest))).map
        fun others => (lead ++ (front ++ ascii "]]")) :: others := by
  have first := leads.absent (absent_brackets absent)
  have read := read_section fuel first (cdataOpen ++ ([0x3E] ++ rest))
  rw [split_close_eq]
  simp only [List.append_assoc] at read ⊢
  exact read

/-- The replaced text is read as sections that hold the result, along the loop of
`strings.ReplaceAll`. -/
theorem replaced_sections (fuel : Nat) {lead content : GoString} (leads : SectionLead lead)
    (enough : content.length ≤ fuel) :
    SectionsHold lead (replaceFrom cdataClose splitClose fuel content) content := by
  induction fuel generalizing lead content with
  | zero =>
      have empty : content = [] := List.length_eq_zero_iff.mp (Nat.le_zero.mp enough)
      subst empty
      exact plain_sections leads (by decide)
  | succ fuel induction =>
      cases found : index cdataClose content with
      | none =>
          have absent := (index_eq_none_iff _ _).mp found
          rw [replace_from_absent absent]
          exact plain_sections leads absent
      | some start =>
          rw [close_bracket] at found
          obtain ⟨front, rest, rfl, -, absent⟩ := index_split found
          rw [← close_bracket] at absent enough ⊢
          have shorter : rest.length ≤ fuel := by
            have positive : 0 < cdataClose.length := by decide
            rw [List.length_append, List.length_append] at enough
            omega
          obtain ⟨sections, whole, count, read⟩ := induction (.inr rfl) shorter
          rw [replace_from_found (index_unbordered close_unbordered absent rest)]
          refine ⟨(lead ++ (front ++ ascii "]]")) :: sections, ?_, ?_, ?_⟩
          · rw [List.flatten_cons, whole, close_ends]
            simp only [List.append_assoc]
          · have positive : 0 < splitClose.length := by decide
            rw [List.length_cons, List.length_append, List.length_append]
            omega
          · intro reader more
            obtain ⟨fewer, rfl⟩ := Nat.exists_eq_add_of_le' (Nat.one_le_of_lt more)
            rw [List.append_assoc (front ++ splitClose), split_section fewer leads absent,
              read fewer (Nat.le_of_succ_le_succ more), Option.map_some]

/-! ## The wrapper -/

theorem rewritten_content {floats : Floats} {message : Object floats} {content : GoString}
    (holds : message.lookup (ascii "content") = some (.str content)) :
    (rewriteToolMessage message).lookup (ascii "content") =
      some (.str (ascii "<tool_response>" ++ (newline ++ (cdataOpen ++
        (replaceAll content cdataClose splitClose ++ (cdataClose ++ newline)))) ++
          ascii "</tool_response>")) := by
  have opened : ascii "\n<![CDATA[" = newline ++ cdataOpen := by decide
  have closed : ascii "]]>\n" = cdataClose ++ newline := by decide
  rw [rewriteToolMessage, entry, holds, ofMembers, List.foldl_cons, List.foldl_cons,
    List.foldl_nil, lookup_insert_same, opened, closed]
  simp only [Option.getD_some, messageContentAsString, List.append_assoc]
  rfl

theorem wrapped_sections (content : GoString) :
    ∃ sections, cdataSections (newline ++ (cdataOpen ++ (replaceAll content cdataClose splitClose ++
      (cdataClose ++ newline)))) = some sections ∧ sections.flatten = content := by
  obtain ⟨sections, whole, count, read⟩ :=
    replaced_sections content.length (.inl rfl) (Nat.le_refl content.length)
  refine ⟨sections, ?_, whole⟩
  rw [cdataSections, read_sections_newline]
  apply read
  rw [← replaceAll] at count
  simp only [List.length_append]
  have closing : 0 < cdataClose.length := by decide
  omega

example :
    cdataSections (ascii "<![CDATA[prefix]]]]><![CDATA[>suffix]]>") =
      some [ascii "prefix]]", ascii ">suffix"] := by decide

/-- Read as CDATA sections, the wrapper of a tool message holds its content and nothing else, and
different contents have different wrappers. -/
theorem tool_result_contained {floats : Floats} (message other : Object floats)
    (content otherContent : GoString)
    (holds : message.lookup (ascii "content") = some (.str content))
    (otherHolds : other.lookup (ascii "content") = some (.str otherContent)) :
    (∃ inner sections,
      (rewriteToolMessage message).lookup (ascii "content") =
        some (.str (ascii "<tool_response>" ++ inner ++ ascii "</tool_response>")) ∧
      cdataSections inner = some sections ∧ sections.flatten = content) ∧
    (content ≠ otherContent →
      (rewriteToolMessage message).lookup (ascii "content") ≠
        (rewriteToolMessage other).lookup (ascii "content")) := by
  obtain ⟨sections, read, whole⟩ := wrapped_sections content
  constructor
  · exact ⟨_, sections, rewritten_content holds, read, whole⟩
  · intro different same
    obtain ⟨others, readOther, wholeOther⟩ := wrapped_sections otherContent
    rw [rewritten_content holds, rewritten_content otherHolds] at same
    injection same with values
    injection values with texts
    have inner := List.append_cancel_left (List.append_cancel_right texts)
    rw [inner, readOther] at read
    injection read with sameSections
    exact different (by rw [← whole, ← wholeOther, sameSections])

theorem terminators_contained :
    (∃ inner sections,
      (rewriteToolMessage [(ascii "content", (.str (ascii "]]>]]") : Any literalFloats))]).lookup
        (ascii "content") =
        some (.str (ascii "<tool_response>" ++ inner ++ ascii "</tool_response>")) ∧
      cdataSections inner = some sections ∧ sections.flatten = ascii "]]>]]") ∧
    (rewriteToolMessage [(ascii "content", (.str (ascii "]]>]]") : Any literalFloats))]).lookup
        (ascii "content") ≠
      (rewriteToolMessage [(ascii "content", .str (ascii "]]>"))]).lookup (ascii "content") :=
  (tool_result_contained _ _ (ascii "]]>]]") (ascii "]]>") rfl rfl).imp_right
    fun apart => apart (by decide)

end Gocoon.ToolResponses
