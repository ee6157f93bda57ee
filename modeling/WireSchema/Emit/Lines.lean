import WireSchema.Config

/-!
# Lines of generated text

Generated files are built as lists of lines and turned into text at the end. This module has what
all of them share: the comment on top, include guards, blocks in braces.
-/

namespace WireSchema.Emit

/-- The lines of a file or of a part of it. -/
abbrev Lines := List String

/-- The text of lines, each with its line feed. -/
def render (lines : Lines) : String := String.join (lines.map (· ++ "\n"))

/-- Lines behind a margin. An empty line stays empty. -/
def indent (margin : String) (lines : Lines) : Lines :=
  lines.map fun line => if line.isEmpty then line else margin ++ line

/-- Lines between braces; `after` follows the closing one. -/
def blockThen (after : String) (body : Lines) : Lines := ["\x7b"] ++ body ++ ["\x7d" ++ after]

/-- Lines between braces. -/
def block (body : Lines) : Lines := blockThen "" body

/-! ## Comment on top -/

/-- How a comment is written in a file. -/
inductive CommentStyle where
  /-- Between `/*` and `*/`. -/
  | block
  /-- Behind `#`. -/
  | hash
deriving Repr, DecidableEq

/-- The sentence that every generated file carries. -/
def notice : String := "Generated by msggen. Do not edit."

def commentLine (lead line : String) : String := if line.isEmpty then lead else s!"{lead} {line}"

/-- The comment on top of a file: its name, the notice and the configured banner. -/
def preamble (names : OutputNames) (file : String) (style : CommentStyle) : Lines :=
  let banner :=
    match names.banner with
    | none => []
    | some text => "" :: Text.lines text
  let text := [file, "", notice] ++ banner
  match style with
  | .block => ["/*"] ++ text.map (commentLine " *") ++ [" */", ""]
  | .hash => text.map (commentLine "#") ++ [""]

/-! ## Headers -/

/-- An include of a file of this tree or of the user. -/
def includeLine (path : String) : String := s!"#include \"{path}\""

/-- Lines that count once however often they are included. -/
def guarded (guard : String) (body : Lines) : Lines :=
  [s!"#ifndef {guard}", s!"#define {guard}", ""] ++ body ++ [s!"#endif /* {guard} */"]

/-- The line that opens the namespace of the host tree. -/
def openNamespace (names : OutputNames) : String := s!"namespace {names.spaceName} \x7b"

/-- The line that closes the namespace of the host tree. -/
def closeNamespace (names : OutputNames) : String := s!"\x7d /* namespace {names.spaceName} */"

end WireSchema.Emit
