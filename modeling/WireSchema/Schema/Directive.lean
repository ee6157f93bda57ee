import WireSchema.Schema.Error

/-!
# Lines of a schema

A schema is read line by line. The marker character is overloaded in the text: with a name it opens
a group, alone it closes one. The reader settles that once, and everything after it sees directives
with their lines. Blank lines and comments are skipped.
-/

namespace WireSchema

/-- What a line of a schema says. -/
inductive Directive where
  /-- The marker with a name opens an interface or a region. -/
  | opened (name : String)
  /-- The marker alone closes it. -/
  | closed
  /-- Any other text declares something. -/
  | declared (text : String)
deriving Repr, DecidableEq

/-- A directive and where it stands. -/
structure Line where
  location : Location
  directive : Directive
deriving Repr, DecidableEq

namespace Directive

/-- What follows the marker on a line: nothing, or one name right behind it. -/
def ofMarked (rest : List Char) : Except LineFault Directive :=
  match rest with
  | [] => .ok .closed
  | c :: _ =>
    if Text.isSpace c then .error (.textAfterClose (String.ofList (Text.trimChars rest)))
    else
      match Text.wordsChars rest with
      | name :: extra :: _ => .error (.textAfterName (String.ofList extra) (String.ofList name))
      | [name] => .ok (.opened (String.ofList name))
      | [] => .ok (.opened "")

/-- What a line says, or nothing when it is blank or a comment. -/
def ofLine? (markers : Markers) (raw : List Char) : Option (Except LineFault Directive) :=
  match Text.trimChars raw with
  | [] => none
  | c :: rest =>
    if c == markers.comment then none
    else if c == markers.marker then some (ofMarked rest)
    else some (.ok (.declared (String.ofList (c :: rest))))

end Directive

/-- The line numbered `line` of a file. -/
def Line.ofLine? (markers : Markers) (file : String) (line : Nat) (raw : List Char) :
    Option (Except SchemaError Line) :=
  (Directive.ofLine? markers raw).map fun
    | .ok directive => .ok ⟨⟨file, line⟩, directive⟩
    | .error fault => .error (.malformed ⟨file, line⟩ fault)

/-- The directives of a schema text with their locations, and an error for each malformed line. -/
def Line.readAll (markers : Markers) (file text : String) : List (Except SchemaError Line) :=
  ((Text.linesChars text.toList).zipIdx 1).filterMap fun p => Line.ofLine? markers file p.2 p.1

end WireSchema
