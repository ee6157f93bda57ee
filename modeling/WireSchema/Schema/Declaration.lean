import WireSchema.Schema.Directive

/-!
# Declarations of messages

A declaration reads like a small command line: the name of the message, `--member TYPE NAME` for
each field, `--include HEADER` for each header, `--internal`. Words are read from left to right and
the first fault wins.
-/

namespace WireSchema

/-- What a declaration says. -/
structure Declaration where
  name : String
  /-- Types and names of the fields. -/
  members : List (String × String)
  includes : List String
  internal : Bool
deriving Repr, DecidableEq

namespace Declaration

/-! ## Words -/

/-- What a word looks like. -/
inductive Word where
  /-- `--`: all later words are plain. -/
  | escape
  /-- `--name` or `--name=value`. -/
  | option (name : String) (value : Option String)
  /-- A single dash and at least one character. -/
  | short (c : Char)
  | plain (text : String)
deriving Repr, DecidableEq

/-- The name and the value of an option without its dashes. -/
def Word.ofOption (cs : List Char) : Word :=
  let name := String.ofList (cs.takeWhile (· != '='))
  match cs.dropWhile (· != '=') with
  | [] => .option name none
  | _ :: value => .option name (some (String.ofList value))

/-- Sorts out one word. -/
def Word.of (word : String) : Word :=
  match word.toList with
  | ['-', '-'] => .escape
  | '-' :: '-' :: cs => .ofOption cs
  | '-' :: c :: _ => .short c
  | _ => .plain word

/-! ## Options that wait for values -/

/-- An option that has not yet got all its values. -/
inductive Pending where
  /-- `--member`, with its type once that has come. -/
  | member (type : Option String)
  /-- `--include`. -/
  | header
deriving Repr, DecidableEq

/-- How the options are shown. -/
def memberOption : String := "--member <TYPE> <NAME>"

/-- How the include option is shown. -/
def includeOption : String := "--include <INCLUDES>"

/-- The fault when no further value comes. -/
def Pending.fault : Pending → OptionFault
  | .member none => .valueMissing memberOption
  | .member (some _) => .tooFewValues memberOption 2 1
  | .header => .valueMissing includeOption

/-! ## Reading -/

/-- What has been read so far. -/
structure Draft where
  name : Option String := none
  members : List (String × String) := []
  includes : List String := []
  internal : Bool := false
  pending : Option Pending := none
deriving Repr, DecidableEq

namespace Draft

/-- Fails when an option still waits for a value. -/
def settle (d : Draft) : Except OptionFault Unit :=
  match d.pending with
  | some p => .error p.fault
  | none => .ok ()

/-- Takes a plain word: a value for the option that waits for one, else the name. -/
def plain (d : Draft) (word : String) : Except OptionFault Draft :=
  match d.pending with
  | some (.member none) => .ok { d with pending := some (.member (some word)) }
  | some (.member (some type)) =>
    .ok { d with members := d.members ++ [(type, word)], pending := none }
  | some .header => .ok { d with includes := d.includes ++ [word], pending := none }
  | none =>
    match d.name with
    | none => .ok { d with name := some word }
    | some _ => .error (.unexpectedArgument word)

/-- Takes an option. -/
def option (d : Draft) (name : String) (value : Option String) : Except OptionFault Draft := do
  match name, value with
  | "member", none =>
    d.settle
    .ok { d with pending := some (.member none) }
  | "member", some _ =>
    d.settle
    .error (.tooFewValues memberOption 2 1)
  | "include", none =>
    d.settle
    .ok { d with pending := some .header }
  | "include", some header =>
    d.settle
    .ok { d with includes := d.includes ++ [header] }
  | "internal", none =>
    d.settle
    if d.internal then .error (.repeated "--internal") else .ok { d with internal := true }
  | "internal", some value => .error (.unexpectedValue value "--internal")
  | _, _ => .error (.unexpectedArgument ("--" ++ name))

/-- Takes a word behind `--`, which can only be the name. -/
def escaped (d : Draft) (word : String) : Except OptionFault Draft :=
  match d.name with
  | some _ => .error (.unexpectedArgument word)
  | none => do
    d.settle
    .ok { d with name := some word }

/-- Takes all words in order. -/
def words : Draft → List String → Except OptionFault Draft
  | d, [] => .ok d
  | d, word :: rest =>
    match Word.of word with
    | .escape => rest.foldlM escaped d
    | .option name value => do words (← d.option name value) rest
    | .short c => .error (.unexpectedArgument (String.ofList ['-', c]))
    | .plain text => do words (← d.plain text) rest

/-- The finished declaration: no option waits, and the name is there. -/
def finish (d : Draft) : Except OptionFault Declaration := do
  d.settle
  match d.name with
  | none => .error .requiredMissing
  | some name => .ok ⟨name, d.members, d.includes, d.internal⟩

end Draft

def ofWords (words : List String) : Except OptionFault Declaration := do
  (← Draft.words {} words).finish

def parse (location : Location) (text : String) : Except SchemaError Declaration :=
  match ofWords (Text.words text) with
  | .ok d => .ok d
  | .error fault => .error (.malformed location (.options fault))

end Declaration

end WireSchema
