import WireSchema.Schema.OptionFault

/-!
# Reading options

The words of a command line, read from left to right against a list of options and a number of
positional words. The first fault ends the reading; a value is checked when the next word shows that
it is complete.
-/

namespace WireSchema.CommandLine

/-- What an option means. -/
inductive OptionKind where
  /-- A switch that may be given again and again. -/
  | counted
  /-- A switch that may be given once. -/
  | flag
  /-- An option with a value, which may be given once. -/
  | valued
  /-- Asks for help and ends the reading. -/
  | help
  /-- Asks for the version and ends the reading. -/
  | version
deriving Repr, DecidableEq

structure OptionSpec where
  long : String
  short : Option Char
  /-- The option as it is shown to the user. -/
  shown : String
  kind : OptionKind
deriving Repr, DecidableEq

/-- What may stand on a command line. -/
structure Grammar where
  options : List OptionSpec
  /-- The positional words, as they are shown to the user. -/
  positionals : List String
deriving Repr, DecidableEq

/-- Why reading ended early. -/
inductive Stop where
  | fault (fault : OptionFault)
  | help
  | version
  /-- Nothing at all was given. -/
  | nothingGiven
deriving Repr, DecidableEq

/-- A value that was given and not yet checked. -/
inductive Pending where
  | option (spec : OptionSpec) (value : Option String)
  | positional (shown value : String)
deriving Repr, DecidableEq

/-- What was read so far. -/
structure Reading where
  /-- The switches that were given, by their long names. -/
  switches : List String := []
  /-- The values that were given, by the long names of their options. -/
  values : List (String × String) := []
  positionals : List String := []
  pending : Option Pending := none
  /-- Whether the next word is the value of the pending option. -/
  waiting : Bool := false
  /-- Whether options are no longer recognised. -/
  escaped : Bool := false
deriving Repr, DecidableEq

namespace Reading

def value? (r : Reading) (long : String) : Option String := r.values.lookup long

/-- Whether a switch was given. -/
def has (r : Reading) (long : String) : Bool := r.switches.contains long

def record (r : Reading) (spec : OptionSpec) (value : String) : Except Stop Reading :=
  if (r.value? spec.long).isSome then .error (.fault (.repeated spec.shown))
  else if value = "" then .error (.fault (.valueMissing spec.shown))
  else .ok { r with values := r.values ++ [(spec.long, value)] }

/-- Checks the pending value. -/
def settle (r : Reading) : Except Stop Reading :=
  let r' := { r with pending := none, waiting := false }
  match r.pending with
  | none => .ok r'
  | some (.positional shown value) =>
    if value = "" then .error (.fault (.valueMissing shown))
    else .ok { r' with positionals := r.positionals ++ [value] }
  | some (.option spec none) => .error (.fault (.valueMissing spec.shown))
  | some (.option spec (some value)) => r'.record spec value

/-- Takes an option, with the value that is attached to it. -/
def takeOption (r : Reading) (spec : OptionSpec) (attached : Option String) :
    Except Stop Reading :=
  match spec.kind, attached with
  | .valued, some value => do (← r.settle).record spec value
  | .valued, none => do
    return { ← r.settle with pending := some (.option spec none), waiting := true }
  | _, some value => .error (.fault (.unexpectedValue value spec.shown))
  | .help, none => do
    let _ ← r.settle
    .error .help
  | .version, none => do
    let _ ← r.settle
    .error .version
  | .counted, none => do
    let r ← r.settle
    return { r with switches := r.switches ++ [spec.long] }
  | .flag, none => do
    let r ← r.settle
    if r.has spec.long then .error (.fault (.repeated spec.shown))
    else return { r with switches := r.switches ++ [spec.long] }

/-- Takes a long option, as it stands behind its two dashes. -/
def takeLong (g : Grammar) (r : Reading) (body : List Char) : Except Stop Reading :=
  let name := String.ofList (body.takeWhile (· != '='))
  let attached :=
    match body.dropWhile (· != '=') with
    | _ :: value => some (String.ofList value)
    | [] => none
  match g.options.find? (·.long == name) with
  | some spec => r.takeOption spec attached
  | none => .error (.fault (.unexpectedArgument ("--" ++ name)))

/-- The value behind a short option in the same word. -/
def attachedShort : List Char → Option String
  | [] => none
  | '=' :: value => some (String.ofList value)
  | value => some (String.ofList value)

/-- Takes short options, as they stand behind one dash. -/
def takeShort (g : Grammar) (r : Reading) : List Char → Except Stop Reading
  | [] => .ok r
  | c :: rest =>
    match g.options.find? (·.short == some c) with
    | none => .error (.fault (.unexpectedArgument ("-" ++ c.toString)))
    | some spec =>
      if spec.kind = .valued then r.takeOption spec (attachedShort rest)
      else do takeShort g (← r.takeOption spec none) rest

/-- The number of positional words so far. -/
def positionalCount (r : Reading) : Nat :=
  match r.pending with
  | some (.positional ..) => r.positionals.length + 1
  | _ => r.positionals.length

def takePositional (g : Grammar) (r : Reading) (word : String) : Except Stop Reading :=
  match g.positionals[r.positionalCount]? with
  | none => .error (.fault (.unexpectedArgument word))
  | some shown => do return { ← r.settle with pending := some (.positional shown word) }

/-- Takes a word that is no option. -/
def takePlain (g : Grammar) (r : Reading) (word : String) : Except Stop Reading :=
  match r.waiting, r.pending with
  | true, some (.option spec _) =>
    .ok { r with pending := some (.option spec (some word)), waiting := false }
  | _, _ => r.takePositional g word

/-- Takes one word. -/
def step (g : Grammar) (r : Reading) (word : String) : Except Stop Reading :=
  if r.escaped then r.takePositional g word
  else
    match word.toList with
    | ['-', '-'] => .ok { r with escaped := true }
    | '-' :: '-' :: body => r.takeLong g body
    | ['-'] => r.takePlain g word
    | '-' :: body => r.takeShort g body
    | _ => r.takePlain g word

/-- Takes all words. -/
def run (g : Grammar) (words : List String) : Except Stop Reading := do
  let r ← words.foldlM (step g) {}
  r.settle

end Reading

end WireSchema.CommandLine
