import WireSchema.Text.Space

/-!
# Paths

A path is the text that names a file. Its components are what lies between the slashes; repeated
slashes and inner dots do not count, so that paths with different texts can be the same.

The system takes any bytes for a path. Here only those that are UTF-8 occur, so that showing a path
or taking its names for a key loses nothing.
-/

namespace WireSchema

/-- The text of a path. -/
structure Path where
  text : String
deriving Repr, DecidableEq

/-- One step along a path. -/
inductive Component where
  /-- The slash that an absolute path starts with. -/
  | root
  /-- A dot that a relative path starts with. -/
  | current
  | parent
  | normal (name : String)
deriving Repr, DecidableEq

namespace Path

/-! ## Components -/

/-- Whether a part between slashes is no step. -/
def isIdle (part : List Char) : Bool := part.isEmpty || part == ['.']

/-- The step of a part between slashes. -/
def step (part : List Char) : Component :=
  if part == ['.', '.'] then .parent else .normal (String.ofList part)

/-- The parts between the slashes of a text. -/
def parts (cs : List Char) : List (List Char) := Text.splitWhere (· == '/') cs

/-- The steps of a text, idle parts left out. -/
def steps (cs : List Char) : List Component := ((parts cs).filter (!isIdle ·)).map step

/-- A path in two: the slash or the dot that it starts with, and the rest. -/
def splitHead : List Char → Option Component × List Char
  | '/' :: cs => (some .root, cs)
  | ['.'] => (some .current, [])
  | '.' :: '/' :: cs => (some .current, '/' :: cs)
  | cs => (none, cs)

def components (p : Path) : List Component :=
  let (head, body) := splitHead p.text.toList
  head.toList ++ steps body

def same (p q : Path) : Bool := p.components == q.components

/-- Whether a path starts at the root. -/
def isAbsolute (p : Path) : Bool := p.text.toList.head? == some '/'

/-! ## Joining and parents -/

/-- The path `q` taken from `p`. An absolute path replaces what is before it. -/
def join (p q : Path) : Path :=
  if q.isAbsolute then q
  else
    match p.text.toList.getLast? with
    | none | some '/' => ⟨p.text ++ q.text⟩
    | some _ => ⟨p.text ++ "/" ++ q.text⟩

/-- The text of the slash or the dot that a path starts with. -/
def headText : Option Component → List Char
  | some .root => ['/']
  | some .current => ['.']
  | _ => []

/-- Parts put together again. -/
def joinParts : List (List Char) → List Char
  | [] => []
  | [part] => part
  | part :: rest => part ++ '/' :: joinParts rest

/-- Drops idle parts at the end. -/
def trimParts (parts : List (List Char)) : List (List Char) :=
  (parts.reverse.dropWhile isIdle).reverse

/-- The path without its last component. -/
def parent? (p : Path) : Option Path :=
  let (head, body) := splitHead p.text.toList
  match (trimParts (parts body)).reverse with
  | _ :: before =>
    some ⟨String.ofList (headText head ++ joinParts (trimParts before.reverse))⟩
  | [] =>
    match head with
    | some .current => some ⟨""⟩
    | _ => none

/-- A path, its parent, and so on, at most `count` steps up. -/
def ancestorsFrom : (count : Nat) → Path → List Path
  | 0, p => [p]
  | count + 1, p =>
    p ::
      match p.parent? with
      | none => []
      | some q => ancestorsFrom count q

/-- A path and all paths above it. Each step up takes a component away. -/
def ancestors (p : Path) : List Path := ancestorsFrom p.components.length p

/-- The names of a path all of whose components are names. -/
def names? (p : Path) : Option (List String) :=
  p.components.mapM fun
    | .normal name => some name
    | _ => none

end Path

end WireSchema
