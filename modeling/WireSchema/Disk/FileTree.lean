import WireSchema.Disk.Node
import WireSchema.Disk.Program

/-!
# File trees

The files and directories of a file system without symbolic links. A path leads to a place from the
root or from a working directory, and every part of it but the last must lead through a directory
that exists. Each operation of a file system is a function that gives the changed tree or says why
there is none.

What is stated of trees is stated under this condition. With links, two places could hold the same
file, and a path below a root could lead out of it.
-/

namespace WireSchema.Disk

/-- The absolute path of a place below the root. -/
def Place.path (place : Place) : Path := ⟨"/" ++ "/".intercalate place⟩

/-- All files and directories, by what is in the root. -/
structure FileTree where
  entries : List (String × Node) := []
deriving Repr

namespace FileTree

/-! ## Nodes -/

def root (t : FileTree) : Node := .directory t.entries

def get? (t : FileTree) (place : Place) : Option Node := t.root.find? place

/-- What lies at a place. -/
def look (t : FileTree) (place : Place) : Option Item := t.root.look place

/-- The tree with another root, which must be a directory. -/
def ofRoot : Node → FileTree
  | .directory entries => ⟨entries⟩
  | .file _ => {}

def insert (t : FileTree) (place : Place) (node : Node) : FileTree :=
  ofRoot (t.root.alter (fun _ => some node) place)

/-- The tree without the node at a place. -/
def erase (t : FileTree) (place : Place) : FileTree :=
  ofRoot (t.root.alter (fun _ => none) place)

def isDirectory : Option Node → Bool
  | some (.directory _) => true
  | _ => false

/-! ## Paths -/

/-- How many bytes a name may have. -/
def nameLimit : Nat := 255

/-- How many bytes a path may have. -/
def pathLimit : Nat := 4095

/-- A way through a tree: the names passed, the last one first, each with the entries of the
directory that it was looked up in, and what was found in the end. -/
structure Trail where
  above : List (String × List (String × Node))
  here : Option Node

namespace Trail

def place (t : Trail) : Place := (t.above.map Prod.fst).reverse

/-- The trail to the directory above. The root is its own. -/
def up (t : Trail) : Trail :=
  match t.above with
  | [] => t
  | (_, entries) :: above => ⟨above, some (.directory entries)⟩

/-- The trail after some more parts of a path. -/
def walk (t : Trail) : List String → Except OsError Trail
  | [] => .ok t
  | part :: rest =>
    match t.here with
    | none => .error .notFound
    | some (.file _) => .error .notDirectory
    | some (.directory entries) =>
      if part = "." then t.walk rest
      else if part = ".." then t.up.walk rest
      else if nameLimit < part.utf8ByteSize then .error .nameTooLong
      else walk ⟨(part, entries) :: t.above, entries.lookup part⟩ rest

end Trail

def start (t : FileTree) : Trail := ⟨[], some t.root⟩

/-- The parts of a path that are not empty. -/
def partsOf (p : Path) : List String :=
  ((Path.parts p.text.toList).filter (!·.isEmpty)).map String.ofList

/-- Whether a path holds the character that ends texts for the system. -/
def holdsNul (p : Path) : Bool := p.text.toList.contains '\x00'

/-- Where a path leads. -/
structure Target where
  place : Place
  /-- What lies there. -/
  node : Option Node
  /-- Whether the last part of the path is a name and not a dot or two. -/
  named : Bool
  /-- Whether the path ends with a slash. -/
  slash : Bool

/-- Where a path leads from a working directory. -/
def locate (t : FileTree) (cwd : Place) (p : Path) : Except OsError Target := do
  if holdsNul p then throw .nulInPath
  if p.text = "" then throw .notFound
  if pathLimit < p.text.utf8ByteSize then throw .nameTooLong
  let parts := partsOf p
  let origin ← if p.isAbsolute then pure t.start else t.start.walk cwd
  let trail ← origin.walk parts
  let named :=
    match parts.getLast? with
    | some part => part != "." && part != ".."
    | none => false
  return ⟨trail.place, trail.here, named, p.text.toList.getLast? == some '/'⟩

/-! ## Questions -/

/-- The place and the node that a path leads to. A slash stands only behind directories. -/
def find (t : FileTree) (cwd : Place) (p : Path) : Except OsError (Place × Node) := do
  let target ← t.locate cwd p
  match target.node with
  | none => throw .notFound
  | some (.file bytes) =>
    if target.slash then throw .notDirectory else return (target.place, .file bytes)
  | some (.directory entries) => return (target.place, .directory entries)

/-- What lies at a path. -/
def kind (t : FileTree) (cwd : Place) (p : Path) : Except OsError Kind := do
  match ← t.find cwd p with
  | (_, .file _) => return .file
  | (_, .directory _) => return .directory

/-- The bytes of a file. -/
def read (t : FileTree) (cwd : Place) (p : Path) : Except OsError (List UInt8) := do
  match ← t.find cwd p with
  | (_, .file bytes) => return bytes
  | (_, .directory _) => throw .isDirectory

/-- The names in a directory. -/
def names (t : FileTree) (cwd : Place) (p : Path) : Except OsError (List String) := do
  match ← t.find cwd p with
  | (_, .file _) => throw .notDirectory
  | (_, .directory entries) => return entries.map Prod.fst

/-- The absolute path of something that exists. -/
def resolve (t : FileTree) (cwd : Place) (p : Path) : Except OsError Path := do
  let (place, _) ← t.find cwd p
  return place.path

/-! ## Changes -/

def makeDirectory (t : FileTree) (cwd : Place) (p : Path) : Except OsError FileTree := do
  let target ← t.locate cwd p
  if !target.named || target.node.isSome then throw .alreadyExists
  return t.insert target.place (.directory [])

/-- Gives a file its bytes, and makes it if it is missing. -/
def write (t : FileTree) (cwd : Place) (p : Path) (bytes : List UInt8) :
    Except OsError FileTree := do
  let target ← t.locate cwd p
  if !target.named || target.slash || isDirectory target.node then throw .isDirectory
  return t.insert target.place (.file bytes)

def removeFile (t : FileTree) (cwd : Place) (p : Path) : Except OsError FileTree := do
  let target ← t.locate cwd p
  if !target.named then throw .isDirectory
  match target.node with
  | none => throw .notFound
  | some (.directory _) => throw .isDirectory
  | some (.file _) =>
    if target.slash then throw .notDirectory else return t.erase target.place

def removeDirectory (t : FileTree) (cwd : Place) (p : Path) : Except OsError FileTree := do
  let target ← t.locate cwd p
  if !target.named then throw .busy
  match target.node with
  | none => throw .notFound
  | some (.file _) => throw .notDirectory
  | some (.directory entries) =>
    if entries.isEmpty then return t.erase target.place
    else throw (.other "Directory not empty (os error 39)")

/-! ## Temporary files -/

/-- A name that is longer than all of the given names, and so is none of them. -/
def freshName (names : List String) : String :=
  ".tmp" ++ String.ofList (List.replicate ((names.map String.length).foldr (· + ·) 0) '0')

theorem length_le_sum_of_mem {name : String} {names : List String} (h : name ∈ names) :
    name.length ≤ (names.map String.length).foldr (· + ·) 0 := by
  induction h with
  | head => simp
  | tail _ _ ih => simp; omega

theorem freshName_not_mem (names : List String) : freshName names ∉ names := by
  intro h
  have le := length_le_sum_of_mem h
  have four : ".tmp".length = 4 := rfl
  simp only [freshName, String.length_append, String.length_ofList, List.length_replicate] at le
  omega

/-- The place of a directory and what is in it. The empty path is the working directory. -/
def directoryAt (t : FileTree) (cwd : Place) (directory : Path) :
    Except OsError (Place × List (String × Node)) := do
  match ← t.find cwd (if directory.text = "" then ⟨"."⟩ else directory) with
  | (place, .directory entries) => return (place, entries)
  | (_, .file _) => throw .notDirectory

/-- Makes an empty file with a new name in a directory. -/
def makeTemporary (t : FileTree) (cwd : Place) (directory : Path) :
    Except OsError (Temporary × FileTree) := do
  let (place, entries) ← t.directoryAt cwd directory
  let name := freshName (entries.map Prod.fst)
  return (⟨directory, name⟩, t.insert (place ++ [name]) (.file []))

def findTemporary (t : FileTree) (cwd : Place) (temporary : Temporary) :
    Except OsError (Place × List UInt8) := do
  let (place, entries) ← t.directoryAt cwd temporary.directory
  match entries.lookup temporary.name with
  | some (.file bytes) => return (place ++ [temporary.name], bytes)
  | some (.directory _) => throw .isDirectory
  | none => throw .notFound

def fill (t : FileTree) (cwd : Place) (temporary : Temporary) (bytes : List UInt8) :
    Except OsError FileTree := do
  let (place, _) ← t.findTemporary cwd temporary
  return t.insert place (.file bytes)

def discard (t : FileTree) (cwd : Place) (temporary : Temporary) : Except OsError FileTree := do
  let (place, _) ← t.findTemporary cwd temporary
  return t.erase place

/-- Moves a temporary file over whatever file is at the target. -/
def persist (t : FileTree) (cwd : Place) (temporary : Temporary) (target : Path) :
    Except OsError FileTree := do
  if holdsNul target then throw .invalidArgument
  let (place, bytes) ← t.findTemporary cwd temporary
  let goal ← t.locate cwd target
  if !goal.named then throw .busy
  if goal.slash then throw .notDirectory
  if isDirectory goal.node then throw .isDirectory
  return (t.erase place).insert goal.place (.file bytes)

end FileTree

end WireSchema.Disk
