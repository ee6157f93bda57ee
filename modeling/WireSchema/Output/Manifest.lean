import WireSchema.Descriptor
import WireSchema.Disk.Path
import WireSchema.Json.Value
import WireSchema.StringMap

/-!
# Manifests

The record of a run at the root of an output tree: which files it wrote, and the digest of each. A
tree with a manifest belongs to the generator, which may overwrite and prune it.
-/

namespace WireSchema.Output

/-- The name of the manifest in the root of a tree. -/
def manifestFile : String := ".msggen-manifest.json"

/-- The name under which the program signs its manifests. -/
def generatorName : String := "msggen"

/-- The version of the program. -/
def generatorVersion : String := "0.3.0"

/-- The record of a run. -/
structure Manifest where
  generator : String
  version : String
  representation : String
  /-- The digest of each file, by its key. -/
  files : StringMap String
deriving Repr, DecidableEq

namespace Manifest

/-- A manifest of this program without files. -/
def empty (rep : Representation) : Manifest :=
  ⟨generatorName, generatorVersion, rep.name, .empty⟩

/-- The manifest with a file. -/
def insert (m : Manifest) (key digest : String) : Manifest :=
  { m with files := m.files.insert key digest }

/-- Where the manifest of a tree lies. -/
def path (root : Path) : Path := root.join ⟨manifestFile⟩

/-! ## Keys -/

/-- Names with slashes between them. -/
def joinNames (names : List String) : String := "/".intercalate names

/-- The key of a path below the root: its names, if it has only names and is not the manifest
itself. -/
def key? (p : Path) : Option String :=
  match p.names? with
  | none | some [] => none
  | some names => if names.getLast? = some manifestFile then none else some (joinNames names)

/-! ## Writing -/

/-- A member of an object. -/
def member (name value : String) : String := Json.quote name ++ ": " ++ Json.quote value

/-- The lines of the files of a manifest, commas behind all but the last. -/
def fileLines : List (String × String) → List String
  | [] => []
  | [e] => ["    " ++ member e.1 e.2]
  | e :: rest => ("    " ++ member e.1 e.2 ++ ",") :: fileLines rest

def lines (m : Manifest) : List String :=
  ["\x7b",
    "  " ++ member "generator" m.generator ++ ",",
    "  " ++ member "version" m.version ++ ",",
    "  " ++ member "representation" m.representation ++ ","] ++
  (if m.files.entries.isEmpty then ["  " ++ Json.quote "files" ++ ": \x7b\x7d"]
   else
    ["  " ++ Json.quote "files" ++ ": \x7b"] ++ fileLines m.files.entries ++ ["  \x7d"]) ++
  ["\x7d"]

/-- The text of a manifest. -/
def render (m : Manifest) : String := "\n".intercalate m.lines

/-! ## Reading -/

def text? : Json.Value → Option String
  | .text s => s
  | _ => none

/-- A table of digests. A file that is named twice has its last digest. -/
def files? : Json.Value → Option (StringMap String)
  | .object members => do
    let entries ← members.mapM fun (name, v) => do some (← name, ← text? v)
    some (.ofList entries)
  | _ => none

def ofParts? (generator version representation files : Json.Value) : Option Manifest := do
  some ⟨← text? generator, ← text? version, ← text? representation, ← files? files⟩

/-- The only member called `name`. -/
def single? (members : List (Option String × Json.Value)) (name : String) : Option Json.Value :=
  match members.filter (·.1 == some name) with
  | [m] => some m.2
  | _ => none

/-- The manifest in a text: an object with the four parts by name, whatever else it has, or the four
parts in an array. -/
def parse? (s : String) : Option Manifest :=
  match Json.parse? s with
  | some (.object members) =>
    if members.all (·.1.isSome) then do
      ofParts? (← single? members "generator") (← single? members "version")
        (← single? members "representation") (← single? members "files")
    else none
  | some (.array [generator, version, representation, files]) =>
    ofParts? generator version representation files
  | _ => none

end Manifest

end WireSchema.Output
