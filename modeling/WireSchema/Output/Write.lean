import WireSchema.Artifact
import WireSchema.Digest.Sha256
import WireSchema.Disk.Program
import WireSchema.Output.Error
import WireSchema.Output.Manifest

/-!
# Writing trees

A run writes the artifacts of a representation below a root, removes what the run before it wrote
and this one did not, and records all files in a manifest. Each file is replaced as a whole, and the
manifest last of all, so that a run that fails half way leaves the old manifest.
-/

namespace WireSchema.Output

open Disk

/-- What a run did to a tree. -/
structure Summary where
  written : Nat := 0
  unchanged : Nat := 0
  /-- The keys that the tree had and lost. -/
  removed : List String := []
deriving Repr, DecidableEq

/-! ## Single files -/

/-- Fills a temporary file and moves it to its place. -/
def commit (temporary : Temporary) (target : Path) (bytes : List UInt8) :
    Program OutputError (Except OsError Unit) := do
  match ← Program.request (.fill temporary bytes) with
  | .error cause => return .error cause
  | .ok () =>
    match ← Program.request (.sync temporary) with
    | .error cause => return .error cause
    | .ok () => Program.request (.persist temporary target)

/-- Gives a file its contents, all at once. -/
def replaceFile (p : Path) (bytes : List UInt8) : Program OutputError Unit := do
  match p.parent? with
  | none => .fail (.unsafePath p)
  | some parent =>
    match ← Program.makeDirectories parent with
    | .error cause => .fail (.disk parent cause)
    | .ok () =>
      let temporary ← Program.demand (.makeTemporary parent) (.disk parent)
      match ← commit temporary p bytes with
      | .ok () => return
      | .error cause =>
        let _ ← Program.request (.discard temporary)
        .fail (.disk p cause)

/-- The digest of a file, if it exists. -/
def fileDigest (p : Path) : Program OutputError (Option String) := do
  match ← Program.request (.read p) with
  | .ok bytes => return some (Digest.sha256Hex bytes)
  | .error .notFound => return none
  | .error cause => .fail (.disk p cause)

/-! ## Manifests -/

/-- The manifest of a tree, if it has one. -/
def loadManifest (root : Path) : Program OutputError (Option Manifest) := do
  let path := Manifest.path root
  match ← Program.readText path with
  | .error .notFound => return none
  | .error cause => .fail (.disk path cause)
  | .ok text =>
    match Manifest.parse? text with
    | some manifest => return some manifest
    | none => .fail (.badManifest path)

/-- Checks that a tree may be written, and changes nothing. The result is the manifest of an earlier
run for the same representation. A directory with other contents is taken only by force. -/
def prepare (root : Path) (force : Bool) (rep : Representation) :
    Program OutputError (Option Manifest) := do
  if !(← Program.isPresent root) then return none
  match ← loadManifest root with
  | some manifest =>
    if manifest.representation = rep.name then return some manifest
    if !force then .fail (.foreignDirectory root)
    else
      Program.log (.foreignTree root.text manifest.representation)
      return none
  | none =>
    let names ← Program.demand (.names root) (.disk root)
    if names.isEmpty then return none
    if !force then .fail (.foreignDirectory root)
    else
      Program.log (.unknownTree root.text)
      return none

/-! ## Trees -/

/-- An artifact with its key. -/
structure Keyed where
  key : String
  artifact : Artifact
deriving Repr, DecidableEq

/-- The artifacts with their keys, or the first one whose path has none. -/
def keyed : List Artifact → Except OutputError (List Keyed)
  | [] => .ok []
  | a :: rest =>
    match Manifest.key? a.path with
    | none => .error (.unsafePath a.path)
    | some key => do return ⟨key, a⟩ :: (← keyed rest)

/-- The state of a run between two artifacts. -/
structure Progress where
  manifest : Manifest
  written : Nat := 0
  unchanged : Nat := 0
deriving Repr, DecidableEq

/-- Writes an artifact, unless the earlier run wrote the same and nobody has changed it. -/
def writeArtifact (root : Path) (previous : Option Manifest) (s : Progress) (k : Keyed) :
    Program OutputError Progress := do
  let bytes := Text.utf8 k.artifact.contents
  let digest := Digest.sha256Hex bytes
  let target := root.join k.artifact.path
  let manifest := s.manifest.insert k.key digest
  let recorded := previous.bind (·.files.get? k.key)
  let current ← if recorded = some digest then fileDigest target else pure none
  if current = some digest then
    return { s with manifest := manifest, unchanged := s.unchanged + 1 }
  else
    replaceFile target bytes
    Program.log (.wrote target.text)
    return { s with manifest := manifest, written := s.written + 1 }

def writeArtifacts (root : Path) (previous : Option Manifest) (s : Progress) :
    List Keyed → Program OutputError Progress
  | [] => return s
  | k :: rest => do writeArtifacts root previous (← writeArtifact root previous s k) rest

/-- Removes directories as long as they are empty, the root excepted. -/
def removeEmpty (root : Path) : List Path → Program OutputError Unit
  | [] => return
  | directory :: rest => do
    if directory.same root then return
    match ← Program.request (.removeDirectory directory) with
    | .ok () => removeEmpty root rest
    | .error _ => return

/-- Removes a file of the earlier run, and the directories that it leaves empty. -/
def removeStale (root : Path) (key : String) : Program OutputError Unit := do
  let path := root.join ⟨key⟩
  match ← Program.request (.removeFile path) with
  | .ok () | .error .notFound =>
    removeEmpty root path.ancestors.tail
    Program.log (.removedStale path.text)
  | .error cause => .fail (.disk path cause)

/-- Removes files of the earlier run in order. -/
def removeAllStale (root : Path) : List String → Program OutputError Unit
  | [] => return
  | key :: rest => do
    removeStale root key
    removeAllStale root rest

/-- The keys of an earlier run that a new one does not have. -/
def staleKeys (previous : Option Manifest) (manifest : Manifest) : List String :=
  match previous with
  | none => []
  | some old => old.files.keys.filter (!manifest.files.contains ·)

def writeTree (root : Path) (force : Bool) (rep : Representation) (artifacts : List Artifact) :
    Program OutputError Summary := do
  let previous ← prepare root force rep
  let items ← Program.ofExcept (keyed (artifactsFor artifacts rep))
  match ← Program.makeDirectories root with
  | .error cause => .fail (.disk root cause)
  | .ok () =>
    let s ← writeArtifacts root previous ⟨.empty rep, 0, 0⟩ items
    let stale := staleKeys previous s.manifest
    removeAllStale root stale
    replaceFile (Manifest.path root) (Text.utf8 s.manifest.render)
    Program.log (.treeUpdated root.text rep.name s.written s.unchanged stale.length)
    return ⟨s.written, s.unchanged, stale⟩

/-! ## Both trees -/

/-- The components by which a root is compared with another: those of what it leads to, or, when
there is nothing yet, those of the path made absolute. The empty path has none. -/
def comparable (root : Path) : Program OutputError (List Component) := do
  match ← Program.request (.resolve root) with
  | .ok path => return path.components
  | .error _ =>
    if root.text = "" || root.isAbsolute then return root.components
    match ← Program.request .workingDirectory with
    | .ok cwd => return cwd.components ++ root.components.filter (· != .current)
    | .error _ => return root.components

/-- Whether one root is the other or lies in it. -/
def overlapping (host embedded : Path) : Program OutputError Bool := do
  let a ← comparable host
  let b ← comparable embedded
  return a.isPrefixOf b || b.isPrefixOf a

/-- Writes both trees. Neither is touched before both may be written. -/
def writeTrees (host embedded : Path) (force : Bool) (artifacts : List Artifact) :
    Program OutputError (Summary × Summary) := do
  if ← overlapping host embedded then .fail (.overlappingRoots host embedded)
  else
    let _ ← prepare host force .host
    let _ ← prepare embedded force .embedded
    let _ ← Program.ofExcept (keyed artifacts)
    let first ← writeTree host force .host artifacts
    let second ← writeTree embedded force .embedded artifacts
    return (first, second)

end WireSchema.Output
