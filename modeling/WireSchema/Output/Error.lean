import WireSchema.Disk.OsError
import WireSchema.Disk.Path

/-!
# Errors of writing and checking trees
-/

namespace WireSchema.Output

open Disk

/-- Why a tree could not be written or checked. -/
inductive OutputError where
  | disk (path : Path) (cause : OsError)
  /-- The file at `path` is no manifest. -/
  | badManifest (path : Path)
  /-- The directory holds files that the program did not write for this tree. -/
  | foreignDirectory (root : Path)
  | missingManifest (root : Path)
  /-- The path of an artifact leads out of the tree. -/
  | unsafePath (path : Path)
  | overlappingRoots (host embedded : Path)
deriving Repr, DecidableEq

namespace OutputError

/-- The wording of an error. -/
def message : OutputError → String
  | disk path cause => s!"I/O error on {path.text}: {cause.message}"
  | badManifest path => s!"invalid manifest {path.text}"
  | foreignDirectory root =>
    s!"{root.text} is not empty and has no msggen manifest (use --force to overwrite)"
  | missingManifest root => s!"{root.text} has no msggen manifest"
  | unsafePath path => s!"artifact path escapes the output directory: {path.text}"
  | overlappingRoots host embedded =>
    s!"output directories overlap: host {host.text}, embedded {embedded.text}"

def code : OutputError → Nat
  | disk .. => 8
  | badManifest _ => 9
  | foreignDirectory _ => 10
  | missingManifest _ => 11
  | unsafePath _ => 12
  | overlappingRoots .. => 13

end OutputError

end WireSchema.Output
