import WireSchema.Output.Write

/-!
# Checking trees

A tree is checked against its manifest: which files were changed since, and which are gone.
-/

namespace WireSchema.Output

open Disk

/-- What a check of a tree found. -/
structure Report where
  checked : Nat := 0
  modified : List String := []
  missing : List String := []
deriving Repr, DecidableEq

/-- Whether every file is as it was written. -/
def Report.isClean (r : Report) : Bool := r.modified.isEmpty && r.missing.isEmpty

/-- A report with one more file, whose digest is `current` and should be `expected`. -/
def Report.add (r : Report) (key expected : String) (current : Option String) : Report :=
  let r := { r with checked := r.checked + 1 }
  match current with
  | none => { r with missing := r.missing ++ [key] }
  | some digest => if digest = expected then r else { r with modified := r.modified ++ [key] }

/-- Checks files against their digests. -/
def checkFiles (root : Path) (r : Report) : List (String × String) → Program OutputError Report
  | [] => return r
  | (key, expected) :: rest => do
    let current ← fileDigest (root.join ⟨key⟩)
    checkFiles root (r.add key expected current) rest

/-- Checks a tree against its manifest. -/
def verify (root : Path) : Program OutputError Report := do
  match ← loadManifest root with
  | none => .fail (.missingManifest root)
  | some manifest => checkFiles root {} manifest.files.entries

end WireSchema.Output
