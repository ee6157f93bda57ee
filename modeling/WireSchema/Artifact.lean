import WireSchema.Descriptor
import WireSchema.Disk.Path

/-!
# Artifacts

The files of a run before any of them is written. An artifact belongs to the tree of one
representation, and its path starts at the root of that tree.
-/

namespace WireSchema

/-- A generated file. -/
structure Artifact where
  representation : Representation
  path : Path
  contents : String
deriving Repr, DecidableEq

/-- The artifacts of one tree. -/
def artifactsFor (artifacts : List Artifact) (rep : Representation) : List Artifact :=
  artifacts.filter (·.representation == rep)

/-- The first artifact of a tree at a path. -/
def artifact? (artifacts : List Artifact) (rep : Representation) (path : Path) : Option Artifact :=
  artifacts.find? fun a => a.representation == rep && a.path.same path

end WireSchema
