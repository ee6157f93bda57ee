import WireSchema.Disk.FileTree

/-!
# Running programs in memory

A machine has a file tree, a working directory and a record of what was reported and printed. Its
schedule of faults says which of the coming requests fail.
-/

namespace WireSchema.Disk

/-- A failure of the disk. -/
structure Fault where
  error : OsError
  /-- How many bytes of an interrupted write are kept. -/
  kept : Nat := 0
deriving Repr, DecidableEq

/-- A computer with files. -/
structure Machine where
  tree : FileTree := {}
  cwd : Place := []
  /-- For each coming request, the fault that it meets. Requests behind the end meet none. -/
  faults : List (Option Fault) := []
  events : List Event := []
  printed : List String := []
deriving Repr

namespace Machine

/-- The answer to a question, which changes nothing. -/
def answer {α : Type} (m : Machine) (x : Except OsError α) : Except OsError α × Machine := (x, m)

/-- The answer to a change of the tree. -/
def change (m : Machine) : Except OsError FileTree → Except OsError Unit × Machine
  | .ok tree => (.ok (), { m with tree := tree })
  | .error error => (.error error, m)

/-- Makes an empty file with a new name. -/
def makeTemporary (m : Machine) (directory : Path) : Except OsError Temporary × Machine :=
  match m.tree.makeTemporary m.cwd directory with
  | .error error => (.error error, m)
  | .ok (temporary, tree) => (.ok temporary, { m with tree := tree })

/-- Answers a request that meets no fault. -/
def perform (m : Machine) : (r : Request) → Except OsError r.Answer × Machine
  | .kind path => m.answer (m.tree.kind m.cwd path)
  | .read path => m.answer (m.tree.read m.cwd path)
  | .names directory => m.answer (m.tree.names m.cwd directory)
  | .makeDirectory path => m.change (m.tree.makeDirectory m.cwd path)
  | .makeTemporary directory => m.makeTemporary directory
  | .fill temporary bytes => m.change (m.tree.fill m.cwd temporary bytes)
  | .sync _ => m.answer (.ok ())
  | .persist temporary target => m.change (m.tree.persist m.cwd temporary target)
  | .discard temporary => m.change (m.tree.discard m.cwd temporary)
  | .removeFile path => m.change (m.tree.removeFile m.cwd path)
  | .removeDirectory path => m.change (m.tree.removeDirectory m.cwd path)
  | .resolve path => m.answer (m.tree.resolve m.cwd path)
  | .workingDirectory => m.answer (.ok m.cwd.path)

/-- The machine after a request that met a fault. Only a write leaves a trace. -/
def spoil (m : Machine) (fault : Fault) : Request → Machine
  | .fill temporary bytes => (m.change (m.tree.fill m.cwd temporary (bytes.take fault.kept))).2
  | _ => m

/-- Answers a request as the schedule of faults says. -/
def serve (m : Machine) (r : Request) : Except OsError r.Answer × Machine :=
  match m.faults with
  | [] => m.perform r
  | none :: faults => { m with faults := faults }.perform r
  | some fault :: faults => (.error fault.error, { m with faults := faults }.spoil fault r)

end Machine

def Program.run {ε α : Type} : Program ε α → Machine → Except ε α × Machine
  | done a, m => (.ok a, m)
  | fail error, m => (.error error, m)
  | report event rest, m => rest.run { m with events := m.events ++ [event] }
  | print line rest, m => rest.run { m with printed := m.printed ++ [line] }
  | ask request next, m => (next (m.serve request).1).run (m.serve request).2

theorem Program.run_bind {ε α β : Type} (p : Program ε α) (f : α → Program ε β) (m : Machine) :
    (p >>= f).run m =
      match p.run m with
      | (.ok a, m) => (f a).run m
      | (.error error, m) => (.error error, m) := by
  show (p.bind f).run m = _
  induction p generalizing m with
  | done | fail => rfl
  | report _ _ ih | print _ _ ih => simp [bind, run, ih]
  | ask _ _ ih => simp [bind, run, ih]

end WireSchema.Disk
