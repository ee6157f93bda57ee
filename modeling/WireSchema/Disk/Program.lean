import WireSchema.Disk.OsError
import WireSchema.Disk.Path
import WireSchema.Text.Utf8
import WireSchema.Traced

/-!
# Programs on files

A program is a value: a result, or a request together with what to do for each answer. Whoever runs
it answers the requests, from a file tree in memory or from a real disk, and may let any of them
fail.
-/

namespace WireSchema.Disk

/-- What a path can lead to. -/
inductive Kind where
  | file | directory
deriving Repr, DecidableEq

/-- A file with a name of the system's own choice, which is filled and then moved to its place. -/
structure Temporary where
  directory : Path
  name : String
deriving Repr, DecidableEq

/-- Something that only the file system can do. -/
inductive Request where
  /-- What lies at a path. -/
  | kind (path : Path)
  /-- The bytes of a file. -/
  | read (path : Path)
  /-- The names in a directory. -/
  | names (directory : Path)
  | makeDirectory (path : Path)
  /-- Makes an empty file with a new name in a directory. -/
  | makeTemporary (directory : Path)
  /-- Gives a temporary file its bytes. -/
  | fill (temporary : Temporary) (bytes : List UInt8)
  /-- Waits until a temporary file is on the disk. -/
  | sync (temporary : Temporary)
  /-- Moves a temporary file over whatever file is at the target. -/
  | persist (temporary : Temporary) (target : Path)
  /-- Removes a temporary file. -/
  | discard (temporary : Temporary)
  | removeFile (path : Path)
  /-- Removes an empty directory. -/
  | removeDirectory (path : Path)
  /-- The absolute path of something that exists. -/
  | resolve (path : Path)
  | workingDirectory
deriving Repr, DecidableEq

/-- What a request is answered with when it succeeds. -/
abbrev Request.Answer : Request → Type
  | .kind _ => Kind
  | .read _ => List UInt8
  | .names _ => List String
  | .makeTemporary _ => Temporary
  | .resolve _ | .workingDirectory => Path
  | .makeDirectory _ | .fill .. | .sync _ | .persist .. | .discard _ | .removeFile _
  | .removeDirectory _ => Unit

/-- A computation that uses files, reports events and prints lines. -/
inductive Program (ε α : Type) where
  | done (a : α)
  | fail (error : ε)
  | report (event : Event) (rest : Program ε α)
  | print (line : String) (rest : Program ε α)
  | ask (request : Request) (next : Except OsError request.Answer → Program ε α)

namespace Program

variable {ε δ α β γ : Type}

/-- Runs `f` on the result of a program. -/
def bind : Program ε α → (α → Program ε β) → Program ε β
  | done a, f => f a
  | fail error, _ => fail error
  | report event rest, f => report event (rest.bind f)
  | print line rest, f => print line (rest.bind f)
  | ask request next, f => ask request fun answer => (next answer).bind f

instance : Monad (Program ε) where
  pure := done
  bind := bind

@[simp] theorem bind_done (p : Program ε α) : p.bind done = p := by
  induction p with
  | done | fail => rfl
  | report _ _ ih | print _ _ ih => simp [bind, ih]
  | ask _ _ ih => simp [bind, ih]

theorem bind_bind (p : Program ε α) (f : α → Program ε β) (g : β → Program ε γ) :
    (p.bind f).bind g = p.bind fun a => (f a).bind g := by
  induction p with
  | done | fail => rfl
  | report _ _ ih | print _ _ ih => simp [bind, ih]
  | ask _ _ ih => simp [bind, ih]

instance : LawfulMonad (Program ε) :=
  LawfulMonad.mk' (Program ε) bind_done (fun _ _ => rfl) bind_bind

/-! ## Parts of programs -/

/-- The answer to a request, failures included. -/
def request (r : Request) : Program ε (Except OsError r.Answer) := ask r done

/-- The answer to a request that must succeed. -/
def demand (r : Request) (onError : OsError → ε) : Program ε r.Answer :=
  ask r fun
    | .ok answer => done answer
    | .error cause => fail (onError cause)

def log (event : Event) : Program ε Unit := report event (done ())

def say (line : String) : Program ε Unit := print line (done ())

/-- A finished computation. -/
def ofExcept : Except ε α → Program ε α
  | .ok a => done a
  | .error error => fail error

/-- A computation that reports its events and then ends. -/
def ofTraced (t : Traced ε α) : Program ε α := t.events.foldr report (ofExcept t.outcome)

/-- The same program with its errors seen as others. -/
def mapError (f : ε → δ) : Program ε α → Program δ α
  | done a => done a
  | fail error => fail (f error)
  | report event rest => report event (rest.mapError f)
  | print line rest => print line (rest.mapError f)
  | ask request next => ask request fun answer => (next answer).mapError f

/-- Whether something lies at a path. -/
def isPresent (p : Path) : Program ε Bool := do
  match ← request (.kind p) with
  | .ok _ => return true
  | .error _ => return false

def isDirectory (p : Path) : Program ε Bool := do
  match ← request (.kind p) with
  | .ok kind => return kind == .directory
  | .error _ => return false

/-- The text of a file. -/
def readText (p : Path) : Program ε (Except OsError String) := do
  match ← request (.read p) with
  | .error cause => return .error cause
  | .ok bytes =>
    match Text.ofUtf8? bytes with
    | some text => return .ok text
    | none => return .error .notUtf8

/-- Makes the first of these directories; each is the parent of the one before it. A directory is
made only when the ones behind it in the list exist. -/
def makeChain : List Path → Program ε (Except OsError Unit)
  | [] => return .error (.other "failed to create whole tree")
  | p :: parents => do
    if p.text = "" then return .ok ()
    match ← request (.makeDirectory p) with
    | .ok () => return .ok ()
    | .error .notFound =>
      match ← makeChain parents with
      | .error cause => return .error cause
      | .ok () =>
        match ← request (.makeDirectory p) with
        | .ok () => return .ok ()
        | .error cause => if ← isDirectory p then return .ok () else return .error cause
    | .error cause => if ← isDirectory p then return .ok () else return .error cause

/-- Makes a directory and all directories above it that are missing. -/
def makeDirectories (p : Path) : Program ε (Except OsError Unit) := makeChain p.ancestors

end Program

end WireSchema.Disk
