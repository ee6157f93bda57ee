import WireSchema.CommandLine.Run
import WireSchema.Proofs.Output.Refusal

/-!
# A refused run changes nothing

All commands but one only ask questions. The one that writes has read and compiled everything before
it looks at the trees, and refuses them before it touches them.

**Theorem (`session_refused`).** If a run fails for another reason than the disk, all files are as
they were before. The machine is one without faults: a fault can hide the second root when both are
checked, and it is refused only after the first tree has been written.

Both roots have to be grounded. A root that goes up from a directory that does not exist leads
nowhere when it is checked, but may lead to a directory with other files once the first tree is
written. `session_refused_late` is such a run.
-/

namespace WireSchema.CommandLine

open Disk Output

/-! ## Questions -/

section Questions

variable {ε α : Type} {P : Request → Prop}

theorem asks_ofTraced (x : Traced ε α) : (Program.ofTraced x).Asks P := by
  unfold Program.ofTraced
  induction x.events with
  | nil => exact Program.asks_ofExcept x.outcome
  | cons event events ih => exact .report ih

theorem asks_sayAll (lines : List String) : (sayAll lines).Asks P := by
  induction lines with
  | nil => exact .done ()
  | cons line lines ih => exact .print ih

theorem question_readText (path : Path) :
    (Program.readText path : Program ε _).Asks Request.Question := by
  refine (Program.asks_request (r := .read path) trivial).bind fun answer => ?_
  cases answer with
  | error => exact .done _
  | ok bytes =>
    dsimp only
    split <;> exact .done _

end Questions

theorem question_loadConfig (config : Option Path) : (loadConfig config).Asks Request.Question := by
  cases config with
  | none => exact .done _
  | some path =>
    refine (question_readText path).bind fun answer => ?_
    cases answer with
    | error => exact .fail _
    | ok => exact (Program.asks_ofExcept _).mapError _

theorem question_readSource (path : Path) : (readSource path).Asks Request.Question := by
  refine (question_readText path).bind fun answer => ?_
  cases answer with
  | error => exact .fail _
  | ok => exact .done _

theorem question_readSupplement (base : Option Path) (what : String) (file : Option String) :
    (readSupplement base what file).Asks Request.Question := by
  cases file with
  | none => exact .done _
  | some file =>
    refine (question_readText _).bind fun answer => ?_
    cases answer with
    | error => exact .fail _
    | ok => exact .done _

theorem question_readSupplements (config : Option Path) (names : OutputNames) :
    (readSupplements config names).Asks Request.Question :=
  (question_readSupplement _ _ _).bind fun _ => (question_readSupplement _ _ _).bind fun _ =>
    (question_readSupplement _ _ _).bind fun _ => .done _

theorem question_compileFiles (config : Config) (messages : Path) (addresses : Option Path) :
    (compileFiles config messages addresses).Asks Request.Question := by
  refine (question_readSource messages).bind fun source => ?_
  cases addresses with
  | none => exact (asks_ofTraced _).mapError _
  | some path =>
    exact Program.Asks.bind ((question_readSource path).bind fun _ => .done _) fun _ =>
      (asks_ofTraced _).mapError _

theorem question_runCheck (messages : Path) (addresses config : Option Path) :
    (runCheck messages addresses config).Asks Request.Question :=
  (question_loadConfig config).bind fun _ => .print <|
    (question_compileFiles _ messages addresses).bind fun _ => asks_sayAll _

theorem question_checkFiles (root : Path) (r : Report) (files : List (String × String)) :
    (checkFiles root r files).Asks Request.Question := by
  induction files generalizing r with
  | nil => exact .done r
  | cons file files ih => exact (question_fileDigest _).bind fun current => ih _

theorem question_verify (root : Path) : (verify root).Asks Request.Question := by
  refine (question_loadManifest root).bind fun found => ?_
  cases found with
  | none => exact .fail _
  | some manifest => exact question_checkFiles root {} manifest.files.entries

theorem question_runVerify (root : Path) : (runVerify root).Asks Request.Question := by
  refine .print (((question_verify root).mapError _).bind fun report => ?_)
  refine (asks_sayAll _).bind fun _ => ?_
  split_ifs
  · exact .print (.done ())
  · exact .fail _

theorem question_runAddresses (addresses : Path) (config : Option Path) :
    (runAddresses addresses config).Asks Request.Question :=
  (question_loadConfig config).bind fun _ => (question_readSource addresses).bind fun _ =>
    ((asks_ofTraced _).mapError _).bind fun _ => asks_sayAll _

/-! ## Runs that fail -/

theorem runGenerate_on_error {messages addresses host embedded : Path} {config : Option Path}
    {force : Bool} {cwd : Place} {t t' : FileTree} (h : Separate t cwd host embedded)
    {error : RunError} (hcode : error.code ≠ 8)
    (hfail : (runGenerate messages addresses host embedded config force).on cwd t =
      (.error error, t')) : t' = t := by
  rcases (question_loadConfig config).on_bind_error hfail with heq | ⟨settings, -, hfail⟩
  · exact heq
  rcases (question_readSupplements config settings.output).on_bind_error hfail with
    heq | ⟨supplements, -, hfail⟩
  · exact heq
  rcases (question_compileFiles settings messages (some addresses)).on_bind_error hfail with
    heq | ⟨r, -, hfail⟩
  · exact heq
  rcases ((asks_ofTraced (generate settings.output supplements r)).mapError
      RunError.schema).on_bind_error hfail with heq | ⟨artifacts, -, hfail⟩
  · exact heq
  rcases Program.on_bind_eq_error.1 hfail with hfail | ⟨summaries, between, -, hfail⟩
  · obtain ⟨e, hwrite, rfl⟩ := Program.on_mapError_eq_error.1 hfail
    exact writeTrees_on_error h hwrite hcode
  · -- Nothing can go wrong once both trees are written.
    have hsay (lines : List String) : (sayAll lines).FailsOnly fun _ => False := by
      induction lines with
      | nil => exact .done ()
      | cons line lines ih => exact .print ih
    exact ((hsay _).on hfail).elim

/-- **A refused run changes nothing.** On a machine without faults, a run that fails for another
reason than the disk leaves all files as they were. -/
theorem session_refused (m : Machine) (words : List String) (hquiet : m.faults = [])
    (hroots : ∀ verbose messages addresses host embedded config force,
      Invocation.read words = .ok ⟨verbose, .generate messages addresses host embedded config force⟩ →
        Separate m.tree m.cwd host embedded)
    {error : RunError} (hfail : ((session words).2.run m).1 = .error error)
    (hcode : error.code ≠ 8) : ((session words).2.run m).2.tree = m.tree := by
  obtain ⟨houtcome, htree⟩ := Program.run_of_quiet (session words).2 hquiet
  rw [htree]
  rw [houtcome] at hfail
  have hquestion (h : (session words).2.Asks Request.Question) :
      ((session words).2.on m.cwd m.tree).2 = m.tree := h.on_tree_eq m.cwd m.tree
  unfold session at hquestion hfail ⊢
  cases hread : Invocation.read words with
  | error stop =>
    rw [hread] at hquestion
    cases stop with
    | fault fault => exact hquestion (.fail _)
    | nothingGiven => exact hquestion (.fail _)
    | help => exact hquestion (asks_sayAll _)
    | version => exact hquestion (.print (.done ()))
  | ok invocation =>
    rw [hread] at hquestion hfail
    obtain ⟨verbose, command⟩ := invocation
    cases command with
    | check messages addresses config => exact hquestion (question_runCheck messages addresses config)
    | verify root => exact hquestion (question_runVerify root)
    | addresses addresses config => exact hquestion (question_runAddresses addresses config)
    | generate messages addresses host embedded config force =>
      exact runGenerate_on_error (hroots _ _ _ _ _ _ _ hread) hcode (Prod.ext hfail rfl)

/-- The record of a run that wrote one file. -/
def oneFile : Manifest := (Manifest.empty .host).insert "a/f" "00"

/-- A directory with empty schemas, a tree of an earlier run, and a directory of somebody else. -/
def workplace : Machine where
  tree := ⟨[("work", .directory [
    ("m", .file []),
    ("a", .file []),
    ("new", .directory [(manifestFile, .file (Text.utf8 oneFile.render))]),
    ("emb", .directory [("notes", .file (Text.utf8 "mine"))])])]⟩
  cwd := ["work"]

/-- The words that ask for both trees. -/
def generateWords (host embedded : String) : List String :=
  ["generate", "m", "a", "--host-out", host, "--embedded-out", embedded]

/-- The directory of somebody else is refused, and the tree of the earlier run stays. -/
theorem session_refused_foreign :
    ((session (generateWords "../work/new" "emb")).2.run workplace).1 =
        .error (.output (.foreignDirectory ⟨"emb"⟩)) ∧
      ((session (generateWords "../work/new" "emb")).2.run workplace).2.tree = workplace.tree := by
  have hread : Invocation.read (generateWords "../work/new" "emb") =
      .ok ⟨false, .generate ⟨"m"⟩ ⟨"a"⟩ ⟨"../work/new"⟩ ⟨"emb"⟩ none false⟩ := by decide +kernel
  have hmanifest : workplace.tree.manifest? ["work", "new"] = some oneFile := by decide +kernel
  have hfail : ((session (generateWords "../work/new" "emb")).2.run workplace).1 =
      .error (.output (.foreignDirectory ⟨"emb"⟩)) := by decide +kernel
  refine ⟨hfail, session_refused workplace _ rfl ?_ hfail (by decide)⟩
  intro verbose messages addresses host embedded config force h
  rw [hread] at h
  cases h
  refine ⟨by decide, by decide +kernel, by decide +kernel, fun manifest hfound _ key hkey => ?_⟩
  obtain rfl : manifest = oneFile := Option.some.inj (hfound.symm.trans hmanifest)
  obtain rfl : key = "a/f" := List.mem_singleton.1 hkey
  exact ⟨["a", "f"], by decide, by decide⟩

/-- A root that goes up from a directory which the first tree makes is refused too late: the
directory is there then, and so is the first tree. -/
theorem session_refused_late :
    ((session (generateWords "gone/sub" "gone/../emb")).2.run workplace).1 =
        .error (.output (.foreignDirectory ⟨"gone/../emb"⟩)) ∧
      workplace.tree.look ["work", "gone"] = none ∧
      ((session (generateWords "gone/sub" "gone/../emb")).2.run workplace).2.tree.look
        ["work", "gone"] = some .directory ∧
      ¬workplace.tree.Grounded workplace.cwd ⟨"gone/../emb"⟩ := by
  decide +kernel

end WireSchema.CommandLine
