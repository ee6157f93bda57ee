import WireSchema.Proofs.Disk.Quiet
import WireSchema.Proofs.Disk.Routes
import WireSchema.Proofs.Output.Confinement

/-!
# What the preparation of a run finds

Whether a directory may be written depends on its manifest and on whether there is anything else in
it. `verdict` says what the preparation comes to in these terms, and `prepare_on` that this is what
it does, for a path that leads to a directory. All other paths are either no root yet or cannot be
read.
-/

namespace WireSchema

open Disk

namespace Disk

namespace FileTree

variable {t : FileTree} {cwd place : Place} {p : Path}

theorem kind_eq_ok {kind : Kind} (h : t.kind cwd p = .ok kind) :
    t.destination cwd p = .ok (placeOf cwd p) ∧ t.look (placeOf cwd p) ≠ none := by
  rw [kind_eq] at h
  obtain ⟨place, hplace, h⟩ := Outcome.bind_eq_ok.1 h
  obtain rfl := destination_eq_ok hplace
  refine ⟨hplace, fun hnone => ?_⟩
  rw [hnone] at h
  cases h

theorem kind_of_directory (h : t.destination cwd p = .ok place)
    (hlook : t.look place = some .directory) : t.kind cwd p = .ok .directory := by
  rw [kind_eq, h, Outcome.ok_bind, hlook]

/-- Whether a directory has nothing in it. -/
def isVacant (t : FileTree) (place : Place) : Bool :=
  match t.get? place with
  | some (.directory entries) => entries.isEmpty
  | _ => false

theorem isVacant_iff (h : t.look place = some .directory) :
    t.isVacant place = true ↔ ∀ rest, rest ≠ [] → t.look (place ++ rest) = none := by
  rw [look_eq] at h
  obtain ⟨node, hnode, hitem⟩ := Option.map_eq_some_iff.1 h
  cases node with
  | file => cases hitem
  | directory entries =>
    rw [isVacant, hnode, ← entries_eq_nil_iff hnode]
    exact List.isEmpty_iff

theorem names_of_directory (h : t.destination cwd p = .ok place)
    (hlook : t.look place = some .directory) :
    ∃ names, t.names cwd p = .ok names ∧ names.isEmpty = t.isVacant place := by
  rw [look_eq] at hlook
  obtain ⟨node, hnode, hitem⟩ := Option.map_eq_some_iff.1 hlook
  cases node with
  | file => cases hitem
  | directory entries =>
    refine ⟨entries.map Prod.fst, ?_, ?_⟩
    · rw [names_eq, h, Outcome.ok_bind, hnode]
    · rw [isVacant, hnode, Bool.eq_iff_iff, List.isEmpty_iff, List.isEmpty_iff, List.map_eq_nil_iff]

end FileTree

end Disk

namespace Output

variable {cwd place : Place} {t : FileTree} {root : Path}

/-! ## The manifest of a root -/

theorem names_manifestFile : (⟨manifestFile⟩ : Path).start? = none :=
  (Path.names?_eq_some_iff.1 Manifest.names?_manifestFile).1

theorem partsOf_manifestFile : FileTree.partsOf ⟨manifestFile⟩ = [manifestFile] := by decide

theorem text_manifestPath (root : Path) : (Manifest.path root).text ≠ "" := by
  intro h
  have hmoves : (Manifest.path root).moves = root.moves ++ [manifestFile] :=
    (Path.below_join Manifest.names?_manifestFile).moves
  rw [Path.moves, h] at hmoves
  simp [Path.movesIn, Path.parts, Text.splitWhere, Path.isIdle] at hmoves

theorem endsSlash_manifestPath (root : Path) : FileTree.endsSlash (Manifest.path root) = false := by
  have hmanifest : manifestFile.toList.getLast? = some 'n' := by decide
  have hlast : (Manifest.path root).text.toList.getLast? = some 'n' := by
    by_cases hroot : root.text = ""
    · rw [Manifest.path, Path.join_empty (by decide) hroot, hmanifest]
    · obtain ⟨cs, hjoin, -⟩ := Path.toList_join (q := ⟨manifestFile⟩) (by decide) hroot
      rw [Manifest.path, hjoin, List.getLast?_append, List.getLast?_cons, hmanifest]
      rfl
  rw [FileTree.endsSlash, hlast]
  rfl

theorem destination_manifestPath (h : t.destination cwd root = .ok place)
    (hlook : t.look place = some .directory) (hsayable : FileTree.Sayable (Manifest.path root)) :
    t.destination cwd (Manifest.path root) = .ok (place ++ [manifestFile]) := by
  rw [Manifest.path, FileTree.destination_join h names_manifestFile hsayable, partsOf_manifestFile,
    FileTree.follow, hlook]
  rfl

/-- The bytes of the manifest, or why there are none. -/
def manifestBytes : Option Item → Except OsError (List UInt8)
  | none => .error .notFound
  | some (.file bytes) => .ok bytes
  | some .directory => .error .isDirectory

theorem read_manifestPath (h : t.destination cwd root = .ok place)
    (hlook : t.look place = some .directory) (hsayable : FileTree.Sayable (Manifest.path root)) :
    t.read cwd (Manifest.path root) = manifestBytes (t.look (place ++ [manifestFile])) := by
  rw [FileTree.read_eq, destination_manifestPath h hlook hsayable, Outcome.ok_bind,
    endsSlash_manifestPath]
  cases t.look (place ++ [manifestFile]) with
  | none => rfl
  | some item => cases item <;> rfl

/-! ## Verdicts -/

def manifestIn (root : Path) (text : String) : Except OutputError (Option Manifest) :=
  match Manifest.parse? text with
  | some manifest => .ok (some manifest)
  | none => .error (.badManifest (Manifest.path root))

/-- The manifest of a root, as far as the system lets it be read. -/
def manifestOf (root : Path) : Except OsError (List UInt8) → Except OutputError (Option Manifest)
  | .error .notFound => .ok none
  | .error cause => .error (.disk (Manifest.path root) cause)
  | .ok bytes =>
    match Text.ofUtf8? bytes with
    | some text => manifestIn root text
    | none => .error (.disk (Manifest.path root) .notUtf8)

/-- Whether a directory is taken, by its manifest and whether there is nothing in it. -/
def takes (root : Path) (force : Bool) (rep : Representation) (vacant : Bool) :
    Option Manifest → Except OutputError (Option Manifest)
  | some manifest =>
    if manifest.representation = rep.name then .ok (some manifest)
    else if force then .ok none
    else .error (.foreignDirectory root)
  | none => if vacant || force then .ok none else .error (.foreignDirectory root)

/-- What the preparation of a run in a directory comes to. -/
def verdict (t : FileTree) (place : Place) (root : Path) (force : Bool) (rep : Representation) :
    Except OutputError (Option Manifest) :=
  manifestOf root (manifestBytes (t.look (place ++ [manifestFile]))) >>=
    takes root force rep (t.isVacant place)

theorem on_loadManifest (root : Path) (cwd : Place) (t : FileTree) :
    (loadManifest root).on cwd t = (manifestOf root (t.read cwd (Manifest.path root)), t) := by
  rw [loadManifest, Program.readText, bind_assoc, Program.on_request_bind, FileTree.reply]
  cases t.read cwd (Manifest.path root) with
  | error cause => cases cause <;> rfl
  | ok bytes =>
    dsimp only [manifestOf]
    cases Text.ofUtf8? bytes with
    | none => rfl
    | some text =>
      simp only [pure_bind, manifestIn]
      cases Manifest.parse? text <;> rfl

theorem prepare_on (h : t.destination cwd root = .ok place) (hlook : t.look place = some .directory)
    (hsayable : FileTree.Sayable (Manifest.path root)) (force : Bool) (rep : Representation) :
    (prepare root force rep).on cwd t = (verdict t place root force rep, t) := by
  rw [prepare, Program.on_bind, Program.on_isPresent, FileTree.kind_of_directory h hlook]
  dsimp only [Except.toBool]
  rw [if_neg (by decide), Program.on_bind, on_loadManifest, read_manifestPath h hlook hsayable, verdict]
  obtain ⟨names, hnames, hvacant⟩ := FileTree.names_of_directory h hlook
  cases manifestOf root (manifestBytes (t.look (place ++ [manifestFile]))) with
  | error e => rfl
  | ok found =>
    cases found with
    | some manifest =>
      simp only [Outcome.ok_bind, takes]
      by_cases hrep : manifest.representation = rep.name
      · rw [if_pos hrep, if_pos hrep]
        rfl
      · rw [if_neg hrep, if_neg hrep]
        cases force <;> rfl
    | none =>
      simp only [Outcome.ok_bind, takes]
      rw [Program.on_bind, Program.on_demand, FileTree.reply, hnames, ← hvacant]
      simp only [Except.mapError]
      cases names.isEmpty <;> cases force <;> rfl

/-- Where nothing lies yet there is nothing to prepare. -/
theorem prepare_on_of_absent {e : OsError} (h : t.kind cwd root = .error e) (force : Bool)
    (rep : Representation) : (prepare root force rep).on cwd t = (.ok none, t) := by
  rw [prepare, Program.on_bind, Program.on_isPresent, h]
  rfl

theorem prepare_on_of_unreadable {kind : Kind} {cause : OsError} (h : t.kind cwd root = .ok kind)
    (hread : t.read cwd (Manifest.path root) = .error cause) (hcause : cause ≠ .notFound)
    (force : Bool) (rep : Representation) :
    (prepare root force rep).on cwd t = (.error (.disk (Manifest.path root) cause), t) := by
  have hmanifest : manifestOf root (.error cause) = .error (.disk (Manifest.path root) cause) := by
    cases cause <;> first | rfl | exact absurd rfl hcause
  rw [prepare, Program.on_bind, Program.on_isPresent, h]
  dsimp only [Except.toBool]
  rw [if_neg (by decide), Program.on_bind, on_loadManifest, hread, hmanifest]

/-- A manifest cannot be read where its path is too long or the root is a file. -/
theorem read_manifestPath_eq_error (h : t.destination cwd root = .ok place)
    (hlook : t.look place ≠ none)
    (hnot : ¬(t.look place = some .directory ∧ FileTree.Sayable (Manifest.path root))) :
    ∃ cause, cause ≠ .notFound ∧ t.read cwd (Manifest.path root) = .error cause := by
  rw [FileTree.read_eq]
  by_cases hsayable : FileTree.Sayable (Manifest.path root)
  · rw [Manifest.path, FileTree.destination_join h names_manifestFile hsayable, partsOf_manifestFile,
      FileTree.follow]
    cases hitem : t.look place with
    | none => exact absurd hitem hlook
    | some item =>
      cases item with
      | file => exact ⟨.notDirectory, by simp, rfl⟩
      | directory => exact absurd ⟨hitem, hsayable⟩ hnot
  · rcases FileTree.destination_of_not_sayable t cwd hsayable (text_manifestPath root) with h | h
    · exact ⟨.nulInPath, by simp, by rw [h]; rfl⟩
    · exact ⟨.nameTooLong, by simp, by rw [h]; rfl⟩

/-- A preparation finds nothing, cannot read the manifest, or gives its verdict on a directory. -/
theorem prepare_on_cases (t : FileTree) (cwd : Place) (root : Path) (force : Bool)
    (rep : Representation) :
    ((∃ e, t.kind cwd root = .error e) ∧ (prepare root force rep).on cwd t = (.ok none, t)) ∨
      (∃ cause, (prepare root force rep).on cwd t =
        (.error (.disk (Manifest.path root) cause), t)) ∨
      (t.destination cwd root = .ok (placeOf cwd root) ∧
        t.look (placeOf cwd root) = some .directory ∧ FileTree.Sayable (Manifest.path root)) := by
  cases hkind : t.kind cwd root with
  | error e => exact .inl ⟨⟨e, rfl⟩, prepare_on_of_absent hkind force rep⟩
  | ok kind =>
    obtain ⟨hdestination, hlook⟩ := FileTree.kind_eq_ok hkind
    by_cases hnot : t.look (placeOf cwd root) = some .directory ∧
        FileTree.Sayable (Manifest.path root)
    · exact .inr (.inr ⟨hdestination, hnot⟩)
    · obtain ⟨cause, hcause, hread⟩ := read_manifestPath_eq_error hdestination hlook hnot
      exact .inr (.inl ⟨cause, prepare_on_of_unreadable hkind hread hcause force rep⟩)

/-! ## Earlier runs -/

/-- The manifest of an earlier run for the representation, in the directory that the path of the
root leads to. -/
def earlier (t : FileTree) (cwd : Place) (root : Path) (rep : Representation) : Option Manifest :=
  match t.destination cwd root with
  | .ok place => (t.manifest? place).filter (·.representation = rep.name)
  | .error _ => none

theorem look_of_manifest? {manifest : Manifest} (h : t.manifest? place = some manifest) :
    t.look place = some .directory := by
  rw [FileTree.manifest?] at h
  split at h
  · rename_i bytes hlook
    exact FileTree.look_of_look_append hlook (by simp)
  · cases h

theorem manifest?_of_manifestOf {found : Option Manifest}
    (h : manifestOf root (manifestBytes (t.look (place ++ [manifestFile]))) = .ok found) :
    t.manifest? place = found := by
  rw [FileTree.manifest?]
  cases hlook : t.look (place ++ [manifestFile]) with
  | none =>
    rw [hlook] at h
    cases h
    rfl
  | some item =>
    rw [hlook] at h
    cases item with
    | directory => cases h
    | file bytes =>
      dsimp only [manifestBytes, manifestOf] at h ⊢
      cases htext : Text.ofUtf8? bytes with
      | none =>
        rw [htext] at h
        cases h
      | some text =>
        rw [htext] at h
        dsimp only [manifestIn] at h
        rw [Option.bind_some]
        cases hparse : Manifest.parse? text with
        | none =>
          rw [hparse] at h
          cases h
        | some manifest =>
          rw [hparse] at h
          cases h
          rfl

theorem takes_eq_ok {force vacant : Bool} {rep : Representation} {found previous : Option Manifest}
    (h : takes root force rep vacant found = .ok previous) :
    previous = found.filter (·.representation = rep.name) := by
  cases found with
  | none =>
    rw [takes] at h
    split_ifs at h
    cases h
    rfl
  | some manifest =>
    rw [takes] at h
    rw [Option.filter_some]
    split_ifs at h with hrep <;> cases h <;> simp [hrep]

/-- A preparation finds the manifest of the earlier run. -/
theorem previous_of_prepare {force : Bool} {rep : Representation} {previous : Option Manifest}
    {t' : FileTree} (h : (prepare root force rep).on cwd t = (.ok previous, t')) :
    previous = earlier t cwd root rep := by
  unfold earlier
  rcases prepare_on_cases t cwd root force rep with
    ⟨⟨e, hkind⟩, hprepare⟩ | ⟨cause, hprepare⟩ | ⟨hdestination, hlook, hsayable⟩
  · rw [hprepare] at h
    cases h
    cases hdestination : t.destination cwd root with
    | error => rfl
    | ok place =>
      dsimp only
      cases hmanifest : t.manifest? place with
      | none => rfl
      | some manifest =>
        rw [FileTree.kind_of_directory hdestination (look_of_manifest? hmanifest)] at hkind
        cases hkind
  · rw [hprepare] at h
    cases h
  · rw [prepare_on hdestination hlook hsayable, verdict] at h
    obtain ⟨found, hfound, htakes⟩ := Outcome.bind_eq_ok.1 (Prod.mk.inj h).1
    rw [hdestination, takes_eq_ok htakes, ← manifest?_of_manifestOf hfound]

theorem earlier_eq_some {rep : Representation} {manifest : Manifest}
    (h : earlier t cwd root rep = some manifest) :
    t.destination cwd root = .ok (placeOf cwd root) ∧
      t.manifest? (placeOf cwd root) = some manifest ∧ manifest.representation = rep.name := by
  unfold earlier at h
  cases hdestination : t.destination cwd root with
  | error =>
    rw [hdestination] at h
    cases h
  | ok place =>
    rw [hdestination] at h
    obtain rfl := FileTree.destination_eq_ok hdestination
    obtain ⟨hmanifest, hrep⟩ := Option.filter_eq_some_iff.1 h
    exact ⟨rfl, hmanifest, by simpa using hrep⟩

/-- What comes after an earlier run with keys inside of the root stays in the root. -/
theorem asks_writeAfter_earlier {rep : Representation} (hkeys : KeysInside t (placeOf cwd root) rep)
    (artifacts : List Artifact) :
    (writeAfter root rep artifacts (earlier t cwd root rep)).Asks (Keeps cwd root) := by
  refine asks_writeAfter rep artifacts fun manifest hmanifest => ?_
  obtain ⟨-, hfound, hrep⟩ := earlier_eq_some hmanifest
  exact hkeys manifest hfound hrep

/-- A tree that has been written was written after the earlier run. -/
theorem writeAfter_of_writeTree {force : Bool} {rep : Representation} {artifacts : List Artifact}
    {summary : Summary} {t' : FileTree}
    (h : (writeTree root force rep artifacts).on cwd t = (.ok summary, t')) :
    (writeAfter root rep artifacts (earlier t cwd root rep)).on cwd t = (.ok summary, t') := by
  rw [writeTree_eq] at h
  obtain ⟨previous, hprepare, hwrite⟩ := (question_prepare root force rep).on_bind_ok h
  rwa [← previous_of_prepare hprepare]

end Output

end WireSchema
