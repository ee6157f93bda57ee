import WireSchema.Proofs.Output.Rewriting

/-!
# Files that survive a run

A directory may hold files that no run has written, and a run may fail at any of its requests.

**Theorem (`writeTree_keeps_files`).** Whatever becomes of a run, a file that is neither its manifest
nor at a key of its artifacts or of the manifest before it is as it was.

**Theorem (`writeTree_interrupted`).** After a run that fails, the manifest is the one before it, and
every other file has its old contents or all of its new ones, or is gone because no artifact has its
key (`Whole`). This holds wherever a request fails. Only if the removal of a temporary file meets a
fault after another request for it has failed, that file stays.

Both are read off what a run can do to files (`rewrites_writeTree`). A file is where its path says,
since there are no symbolic links.
-/

namespace WireSchema.Output

open Disk

variable {cwd place : Place} {root : Path} {own : List Artifact} {previous : Option Manifest}
  {content : Option (List UInt8)}

/-! ## Files of others -/

/-- The places that a run goes to: that of its manifest, those of its artifacts, and those of the
files of an earlier run. -/
inductive Claimed (cwd : Place) (root : Path) (own : List Artifact) (previous : Option Manifest) :
    Place → Prop
  | manifest : Claimed cwd root own previous (placeOf cwd (Manifest.path root))
  | artifact {a : Artifact} {key : String} (ha : a ∈ own) (hkey : Manifest.key? a.path = some key) :
      Claimed cwd root own previous (placeOf cwd (root.join ⟨key⟩))
  | earlier {key : String} (hkey : key ∈ keysOf previous) :
      Claimed cwd root own previous (placeOf cwd (root.join ⟨key⟩))

theorem Leaves.claimed (h : Leaves cwd root own previous place content) :
    Claimed cwd root own previous place := by
  rcases h with (⟨a, ha, key, hkey, rfl, -⟩ | ⟨key, hkey, rfl, -⟩) | ⟨rfl, -⟩
  · exact .artifact ha hkey
  · exact .earlier (List.mem_filter.1 hkey).1
  · exact .manifest

/-- Without an earlier manifest nothing is removed. -/
theorem not_leaves_none : ¬Leaves cwd root own none place none := by
  rintro ((⟨a, -, key, -, -, hcontents⟩ | ⟨key, hkey, -⟩) | ⟨-, hcontents⟩)
  · cases hcontents
  · cases hkey
  · exact hcontents rfl

theorem earlier_eq_none {t : FileTree} {rep : Representation} {manifest : Manifest}
    (h : t.manifest? (placeOf cwd root) = some manifest) (hrep : manifest.representation ≠ rep.name) :
    earlier t cwd root rep = none := by
  by_contra hsome
  obtain ⟨found, hfound⟩ := Option.ne_none_iff_exists'.1 hsome
  obtain ⟨-, hmanifest, hsame⟩ := earlier_eq_some hfound
  rw [h] at hmanifest
  cases hmanifest
  exact hrep hsame

/-- **Files of others survive.** Whether a run succeeds or fails, whichever of its requests fail and
whatever lies in the root: a file at a place that the run does not claim has the same contents
afterwards. If the manifest in the root is one for the other representation, no file at all is
removed. -/
theorem writeTree_keeps_files (m : Machine) (root : Path) (force : Bool) (rep : Representation)
    (artifacts : List Artifact) :
    (∀ place bytes, m.tree.look place = some (.file bytes) →
      ¬Claimed m.cwd root (artifactsFor artifacts rep) (earlier m.tree m.cwd root rep) place →
      ((writeTree root force rep artifacts).run m).2.tree.look place = some (.file bytes)) ∧
    ∀ manifest, m.tree.manifest? (placeOf m.cwd root) = some manifest →
      manifest.representation ≠ rep.name → ∀ place bytes, m.tree.look place = some (.file bytes) →
        ∃ bytes', ((writeTree root force rep artifacts).run m).2.tree.look place =
          some (.file bytes') := by
  have hrewrites := rewrites_writeTree m root force rep artifacts
  generalize hrun : (writeTree root force rep artifacts).run m = result
  obtain ⟨answer, m'⟩ := result
  -- A run that fails has done part of what one that succeeds does, all of it before the manifest.
  have hrewritten : Rewritten
      (Leaves m.cwd root (artifactsFor artifacts rep) (earlier m.tree m.cwd root rep))
      (Abandoned m.cwd m.faults ((writeTree root force rep artifacts).transcript m))
      m.tree m'.tree := by
    cases answer with
    | ok summary => exact hrewrites.ok summary m' hrun
    | error e => exact (hrewrites.error e m' hrun).mono (fun _ _ => .inl) fun _ => id
  constructor
  · intro place bytes hfile hclaimed
    rw [← FileTree.bytesAt_eq_some] at hfile ⊢
    rw [hrewritten.bytesAt_eq (by simp [hfile]) fun content hleaves => hclaimed hleaves.claimed]
    exact hfile
  · intro manifest hmanifest hrep place bytes hfile
    rw [earlier_eq_none hmanifest hrep] at hrewritten
    rw [← FileTree.bytesAt_eq_some] at hfile
    have hstays : m'.tree.bytesAt place ≠ none :=
      hrewritten.bytesAt_ne_none (by simp [hfile]) not_leaves_none
    obtain ⟨bytes', hbytes'⟩ := Option.ne_none_iff_exists'.1 hstays
    exact ⟨bytes', FileTree.bytesAt_eq_some.1 hbytes'⟩

/-- A directory with a tree of the other representation and a file that no run has written. The
tenth request to this machine fails. -/
def occupied : Machine where
  tree := ⟨[("work", .directory [("r", .directory [
    (manifestFile, .file (Text.utf8
      (manifestFor .embedded [⟨"y/f", .embedded, ⟨"y/f"⟩, "1"⟩]).render)),
    ("y", .directory [("f", .file (Text.utf8 "1"))]),
    ("notes", .file (Text.utf8 "mine"))])])]⟩
  cwd := ["work"]
  faults := List.replicate 9 none ++ [some ⟨.other "Input/output error (os error 5)", 0⟩]

/-- A run that is forced on the tree of the other representation, for a file that is there as well. -/
theorem writeTree_keeps_files_occupied :
    occupied.tree.manifest? (placeOf occupied.cwd ⟨"r"⟩) =
        some (manifestFor .embedded [⟨"y/f", .embedded, ⟨"y/f"⟩, "1"⟩]) ∧
      ((writeTree ⟨"r"⟩ true .host [⟨.host, ⟨"y/f"⟩, "9"⟩]).run occupied).2.tree.look
        ["work", "r", "notes"] = some (.file (Text.utf8 "mine")) ∧
      ∃ bytes, ((writeTree ⟨"r"⟩ true .host [⟨.host, ⟨"y/f"⟩, "9"⟩]).run occupied).2.tree.look
        ["work", "r", "y", "f"] = some (.file bytes) := by
  have hplace : placeOf occupied.cwd ⟨"r"⟩ = ["work", "r"] := by decide
  have hmanifest : occupied.tree.manifest? (placeOf occupied.cwd ⟨"r"⟩) =
      some (manifestFor .embedded [⟨"y/f", .embedded, ⟨"y/f"⟩, "1"⟩]) :=
    manifest?_of_look (by rw [hplace]; rfl)
  have hrep : (manifestFor .embedded [⟨"y/f", .embedded, ⟨"y/f"⟩, "1"⟩]).representation ≠
      Representation.host.name := by decide
  obtain ⟨hkeeps, hstays⟩ :=
    writeTree_keeps_files occupied ⟨"r"⟩ true .host [⟨.host, ⟨"y/f"⟩, "9"⟩]
  refine ⟨hmanifest, hkeeps _ _ rfl fun hclaimed => ?_, hstays _ hmanifest hrep _ _ rfl⟩
  rw [earlier_eq_none hmanifest hrep] at hclaimed
  generalize hnotes : ["work", "r", "notes"] = notes at hclaimed
  cases hclaimed with
  | manifest => exact absurd hnotes (by decide)
  | artifact ha hkey =>
    obtain rfl := List.mem_singleton.1 ha
    obtain rfl := Option.some.inj (hkey.symm.trans (by decide : _ = some "y/f"))
    exact absurd hnotes (by decide)
  | earlier hkey => cases hkey

/-! ## Failed runs -/

theorem freshName_ne_manifestFile (names : List String) :
    FileTree.freshName names ≠ manifestFile := by
  intro h
  have hlist := congrArg (fun name => name.toList[1]?) h
  simp [FileTree.freshName, manifestFile] at hlist

/-- The manifest is no artifact, no file of an earlier run and no temporary file. -/
theorem eq_of_manifestPath {t t' : FileTree} {faults : List (Option Fault)} {log : List Exchange}
    (hkeys : ∀ key ∈ keysOf previous, IsKey key)
    (h : Rewritten (Touches cwd root own previous) (Abandoned cwd faults log) t t') :
    t'.bytesAt (placeOf cwd (Manifest.path root)) = t.bytesAt (placeOf cwd (Manifest.path root)) := by
  have hkey {key : String} (hisKey : IsKey key) :
      placeOf cwd (Manifest.path root) ≠ placeOf cwd (root.join ⟨key⟩) := by
    rw [(below_manifestPath root).placeOf_eq, (Path.below_join hisKey.names?).placeOf_eq]
    intro heq
    exact hisKey.ne_manifestFile (List.append_cancel_left heq).symm
  rcases h (placeOf cwd (Manifest.path root)) with
    heq | (⟨a, -, key, hkey?, hplace, -⟩ | ⟨key, hdropped, hplace, -⟩) |
    ⟨⟨temporary, fault, -, -, -, ⟨names, hname⟩, hplace⟩, -⟩
  · exact heq
  · exact absurd hplace (hkey ⟨a.path, hkey?⟩)
  · exact absurd hplace (hkey (hkeys key (List.mem_filter.1 hdropped).1))
  · rw [(below_manifestPath root).placeOf_eq, FileTree.placeOfTemporary] at hplace
    have hlast := (List.append_inj' hplace rfl).2
    rw [hname] at hlast
    exact absurd (List.head_eq_of_cons_eq hlast).symm (freshName_ne_manifestFile names)

/-- No file at a place is left with a part of its contents: it is the old one, or that of an artifact
with its key, or it is gone because no artifact has its key. -/
inductive Whole (m m' : Machine) (root : Path) (own : List Artifact) (previous : Option Manifest)
    (place : Place) : Prop
  | old (h : m'.tree.bytesAt place = m.tree.bytesAt place)
  | new {a : Artifact} {key : String} (ha : a ∈ own) (hkey : Manifest.key? a.path = some key)
      (hplace : place = placeOf m.cwd (root.join ⟨key⟩))
      (h : m'.tree.bytesAt place = some (Text.utf8 a.contents))
  | gone {key : String} (hkey : key ∈ dropped previous own)
      (hplace : place = placeOf m.cwd (root.join ⟨key⟩)) (h : m'.tree.bytesAt place = none)

theorem Whole.of_touches {m m' : Machine}
    (h : Touches m.cwd root own previous place (m'.tree.bytesAt place)) :
    Whole m m' root own previous place := by
  rcases h with ⟨a, ha, key, hkey, hplace, hbytes⟩ | ⟨key, hkey, hplace, hbytes⟩
  · exact .new ha hkey hplace hbytes
  · exact .gone hkey hplace hbytes

/-- **A failed run keeps the manifest.** After a run that fails, wherever it does, there is a manifest
if and only if there was one, and it is the same. If no more than one request for a temporary file
has failed, no file at all is left with a part of its contents. In any case no file is, but for a
temporary file whose removal has met a fault after another request for it had failed; then there was
no file at that place, or one that was to be removed. -/
theorem writeTree_interrupted (m m' : Machine) (root : Path) (force : Bool) (rep : Representation)
    (artifacts : List Artifact) (e : OutputError)
    (hkeys : ∀ key ∈ keysOf (earlier m.tree m.cwd root rep), IsKey key)
    (h : (writeTree root force rep artifacts).run m = (.error e, m')) :
    m'.tree.bytesAt (placeOf m.cwd (Manifest.path root)) =
        m.tree.bytesAt (placeOf m.cwd (Manifest.path root)) ∧
      (failures ((writeTree root force rep artifacts).transcript m) ≤ 1 → ∀ place,
        Whole m m' root (artifactsFor artifacts rep) (earlier m.tree m.cwd root rep) place) ∧
      ∀ place, Whole m m' root (artifactsFor artifacts rep) (earlier m.tree m.cwd root rep) place ∨
        Abandoned m.cwd m.faults ((writeTree root force rep artifacts).transcript m) place ∧
          (m.tree.bytesAt place = none ∨
            ∃ key ∈ dropped (earlier m.tree m.cwd root rep) (artifactsFor artifacts rep),
              place = placeOf m.cwd (root.join ⟨key⟩)) := by
  have hrewritten := (rewrites_writeTree m root force rep artifacts).error e m' h
  refine ⟨eq_of_manifestPath hkeys hrewritten, fun hone place => ?_, fun place => ?_⟩
  · rcases hrewritten place with heq | htouches | ⟨⟨_, _, -, -, htwo, -⟩, -⟩
    · exact .old heq
    · exact .of_touches htouches
    · -- An abandoned file takes two failures.
      omega
  · rcases hrewritten place with heq | htouches | ⟨habandoned, hnone⟩
    · exact .inl (.old heq)
    · exact .inl (.of_touches htouches)
    · refine .inr ⟨habandoned, hnone.imp_right ?_⟩
      rintro (⟨_, _, _, _, _, ⟨⟩⟩ | ⟨key, hkey, hplace, -⟩)
      exact ⟨key, hkey, hplace⟩

/-- A manifest is loaded from the text that the system gives for it. -/
theorem run_loadManifest {m m' : Machine} {text : String} {manifest : Manifest}
    (hserve : m.serve (.read (Manifest.path root)) = (.ok (Text.utf8 text), m'))
    (hparse : Manifest.parse? text = some manifest) :
    (loadManifest root).run m = (.ok (some manifest), m') := by
  rw [loadManifest, Program.readText, bind_assoc, Program.run_request_bind, hserve]
  dsimp only
  rw [Text.ofUtf8?_utf8]
  simp only [pure_bind]
  rw [hparse]
  rfl

/-- A run finds the manifest in its root, if its first two requests meet no fault. -/
theorem run_prepare_of_manifest {m : Machine} {faults : List (Option Fault)} {manifest : Manifest}
    {rep : Representation} (hfaults : m.faults = none :: none :: faults)
    (h : m.tree.destination m.cwd root = .ok (placeOf m.cwd root))
    (hsayable : FileTree.Sayable (Manifest.path root))
    (hfile : m.tree.look (placeOf m.cwd root ++ [manifestFile]) =
      some (.file (Text.utf8 manifest.render)))
    (hrep : manifest.representation = rep.name) (force : Bool) :
    (prepare root force rep).run m = (.ok (some manifest), { m with faults := faults }) := by
  have hlook := FileTree.look_of_look_append hfile (by simp)
  have hkind : m.serve (.kind root) = (.ok .directory, { m with faults := none :: faults }) := by
    rw [Machine.serve, hfaults]
    exact Prod.ext (FileTree.kind_of_directory h hlook) rfl
  have hread : Machine.serve { m with faults := none :: faults } (.read (Manifest.path root)) =
      (.ok (Text.utf8 manifest.render), { m with faults := faults }) := by
    refine Prod.ext ?_ rfl
    exact (read_manifestPath h hlook hsayable).trans (by rw [hfile, manifestBytes])
  have hpresent : (Program.isPresent root : Program OutputError Bool).run m =
      (.ok true, { m with faults := none :: faults }) := by
    rw [Program.isPresent, Program.run_request_bind, hkind]
    rfl
  rw [prepare, Program.run_bind, hpresent]
  dsimp only
  rw [if_neg (by decide), Program.run_bind, run_loadManifest hread manifest.parse?_render]
  dsimp only
  rw [if_pos hrep]
  rfl

/-- The machine with two files and their manifest, on which the manifest cannot be written: five
bytes of it are. -/
def crammed : Machine :=
  { branched with
    faults := List.replicate 15 none ++ [some ⟨.other "No space left on device (os error 28)", 5⟩] }

/-- A run that replaces one file, removes the other one and then fails at one request. -/
theorem writeTree_interrupted_crammed :
    ((writeTree ⟨"r"⟩ false .host [⟨.host, ⟨"y/f"⟩, "9"⟩]).run crammed).1 =
        .error (.disk (Manifest.path ⟨"r"⟩) (.other "No space left on device (os error 28)")) ∧
      ((writeTree ⟨"r"⟩ false .host [⟨.host, ⟨"y/f"⟩, "9"⟩]).run crammed).2.tree.bytesAt
        ["work", "r", "y", "f"] = some (Text.utf8 "9") ∧
      ((writeTree ⟨"r"⟩ false .host [⟨.host, ⟨"y/f"⟩, "9"⟩]).run crammed).2.tree.bytesAt
        ["work", "r", "z", "f"] = none ∧
      ((writeTree ⟨"r"⟩ false .host [⟨.host, ⟨"y/f"⟩, "9"⟩]).run crammed).2.tree.bytesAt
        (placeOf crammed.cwd (Manifest.path ⟨"r"⟩)) = some (Text.utf8 ledger.render) ∧
      failures ((writeTree ⟨"r"⟩ false .host [⟨.host, ⟨"y/f"⟩, "9"⟩]).transcript crammed) = 1 ∧
      ∀ place, Whole crammed
        ((writeTree ⟨"r"⟩ false .host [⟨.host, ⟨"y/f"⟩, "9"⟩]).run crammed).2 ⟨"r"⟩
        [⟨.host, ⟨"y/f"⟩, "9"⟩] (some ledger) place := by
  have hplace : placeOf crammed.cwd ⟨"r"⟩ = ["work", "r"] := by decide
  have hfile : crammed.tree.look (placeOf crammed.cwd ⟨"r"⟩ ++ [manifestFile]) =
      some (.file (Text.utf8 ledger.render)) := by
    rw [hplace]
    rfl
  have hprepare : (prepare ⟨"r"⟩ false .host).run crammed =
      (.ok (some ledger), { crammed with faults := crammed.faults.drop 2 }) :=
    run_prepare_of_manifest rfl (by decide) ⟨by decide, by decide, by decide⟩ hfile rfl false
  have hearlier : earlier crammed.tree crammed.cwd ⟨"r"⟩ .host = some ledger :=
    ((previous_of_run_prepare hprepare).resolve_left (by simp)).symm
  -- From here on no manifest is read any more, so that the rest of the run can be evaluated.
  have hrun : ((writeTree ⟨"r"⟩ false .host [⟨.host, ⟨"y/f"⟩, "9"⟩]).run crammed).1 =
        .error (.disk (Manifest.path ⟨"r"⟩) (.other "No space left on device (os error 28)")) ∧
      ((writeTree ⟨"r"⟩ false .host [⟨.host, ⟨"y/f"⟩, "9"⟩]).run crammed).2.tree.bytesAt
        ["work", "r", "y", "f"] = some (Text.utf8 "9") ∧
      ((writeTree ⟨"r"⟩ false .host [⟨.host, ⟨"y/f"⟩, "9"⟩]).run crammed).2.tree.bytesAt
        ["work", "r", "z", "f"] = none := by
    rw [writeTree_eq, Program.run_bind, hprepare]
    decide +kernel
  have hone : failures
      ((writeTree ⟨"r"⟩ false .host [⟨.host, ⟨"y/f"⟩, "9"⟩]).transcript crammed) = 1 := by
    have hquestions := asks_prepare (P := (·.isDelivery = false)) ⟨"r"⟩ false .host
      (fun _ => rfl) (fun _ => rfl) fun _ => rfl
    rw [writeTree_eq, Program.transcript_bind_of_ok hprepare, failures_append,
      hquestions.failures_eq_zero]
    decide +kernel
  have hkeys : ∀ key ∈ keysOf (earlier crammed.tree crammed.cwd ⟨"r"⟩ .host), IsKey key := by
    rw [hearlier]
    intro key hkey
    obtain ⟨k, hk, rfl⟩ := (mem_keys_manifestFor .host).1 hkey
    rcases List.mem_pair.1 hk with rfl | rfl
    · exact ⟨⟨"y/f"⟩, by decide⟩
    · exact ⟨⟨"z/f"⟩, by decide⟩
  generalize hresult : (writeTree ⟨"r"⟩ false .host [⟨.host, ⟨"y/f"⟩, "9"⟩]).run crammed = result
    at hrun ⊢
  obtain ⟨answer, m'⟩ := result
  obtain ⟨rfl, hput, hgone⟩ := hrun
  obtain ⟨hmanifest, hwhole, -⟩ :=
    writeTree_interrupted crammed m' ⟨"r"⟩ false .host _ _ hkeys hresult
  rw [hearlier] at hwhole
  refine ⟨rfl, hput, hgone, ?_, hone, hwhole (Nat.le_of_eq hone)⟩
  rw [hmanifest, (below_manifestPath ⟨"r"⟩).placeOf_eq]
  exact FileTree.bytesAt_eq_some.2 hfile

end WireSchema.Output
