import WireSchema.Output.Write
import WireSchema.Proofs.Disk.Frame
import WireSchema.Proofs.Output.Keys

/-!
# Writing stays below the root

Artifacts are written to their keys, which lie below the root, and the directories on the way are
below the root or above it. Files of an earlier run are removed by the keys in its manifest, and the
directories that they leave empty are removed until the root is met.

**Theorem (`writeTree_confined`).** If the manifest found in the root lists only keys that stay below
the root, a run changes nothing elsewhere but for making the root and what is above it, whether it
succeeds or not and whichever of its requests fail.

The keys of a manifest are not checked when it is read. So the condition is needed:
`writeTree_removes_outside` has a manifest with a key `../x`, by which a file beside the root is
removed.
-/

namespace WireSchema

open Disk

namespace Disk

/-- The manifest in a directory, if there is one that can be read. -/
def FileTree.manifest? (t : FileTree) (place : Place) : Option Output.Manifest :=
  match t.look (place ++ [Output.manifestFile]) with
  | some (.file bytes) => (Text.ofUtf8? bytes).bind Output.Manifest.parse?
  | _ => none

namespace Program

variable {ε α β : Type} {p : Program ε α} {m m' : Machine}

theorem run_bind_eq_ok {f : α → Program ε β} {b : β} :
    (p >>= f).run m = (.ok b, m') ↔
      ∃ a between, p.run m = (.ok a, between) ∧ (f a).run between = (.ok b, m') := by
  rw [run_bind]
  constructor
  · intro h
    split at h
    · exact ⟨_, _, ‹_›, h⟩
    · cases h
  · rintro ⟨a, between, hp, hf⟩
    rw [hp]
    exact hf

end Program

end Disk

namespace Output

variable {root : Path} {cwd : Place}

/-! ## The requests of a run -/

/-- The places of a root and of the paths above it. -/
def Above (cwd : Place) (root : Path) (place : Place) : Prop :=
  ∃ above ∈ root.ancestors, place = placeOf cwd above

/-- A request that keeps everything outside of a root, but for directories above it. -/
def Keeps (cwd : Place) (root : Path) : Request → Prop :=
  Request.Within cwd (placeOf cwd root <+: ·) (Above cwd root)

theorem asks_makeDirectories {p : Path} {names : List String} (h : p.Below root names) :
    (Program.makeDirectories p : Program OutputError _).Asks (Keeps cwd root) := by
  refine Program.asks_makeChain (fun _ => trivial) fun a ha _ => ?_
  rcases h.mem_ancestors ha with ⟨front, -, hfront⟩ | ⟨b, hb, halike⟩
  · refine .inl ?_
    rw [hfront.placeOf_eq]
    exact List.prefix_append _ _
  · exact .inr ⟨b, hb, halike.placeOf_eq cwd⟩

theorem asks_commit {temporary : Temporary} {target : Path}
    (htemporary : placeOf cwd root <+: placeOf cwd temporary.directory)
    (htarget : placeOf cwd root <+: placeOf cwd target) (bytes : List UInt8) :
    (commit temporary target bytes).Asks (Keeps cwd root) := by
  have hplace : placeOf cwd root <+: FileTree.placeOfTemporary cwd temporary :=
    htemporary.trans (List.prefix_append _ _)
  refine (Program.asks_request (r := .fill temporary bytes) hplace).bind fun answer => ?_
  cases answer with
  | error => exact .done _
  | ok =>
    refine (Program.asks_request (r := .sync temporary) trivial).bind fun answer => ?_
    cases answer with
    | error => exact .done _
    | ok => exact Program.asks_request (r := .persist temporary target) ⟨hplace, htarget⟩

theorem asks_replaceFile {p : Path} {names : List String} {last : String}
    (h : p.Below root (names ++ [last])) (bytes : List UInt8) :
    (replaceFile p bytes).Asks (Keeps cwd root) := by
  obtain ⟨parent, hparent, hbelow, -, -⟩ := h.parent?
  have hplace : placeOf cwd root <+: placeOf cwd parent := by
    rw [hbelow.placeOf_eq]
    exact List.prefix_append _ _
  have htarget : placeOf cwd root <+: placeOf cwd p := by
    rw [h.placeOf_eq]
    exact List.prefix_append _ _
  rw [replaceFile, hparent]
  refine (asks_makeDirectories hbelow).bind fun made => ?_
  cases made with
  | error => exact .fail _
  | ok =>
    refine Program.asks_demand_bind (fun name => hplace.trans (List.prefix_append _ _))
      fun temporary htemporary => ?_
    have htemporary : temporary.directory = parent := htemporary
    rw [← htemporary] at hplace
    refine (asks_commit hplace htarget bytes).bind fun done => ?_
    cases done with
    | ok => exact .done _
    | error =>
      refine (Program.asks_request (r := .discard temporary) ?_).bind fun _ => .fail _
      exact hplace.trans (List.prefix_append _ _)

theorem question_fileDigest (p : Path) : (fileDigest p).Asks Request.Question := by
  refine (Program.asks_request (r := .read p) trivial).bind fun answer => ?_
  split
  · exact .done _
  · exact .done _
  · exact .fail _

theorem keeps_of_question (r : Request) (h : r.Question) : Keeps cwd root r := by
  cases r <;> trivial

def Keyed.bytes (k : Keyed) : List UInt8 := Text.utf8 k.artifact.contents

/-- The digest of an artifact. -/
def Keyed.digest (k : Keyed) : String := Digest.sha256Hex k.bytes

/-- The digest that counts as the present one: none, unless the earlier run wrote the artifact. -/
def currentDigest (root : Path) (previous : Option Manifest) (k : Keyed) :
    Program OutputError (Option String) :=
  if previous.bind (·.files.get? k.key) = some k.digest then fileDigest (root.join k.artifact.path)
  else .done none

theorem writeArtifact_eq (root : Path) (previous : Option Manifest) (s : Progress) (k : Keyed) :
    writeArtifact root previous s k =
      (currentDigest root previous k >>= fun current =>
        if current = some k.digest then
          .done ⟨s.manifest.insert k.key k.digest, s.written, s.unchanged + 1⟩
        else
          replaceFile (root.join k.artifact.path) k.bytes >>= fun _ =>
            .report (.wrote (root.join k.artifact.path).text)
              (.done ⟨s.manifest.insert k.key k.digest, s.written + 1, s.unchanged⟩)) := by
  unfold writeArtifact currentDigest Keyed.digest Keyed.bytes
  dsimp only
  by_cases h : previous.bind (·.files.get? k.key) =
      some (Digest.sha256Hex (Text.utf8 k.artifact.contents))
  · rw [if_pos h, if_pos h]
    rfl
  · rw [if_neg h, if_neg h]
    rfl

theorem asks_writeArtifact {k : Keyed} (hk : Manifest.key? k.artifact.path = some k.key)
    (previous : Option Manifest) (s : Progress) :
    (writeArtifact root previous s k).Asks (Keeps cwd root) := by
  obtain ⟨names, hnames, -, hne, -⟩ := Manifest.key?_eq_some hk
  obtain ⟨front, last, rfl⟩ := (List.eq_nil_or_concat' names).resolve_left hne
  rw [writeArtifact_eq]
  refine Program.Asks.bind ?_ fun current => ?_
  · unfold currentDigest
    split_ifs
    · exact (question_fileDigest _).mono keeps_of_question
    · exact .done _
  · split_ifs
    · exact .done _
    · exact (asks_replaceFile (Path.below_join hnames) _).bind fun _ => .report (.done _)

theorem asks_writeArtifacts {items : List Keyed}
    (h : ∀ k ∈ items, Manifest.key? k.artifact.path = some k.key) (previous : Option Manifest)
    (s : Progress) : (writeArtifacts root previous s items).Asks (Keeps cwd root) := by
  induction items generalizing s with
  | nil => exact .done _
  | cons k items ih =>
    exact (asks_writeArtifact (h k List.mem_cons_self) previous s).bind fun s =>
      ih (fun k hk => h k (List.mem_cons_of_mem _ hk)) s

/-- The directories that are removed are below the root: the way up ends there. -/
theorem asks_removeEmpty {p : Path} {names : List String} (h : p.Below root names) :
    (removeEmpty root p.ancestors).Asks (Keeps cwd root) := by
  induction names using List.reverseRecOn generalizing p with
  | nil =>
    rw [Path.ancestors_eq, removeEmpty, if_pos h.same]
    exact .done _
  | append_singleton names last ih =>
    obtain ⟨q, hq, hbelow, -, -⟩ := h.parent?
    rw [Path.ancestors_eq, hq, removeEmpty]
    split_ifs
    · exact .done _
    refine (Program.asks_request (r := .removeDirectory p) ?_).bind fun answer => ?_
    · show placeOf cwd root <+: placeOf cwd p
      rw [h.placeOf_eq]
      exact List.prefix_append _ _
    · cases answer with
      | ok => exact ih hbelow
      | error => exact .done _

theorem asks_removeStale {key : String} (h : Manifest.Inside key) :
    (removeStale root key).Asks (Keeps cwd root) := by
  obtain ⟨names, hne, hnames⟩ := h
  obtain ⟨front, last, rfl⟩ := (List.eq_nil_or_concat' names).resolve_left hne
  have hbelow : (root.join ⟨key⟩).Below root (front ++ [last]) := Path.below_join hnames
  obtain ⟨parent, hparent, hparentBelow, -, -⟩ := hbelow.parent?
  have htail : (root.join ⟨key⟩).ancestors.tail = parent.ancestors := by
    rw [Path.ancestors_eq, hparent]
    rfl
  refine (Program.asks_request (r := .removeFile (root.join ⟨key⟩)) ?_).bind fun answer => ?_
  · show placeOf cwd root <+: placeOf cwd (root.join ⟨key⟩)
    rw [hbelow.placeOf_eq]
    exact List.prefix_append _ _
  · rw [htail]
    split
    · exact (asks_removeEmpty hparentBelow).bind fun _ => .report (.done _)
    · exact (asks_removeEmpty hparentBelow).bind fun _ => .report (.done _)
    · exact .fail _

theorem asks_removeAllStale {keys : List String} (h : ∀ key ∈ keys, Manifest.Inside key) :
    (removeAllStale root keys).Asks (Keeps cwd root) := by
  induction keys with
  | nil => exact .done _
  | cons key keys ih =>
    exact (asks_removeStale (h key List.mem_cons_self)).bind fun _ =>
      ih fun key hkey => h key (List.mem_cons_of_mem _ hkey)

theorem key?_of_keyed {artifacts : List Artifact} {items : List Keyed}
    (h : keyed artifacts = .ok items) : ∀ k ∈ items, Manifest.key? k.artifact.path = some k.key := by
  induction artifacts generalizing items with
  | nil =>
    cases h
    simp
  | cons a artifacts ih =>
    rw [keyed] at h
    split at h
    · cases h
    · rename_i key hkey
      obtain ⟨rest, hrest, h⟩ := Outcome.bind_eq_ok.1 h
      cases h
      intro k hk
      rcases List.mem_cons.1 hk with rfl | hk
      · exact hkey
      · exact ih hrest k hk

/-! ## Preparation -/

theorem asks_loadManifest {P : Request → Prop} (root : Path) (h : ∀ path, P (.read path)) :
    (loadManifest root).Asks P := by
  refine Program.Asks.bind ?_ fun text => ?_
  · refine (Program.asks_request (h _)).bind fun answer => ?_
    cases answer with
    | error => exact .done _
    | ok bytes =>
      dsimp only
      split <;> exact .done _
  · split
    · exact .done _
    · exact .fail _
    · split
      · exact .done _
      · exact .fail _

theorem question_loadManifest (root : Path) : (loadManifest root).Asks Request.Question :=
  asks_loadManifest root fun _ => trivial

/-- The preparation of a run asks what there is. -/
theorem asks_prepare {P : Request → Prop} (root : Path) (force : Bool) (rep : Representation)
    (hkind : ∀ path, P (.kind path)) (hread : ∀ path, P (.read path))
    (hnames : ∀ path, P (.names path)) : (prepare root force rep).Asks P := by
  refine (Program.asks_isPresent hkind root).bind fun present => ?_
  cases present with
  | false => exact .done _
  | true =>
    rw [if_neg (by decide)]
    refine (asks_loadManifest root hread).bind fun found => ?_
    cases found with
    | some manifest =>
      dsimp only
      split_ifs
      · exact .done _
      · exact .fail _
      · exact .report (.done _)
    | none =>
      refine Program.asks_demand_bind (hnames root) fun names _ => ?_
      split_ifs
      · exact .done _
      · exact .fail _
      · exact .report (.done _)

/-- The preparation of a run changes nothing. -/
theorem question_prepare (root : Path) (force : Bool) (rep : Representation) :
    (prepare root force rep).Asks Request.Question :=
  asks_prepare root force rep (fun _ => trivial) (fun _ => trivial) fun _ => trivial

/-- What is read is in the tree. -/
theorem read_of_readText {p : Path} {m m' : Machine} {text : String}
    (h : (Program.readText p : Program OutputError _).run m = (.ok (.ok text), m')) :
    ∃ bytes, m.tree.look (placeOf m.cwd p) = some (.file bytes) ∧ Text.ofUtf8? bytes = some text := by
  obtain ⟨answer, between, hanswer, h⟩ := Program.run_bind_eq_ok.1 h
  cases answer with
  | error => cases h
  | ok bytes =>
    have hread : m.tree.read m.cwd p = .ok bytes :=
      Machine.read_of_serve (Except.ok.inj (congrArg Prod.fst hanswer))
    refine ⟨bytes, ?_, ?_⟩
    · rw [FileTree.read_eq] at hread
      obtain ⟨place, hplace, hread⟩ := Outcome.bind_eq_ok.1 hread
      obtain rfl := FileTree.destination_eq_ok hplace
      split at hread
      · cases hread
      · rename_i found hlook
        split_ifs at hread
        cases hread
        exact hlook
      · cases hread
    · dsimp only at h
      split at h
      · cases h
        assumption
      · cases h

theorem manifest?_of_loadManifest {m m' : Machine} {manifest : Manifest}
    (h : (loadManifest root).run m = (.ok (some manifest), m')) :
    m.tree.manifest? (placeOf m.cwd root) = some manifest := by
  obtain ⟨answer, between, hanswer, h⟩ := Program.run_bind_eq_ok.1 h
  cases answer with
  | error cause =>
    split at h
    · cases h
    · cases h
    · rename_i hcause
      cases hcause
  | ok text =>
    dsimp only at h
    obtain ⟨bytes, hlook, htext⟩ := read_of_readText hanswer
    rw [Manifest.path, (Path.below_join Manifest.names?_manifestFile).placeOf_eq] at hlook
    split at h
    · rename_i hparse
      cases h
      rw [FileTree.manifest?, hlook]
      dsimp only
      rw [htext, Option.bind_some, hparse]
    · cases h

/-- The manifest that a run goes by is in the root, and is one for the same representation. -/
theorem manifest?_of_prepare {m m' : Machine} {manifest : Manifest} {force : Bool}
    {rep : Representation} (h : (prepare root force rep).run m = (.ok (some manifest), m')) :
    m.tree.manifest? (placeOf m.cwd root) = some manifest ∧ manifest.representation = rep.name := by
  obtain ⟨present, between, hpresent, h⟩ := Program.run_bind_eq_ok.1 h
  have htree : between.tree = m.tree := by
    have h := Program.Asks.tree_eq (Program.asks_isPresent (ε := OutputError) (fun _ => trivial) root) m
    rwa [hpresent] at h
  have hcwd : between.cwd = m.cwd := by
    have h := Program.cwd_run (Program.isPresent root : Program OutputError Bool) m
    rwa [hpresent] at h
  cases present with
  | false => cases h
  | true =>
    rw [if_neg (by decide)] at h
    obtain ⟨found, after, hfound, h⟩ := Program.run_bind_eq_ok.1 h
    cases found with
    | some other =>
      have hmanifest := manifest?_of_loadManifest hfound
      rw [htree, hcwd] at hmanifest
      dsimp only at h
      split_ifs at h with hrep hforce
      · cases h
        exact ⟨hmanifest, hrep⟩
      · cases h
      · cases h
    | none =>
      obtain ⟨names, last, -, h⟩ := Program.run_bind_eq_ok.1 h
      split_ifs at h <;> cases h

/-! ## The whole run -/

/-- What a run does after its preparation. -/
def writeAfter (root : Path) (rep : Representation) (artifacts : List Artifact)
    (previous : Option Manifest) : Program OutputError Summary := do
  let items ← Program.ofExcept (keyed (artifactsFor artifacts rep))
  match ← Program.makeDirectories root with
  | .error cause => .fail (.disk root cause)
  | .ok () =>
    let s ← writeArtifacts root previous ⟨.empty rep, 0, 0⟩ items
    let stale := staleKeys previous s.manifest
    removeAllStale root stale
    replaceFile (Manifest.path root) (Text.utf8 s.manifest.render)
    Program.log (.treeUpdated root.text rep.name s.written s.unchanged stale.length)
    return ⟨s.written, s.unchanged, stale⟩

theorem writeTree_eq (root : Path) (force : Bool) (rep : Representation)
    (artifacts : List Artifact) :
    writeTree root force rep artifacts = prepare root force rep >>= writeAfter root rep artifacts :=
  rfl

theorem asks_writeAfter (rep : Representation) (artifacts : List Artifact)
    {previous : Option Manifest}
    (h : ∀ manifest, previous = some manifest → ∀ key ∈ manifest.files.keys, Manifest.Inside key) :
    (writeAfter root rep artifacts previous).Asks (Keeps cwd root) := by
  have hroot : root.Below root [] := ⟨rfl, by simp, by simp⟩
  have hmanifest : (Manifest.path root).Below root ([] ++ [manifestFile]) :=
    Path.below_join Manifest.names?_manifestFile
  have hstale (manifest : Manifest) : ∀ key ∈ staleKeys previous manifest, Manifest.Inside key := by
    intro key hkey
    cases previous with
    | none => cases hkey
    | some old => exact h old rfl key (List.mem_filter.1 hkey).1
  unfold writeAfter
  cases hitems : keyed (artifactsFor artifacts rep) with
  | error => exact .fail _
  | ok items =>
    change Program.Asks _ (Program.makeDirectories root >>= _)
    refine Program.Asks.bind (asks_makeDirectories hroot) fun made => ?_
    cases made with
    | error => exact .fail _
    | ok =>
      refine Program.Asks.bind (asks_writeArtifacts (key?_of_keyed hitems) previous _) fun s => ?_
      refine Program.Asks.bind (asks_removeAllStale (hstale s.manifest)) fun _ => ?_
      refine Program.Asks.bind (asks_replaceFile hmanifest _) fun _ => ?_
      exact .report (.done _)

/-- The manifest in a directory, if it is one for a representation, lists only keys that stay below
that directory. -/
def KeysInside (t : FileTree) (place : Place) (rep : Representation) : Prop :=
  ∀ manifest, t.manifest? place = some manifest → manifest.representation = rep.name →
    ∀ key ∈ manifest.files.keys, Manifest.Inside key

theorem confined_writeAfter {m : Machine} (rep : Representation) (artifacts : List Artifact)
    {previous : Option Manifest}
    (h : ∀ manifest, previous = some manifest → ∀ key ∈ manifest.files.keys, Manifest.Inside key) :
    FileTree.Confined (placeOf m.cwd root <+: ·) (Above m.cwd root) m.tree
      ((writeAfter root rep artifacts previous).run m).2.tree :=
  Program.Asks.confined (asks_writeAfter rep artifacts h)

/-- **Writing stays below the root.** A run that goes by keys inside of the root changes nothing
outside of it, but for directories above the root that were missing. This is so because no path
below the root leads out of it, as one through a symbolic link could. -/
theorem writeTree_confined (m : Machine) (root : Path) (force : Bool) (rep : Representation)
    (artifacts : List Artifact) (h : KeysInside m.tree (placeOf m.cwd root) rep) :
    FileTree.Confined (placeOf m.cwd root <+: ·) (Above m.cwd root) m.tree
      ((writeTree root force rep artifacts).run m).2.tree := by
  rw [writeTree_eq, Program.run_bind]
  have htree := (question_prepare root force rep).tree_eq m
  have hcwd := Program.cwd_run (prepare root force rep) m
  split
  · rename_i previous between hprepare
    rw [hprepare] at htree hcwd
    rw [← htree, ← hcwd]
    refine confined_writeAfter rep artifacts fun manifest hmanifest => ?_
    subst hmanifest
    obtain ⟨hfound, hrep⟩ := manifest?_of_prepare hprepare
    exact h manifest hfound hrep
  · rename_i hprepare
    rw [hprepare] at htree
    rw [htree]
    exact .refl _

/-- A directory with a manifest that lists one key, and a file beside it. -/
def beside (key : String) : Machine where
  tree := ⟨[
    ("out", .directory [
      (manifestFile, .file (Text.utf8 ((Manifest.empty .host).insert key "00").render))]),
    ("x", .file (Text.utf8 "mine"))]⟩
  faults := [none, none, none, none, some ⟨.notFound, 0⟩]

/-- A run that removes what an earlier one has written, and in which a request fails. -/
theorem writeTree_confined_beside :
    (beside "a/f").tree.manifest? ["out"] = some ((Manifest.empty .host).insert "a/f" "00") ∧
      FileTree.Confined (["out"] <+: ·) (Above [] ⟨"out"⟩) (beside "a/f").tree
        ((writeTree ⟨"out"⟩ false .host []).run (beside "a/f")).2.tree := by
  have hmanifest : (beside "a/f").tree.manifest? ["out"] =
      some ((Manifest.empty .host).insert "a/f" "00") := by decide +kernel
  refine ⟨hmanifest, writeTree_confined (beside "a/f") ⟨"out"⟩ false .host [] ?_⟩
  intro manifest hfound _ key hkey
  obtain rfl : manifest = (Manifest.empty .host).insert "a/f" "00" :=
    Option.some.inj (hfound.symm.trans hmanifest)
  obtain rfl : key = "a/f" := List.mem_singleton.1 hkey
  exact ⟨["a", "f"], by decide, by decide⟩

/-- A key with two dots in it leads out of the root, and the file beside the root is removed. -/
theorem writeTree_removes_outside :
    (beside "../x").tree.look ["x"] = some (.file (Text.utf8 "mine")) ∧
      ¬placeOf [] ⟨"out"⟩ <+: ["x"] ∧
      ((writeTree ⟨"out"⟩ false .host []).run { beside "../x" with faults := [] }).1 =
        .ok ⟨0, 0, ["../x"]⟩ ∧
      ((writeTree ⟨"out"⟩ false .host []).run { beside "../x" with faults := [] }).2.tree.look ["x"] =
        none := by
  decide +kernel

end Output

end WireSchema
