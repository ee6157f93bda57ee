import WireSchema.Proofs.Output.Contents
import WireSchema.Proofs.Output.ManifestText

/-!
# Trees without a history

**Theorem (`writeTree_forgets`).** When runs have written one list of artifacts after another into a
root that was not there, the tree is the one that a run with the last list alone leaves.

After each run the tree is grown from nothing with the contents of its artifacts (`Written`). The
first run makes the root, and every later one finds the manifest of the run before it, so that it
removes whatever it does not put. All that a run needs of the paths of its artifacts is known from
its success, so the last list can be written alone as well.

The path of the root must not lead through a directory of its own tree (`Outward`): a run may remove
that directory, and the root is out of reach (`writeTree_remembers`). The file system has no
symbolic links.
-/

namespace WireSchema.Output

open Disk

variable {base t t' : FileTree} {cwd : Place} {root p : Path} {rep : Representation}
  {items old : List Keyed} {artifacts : List Artifact} {previous : Option Manifest}

/-! ## The steps of a run -/

theorem on_writeAfter_eq_ok {summary : Summary} :
    (writeAfter root rep artifacts previous).on cwd t = (.ok summary, t') ↔
      ∃ items t₁ s t₂ t₃, keyed (artifactsFor artifacts rep) = .ok items ∧
        (Program.makeDirectories root : Program OutputError _).on cwd t = (.ok (.ok ()), t₁) ∧
        (writeArtifacts root previous ⟨.empty rep, 0, 0⟩ items).on cwd t₁ = (.ok s, t₂) ∧
        (removeAllStale root (staleKeys previous s.manifest)).on cwd t₂ = (.ok (), t₃) ∧
        (replaceFile (Manifest.path root) (Text.utf8 s.manifest.render)).on cwd t₃ = (.ok (), t') ∧
        summary = ⟨s.written, s.unchanged, staleKeys previous s.manifest⟩ := by
  constructor
  · intro h
    obtain ⟨items, t₀, hkeyed, h₀⟩ := Program.on_bind_eq_ok.1 h
    rw [Program.on_ofExcept] at hkeyed
    obtain ⟨hitems, rfl⟩ := Prod.mk.inj hkeyed
    obtain ⟨made, t₁, hmade, h₁⟩ := Program.on_bind_eq_ok.1 h₀
    cases made with
    | error => cases h₁
    | ok =>
      obtain ⟨s, t₂, hwrite, h₂⟩ := Program.on_bind_eq_ok.1 h₁
      obtain ⟨_, t₃, hremove, h₃⟩ := Program.on_bind_eq_ok.1 h₂
      obtain ⟨_, t₄, hreplace, h₄⟩ := Program.on_bind_eq_ok.1 h₃
      cases h₄
      exact ⟨items, t₁, s, t₂, t₃, hitems, hmade, hwrite, hremove, hreplace, rfl⟩
  · rintro ⟨items, t₁, s, t₂, t₃, hitems, hmade, hwrite, hremove, hreplace, rfl⟩
    refine Program.on_bind_eq_ok.2 ⟨items, t, ?_, Program.on_bind_eq_ok.2 ⟨.ok (), t₁, hmade, ?_⟩⟩
    · rw [Program.on_ofExcept, hitems]
    · exact Program.on_bind_eq_ok.2 ⟨s, t₂, hwrite, Program.on_bind_eq_ok.2 ⟨(), t₃, hremove,
        Program.on_bind_eq_ok.2 ⟨(), t', hreplace, rfl⟩⟩⟩

theorem below_manifestPath (root : Path) : (Manifest.path root).Below root [manifestFile] :=
  Path.below_join Manifest.names?_manifestFile

theorem below_self (root : Path) : root.Below root [] := ⟨rfl, by simp, by simp⟩

theorem Leads.destination (h : Leads t cwd root) (husable : FileTree.Usable cwd root) :
    t.destination cwd root = .ok (placeOf cwd root) := by
  have hdestination := h.destination_eq_ok (below_self root) husable
    (fun rel hrel hne => absurd (List.prefix_nil.1 hrel) hne)
    (.inr (by rw [List.append_nil]; exact h.directory))
  rwa [List.append_nil] at hdestination

/-- A tree with the contents of artifacts and nothing else, all of whose paths can be written. -/
structure Written (base : FileTree) (cwd : Place) (root : Path) (rep : Representation)
    (items : List Keyed) (t : FileTree) : Prop where
  grown : Grown base (placeOf cwd root) (contents rep items) [] t
  valid : ∀ k ∈ items, k.Valid
  placeable : ∀ k ∈ items, Placeable cwd (root.join k.artifact.path)
  manifest : Placeable cwd (Manifest.path root)

/-- **A run leaves its contents**, if the manifest that it goes by lists all files. -/
theorem written_of_steps (hroot : Rooted base cwd root) {files : Files} {t₁ t₂ t₃ : FileTree}
    {s : Progress} (hgrown : Grown base (placeOf cwd root) files [] t₁)
    (hrecorded : Recorded previous files) (hitems : ∀ k ∈ items, k.Valid)
    (hdistinct : Distinguished items) (hdigest : Faithful files items)
    (hwrite : (writeArtifacts root previous ⟨.empty rep, 0, 0⟩ items).on cwd t₁ = (.ok s, t₂))
    (hremove : (removeAllStale root (staleKeys previous s.manifest)).on cwd t₂ = (.ok (), t₃))
    (hreplace : (replaceFile (Manifest.path root) (Text.utf8 s.manifest.render)).on cwd t₃ =
      (.ok (), t')) :
    Written base cwd root rep items t' := by
  obtain ⟨hgrown₂, hmanifest, hplaceable⟩ :=
    grown_of_writeArtifacts hroot hgrown hitems hdistinct hdigest hwrite
  have hmanifest : s.manifest = manifestFor rep items := hmanifest
  rw [hmanifest] at hremove hreplace
  have hnodup : (staleKeys previous (manifestFor rep items)).Nodup := by
    cases previous with
    | none => exact .nil
    | some manifest => exact manifest.files.nodup_keys.filter _
  have hgrown₃ := grown_of_removeAllStale hroot hgrown₂
    (fun key hkey => hrecorded.isKey key ((mem_staleKeys rep).1 hkey).1) hnodup
    (fun key hkey => putAll_ne_none (hrecorded.file key ((mem_staleKeys rep).1 hkey).1)) hremove
  have hgrown' := grown_of_replaceFile hroot hgrown₃ (below_manifestPath root) (by simp) hreplace
  rw [contents_eq rep hrecorded hitems] at hgrown'
  exact ⟨hgrown', hitems, hplaceable,
    (replaceFile_inv hroot hgrown₃ (below_manifestPath root) (by simp) hreplace).1⟩

/-! ## The first run -/

/-- A root that was not there is empty once it has been made. -/
theorem rooted_of_makeDirectories (habsent : t.look (placeOf cwd root) = none)
    (houtward : Outward cwd root) (htext : root.text ≠ "")
    (h : (Program.makeDirectories root : Program OutputError _).on cwd t = (.ok (.ok ()), base)) :
    Rooted base cwd root ∧ Grown base (placeOf cwd root) (fun _ => none) [] base := by
  obtain ⟨hleads, hlook⟩ := of_makeDirectories htext h
  have hnone : ∀ rel, rel ≠ [] → base.look (placeOf cwd root ++ rel) = none := by
    intro rel hrel
    rcases look_makeDirectories cwd t root (placeOf cwd root ++ rel) h with
      heq | ⟨⟨a, ha, -, hplace⟩, -⟩
    · rw [heq, FileTree.look_append_of_none habsent]
    · have hbelow := houtward.ancestor ha (hplace ▸ List.prefix_append _ _)
      rw [hplace] at hbelow
      exact absurd (by simpa using hbelow) hrel
  refine ⟨⟨hleads, houtward⟩, rfl, fun rel bytes => ?_, fun rel => ?_, fun other _ => rfl⟩
  · by_cases hrel : rel = []
    · simp [hrel, hlook]
    · simp [hnone rel hrel]
  · by_cases hrel : rel = []
    · simp [hrel, hlook, Needed]
    · simp [hnone rel hrel, Needed, hrel]

/-! ### The empty path

The empty path stands for the working directory. No run makes that directory, so that none succeeds
without it. -/

section Empty

variable (htext : root.text = "")

include htext

theorem look_makeDirectories_of_empty {names : Place} (hbelow : p.Below root names)
    {x : Except OutputError (Except OsError Unit)}
    (h : (Program.makeDirectories p : Program OutputError _).on cwd t = (x, t')) :
    t'.look (placeOf cwd root) = t.look (placeOf cwd root) := by
  obtain rfl : root = ⟨""⟩ := by rw [← htext]
  rcases look_makeDirectories cwd t p _ h with heq | ⟨⟨a, ha, hne, hplace⟩, -⟩
  · exact heq
  · exfalso
    have halike : a.Alike ⟨""⟩ := by
      rcases hbelow.mem_ancestors ha with ⟨front, -, hfront⟩ | ⟨b, hb, halike⟩
      · obtain rfl : front = [] := by simpa [hfront.placeOf_eq] using hplace
        exact hfront.alike
      · have hancestors : (⟨""⟩ : Path).ancestors = [⟨""⟩] := by decide
        obtain rfl : b = ⟨""⟩ := by simpa [hancestors] using hb
        exact halike
    exact hne (Path.text_eq_empty halike.1 halike.2)

theorem not_replaceFile_of_empty {names : Place} (hbelow : p.Below root names) (hne : names ≠ [])
    (hnone : t.look (placeOf cwd root) = none) (bytes : List UInt8) :
    (replaceFile p bytes).on cwd t ≠ (.ok (), t') := by
  intro h
  obtain ⟨front, last, rfl⟩ := (List.eq_nil_or_concat' names).resolve_left hne
  obtain ⟨parent, t₀, temporary, t₁, t₂, hparent, hmade, hmake, -⟩ := on_replaceFile_eq_ok.1 h
  obtain ⟨parent', hparent', hparentBelow, -⟩ := hbelow.parent?
  obtain rfl : parent = parent' := Option.some.inj (hparent.symm.trans hparent')
  obtain ⟨-, hdirectory, -⟩ := FileTree.sets_makeTemporary hmake
  rw [hparentBelow.placeOf_eq] at hdirectory
  have hroot := look_of_isPrefix hdirectory List.nil_prefix
  rw [List.append_nil, look_makeDirectories_of_empty htext hparentBelow hmade, hnone] at hroot
  cases hroot

theorem not_writeAfter_of_empty (hnone : t.look (placeOf cwd root) = none) {summary : Summary} :
    (writeAfter root rep artifacts none).on cwd t ≠ (.ok summary, t') := by
  intro h
  obtain ⟨items, t₁, s, t₂, t₃, hkeyed, hmade, hwrite, hremove, hreplace, -⟩ :=
    on_writeAfter_eq_ok.1 h
  have hnone₁ : t₁.look (placeOf cwd root) = none :=
    (look_makeDirectories_of_empty htext (below_self root) hmade).trans hnone
  cases items with
  | nil =>
    cases hwrite
    cases hremove
    exact not_replaceFile_of_empty htext (below_manifestPath root) (by simp) hnone₁ _ hreplace
  | cons k items =>
    have hk : k.Valid := key?_of_keyed hkeyed k List.mem_cons_self
    obtain ⟨s₁, t₁', hfirst, -⟩ := Program.on_bind_eq_ok.1 hwrite
    rcases (of_writeArtifact hfirst).2.2 with hput | ⟨-, bytes, hread, -⟩
    · exact not_replaceFile_of_empty htext (hk.below root) hk.place_ne_nil hnone₁ _ hput
    · have hlook := (placeable_of_read (hk.below root) hk.place_ne_nil hread).2
      rw [(hk.below root).placeOf_eq, FileTree.look_append_of_none hnone₁] at hlook
      cases hlook

end Empty

theorem on_prepare_of_absent (habsent : t.look (placeOf cwd root) = none) (force : Bool)
    (rep : Representation) : (prepare root force rep).on cwd t = (.ok none, t) := by
  cases hkind : t.kind cwd root with
  | error => exact prepare_on_of_absent hkind force rep
  | ok kind => exact absurd habsent (FileTree.kind_eq_ok hkind).2

/-- **The first run** makes the root and leaves its contents there. -/
theorem written_of_first (habsent : t.look (placeOf cwd root) = none) (houtward : Outward cwd root)
    {summary : Summary}
    (hdistinct : ∀ items, keyed (artifactsFor artifacts rep) = .ok items → Distinguished items)
    (h : (writeTree root false rep artifacts).on cwd t = (.ok summary, t')) :
    ∃ items base, keyed (artifactsFor artifacts rep) = .ok items ∧
      (Program.makeDirectories root : Program OutputError _).on cwd t = (.ok (.ok ()), base) ∧
      Rooted base cwd root ∧ Grown base (placeOf cwd root) (fun _ => none) [] base ∧
      Written base cwd root rep items t' := by
  rw [writeTree_eq, Program.on_bind, on_prepare_of_absent habsent] at h
  have htext : root.text ≠ "" := fun htext => not_writeAfter_of_empty htext habsent h
  obtain ⟨items, base, s, t₂, t₃, hkeyed, hmade, hwrite, hremove, hreplace, -⟩ :=
    on_writeAfter_eq_ok.1 h
  obtain ⟨hroot, hgrown⟩ := rooted_of_makeDirectories habsent houtward htext hmade
  exact ⟨items, base, hkeyed, hmade, hroot, hgrown, written_of_steps hroot hgrown recorded_none
    (key?_of_keyed hkeyed) (hdistinct items hkeyed) (fun _ _ _ hnone => nomatch hnone) hwrite
    hremove hreplace⟩

/-! ## Later runs -/

/-- A manifest is read as it was written. -/
theorem manifest?_of_look {place : Place} {manifest : Manifest}
    (h : t.look (place ++ [manifestFile]) = some (.file (Text.utf8 manifest.render))) :
    t.manifest? place = some manifest := by
  rw [FileTree.manifest?, h]
  dsimp only
  rw [Text.ofUtf8?_utf8, Option.bind_some, Manifest.parse?_render]

/-- A run finds the manifest that lies in its root. -/
theorem on_prepare_of_manifest {manifest : Manifest}
    (h : t.destination cwd root = .ok (placeOf cwd root))
    (hsayable : FileTree.Sayable (Manifest.path root))
    (hfile : t.look (placeOf cwd root ++ [manifestFile]) =
      some (.file (Text.utf8 manifest.render)))
    (hrep : manifest.representation = rep.name) (force : Bool) :
    (prepare root force rep).on cwd t = (.ok (some manifest), t) := by
  have hlook := FileTree.look_of_look_append hfile (by simp)
  rw [prepare_on h hlook hsayable, verdict, hfile, manifestBytes, manifestOf, Text.ofUtf8?_utf8]
  dsimp only
  rw [manifestIn, Manifest.parse?_render]
  dsimp only
  rw [Outcome.ok_bind, takes, if_pos hrep]

theorem on_prepare_of_written (hroot : Rooted base cwd root) (h : Written base cwd root rep old t) :
    (prepare root false rep).on cwd t = (.ok (some (manifestFor rep old)), t) :=
  on_prepare_of_manifest ((hroot.leadsIn h.grown).destination hroot.usable)
    h.manifest.usable.sayable ((h.grown.file _ _).2 (contents_manifestFile rep))
    (representation_record _ _) false

/-- **A later run** leaves its contents as well. -/
theorem written_of_next (hroot : Rooted base cwd root) (h : Written base cwd root rep old t)
    {summary : Summary}
    (hdistinct : ∀ items, keyed (artifactsFor artifacts rep) = .ok items →
      Distinguished (old ++ items))
    (hrun : (writeTree root false rep artifacts).on cwd t = (.ok summary, t')) :
    ∃ items, keyed (artifactsFor artifacts rep) = .ok items ∧
      Written base cwd root rep items t' := by
  rw [writeTree_eq, Program.on_bind, on_prepare_of_written hroot h] at hrun
  obtain ⟨items, t₁, s, t₂, t₃, hkeyed, hmade, hwrite, hremove, hreplace, -⟩ :=
    on_writeAfter_eq_ok.1 hrun
  obtain ⟨t₁', hmade', hgrown⟩ := makeDirectories_grown hroot h.grown (List.prefix_refl [])
    (below_self root) hroot.usable (.inr rfl) fun rel hrel => List.prefix_nil.1 hrel ▸ h.grown.top
  obtain rfl : t₁ = t₁' := (Prod.mk.inj (hmade.symm.trans hmade')).2
  have hvalid : ∀ k ∈ items, k.Valid := key?_of_keyed hkeyed
  have hall := hdistinct items hkeyed
  refine ⟨items, hkeyed, written_of_steps hroot hgrown (recorded_contents rep h.valid) hvalid
    (fun k hk k' hk' => hall k (by simp [hk]) k' (by simp [hk'])) ?_ hwrite hremove hreplace⟩
  -- A file of an earlier artifact with the digest of this one has its bytes.
  intro k hk bytes hbytes hsame
  by_cases hmem : ∃ k' ∈ old, k'.place = k.place
  · obtain ⟨k', hk', -, hcontents⟩ := contents_of_mem rep h.valid hmem
    obtain rfl : k'.bytes = bytes := Option.some.inj (hcontents.symm.trans hbytes)
    exact hall k' (by simp [hk']) k (by simp [hk]) hsame
  · rw [contents_of_not_mem rep (hvalid k hk).place_ne_manifestFile hmem] at hbytes
    cases hbytes

/-! ## A run alone -/

/-- The files of a tree do not lie in each other's way. -/
theorem Written.free (h : Written base cwd root rep items t) {files : Files}
    (hfiles : ∀ key, files key ≠ none → contents rep items key ≠ none) {rel : Place}
    (hrel : contents rep items rel ≠ none) : Free files rel := by
  rintro key hkey (hbefore | hbefore)
  · exact h.grown.eq_of_isPrefix (hfiles key hkey) hrel hbefore
  · exact (h.grown.eq_of_isPrefix hrel (hfiles key hkey) hbefore).symm

/-- **A list that has been written can be written alone**, into the tree without the root. -/
theorem exists_written {start : FileTree} (habsent : start.look (placeOf cwd root) = none)
    (hmade : (Program.makeDirectories root : Program OutputError _).on cwd start =
      (.ok (.ok ()), base))
    (hroot : Rooted base cwd root) (hgrown : Grown base (placeOf cwd root) (fun _ => none) [] base)
    (h : Written base cwd root rep items t)
    (hkeyed : keyed (artifactsFor artifacts rep) = .ok items) :
    ∃ summary t', (writeTree root false rep artifacts).on cwd start = (.ok summary, t') ∧
      Written base cwd root rep items t' := by
  have hitems : ∀ k ∈ items, Free (putAll (fun _ => none) items) k.place := by
    intro k hk
    obtain ⟨k', -, -, hcontents⟩ := contents_of_mem rep h.valid ⟨k, hk, rfl⟩
    exact h.free (fun _ => contents_ne_none rep) (by simp [hcontents])
  have hmanifest : Free (putAll (fun _ => none) items) [manifestFile] :=
    h.free (fun _ => contents_ne_none rep) (by simp [contents_manifestFile])
  obtain ⟨s, t₂, hwrite, hgrown₂, hrecord⟩ :=
    writeArtifacts_grown hroot hgrown h.valid h.placeable hitems ⟨.empty rep, 0, 0⟩
  obtain ⟨t', hreplace, hgrown'⟩ := replaceFile_grown hroot hgrown₂ (below_manifestPath root)
    (by simp) h.manifest hmanifest (Text.utf8 s.manifest.render)
  have hafter := on_writeAfter_eq_ok.2
    ⟨items, base, s, t₂, t₂, hkeyed, hmade, hwrite, rfl, hreplace, rfl⟩
  refine ⟨⟨s.written, s.unchanged, []⟩, t', ?_, ?_, h.valid, h.placeable, h.manifest⟩
  · rw [writeTree_eq, Program.on_bind, on_prepare_of_absent habsent]
    exact hafter
  · rw [hrecord] at hgrown'
    exact hgrown'

/-! ## Runs one after another -/

/-- No two of the contents have the same digest. -/
def CollisionFree (artifacts : List Artifact) : Prop :=
  ∀ a ∈ artifacts, ∀ b ∈ artifacts,
    Digest.sha256Hex (Text.utf8 a.contents) = Digest.sha256Hex (Text.utf8 b.contents) →
      a.contents = b.contents

theorem CollisionFree.distinguished {pool : List Artifact} (h : CollisionFree pool)
    (hitems : ∀ k ∈ items, k.artifact ∈ pool) : Distinguished items :=
  fun k hk k' hk' heq => congrArg Text.utf8 (h _ (hitems k hk) _ (hitems k' hk') heq)

theorem artifact_of_keyed (h : keyed artifacts = .ok items) :
    items.map Keyed.artifact = artifacts := by
  induction artifacts generalizing items with
  | nil =>
    cases h
    rfl
  | cons a artifacts ih =>
    rw [keyed] at h
    split at h
    · cases h
    · obtain ⟨rest, hrest, h⟩ := Outcome.bind_eq_ok.1 h
      cases h
      rw [List.map_cons, ih hrest]

theorem mem_of_keyed (h : keyed artifacts = .ok items) : ∀ k ∈ items, k.artifact ∈ artifacts :=
  fun _ hk => artifact_of_keyed h ▸ List.mem_map_of_mem hk

/-- The contents of two runs are told apart by their digests. -/
theorem CollisionFree.of_keyed {pool : List Artifact} (h : CollisionFree pool)
    (hold : ∀ k ∈ old, k.artifact ∈ pool) (hpool : ∀ a ∈ artifactsFor artifacts rep, a ∈ pool)
    (items : List Keyed) (hkeyed : keyed (artifactsFor artifacts rep) = .ok items) :
    Distinguished (old ++ items) := by
  refine h.distinguished fun k hk => ?_
  rcases List.mem_append.1 hk with hk | hk
  · exact hold k hk
  · exact hpool _ (mem_of_keyed hkeyed k hk)

/-- After later runs, the tree has the contents of the last one. -/
theorem written_of_runs (hroot : Rooted base cwd root) {pool : List Artifact}
    (hfree : CollisionFree pool) {lists : List (List Artifact)} {last : List Artifact}
    {summaries : List Summary}
    (hpool : ∀ artifacts ∈ lists ++ [last], ∀ a ∈ artifactsFor artifacts rep, a ∈ pool)
    (h : Written base cwd root rep old t) (hold : ∀ k ∈ old, k.artifact ∈ pool)
    (hruns : ((lists ++ [last]).mapM (writeTree root false rep)).on cwd t = (.ok summaries, t')) :
    ∃ items, keyed (artifactsFor last rep) = .ok items ∧ Written base cwd root rep items t' := by
  induction lists generalizing old t summaries with
  | nil =>
    rw [List.nil_append, List.mapM_cons] at hruns
    obtain ⟨summary, between, hrun, hrest⟩ := Program.on_bind_eq_ok.1 hruns
    cases hrest
    exact written_of_next hroot h (hfree.of_keyed hold (hpool last (by simp))) hrun
  | cons artifacts lists ih =>
    rw [List.cons_append, List.mapM_cons] at hruns
    obtain ⟨summary, between, hrun, hrest⟩ := Program.on_bind_eq_ok.1 hruns
    obtain ⟨summaries', t'', hrest, hdone⟩ := Program.on_bind_eq_ok.1 hrest
    cases hdone
    obtain ⟨items, hkeyed, hwritten⟩ :=
      written_of_next hroot h (hfree.of_keyed hold (hpool artifacts (by simp))) hrun
    exact ih (fun artifacts' hmem => hpool artifacts' (List.mem_cons_of_mem _ hmem)) hwritten
      (fun k hk => hpool artifacts (by simp) _ (mem_of_keyed hkeyed k hk)) hrest

/-- The tree after all runs and the tree of the last one alone have the same contents. -/
theorem written_alike {earlier : List (List Artifact)} {last : List Artifact}
    {summaries : List Summary} (habsent : t.look (placeOf cwd root) = none)
    (houtward : Outward cwd root)
    (hfree : CollisionFree ((earlier ++ [last]).flatMap (artifactsFor · rep)))
    (h : ((earlier ++ [last]).mapM (writeTree root false rep)).on cwd t = (.ok summaries, t')) :
    ∃ summary alone base items, (writeTree root false rep last).on cwd t = (.ok summary, alone) ∧
      Written base cwd root rep items t' ∧ Written base cwd root rep items alone := by
  have hpool : ∀ artifacts ∈ earlier ++ [last], ∀ a ∈ artifactsFor artifacts rep,
      a ∈ (earlier ++ [last]).flatMap (artifactsFor · rep) :=
    fun artifacts hmem a ha => List.mem_flatMap.2 ⟨artifacts, hmem, ha⟩
  have hdistinct {artifacts : List Artifact} (hmem : artifacts ∈ earlier ++ [last])
      (items : List Keyed) (hkeyed : keyed (artifactsFor artifacts rep) = .ok items) :
      Distinguished ([] ++ items) :=
    hfree.of_keyed (by simp) (hpool artifacts hmem) items hkeyed
  -- Only the first run finds an absent root; all others find what a run before them wrote.
  cases earlier with
  | nil =>
    rw [List.nil_append, List.mapM_cons] at h
    obtain ⟨summary, between, hrun, hrest⟩ := Program.on_bind_eq_ok.1 h
    cases hrest
    obtain ⟨items, base, -, -, -, -, hwritten⟩ :=
      written_of_first habsent houtward (hdistinct (by simp)) hrun
    exact ⟨summary, _, base, items, hrun, hwritten, hwritten⟩
  | cons first lists =>
    rw [List.cons_append, List.mapM_cons] at h
    obtain ⟨summary, between, hrun, hrest⟩ := Program.on_bind_eq_ok.1 h
    obtain ⟨summaries', t'', hrest, hdone⟩ := Program.on_bind_eq_ok.1 hrest
    cases hdone
    obtain ⟨old, base, hkeyed, hmade, hroot, hgrown, hwritten⟩ :=
      written_of_first habsent houtward (hdistinct (by simp)) hrun
    obtain ⟨items, hlast, hwritten'⟩ := written_of_runs hroot hfree
      (fun artifacts hmem => hpool artifacts (List.mem_cons_of_mem _ hmem)) hwritten
      (fun k hk => hpool first (by simp) _ (mem_of_keyed hkeyed k hk)) hrest
    obtain ⟨summary', alone, halone, hwritten''⟩ :=
      exists_written habsent hmade hroot hgrown hwritten' hlast
    exact ⟨summary', alone, base, items, halone, hwritten', hwritten''⟩

/-- **A tree has no history.** Runs that write one list of artifacts after another, into a root that
was not there and on a disk without faults and symbolic links, leave the tree that a run with the
last list alone leaves there. That run succeeds. -/
theorem writeTree_forgets (m m' : Machine) (root : Path) (rep : Representation)
    (earlier : List (List Artifact)) (last : List Artifact) (summaries : List Summary)
    (hquiet : m.faults = []) (habsent : m.tree.look (placeOf m.cwd root) = none)
    (houtward : Outward m.cwd root)
    (hfree : CollisionFree ((earlier ++ [last]).flatMap (artifactsFor · rep)))
    (h : ((earlier ++ [last]).mapM (writeTree root false rep)).run m = (.ok summaries, m')) :
    ∃ summary fresh, (writeTree root false rep last).run m = (.ok summary, fresh) ∧
      ∀ place, m'.tree.look place = fresh.tree.look place := by
  obtain ⟨hanswer, htree⟩ :=
    Program.run_of_quiet ((earlier ++ [last]).mapM (writeTree root false rep)) hquiet
  rw [h] at hanswer htree
  obtain ⟨summary, alone, base, items, halone, hwritten, hwritten'⟩ :=
    written_alike habsent houtward hfree (Prod.ext hanswer.symm htree.symm)
  obtain ⟨hanswer', htree'⟩ := Program.run_of_quiet (writeTree root false rep last) hquiet
  rw [halone] at hanswer' htree'
  refine ⟨summary, ((writeTree root false rep last).run m).2, Prod.ext hanswer' rfl,
    fun place => ?_⟩
  rw [htree', hwritten.grown.look_eq hwritten'.grown]

/-- A machine with an empty directory to work in. -/
def bare : Machine where
  tree := ⟨[("work", .directory [])]⟩
  cwd := ["work"]

/-- A file in a directory of its own. -/
def nested : List Artifact := [⟨.host, ⟨"a/f"⟩, "1"⟩]

/-- A file for each representation. -/
def mixed : List Artifact := [⟨.host, ⟨"g"⟩, "2"⟩, ⟨.embedded, ⟨"x"⟩, "3"⟩]

/-- Two runs, of which the second removes the file of the first with its directory. -/
theorem writeTree_forgets_nested :
    bare.tree.look (placeOf bare.cwd ⟨"new/../r"⟩) = none ∧
      ((([nested] ++ [mixed]).mapM (writeTree ⟨"new/../r"⟩ false .host)).run bare).1 =
        .ok [⟨1, 0, []⟩, ⟨1, 0, ["a/f"]⟩] ∧
      ∃ summary fresh, (writeTree ⟨"new/../r"⟩ false .host mixed).run bare = (.ok summary, fresh) ∧
        ∀ place, ((([nested] ++ [mixed]).mapM
          (writeTree ⟨"new/../r"⟩ false .host)).run bare).2.tree.look place =
            fresh.tree.look place := by
  have habsent : bare.tree.look (placeOf bare.cwd ⟨"new/../r"⟩) = none := by decide
  have hfree : CollisionFree (([nested] ++ [mixed]).flatMap (artifactsFor · .host)) := by
    unfold CollisionFree
    decide +kernel
  have hruns : ((([nested] ++ [mixed]).mapM (writeTree ⟨"new/../r"⟩ false .host)).run bare).1 =
      .ok [⟨1, 0, []⟩, ⟨1, 0, ["a/f"]⟩] := by decide +kernel
  generalize hrun : (([nested] ++ [mixed]).mapM (writeTree ⟨"new/../r"⟩ false .host)).run bare =
    after at hruns ⊢
  obtain ⟨answer, after⟩ := after
  obtain rfl := hruns
  exact ⟨habsent, rfl, writeTree_forgets bare after ⟨"new/../r"⟩ .host [nested] mixed _ rfl habsent
    (by decide) hfree hrun⟩

/-- A root whose path leads through a directory of its own tree. When that directory is removed with
its last file, the path leads nowhere, and the files of the earlier run that are left are taken to
be gone. -/
theorem writeTree_remembers :
    bare.tree.look (placeOf bare.cwd ⟨"r/y/.."⟩) = none ∧
      ¬Outward bare.cwd ⟨"r/y/.."⟩ ∧
      (([[⟨.host, ⟨"y/f"⟩, "1"⟩, ⟨.host, ⟨"z/f"⟩, "2"⟩], [⟨.host, ⟨"g"⟩, "3"⟩]].mapM
        (writeTree ⟨"r/y/.."⟩ false .host)).run bare).1 = .ok [⟨2, 0, []⟩, ⟨1, 0, ["y/f", "z/f"]⟩] ∧
      (([[⟨.host, ⟨"y/f"⟩, "1"⟩, ⟨.host, ⟨"z/f"⟩, "2"⟩], [⟨.host, ⟨"g"⟩, "3"⟩]].mapM
        (writeTree ⟨"r/y/.."⟩ false .host)).run bare).2.tree.look ["work", "r", "z", "f"] =
          some (.file (Text.utf8 "2")) ∧
      ((writeTree ⟨"r/y/.."⟩ false .host [⟨.host, ⟨"g"⟩, "3"⟩]).run bare).1 = .ok ⟨1, 0, []⟩ ∧
      ((writeTree ⟨"r/y/.."⟩ false .host [⟨.host, ⟨"g"⟩, "3"⟩]).run bare).2.tree.look
        ["work", "r", "z", "f"] = none := by
  decide +kernel

end WireSchema.Output
