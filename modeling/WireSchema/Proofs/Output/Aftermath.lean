import WireSchema.Proofs.Output.Files

/-!
# What a run leaves

**Theorem (`writeTree_aftermath`).** A run that succeeds leaves a file for each artifact of its
representation, with the contents of the last artifact that has its key. The manifest has the
digests of these contents and nothing else. What the manifest before it had besides is gone, and
the summary tells how many artifacts there were and what was removed.

The directory may hold anything before the run. The files that it has afterwards are computed from
those before (`filesAt_writeAfter`), first by putting the artifacts one after another, then by
removing the dropped keys, and last by putting the manifest. Each statement is read off that.

A root whose path leads through a directory of its own tree is excluded if files are removed: once
that directory is gone, no file is found any more, and what is not found counts as removed
(`writeTree_leaves_dropped`).

The manifest before the run is the one to which the path of the root leads (`earlier`). Nothing lies
at the empty path, so for the empty root there is none, and nothing is claimed of the files in a
manifest that the working directory may hold.
-/

namespace WireSchema.Output

open Disk

variable {t t' : FileTree} {cwd : Place} {root p : Path} {rep : Representation} {names : Place}
  {items : List Keyed} {own artifacts : List Artifact} {previous : Option Manifest} {key : String}
  {bytes : List UInt8}

/-! ## The last artifact with a key -/

def latest (artifacts : List Artifact) (key : String) : Option Artifact :=
  (artifacts.filter fun a => Manifest.key? a.path = some key).getLast?

theorem latest_concat (artifacts : List Artifact) (a : Artifact) (key : String) :
    latest (artifacts ++ [a]) key =
      if Manifest.key? a.path = some key then some a else latest artifacts key := by
  by_cases h : Manifest.key? a.path = some key <;> simp [latest, h]

theorem latest_eq_none_iff (hitems : ∀ k ∈ items, k.Valid) :
    latest (items.map Keyed.artifact) key = none ↔ ¬∃ k ∈ items, k.key = key := by
  have hkey : ∀ k ∈ items, (Manifest.key? k.artifact.path = some key ↔ k.key = key) := by
    intro k hk
    have hvalid : Manifest.key? k.artifact.path = some k.key := hitems k hk
    rw [hvalid, Option.some.injEq]
  rw [latest, List.getLast?_eq_none_iff, List.filter_eq_nil_iff]
  simp only [List.mem_map, forall_exists_index, and_imp, forall_apply_eq_imp_iff₂,
    decide_eq_true_eq, not_exists, not_and]
  exact forall₂_congr fun k hk => not_congr (hkey k hk)

/-- The last artifact at a place counts. -/
theorem putAll_placeOfKey (hitems : ∀ k ∈ items, k.Valid) (hkey : IsKey key) (files : Files) :
    putAll files items (placeOfKey key) =
      ((latest (items.map Keyed.artifact) key).map fun a => Text.utf8 a.contents).or
        (files (placeOfKey key)) := by
  induction items using List.reverseRecOn with
  | nil => rfl
  | append_singleton items k ih =>
    have hk : Manifest.key? k.artifact.path = some k.key := hitems k (by simp)
    have hput : putAll files (items ++ [k]) = put (putAll files items) k := List.foldl_concat ..
    rw [hput, List.map_append, List.map_singleton, latest_concat, hk, put]
    by_cases heq : k.key = key
    · subst heq
      rw [if_pos rfl]
      exact Function.update_self ..
    · have hplace : placeOfKey key ≠ k.place := fun hplace =>
        heq (hkey.placeOfKey_inj ⟨_, hk⟩ hplace).symm
      rw [if_neg (by simpa using heq), Function.update_of_ne hplace,
        ih fun k' hk' => hitems k' (by simp [hk'])]

/-- The last artifact with a key is recorded. -/
theorem get?_record (hitems : ∀ k ∈ items, k.Valid) (manifest : Manifest) :
    (record manifest items).files.get? key =
      ((latest (items.map Keyed.artifact) key).map fun a =>
        Digest.sha256Hex (Text.utf8 a.contents)).or (manifest.files.get? key) := by
  induction items using List.reverseRecOn with
  | nil => rfl
  | append_singleton items k ih =>
    have hk : Manifest.key? k.artifact.path = some k.key := hitems k (by simp)
    have hrecord : record manifest (items ++ [k]) =
        (record manifest items).insert k.key k.digest := List.foldl_concat ..
    rw [hrecord, List.map_append, List.map_singleton, latest_concat, hk, Manifest.insert,
      StringMap.get?_insert]
    by_cases heq : key = k.key
    · rw [if_pos heq, if_pos (congrArg some heq.symm)]
      rfl
    · rw [if_neg heq, if_neg (by simpa using Ne.symm heq),
        ih fun k' hk' => hitems k' (by simp [hk'])]

/-- The keys of an earlier run that no artifact has. -/
def dropped (previous : Option Manifest) (artifacts : List Artifact) : List String :=
  (keysOf previous).filter fun key => (latest artifacts key).isNone

theorem staleKeys_eq (hitems : ∀ k ∈ items, k.Valid) (previous : Option Manifest) :
    staleKeys previous (manifestFor rep items) = dropped previous (items.map Keyed.artifact) := by
  cases previous with
  | none => rfl
  | some old =>
    refine List.filter_congr fun key _ => ?_
    rw [Bool.eq_iff_iff, Bool.not_eq_true', ← Bool.not_eq_true, StringMap.contains_iff,
      mem_keys_manifestFor, Option.isNone_iff_eq_none, latest_eq_none_iff hitems]

theorem sorted_dropped (previous : Option Manifest) (artifacts : List Artifact) :
    (dropped previous artifacts).Pairwise (· < ·) := by
  cases previous with
  | none => exact .nil
  | some old => exact List.Pairwise.filter _ old.files.sorted

/-! ## Contents that are told apart -/

/-- The contents that a run can compare by their digests: those of its artifacts, and those of the
files that lie where it puts them. -/
def involved (t : FileTree) (cwd : Place) (root : Path) (artifacts : List Artifact) :
    List (List UInt8) :=
  artifacts.map (fun a => Text.utf8 a.contents) ++
    artifacts.filterMap fun a => Item.bytes? (t.look (placeOf cwd (root.join a.path)))

/-- Different contents have different digests. -/
def DigestsApart (contents : List (List UInt8)) : Prop :=
  ∀ b ∈ contents, ∀ b' ∈ contents, Digest.sha256Hex b = Digest.sha256Hex b' → b = b'

instance (contents : List (List UInt8)) : Decidable (DigestsApart contents) :=
  inferInstanceAs (Decidable (∀ b ∈ contents, ∀ b' ∈ contents, _))

section DigestsApart

variable (h : DigestsApart (involved t cwd root (items.map Keyed.artifact)))

include h

theorem DigestsApart.distinguished : Distinguished items := by
  intro k hk k' hk' heq
  have hmem : ∀ k ∈ items, k.bytes ∈ involved t cwd root (items.map Keyed.artifact) := by
    intro k hk
    exact List.mem_append_left _ (List.mem_map.2 ⟨_, List.mem_map_of_mem hk, rfl⟩)
  exact h _ (hmem k hk) _ (hmem k' hk') heq

theorem DigestsApart.faithful (hitems : ∀ k ∈ items, k.Valid) :
    Faithful (filesAt t (placeOf cwd root)) items := by
  intro k hk bytes hbytes heq
  refine h _ ?_ _ (List.mem_append_left _ (List.mem_map.2 ⟨_, List.mem_map_of_mem hk, rfl⟩)) heq
  refine List.mem_append_right _ (List.mem_filterMap.2 ⟨_, List.mem_map_of_mem hk, ?_⟩)
  rw [((hitems k hk).below root).placeOf_eq]
  exact hbytes

end DigestsApart

/-! ## The files of a run -/

/-- A file below a root that can be reached is read. -/
theorem Leads.read (h : Leads t cwd root) (hbelow : p.Below root names) (hp : Placeable cwd p)
    (hfile : filesAt t (placeOf cwd root) names = some bytes) : t.read cwd p = .ok bytes := by
  have hlook := filesAt_eq_some.1 hfile
  have hdestination : t.destination cwd p = .ok (placeOf cwd root ++ names) := by
    refine h.destination_eq_ok hbelow hp.usable (fun rel hrel hne => ?_)
      (.inl (FileTree.tidy_of_endsNamed hp.named))
    obtain ⟨rest, rfl⟩ := hrel
    rw [← List.append_assoc] at hlook
    exact FileTree.look_of_look_append hlook fun hnil => hne (by rw [hnil, List.append_nil])
  rw [FileTree.read_eq, hdestination, Outcome.ok_bind, hlook]
  dsimp only
  rw [hp.slash]
  rfl

/-- **The files after a run**, from those before it. -/
theorem filesAt_writeAfter {summary : Summary} (hkeys : ∀ key ∈ keysOf previous, IsKey key)
    (hreach : dropped previous (artifactsFor artifacts rep) ≠ [] →
      Leads t cwd root ∧ Outward cwd root)
    (hdigest : DigestsApart (involved t cwd root (artifactsFor artifacts rep)))
    (h : (writeAfter root rep artifacts previous).on cwd t = (.ok summary, t')) :
    ∃ items, items.map Keyed.artifact = artifactsFor artifacts rep ∧
      (∀ k ∈ items, k.Valid ∧ Placeable cwd (root.join k.artifact.path)) ∧ Leads t' cwd root ∧
      filesAt t' (placeOf cwd root) =
        Function.update (removeAll (putAll (filesAt t (placeOf cwd root)) items)
          (dropped previous (artifactsFor artifacts rep))) [manifestFile]
          (some (Text.utf8 (manifestFor rep items).render)) ∧
      summary.written + summary.unchanged = items.length ∧
      summary.removed = dropped previous (artifactsFor artifacts rep) := by
  obtain ⟨items, t₁, s, t₂, t₃, hkeyed, hmade, hwrite, hremove, hreplace, rfl⟩ :=
    on_writeAfter_eq_ok.1 h
  have hown := artifact_of_keyed hkeyed
  have hvalid : ∀ k ∈ items, k.Valid := key?_of_keyed hkeyed
  rw [← hown] at hreach hdigest ⊢
  have hfiles₁ := filesAt_makeDirectories hmade (placeOf cwd root)
  have hfaithful : Faithful (filesAt t₁ (placeOf cwd root)) items := by
    rw [hfiles₁]
    exact hdigest.faithful hvalid
  obtain ⟨hplaceable, hfiles₂⟩ :=
    filesAt_writeArtifacts hvalid hdigest.distinguished hfaithful hwrite
  obtain ⟨hmanifest, hcount⟩ := progress_of_writeArtifacts hwrite
  have hmanifest : s.manifest = manifestFor rep items := hmanifest
  rw [hmanifest, staleKeys_eq hvalid] at hremove ⊢
  rw [hmanifest] at hreplace
  -- Without dropped keys nothing is removed. Only otherwise must the path of the root lead on.
  have hfiles₃ : filesAt t₃ (placeOf cwd root) = removeAll (filesAt t₂ (placeOf cwd root))
      (dropped previous (items.map Keyed.artifact)) := by
    by_cases hnil : dropped previous (items.map Keyed.artifact) = []
    · rw [hnil] at hremove ⊢
      cases hremove
      rfl
    · obtain ⟨hleads, houtward⟩ := hreach hnil
      have hleads₂ := (hleads.of_kept (kept_of_makeDirectories hmade)).of_kept
        (kept_of_writeArtifacts hwrite)
      exact (hleads₂.removeAllStale houtward
        (fun key hkey => hkeys key (List.mem_filter.1 hkey).1) hremove).2
  refine ⟨items, rfl, fun k hk => ⟨hvalid k hk, hplaceable k hk⟩,
    leads_of_replaceFile (below_manifestPath root) (by simp) hreplace, ?_, by simpa using hcount,
    rfl⟩
  rw [filesAt_replaceFile (below_manifestPath root) hreplace, hfiles₃, hfiles₂, hfiles₁]

/-! ## The aftermath of a run -/

/-- What a run leaves, by the artifacts of its representation and the manifest before it. -/
structure Aftermath (cwd : Place) (root : Path) (rep : Representation) (own : List Artifact)
    (previous : Option Manifest) (summary : Summary) (t : FileTree) : Prop where
  /-- At the path of each artifact lie the contents of the last one with its key. -/
  files : ∀ a ∈ own, ∃ key last, Manifest.key? a.path = some key ∧ latest own key = some last ∧
    t.read cwd (root.join a.path) = .ok (Text.utf8 last.contents)
  /-- The manifest has the digests of these contents, and no other keys. -/
  manifest : ∃ manifest, t.manifest? (placeOf cwd root) = some manifest ∧
    manifest.representation = rep.name ∧
    ∀ key, manifest.files.get? key =
      (latest own key).map fun a => Digest.sha256Hex (Text.utf8 a.contents)
  /-- No file lies at a dropped key. -/
  gone : ∀ key ∈ dropped previous own, ∀ bytes,
    t.look (placeOf cwd (root.join ⟨key⟩)) ≠ some (.file bytes)
  count : summary.written + summary.unchanged = own.length
  removed : summary.removed = dropped previous own
  sorted : summary.removed.Pairwise (· < ·)

/-- What is read off the files that a run leaves. -/
theorem aftermath_of_files {summary : Summary} {files : Files}
    (hkeys : ∀ key ∈ keysOf previous, IsKey key)
    (hitems : ∀ k ∈ items, k.Valid ∧ Placeable cwd (root.join k.artifact.path))
    (hleads : Leads t cwd root)
    (hfiles : filesAt t (placeOf cwd root) = Function.update (removeAll (putAll files items)
      (dropped previous (items.map Keyed.artifact))) [manifestFile]
      (some (Text.utf8 (manifestFor rep items).render)))
    (hcount : summary.written + summary.unchanged = items.length)
    (hremoved : summary.removed = dropped previous (items.map Keyed.artifact)) :
    Aftermath cwd root rep (items.map Keyed.artifact) previous summary t where
  files := by
    intro a ha
    obtain ⟨k, hk, rfl⟩ := List.mem_map.1 ha
    have hvalid := (hitems k hk).1
    obtain ⟨last, hlast⟩ : ∃ last, latest (items.map Keyed.artifact) k.key = some last := by
      rw [← Option.ne_none_iff_exists', ne_eq,
        latest_eq_none_iff fun k' hk' => (hitems k' hk').1, not_not]
      exact ⟨k, hk, rfl⟩
    refine ⟨k.key, last, hvalid, hlast, hleads.read (hvalid.below root) (hitems k hk).2 ?_⟩
    -- What was put last at this key is neither the manifest nor removed.
    rw [hfiles, Function.update_of_ne hvalid.place_ne_manifestFile, removeAll_of_not_mem]
    · rw [Keyed.place, putAll_placeOfKey (fun k' hk' => (hitems k' hk').1) hvalid.isKey, hlast]
      rfl
    · -- A key that an artifact has is not dropped.
      intro key hkey hplace
      obtain ⟨hold, hnone⟩ := List.mem_filter.1 hkey
      rw [(hkeys key hold).placeOfKey_inj hvalid.isKey hplace, hlast] at hnone
      cases hnone
  manifest := by
    have hlook : t.look (placeOf cwd root ++ [manifestFile]) =
        some (.file (Text.utf8 (manifestFor rep items).render)) := by
      rw [← filesAt_eq_some, hfiles, Function.update_self]
    refine ⟨manifestFor rep items, manifest?_of_look hlook, representation_record _ _,
      fun key => ?_⟩
    rw [manifestFor, get?_record fun k hk => (hitems k hk).1]
    exact Option.or_none
  gone := by
    intro key hkey bytes hlook
    have hisKey := hkeys key (List.mem_filter.1 hkey).1
    rw [(Path.below_join hisKey.names?).placeOf_eq, ← filesAt_eq_some, hfiles,
      Function.update_of_ne hisKey.ne_manifestFile, removeAll_of_mem ⟨key, hkey, rfl⟩] at hlook
    cases hlook
  count := by rw [hcount, List.length_map]
  removed := hremoved
  sorted := hremoved ▸ sorted_dropped previous _

/-- **What a run leaves.** On a disk without faults and symbolic links, a run that succeeds leaves the
files of its artifacts and their manifest, and none of the files that an earlier run wrote and this
one did not. The keys of the earlier manifest are keys of artifacts, and if any of them is dropped,
the path of the root leads through no directory of its own tree. A run at the empty path has no
earlier manifest, so it removes nothing, whatever the manifest in the working directory lists. -/
theorem writeTree_aftermath (m m' : Machine) (root : Path) (force : Bool) (rep : Representation)
    (artifacts : List Artifact) (summary : Summary) (hquiet : m.faults = [])
    (hkeys : ∀ key ∈ keysOf (earlier m.tree m.cwd root rep), IsKey key)
    (houtward : dropped (earlier m.tree m.cwd root rep) (artifactsFor artifacts rep) ≠ [] →
      Outward m.cwd root)
    (hdigest : DigestsApart (involved m.tree m.cwd root (artifactsFor artifacts rep)))
    (h : (writeTree root force rep artifacts).run m = (.ok summary, m')) :
    Aftermath m.cwd root rep (artifactsFor artifacts rep) (earlier m.tree m.cwd root rep) summary
      m'.tree := by
  obtain ⟨hanswer, htree⟩ := Program.run_of_quiet (writeTree root force rep artifacts) hquiet
  rw [h] at hanswer htree
  have hon : (writeTree root force rep artifacts).on m.cwd m.tree = (.ok summary, m'.tree) :=
    Prod.ext hanswer.symm htree.symm
  -- A manifest was found in a directory, to which the path leads.
  have hreach (hne : dropped (earlier m.tree m.cwd root rep) (artifactsFor artifacts rep) ≠ []) :
      Leads m.tree m.cwd root ∧ Outward m.cwd root := by
    refine ⟨?_, houtward hne⟩
    cases hearlier : earlier m.tree m.cwd root rep with
    | none =>
      rw [hearlier] at hne
      exact absurd rfl hne
    | some manifest =>
      obtain ⟨hdestination, hmanifest, -⟩ := earlier_eq_some hearlier
      exact leads_of_destination hdestination (look_of_manifest? hmanifest)
  obtain ⟨items, hown, hitems, hleads, hfiles, hcount, hremoved⟩ :=
    filesAt_writeAfter hkeys hreach hdigest (writeAfter_of_writeTree hon)
  rw [← hown] at hfiles hremoved ⊢
  exact aftermath_of_files hkeys hitems hleads hfiles hcount hremoved

/-- The manifest of two files. -/
def ledger : Manifest :=
  manifestFor .host [⟨"y/f", .host, ⟨"y/f"⟩, "1"⟩, ⟨"z/f", .host, ⟨"z/f"⟩, "2"⟩]

/-- A machine with these files and their manifest in a directory. -/
def branched : Machine where
  tree := ⟨[("work", .directory [("r", .directory [
    (manifestFile, .file (Text.utf8 ledger.render)),
    ("y", .directory [("f", .file (Text.utf8 "1"))]),
    ("z", .directory [("f", .file (Text.utf8 "2"))])])])]⟩
  cwd := ["work"]

theorem on_prepare_branched (root : Path)
    (h : branched.tree.destination branched.cwd root = .ok (placeOf branched.cwd root))
    (hsayable : FileTree.Sayable (Manifest.path root))
    (hplace : placeOf branched.cwd root = ["work", "r"]) :
    (prepare root false .host).on branched.cwd branched.tree = (.ok (some ledger), branched.tree) :=
  on_prepare_of_manifest h hsayable (by rw [hplace]; rfl) rfl false

/-- One of the two files again, a file of the other representation, and two contents for one key. -/
def repeated : List Artifact :=
  [⟨.host, ⟨"y/f"⟩, "1"⟩, ⟨.embedded, ⟨"x"⟩, "3"⟩, ⟨.host, ⟨"a/g"⟩, "2"⟩, ⟨.host, ⟨"a//g"⟩, "1"⟩]

/-- A run that leaves a file as it is, writes another one twice and removes a third one. -/
theorem writeTree_aftermath_repeated :
    earlier branched.tree branched.cwd ⟨"r"⟩ .host = some ledger ∧
      ((writeTree ⟨"r"⟩ false .host repeated).run branched).1 = .ok ⟨2, 1, ["z/f"]⟩ ∧
      Aftermath branched.cwd ⟨"r"⟩ .host (artifactsFor repeated .host) (some ledger)
        ⟨2, 1, ["z/f"]⟩ ((writeTree ⟨"r"⟩ false .host repeated).run branched).2.tree := by
  have hprepare :=
    on_prepare_branched ⟨"r"⟩ (by decide) ⟨by decide, by decide, by decide⟩ (by decide)
  have hearlier : earlier branched.tree branched.cwd ⟨"r"⟩ .host = some ledger :=
    (previous_of_prepare hprepare).symm
  have hanswer : ((writeTree ⟨"r"⟩ false .host repeated).run branched).1 =
      .ok ⟨2, 1, ["z/f"]⟩ := by
    rw [(Program.run_of_quiet _ rfl).1, writeTree_eq, Program.on_bind, hprepare]
    decide +kernel
  have hkeys : ∀ key ∈ keysOf (some ledger), IsKey key := by
    intro key hkey
    obtain ⟨k, hk, rfl⟩ := (mem_keys_manifestFor .host).1 hkey
    rcases List.mem_pair.1 hk with rfl | rfl
    · exact ⟨⟨"y/f"⟩, by decide⟩
    · exact ⟨⟨"z/f"⟩, by decide⟩
  have hdigest : DigestsApart (involved branched.tree branched.cwd ⟨"r"⟩
      (artifactsFor repeated .host)) := by decide +kernel
  generalize hrun : (writeTree ⟨"r"⟩ false .host repeated).run branched = after at hanswer ⊢
  obtain ⟨answer, after⟩ := after
  obtain rfl := hanswer
  refine ⟨hearlier, rfl, ?_⟩
  rw [← hearlier]
  exact writeTree_aftermath branched after ⟨"r"⟩ false .host repeated _ rfl
    (by rwa [hearlier]) (fun _ => by decide) hdigest hrun

/-- A root whose path leads through a directory of its own tree. When that directory is removed with
its last file, the path leads nowhere. So the next file is not found and stays where it is, and yet
it is among those that count as removed. -/
theorem writeTree_leaves_dropped :
    ¬Outward branched.cwd ⟨"r/y/.."⟩ ∧
      earlier branched.tree branched.cwd ⟨"r/y/.."⟩ .host = some ledger ∧
      ((writeTree ⟨"r/y/.."⟩ false .host [⟨.host, ⟨"g"⟩, "3"⟩]).run branched).1 =
        .ok ⟨1, 0, ["y/f", "z/f"]⟩ ∧
      ((writeTree ⟨"r/y/.."⟩ false .host [⟨.host, ⟨"g"⟩, "3"⟩]).run branched).2.tree.look
        (placeOf branched.cwd (Path.join ⟨"r/y/.."⟩ ⟨"z/f"⟩)) = some (.file (Text.utf8 "2")) := by
  have hprepare :=
    on_prepare_branched ⟨"r/y/.."⟩ (by decide) ⟨by decide, by decide, by decide⟩ (by decide)
  refine ⟨by decide, (previous_of_prepare hprepare).symm, ?_⟩
  rw [(Program.run_of_quiet _ rfl).1, (Program.run_of_quiet _ rfl).2, writeTree_eq, Program.on_bind,
    hprepare]
  decide +kernel

end WireSchema.Output
