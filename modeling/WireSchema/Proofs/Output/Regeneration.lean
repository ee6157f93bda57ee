import WireSchema.Proofs.Output.Aftermath

/-!
# Running again

**Theorem (`writeTree_again`).** A run that has succeeded can be made again, by force or without,
and then changes nothing. It counts all artifacts as unchanged and removes nothing.

What a run leaves is complete (`Complete`): the path of the root leads to it, the manifest lists the
artifacts, and where each of them belongs lies a file with its digest. The first run may have
removed directories that its own path leads through, and these are made again for the manifest. All
that the second run looks for is there, so it writes nothing but the manifest, with the same bytes.

The empty root is no exception to this, but to the count. It stands for the working directory when
files are written, and yet nothing lies at the empty path. So a run there never finds the manifest
of the run before it, and writes all files again (`writeTree_again_unnamed`).
-/

namespace WireSchema

open Disk

namespace Disk

variable {cwd : Place} {p q : Path}

theorem route_orDot (cwd : Place) (p : Path) : route cwd (FileTree.orDot p) = route cwd p := by
  unfold FileTree.orDot
  split_ifs with h
  · obtain rfl : p = ⟨""⟩ := by rw [← h]
    rw [route_eq, route_eq]
    rfl
  · rfl

/-- A dot is usable where the empty path stands for the working directory. -/
theorem FileTree.usable_orDot (hsayable : p.text ≠ "" → Sayable p)
    (hshort : ∀ part ∈ route cwd p, Short part) : Usable cwd (orDot p) := by
  refine ⟨?_, by rwa [route_orDot]⟩
  unfold orDot
  split_ifs with h
  · exact ⟨by decide, by decide, by decide⟩
  · exact hsayable h

theorem FileTree.Usable.orDot_parent (h : Usable cwd p) (hparent : p.parent? = some q)
    (htext : q.text.toList <+: p.text.toList) : Usable cwd (orDot q) :=
  usable_orDot (fun hne => (h.parent hparent htext hne).sayable) fun part hpart =>
    h.short part ((route_parent hparent cwd).mem hpart)

end Disk

namespace Output

variable {t t' : FileTree} {cwd names : Place} {root p : Path} {rep : Representation}
  {bytes : List UInt8} {items : List Keyed} {k : Keyed} {artifacts : List Artifact}
  {previous : Option Manifest} {s s' : Progress}

/-! ## Directories that are there -/

theorem Leads.below (h : Leads t cwd root) (hbelow : p.Below root names)
    (hlook : t.look (placeOf cwd root ++ names) = some .directory) : Leads t cwd p := by
  intro front rest hsplit
  rw [route_below hbelow] at hsplit
  rcases List.append_eq_append_iff.1 hsplit with ⟨rel, rfl, hnames⟩ | ⟨more, hroot, -⟩
  · have hrel : rel <+: names := ⟨rest, hnames.symm⟩
    rw [reach_below hbelow cwd hrel]
    exact look_of_isPrefix hlook hrel
  · exact h front more hroot

theorem Leads.orDot (h : Leads t cwd p) : Leads t cwd (FileTree.orDot p) := by
  unfold Leads
  rw [route_orDot]
  exact h

/-- Where a directory is, none is made. -/
theorem Leads.makeDirectories (h : Leads t cwd p)
    (husable : FileTree.Usable cwd (FileTree.orDot p)) :
    (Program.makeDirectories p : Program OutputError _).on cwd t = (.ok (.ok ()), t) := by
  rw [Program.makeDirectories, Path.ancestors_eq]
  by_cases htext : p.text = ""
  · rw [Program.makeChain, if_pos htext]
    rfl
  · rw [FileTree.orDot, if_neg htext] at husable
    have hdestination := h.destination husable
    refine Program.on_makeChain_of_makes htext
      (.inr ⟨?_, FileTree.kind_of_directory hdestination h.directory, rfl⟩)
    rw [FileTree.makeDirectory_eq, hdestination, Outcome.ok_bind, h.directory, if_neg]
    simp

/-- A file that is replaced by its own bytes. -/
theorem Leads.replaceFile (h : Leads t cwd root) (hbelow : p.Below root names) (hne : names ≠ [])
    (hp : Placeable cwd p) (hfile : filesAt t (placeOf cwd root) names = some bytes) :
    ∃ t', (replaceFile p bytes).on cwd t = (.ok (), t') ∧
      ∀ place, t'.look place = t.look place := by
  obtain ⟨front, last, rfl⟩ := (List.eq_nil_or_concat' names).resolve_left hne
  obtain ⟨parent, hparent, hparentBelow, hparentText, -⟩ := hbelow.parent?
  have hlook := filesAt_eq_some.1 hfile
  rw [← hbelow.placeOf_eq] at hlook
  have hfront : t.look (placeOf cwd root ++ front) = some .directory := by
    rw [hbelow.placeOf_eq, ← List.append_assoc] at hlook
    exact FileTree.look_of_look_append hlook (by simp)
  have hleads := h.below hparentBelow hfront
  have husable := hp.usable.orDot_parent hparent hparentText
  have htarget : t.destination cwd p = .ok (placeOf cwd p) := by
    rw [hbelow.placeOf_eq]
    refine h.destination_eq_ok hbelow hp.usable (fun rel hrel hrel' => ?_)
      (.inl (FileTree.tidy_of_endsNamed hp.named))
    exact look_of_isPrefix hfront (by simpa using Grown.isPrefix_dropLast hrel hrel')
  obtain ⟨temporary, t₁, t₂, t', hmake, hfill, hpersist, hsets⟩ :=
    replace_of_placeable bytes hp (hleads.orDot.destination husable) hleads.orDot.directory htarget
      (by simp [hlook])
  refine ⟨t', on_replaceFile_eq_ok.2 ⟨parent, t, temporary, t₁, t₂, hparent,
    hleads.makeDirectories husable, hmake, hfill, hpersist⟩, fun place => ?_⟩
  rw [hsets]
  split_ifs with heq
  · rw [heq, hlook]
  · rfl

/-! ## The files of the first run -/

/-- A file that counts as an artifact: it has its digest, and its bytes if no earlier run can have
written it. -/
structure Counts (previous : Option Manifest) (k : Keyed) (bytes : List UInt8) : Prop where
  digest : Digest.sha256Hex bytes = k.digest
  written : previous = none → bytes = k.bytes

/-- A file that counts as an artifact lies where the artifact belongs. -/
structure Present (t : FileTree) (cwd : Place) (root : Path) (previous : Option Manifest)
    (k : Keyed) : Prop where
  placeable : Placeable cwd (root.join k.artifact.path)
  file : ∃ bytes, filesAt t (placeOf cwd root) k.place = some bytes ∧ Counts previous k bytes

theorem Present.congr (h : Present t cwd root previous k)
    (hfile : filesAt t' (placeOf cwd root) k.place = filesAt t (placeOf cwd root) k.place) :
    Present t' cwd root previous k := by
  refine ⟨h.placeable, ?_⟩
  rw [hfile]
  exact h.file

theorem present_of_writeArtifact (hk : k.Valid)
    (hrun : (writeArtifact root previous s k).on cwd t = (.ok s', t')) :
    Present t' cwd root previous k ∧ ∀ rel, rel ≠ k.place →
      filesAt t' (placeOf cwd root) rel = filesAt t (placeOf cwd root) rel := by
  have hbelow := hk.below root
  rw [writeArtifact_eq] at hrun
  obtain ⟨current, hcurrent, hwrite⟩ := (question_currentDigest root previous k).on_bind_ok hrun
  split_ifs at hwrite with hdigest
  · cases hwrite
    subst hdigest
    unfold currentDigest at hcurrent
    split_ifs at hcurrent with hrecorded
    · obtain ⟨bytes, hread, hsame⟩ := read_of_fileDigest hcurrent
      obtain ⟨hp, hlook⟩ := placeable_of_read hbelow hk.place_ne_nil hread
      rw [hbelow.placeOf_eq] at hlook
      refine ⟨⟨hp, bytes, filesAt_eq_some.2 hlook, hsame, ?_⟩, fun _ _ => rfl⟩
      rintro rfl
      cases hrecorded
    · cases hcurrent
  · obtain ⟨_, _, hreplace, hdone⟩ := Program.on_bind_eq_ok.1 hwrite
    cases hdone
    have hfiles := filesAt_replaceFile hbelow hreplace
    refine ⟨⟨(reached_of_replaceFile hreplace).2, k.bytes, ?_, rfl, fun _ => rfl⟩,
      fun rel hrel => ?_⟩
    · rw [hfiles, Function.update_self]
    · rw [hfiles, Function.update_of_ne hrel]

/-- Artifacts with different keys are all there in the end. -/
theorem present_of_writeArtifacts (hitems : ∀ k ∈ items, k.Valid)
    (hnodup : (items.map Keyed.key).Nodup)
    (hrun : (writeArtifacts root previous s items).on cwd t = (.ok s', t')) :
    (∀ k ∈ items, Present t' cwd root previous k) ∧ ∀ rel, (∀ k ∈ items, rel ≠ k.place) →
      filesAt t' (placeOf cwd root) rel = filesAt t (placeOf cwd root) rel := by
  induction items generalizing s t with
  | nil =>
    cases hrun
    exact ⟨by simp, fun _ _ => rfl⟩
  | cons k items ih =>
    obtain ⟨between, t₁, hfirst, hrun⟩ := Program.on_bind_eq_ok.1 hrun
    have hk := hitems k List.mem_cons_self
    rw [List.map_cons, List.nodup_cons] at hnodup
    obtain ⟨hpresent, hothers⟩ := present_of_writeArtifact hk hfirst
    obtain ⟨hrest, hothers'⟩ :=
      ih (fun k' hk' => hitems k' (List.mem_cons_of_mem _ hk')) hnodup.2 hrun
    refine ⟨List.forall_mem_cons.2 ⟨hpresent.congr (hothers' _ fun k' hk' heq => ?_), hrest⟩,
      fun rel hrel => ?_⟩
    · have hkey := hk.isKey.placeOfKey_inj (hitems k' (List.mem_cons_of_mem _ hk')).isKey heq
      exact hnodup.1 (hkey ▸ List.mem_map_of_mem hk')
    · rw [hothers' rel fun k' hk' => hrel k' (List.mem_cons_of_mem _ hk'),
        hothers rel (hrel k List.mem_cons_self)]

/-! ## Files that are not removed -/

/-- Removing directories changes no file, wherever they are. -/
theorem filesAt_removeEmpty {directories : List Path}
    (hrun : (removeEmpty root directories).on cwd t = (.ok (), t')) (place : Place) :
    filesAt t' place = filesAt t place := by
  induction directories generalizing t with
  | nil =>
    cases hrun
    rfl
  | cons directory directories ih =>
    rw [removeEmpty] at hrun
    -- At the root itself the walk up ends.
    split_ifs at hrun
    · cases hrun
      rfl
    · rw [Program.on_request_bind, FileTree.reply] at hrun
      cases hremove : t.removeDirectory cwd directory with
      | error cause =>
        rw [hremove] at hrun
        cases hrun
        rfl
      | ok between =>
        rw [hremove] at hrun
        obtain ⟨hlook, -, hsets⟩ := FileTree.sets_removeDirectory hremove
        have hfiles : filesAt t' place = filesAt between place := ih hrun
        rw [hfiles]
        -- What was removed was a directory, so no file was lost with it.
        funext rel
        unfold filesAt
        rw [hsets]
        split_ifs with heq
        · rw [heq, hlook]
          rfl
        · rfl

theorem filesAt_removeStale {key : String} (hkey : IsKey key)
    (hrun : (removeStale root key).on cwd t = (.ok (), t')) {rel : Place}
    (hrel : rel ≠ placeOfKey key) :
    filesAt t' (placeOf cwd root) rel = filesAt t (placeOf cwd root) rel := by
  have hbelow : (root.join ⟨key⟩).Below root (placeOfKey key) := Path.below_join hkey.names?
  obtain ⟨between, hremove, hempty⟩ := of_removeStale hrun
  rw [filesAt_removeEmpty hempty]
  rcases hremove with hremove | ⟨-, rfl⟩
  · have hsets := (FileTree.sets_removeFile hremove).2
    rw [hbelow.placeOf_eq] at hsets
    rw [filesAt_of_sets hsets, Function.update_of_ne hrel]
  · rfl

theorem filesAt_removeAllStale {keys : List String} (hkeys : ∀ key ∈ keys, IsKey key)
    (hrun : (removeAllStale root keys).on cwd t = (.ok (), t')) {rel : Place}
    (hrel : ∀ key ∈ keys, rel ≠ placeOfKey key) :
    filesAt t' (placeOf cwd root) rel = filesAt t (placeOf cwd root) rel := by
  induction keys generalizing t with
  | nil =>
    cases hrun
    rfl
  | cons key keys ih =>
    obtain ⟨_, t₁, hfirst, hrun⟩ := Program.on_bind_eq_ok.1 hrun
    rw [ih (fun key' hkey' => hkeys key' (List.mem_cons_of_mem _ hkey')) hrun
        fun key' hkey' => hrel key' (List.mem_cons_of_mem _ hkey'),
      filesAt_removeStale (hkeys key List.mem_cons_self) hfirst (hrel key List.mem_cons_self)]

/-! ## Complete trees -/

/-- What a run leaves: everything that the same run needs to find. -/
structure Complete (t : FileTree) (cwd : Place) (root : Path) (rep : Representation)
    (previous : Option Manifest) (items : List Keyed) : Prop where
  leads : Leads t cwd root
  usable : FileTree.Usable cwd (FileTree.orDot root)
  manifestPath : Placeable cwd (Manifest.path root)
  manifest : filesAt t (placeOf cwd root) [manifestFile] =
    some (Text.utf8 (manifestFor rep items).render)
  present : ∀ k ∈ items, Present t cwd root previous k

/-- **What a run leaves is complete.** -/
theorem complete_of_writeAfter {summary : Summary} (hkeys : ∀ key ∈ keysOf previous, IsKey key)
    (hkeyed : keyed (artifactsFor artifacts rep) = .ok items)
    (hnodup : (items.map Keyed.key).Nodup)
    (h : (writeAfter root rep artifacts previous).on cwd t = (.ok summary, t')) :
    Complete t' cwd root rep previous items := by
  obtain ⟨items', t₁, s, t₂, t₃, hkeyed', hmade, hwrite, hremove, hreplace, -⟩ :=
    on_writeAfter_eq_ok.1 h
  obtain rfl : items' = items := Except.ok.inj (hkeyed'.symm.trans hkeyed)
  have hvalid : ∀ k ∈ items', k.Valid := key?_of_keyed hkeyed
  have hmanifest : s.manifest = manifestFor rep items' := (progress_of_writeArtifacts hwrite).1
  rw [hmanifest] at hremove hreplace
  have hfiles := filesAt_replaceFile (below_manifestPath root) hreplace
  have hmanifestPath := (reached_of_replaceFile hreplace).2
  refine ⟨leads_of_replaceFile (below_manifestPath root) (by simp) hreplace, ?_, hmanifestPath,
    by rw [hfiles, Function.update_self], fun k hk => ?_⟩
  · refine FileTree.usable_orDot (fun htext => ?_) fun part hpart => ?_
    · exact (FileTree.usable_of_destination (of_makeDirectories htext hmade).1).sayable
    · refine hmanifestPath.usable.short part ?_
      rw [route_below (below_manifestPath root)]
      exact List.mem_append_left _ hpart
  · -- The file of an artifact is not removed, and it is not the manifest.
    have hk' := hvalid k hk
    refine ((present_of_writeArtifacts hvalid hnodup hwrite).1 k hk).congr ?_
    rw [hfiles, Function.update_of_ne hk'.place_ne_manifestFile]
    have hstale : ∀ key ∈ staleKeys previous (manifestFor rep items'), IsKey key := fun key hkey =>
      hkeys key ((mem_staleKeys rep).1 hkey).1
    refine filesAt_removeAllStale hstale hremove fun key hkey heq => ?_
    exact ((mem_staleKeys rep).1 hkey).2 ⟨k, hk, hk'.isKey.placeOfKey_inj (hstale key hkey) heq⟩

/-! ## The second run -/

/-- The empty path leads nowhere. -/
theorem destination_of_unnamed (htext : p.text = "") : t.destination cwd p = .error .notFound := by
  obtain rfl : p = ⟨""⟩ := by rw [← htext]
  rfl

theorem filesAt_of_look (hlook : ∀ place, t'.look place = t.look place) (place : Place) :
    filesAt t' place = filesAt t place := by
  funext rel
  rw [filesAt, hlook]
  rfl

theorem Leads.of_look (h : Leads t cwd root) (hlook : ∀ place, t'.look place = t.look place) :
    Leads t' cwd root :=
  h.of_kept fun other hdirectory => (hlook other).trans hdirectory

/-- Each artifact is recorded, if no other one has its key. -/
theorem get?_record_of_mem (hnodup : (items.map Keyed.key).Nodup) (hk : k ∈ items)
    (manifest : Manifest) : (record manifest items).files.get? k.key = some k.digest := by
  induction items using List.reverseRecOn with
  | nil => simp at hk
  | append_singleton items last ih =>
    have hrecord : record manifest (items ++ [last]) =
        (record manifest items).insert last.key last.digest := List.foldl_concat ..
    rw [List.map_append, List.map_singleton, List.nodup_append] at hnodup
    rw [hrecord, Manifest.insert, StringMap.get?_insert]
    rcases List.mem_append.1 hk with hk | hk
    · have hne : k.key ≠ last.key :=
        hnodup.2.2 k.key (List.mem_map_of_mem hk) last.key List.mem_cons_self
      rw [if_neg hne, ih hnodup.1 hk]
    · rw [List.mem_singleton.1 hk, if_pos rfl]

theorem writeArtifact_unchanged {manifest : Manifest} (h : Leads t cwd root) (hk : k.Valid)
    (hpresent : Present t cwd root previous k)
    (hrecorded : manifest.files.get? k.key = some k.digest) (s : Progress) :
    (writeArtifact root (some manifest) s k).on cwd t =
      (.ok ⟨s.manifest.insert k.key k.digest, s.written, s.unchanged + 1⟩, t) := by
  obtain ⟨bytes, hfile, hcounts⟩ := hpresent.file
  have hread := h.read (hk.below root) hpresent.placeable hfile
  have hcurrent : (currentDigest root (some manifest) k).on cwd t = (.ok (some k.digest), t) := by
    rw [currentDigest, Option.bind_some, if_pos hrecorded, fileDigest, Program.on_request_bind,
      FileTree.reply, hread, ← hcounts.digest]
    rfl
  rw [writeArtifact_eq, Program.on_bind, hcurrent]
  dsimp only
  rw [if_pos rfl]
  rfl

/-- Artifacts that are present and recorded are left as they are. -/
theorem writeArtifacts_unchanged {manifest : Manifest} (h : Leads t cwd root)
    (hitems : ∀ k ∈ items, k.Valid) (hpresent : ∀ k ∈ items, Present t cwd root previous k)
    (hrecorded : ∀ k ∈ items, manifest.files.get? k.key = some k.digest) (s : Progress) :
    (writeArtifacts root (some manifest) s items).on cwd t =
      (.ok ⟨record s.manifest items, s.written, s.unchanged + items.length⟩, t) := by
  induction items generalizing s with
  | nil => rfl
  | cons k items ih =>
    rw [List.forall_mem_cons] at hitems hpresent hrecorded
    rw [writeArtifacts, Program.on_bind,
      writeArtifact_unchanged h hitems.1 hpresent.1 hrecorded.1]
    dsimp only
    rw [ih hitems.2 hpresent.2 hrecorded.2, List.length_cons, Nat.add_assoc,
      Nat.add_comm 1 items.length]
    rfl

/-- Artifacts whose files have their bytes are written without any change. -/
theorem writeArtifacts_rewritten (h : Leads t cwd root) (hitems : ∀ k ∈ items, k.Valid)
    (hpresent : ∀ k ∈ items, Present t cwd root none k) (s : Progress) :
    ∃ t', (writeArtifacts root none s items).on cwd t =
        (.ok ⟨record s.manifest items, s.written + items.length, s.unchanged⟩, t') ∧
      ∀ place, t'.look place = t.look place := by
  induction items generalizing s t with
  | nil => exact ⟨t, rfl, fun _ => rfl⟩
  | cons k items ih =>
    rw [List.forall_mem_cons] at hitems hpresent
    obtain ⟨bytes, hfile, hcounts⟩ := hpresent.1.file
    obtain rfl := hcounts.written rfl
    obtain ⟨t₁, hreplace, hlook₁⟩ := h.replaceFile (hitems.1.below root) hitems.1.place_ne_nil
      hpresent.1.placeable hfile
    obtain ⟨t', hrest, hlook⟩ := ih (h.of_look hlook₁) hitems.2
      (fun k' hk' => (hpresent.2 k' hk').congr (by rw [filesAt_of_look hlook₁]))
      ⟨s.manifest.insert k.key k.digest, s.written + 1, s.unchanged⟩
    have hfirst : (writeArtifact root none s k).on cwd t =
        (.ok ⟨s.manifest.insert k.key k.digest, s.written + 1, s.unchanged⟩, t₁) := by
      rw [writeArtifact_eq]
      exact Program.on_bind_eq_ok.2
        ⟨none, t, rfl, Program.on_bind_eq_ok.2 ⟨(), t₁, hreplace, rfl⟩⟩
    refine ⟨t', ?_, fun place => (hlook place).trans (hlook₁ place)⟩
    rw [writeArtifacts, Program.on_bind, hfirst]
    dsimp only
    rw [hrest, List.length_cons, Nat.add_assoc, Nat.add_comm 1 items.length]
    rfl

theorem staleKeys_self (manifest : Manifest) : staleKeys (some manifest) manifest = [] := by
  refine List.filter_eq_nil_iff.2 fun key hkey => ?_
  rw [StringMap.contains_iff.2 hkey]
  decide

section Again

variable (h : Complete t cwd root rep previous items)
  (hkeyed : keyed (artifactsFor artifacts rep) = .ok items)

include h hkeyed

/-- Once the artifacts are dealt with, only the manifest is replaced, by itself. -/
theorem Complete.writeAfter {found : Option Manifest} {t₁ : FileTree}
    (hwrite : (writeArtifacts root found ⟨.empty rep, 0, 0⟩ items).on cwd t = (.ok s, t₁))
    (hlook : ∀ place, t₁.look place = t.look place)
    (hstale : staleKeys found (manifestFor rep items) = []) :
    ∃ t', (writeAfter root rep artifacts found).on cwd t =
        (.ok ⟨s.written, s.unchanged, []⟩, t') ∧ ∀ place, t'.look place = t.look place := by
  have hmanifest : s.manifest = manifestFor rep items := (progress_of_writeArtifacts hwrite).1
  have hfile : filesAt t₁ (placeOf cwd root) [manifestFile] =
      some (Text.utf8 s.manifest.render) := by
    rw [filesAt_of_look hlook, h.manifest, hmanifest]
  obtain ⟨t', hreplace, hlook'⟩ := (h.leads.of_look hlook).replaceFile (below_manifestPath root)
    (by simp) h.manifestPath hfile
  rw [← hmanifest] at hstale
  refine ⟨t', on_writeAfter_eq_ok.2 ⟨items, t, s, t₁, t₁, hkeyed, h.leads.makeDirectories h.usable,
    hwrite, ?_, hreplace, ?_⟩, fun place => (hlook' place).trans (hlook place)⟩
  · rw [hstale]
    rfl
  · rw [hstale]

/-- A run that finds the manifest leaves all files as they are. -/
theorem Complete.again_of_found (hnodup : (items.map Keyed.key).Nodup) (htext : root.text ≠ "")
    (force : Bool) :
    ∃ t', (writeTree root force rep artifacts).on cwd t = (.ok ⟨0, items.length, []⟩, t') ∧
      ∀ place, t'.look place = t.look place := by
  have husable := h.usable
  rw [FileTree.orDot, if_neg htext] at husable
  have hprepare : (prepare root force rep).on cwd t = (.ok (some (manifestFor rep items)), t) :=
    on_prepare_of_manifest (h.leads.destination husable) h.manifestPath.usable.sayable
      (filesAt_eq_some.1 h.manifest) (representation_record _ _) force
  have hwrite := writeArtifacts_unchanged h.leads (key?_of_keyed hkeyed) h.present
    (fun k hk => get?_record_of_mem hnodup hk (.empty rep)) ⟨.empty rep, 0, 0⟩
  obtain ⟨t', hagain, hlook⟩ := h.writeAfter hkeyed hwrite (fun _ => rfl) (staleKeys_self _)
  rw [Nat.zero_add] at hagain
  refine ⟨t', ?_, hlook⟩
  rw [writeTree_eq, Program.on_bind, hprepare]
  exact hagain

/-- A run at the empty path finds nothing and writes all files again. -/
theorem Complete.again_of_unnamed (hprevious : previous = none) (htext : root.text = "")
    (force : Bool) :
    ∃ t', (writeTree root force rep artifacts).on cwd t = (.ok ⟨items.length, 0, []⟩, t') ∧
      ∀ place, t'.look place = t.look place := by
  subst hprevious
  obtain ⟨t₁, hwrite, hlook₁⟩ :=
    writeArtifacts_rewritten h.leads (key?_of_keyed hkeyed) h.present ⟨.empty rep, 0, 0⟩
  obtain ⟨t', hagain, hlook⟩ := h.writeAfter hkeyed hwrite hlook₁ rfl
  rw [Nat.zero_add] at hagain
  refine ⟨t', ?_, hlook⟩
  have habsent : t.kind cwd root = .error .notFound := by
    rw [FileTree.kind_eq, destination_of_unnamed htext]
    rfl
  rw [writeTree_eq, Program.on_bind, prepare_on_of_absent habsent]
  exact hagain

end Again

theorem nodup_keys_of_keyed (hkeyed : keyed artifacts = .ok items)
    (hnodup : (artifacts.map fun a => Manifest.key? a.path).Nodup) :
    (items.map Keyed.key).Nodup := by
  have hkeys : artifacts.map (fun a => Manifest.key? a.path) = (items.map Keyed.key).map some := by
    rw [← artifact_of_keyed hkeyed, List.map_map, List.map_map]
    exact List.map_congr_left (key?_of_keyed hkeyed)
  rw [hkeys] at hnodup
  exact List.Pairwise.of_map some (fun _ _ hne heq => hne (congrArg some heq)) hnodup

/-- **Running again.** On a disk without faults and symbolic links, a run that has succeeded succeeds
again, by force or without, and leaves all files and directories as they are. It counts each artifact
as unchanged and removes nothing, except that a run at the empty path counts each artifact as
written. The keys of the artifacts differ, and those of the manifest before the first run are keys of
artifacts. -/
theorem writeTree_again (m m' : Machine) (root : Path) (force again : Bool) (rep : Representation)
    (artifacts : List Artifact) (summary : Summary) (hquiet : m.faults = [])
    (hkeys : ∀ key ∈ keysOf (earlier m.tree m.cwd root rep), IsKey key)
    (hnodup : ((artifactsFor artifacts rep).map fun a => Manifest.key? a.path).Nodup)
    (h : (writeTree root force rep artifacts).run m = (.ok summary, m')) :
    ∃ m'', (writeTree root again rep artifacts).run m' =
        (.ok (if root.text = "" then ⟨(artifactsFor artifacts rep).length, 0, []⟩
          else ⟨0, (artifactsFor artifacts rep).length, []⟩), m'') ∧
      ∀ place, m''.tree.look place = m'.tree.look place := by
  have hquiet' : m'.faults = [] := by
    simpa [h] using Program.faults_run (writeTree root force rep artifacts) hquiet
  have hcwd : m'.cwd = m.cwd := by
    simpa [h] using Program.cwd_run (writeTree root force rep artifacts) m
  obtain ⟨hanswer, htree⟩ := Program.run_of_quiet (writeTree root force rep artifacts) hquiet
  rw [h] at hanswer htree
  have hafter := writeAfter_of_writeTree (Prod.ext hanswer.symm htree.symm)
  obtain ⟨items, -, -, -, -, hkeyed, -⟩ := on_writeAfter_eq_ok.1 hafter
  have hnodup := nodup_keys_of_keyed hkeyed hnodup
  have hcomplete := complete_of_writeAfter hkeys hkeyed hnodup hafter
  have hlength : (artifactsFor artifacts rep).length = items.length := by
    rw [← artifact_of_keyed hkeyed, List.length_map]
  -- The second run, in the tree that the first one leaves.
  have hagain : ∃ t', (writeTree root again rep artifacts).on m.cwd m'.tree =
      (.ok (if root.text = "" then ⟨items.length, 0, []⟩ else ⟨0, items.length, []⟩), t') ∧
        ∀ place, t'.look place = m'.tree.look place := by
    split_ifs with htext
    · refine hcomplete.again_of_unnamed hkeyed ?_ htext again
      rw [earlier, destination_of_unnamed htext]
    · exact hcomplete.again_of_found hkeyed hnodup htext again
  obtain ⟨t', hon, hlook⟩ := hagain
  obtain ⟨hanswer', htree'⟩ := Program.run_of_quiet (writeTree root again rep artifacts) hquiet'
  rw [hcwd, hon] at hanswer' htree'
  refine ⟨((writeTree root again rep artifacts).run m').2, Prod.ext ?_ rfl, fun place => ?_⟩
  · rw [hanswer', hlength]
  · rw [htree', hlook]

/-- A run that removes the directory which the path of its root leads through, and makes it again.
The file that it loses sight of stays where it is, also in the run after it. -/
theorem writeTree_again_branched :
    earlier branched.tree branched.cwd ⟨"r/y/.."⟩ .host = some ledger ∧
      ∃ m' m'', (writeTree ⟨"r/y/.."⟩ false .host [⟨.host, ⟨"g"⟩, "3"⟩]).run branched =
          (.ok ⟨1, 0, ["y/f", "z/f"]⟩, m') ∧
        (writeTree ⟨"r/y/.."⟩ false .host [⟨.host, ⟨"g"⟩, "3"⟩]).run m' =
          (.ok ⟨0, 1, []⟩, m'') ∧
        ∀ place, m''.tree.look place = m'.tree.look place := by
  have hprepare :=
    on_prepare_branched ⟨"r/y/.."⟩ (by decide) ⟨by decide, by decide, by decide⟩ (by decide)
  have hearlier : earlier branched.tree branched.cwd ⟨"r/y/.."⟩ .host = some ledger :=
    (previous_of_prepare hprepare).symm
  have hanswer : ((writeTree ⟨"r/y/.."⟩ false .host [⟨.host, ⟨"g"⟩, "3"⟩]).run branched).1 =
      .ok ⟨1, 0, ["y/f", "z/f"]⟩ := by
    rw [(Program.run_of_quiet _ rfl).1, writeTree_eq, Program.on_bind, hprepare]
    decide +kernel
  have hkeys : ∀ key ∈ keysOf (earlier branched.tree branched.cwd ⟨"r/y/.."⟩ .host),
      IsKey key := by
    intro key hkey
    rw [hearlier] at hkey
    obtain ⟨k, hk, rfl⟩ := (mem_keys_manifestFor .host).1 hkey
    rcases List.mem_pair.1 hk with rfl | rfl
    · exact ⟨⟨"y/f"⟩, by decide⟩
    · exact ⟨⟨"z/f"⟩, by decide⟩
  generalize hrun : (writeTree ⟨"r/y/.."⟩ false .host [⟨.host, ⟨"g"⟩, "3"⟩]).run branched = after
    at hanswer ⊢
  obtain ⟨answer, m'⟩ := after
  obtain rfl := hanswer
  obtain ⟨m'', hagain, hlook⟩ := writeTree_again branched m' ⟨"r/y/.."⟩ false false .host
    [⟨.host, ⟨"g"⟩, "3"⟩] _ rfl hkeys (by decide) hrun
  exact ⟨hearlier, m', m'', rfl, hagain, hlook⟩

/-- Two runs in the working directory, given by the empty path. The second one finds the file with
its digest in the manifest, and counts it as written all the same. -/
theorem writeTree_again_unnamed :
    earlier bare.tree bare.cwd ⟨""⟩ .host = none ∧
      ((writeTree ⟨""⟩ false .host [⟨.host, ⟨"f"⟩, "1"⟩]).run bare).1 = .ok ⟨1, 0, []⟩ ∧
      ((writeTree ⟨""⟩ false .host [⟨.host, ⟨"f"⟩, "1"⟩]).run
        ((writeTree ⟨""⟩ false .host [⟨.host, ⟨"f"⟩, "1"⟩]).run bare).2).1 = .ok ⟨1, 0, []⟩ := by
  refine ⟨rfl, ?_, ?_⟩ <;> decide +kernel

end Output

end WireSchema
