import WireSchema.Proofs.Output.Steps
import WireSchema.Proofs.StringMap

/-!
# What a run makes of the files

A run puts the files of its artifacts one by one, the last one with a key counting, and removes
those that the manifest before it lists and its own does not. If the manifest before it lists all
files that there are (`Recorded`), the files after the run depend on its artifacts alone
(`contents_eq`).

The statements for the loops of a run follow from those for its steps. A file that is left as it is
because of its digest has the contents of the artifact, unless two contents have the same digest.
-/

namespace WireSchema.Output

open Disk

/-! ## Keys as places -/

/-- The place of a key below the root. -/
def placeOfKey (key : String) : Place := (Path.names? ⟨key⟩).getD []

/-- A text that is the key of some path. -/
def IsKey (key : String) : Prop := ∃ p, Manifest.key? p = some key

namespace IsKey

variable {key key' : String}

theorem names? (h : IsKey key) : (⟨key⟩ : Path).names? = some (placeOfKey key) := by
  obtain ⟨p, hp⟩ := h
  obtain ⟨names, -, hkey, -⟩ := Manifest.key?_eq_some hp
  rw [placeOfKey, hkey, Option.getD_some]

theorem joinNames (h : IsKey key) : Manifest.joinNames (placeOfKey key) = key := by
  obtain ⟨p, hp⟩ := h
  obtain ⟨names, -, hkey, -, -, hjoin⟩ := Manifest.key?_eq_some hp
  rw [placeOfKey, hkey, Option.getD_some, hjoin]

theorem ne_nil (h : IsKey key) : placeOfKey key ≠ [] := by
  obtain ⟨p, hp⟩ := h
  obtain ⟨names, -, hkey, hne, -⟩ := Manifest.key?_eq_some hp
  rwa [placeOfKey, hkey, Option.getD_some]

theorem ne_manifestFile (h : IsKey key) : placeOfKey key ≠ [manifestFile] := by
  obtain ⟨p, hp⟩ := h
  obtain ⟨names, -, hkey, -, hlast, -⟩ := Manifest.key?_eq_some hp
  rw [placeOfKey, hkey, Option.getD_some]
  rintro rfl
  exact hlast rfl

/-- Different keys have different places. -/
theorem placeOfKey_inj (h : IsKey key) (h' : IsKey key') (heq : placeOfKey key = placeOfKey key') :
    key = key' := by
  rw [← h.joinNames, heq, h'.joinNames]

end IsKey

namespace Keyed

/-- The place of an artifact below the root. -/
def place (k : Keyed) : Place := placeOfKey k.key

/-- An artifact with the key of its path. -/
def Valid (k : Keyed) : Prop := Manifest.key? k.artifact.path = some k.key

variable {k : Keyed}

theorem Valid.isKey (h : k.Valid) : IsKey k.key := ⟨k.artifact.path, h⟩

theorem Valid.place_ne_nil (h : k.Valid) : k.place ≠ [] := h.isKey.ne_nil

theorem Valid.place_ne_manifestFile (h : k.Valid) : k.place ≠ [manifestFile] :=
  h.isKey.ne_manifestFile

theorem Valid.below (h : k.Valid) (root : Path) :
    (root.join k.artifact.path).Below root k.place := by
  obtain ⟨names, hpath, hkey, -⟩ := Manifest.key?_eq_some h
  rw [place, placeOfKey, hkey, Option.getD_some]
  exact Path.below_join hpath

end Keyed

/-! ## Files of artifacts -/

/-- The files with that of an artifact. -/
def put (files : Files) (k : Keyed) : Files := Function.update files k.place (some k.bytes)

/-- The files with those of artifacts. -/
def putAll (files : Files) (items : List Keyed) : Files := items.foldl put files

/-- The manifest with artifacts. -/
def record (manifest : Manifest) (items : List Keyed) : Manifest :=
  items.foldl (fun m k => m.insert k.key k.digest) manifest

/-- The files without those of some keys. -/
def removeAll (files : Files) (keys : List String) : Files :=
  keys.foldl (fun files key => Function.update files (placeOfKey key) none) files

section Files

variable {files : Files} {items : List Keyed} {keys : List String} {rel : Place}

theorem putAll_of_not_mem (h : ∀ k ∈ items, k.place ≠ rel) :
    putAll files items rel = files rel := by
  induction items generalizing files with
  | nil => rfl
  | cons k items ih =>
    rw [putAll, List.foldl_cons, ← putAll, ih fun k' hk' => h k' (List.mem_cons_of_mem _ hk'), put,
      Function.update_of_ne (h k List.mem_cons_self).symm]

/-- The last artifact at a place counts, whatever was there before. -/
theorem putAll_of_mem (h : ∃ k ∈ items, k.place = rel) :
    ∃ k ∈ items, k.place = rel ∧ ∀ files, putAll files items rel = some k.bytes := by
  induction items with
  | nil => simp at h
  | cons k items ih =>
    by_cases hrest : ∃ k ∈ items, k.place = rel
    · obtain ⟨k', hk', hplace, hput⟩ := ih hrest
      exact ⟨k', List.mem_cons_of_mem _ hk', hplace, fun files => hput (put files k)⟩
    · have hplace : k.place = rel := by
        obtain ⟨k', hk', hplace⟩ := h
        rcases List.mem_cons.1 hk' with rfl | hk'
        · exact hplace
        · exact absurd ⟨k', hk', hplace⟩ hrest
      refine ⟨k, List.mem_cons_self, hplace, fun files => ?_⟩
      rw [putAll, List.foldl_cons, ← putAll,
        putAll_of_not_mem fun k' hk' heq => hrest ⟨k', hk', heq⟩, put, ← hplace,
        Function.update_self]

theorem putAll_ne_none (h : files rel ≠ none) : putAll files items rel ≠ none := by
  by_cases hmem : ∃ k ∈ items, k.place = rel
  · obtain ⟨k, -, -, hput⟩ := putAll_of_mem hmem
    simp [hput]
  · rwa [putAll_of_not_mem fun k hk heq => hmem ⟨k, hk, heq⟩]

theorem removeAll_of_not_mem (h : ∀ key ∈ keys, placeOfKey key ≠ rel) :
    removeAll files keys rel = files rel := by
  induction keys generalizing files with
  | nil => rfl
  | cons key keys ih =>
    rw [removeAll, List.foldl_cons, ← removeAll,
      ih fun key' hkey' => h key' (List.mem_cons_of_mem _ hkey'),
      Function.update_of_ne (h key List.mem_cons_self).symm]

theorem removeAll_of_mem (h : ∃ key ∈ keys, placeOfKey key = rel) :
    removeAll files keys rel = none := by
  induction keys generalizing files with
  | nil => simp at h
  | cons key keys ih =>
    rw [removeAll, List.foldl_cons, ← removeAll]
    by_cases hrest : ∃ key ∈ keys, placeOfKey key = rel
    · exact ih hrest
    · rw [removeAll_of_not_mem fun key' hkey' heq => hrest ⟨key', hkey', heq⟩]
      obtain ⟨key', hkey', hplace⟩ := h
      rcases List.mem_cons.1 hkey' with rfl | hkey'
      · rw [hplace, Function.update_self]
      · exact absurd ⟨key', hkey', hplace⟩ hrest

theorem mem_keys_record {manifest : Manifest} {key : String} :
    key ∈ (record manifest items).files.keys ↔
      key ∈ manifest.files.keys ∨ ∃ k ∈ items, k.key = key := by
  induction items generalizing manifest with
  | nil => simp [record]
  | cons k items ih =>
    rw [record, List.foldl_cons, ← record, ih, Manifest.insert, StringMap.mem_keys_insert]
    simp only [List.mem_cons, exists_eq_or_imp]
    grind

theorem representation_record (manifest : Manifest) (items : List Keyed) :
    (record manifest items).representation = manifest.representation := by
  induction items generalizing manifest with
  | nil => rfl
  | cons k items ih => exact ih _

end Files

/-! ## The tree of a run -/

/-- The manifest of artifacts. -/
def manifestFor (rep : Representation) (items : List Keyed) : Manifest := record (.empty rep) items

/-- The files of artifacts, with their manifest. -/
def contents (rep : Representation) (items : List Keyed) : Files :=
  Function.update (putAll (fun _ => none) items) [manifestFile]
    (some (Text.utf8 (manifestFor rep items).render))

/-- The keys of an earlier run. -/
def keysOf : Option Manifest → List String
  | none => []
  | some manifest => manifest.files.keys

/-- The earlier manifest lists the files that there are. -/
structure Recorded (previous : Option Manifest) (files : Files) : Prop where
  isKey : ∀ key ∈ keysOf previous, IsKey key
  file : ∀ key ∈ keysOf previous, files (placeOfKey key) ≠ none
  key : ∀ rel, rel ≠ [manifestFile] → files rel ≠ none →
    ∃ key ∈ keysOf previous, placeOfKey key = rel

theorem recorded_none : Recorded none fun _ => none :=
  ⟨nofun, nofun, fun _ _ h => absurd rfl h⟩

section Runs

variable (rep : Representation) {items : List Keyed}

theorem mem_keys_manifestFor {key : String} :
    key ∈ (manifestFor rep items).files.keys ↔ ∃ k ∈ items, k.key = key := by
  rw [manifestFor, mem_keys_record]
  simp [Manifest.empty, StringMap.keys, StringMap.empty]

theorem contents_of_mem (hitems : ∀ k ∈ items, k.Valid) {rel : Place}
    (h : ∃ k ∈ items, k.place = rel) :
    ∃ k ∈ items, k.place = rel ∧ contents rep items rel = some k.bytes := by
  obtain ⟨k, hk, hplace, hput⟩ := putAll_of_mem h
  have hrel : rel ≠ [manifestFile] := hplace ▸ (hitems k hk).place_ne_manifestFile
  exact ⟨k, hk, hplace, by rw [contents, Function.update_of_ne hrel, hput]⟩

theorem contents_of_not_mem {rel : Place} (hrel : rel ≠ [manifestFile])
    (h : ¬∃ k ∈ items, k.place = rel) : contents rep items rel = none := by
  rw [contents, Function.update_of_ne hrel, putAll_of_not_mem fun k hk heq => h ⟨k, hk, heq⟩]

theorem contents_manifestFile :
    contents rep items [manifestFile] = some (Text.utf8 (manifestFor rep items).render) :=
  Function.update_self ..

theorem contents_ne_none {rel : Place} (h : putAll (fun _ => none) items rel ≠ none) :
    contents rep items rel ≠ none := by
  by_cases hrel : rel = [manifestFile]
  · simp [hrel, contents_manifestFile]
  · rwa [contents, Function.update_of_ne hrel]

/-- The manifest of a run lists its files. -/
theorem recorded_contents (hitems : ∀ k ∈ items, k.Valid) :
    Recorded (some (manifestFor rep items)) (contents rep items) where
  isKey key hkey := by
    obtain ⟨k, hk, rfl⟩ := (mem_keys_manifestFor rep).1 hkey
    exact (hitems k hk).isKey
  file key hkey := by
    obtain ⟨k, hk, rfl⟩ := (mem_keys_manifestFor rep).1 hkey
    obtain ⟨k', -, -, hcontents⟩ := contents_of_mem rep hitems ⟨k, hk, rfl⟩
    exact hcontents ▸ Option.some_ne_none _
  key rel hrel hfile := by
    by_contra hnone
    refine hfile (contents_of_not_mem rep hrel ?_)
    rintro ⟨k, hk, hplace⟩
    exact hnone ⟨k.key, (mem_keys_manifestFor rep).2 ⟨k, hk, rfl⟩, hplace⟩

theorem mem_staleKeys {previous : Option Manifest} {key : String} :
    key ∈ staleKeys previous (manifestFor rep items) ↔
      key ∈ keysOf previous ∧ ¬∃ k ∈ items, k.key = key := by
  cases previous with
  | none => simp [staleKeys, keysOf]
  | some old =>
    rw [staleKeys, List.mem_filter, Bool.not_eq_true', ← Bool.not_eq_true, StringMap.contains_iff,
      mem_keys_manifestFor, keysOf]

/-- **The files after a run are those of its artifacts.** What it does not put, it removes. -/
theorem contents_eq {previous : Option Manifest} {files : Files} (h : Recorded previous files)
    (hitems : ∀ k ∈ items, k.Valid) :
    Function.update (removeAll (putAll files items) (staleKeys previous (manifestFor rep items)))
        [manifestFile] (some (Text.utf8 (manifestFor rep items).render)) =
      contents rep items := by
  funext rel
  by_cases hrel : rel = [manifestFile]
  · rw [hrel, contents_manifestFile, Function.update_self]
  rw [Function.update_of_ne hrel]
  by_cases hmem : ∃ k ∈ items, k.place = rel
  · -- No key of the artifacts is stale.
    obtain ⟨k, hk, hplace, hput⟩ := putAll_of_mem hmem
    rw [removeAll_of_not_mem, contents, Function.update_of_ne hrel, hput, hput]
    intro key hkey heq
    obtain ⟨hold, hnew⟩ := (mem_staleKeys rep).1 hkey
    exact hnew ⟨k, hk, (hitems k hk).isKey.placeOfKey_inj (h.isKey key hold)
      (hplace.trans heq.symm)⟩
  · rw [contents_of_not_mem rep hrel hmem]
    by_cases hstale : ∃ key ∈ staleKeys previous (manifestFor rep items), placeOfKey key = rel
    · exact removeAll_of_mem hstale
    · rw [removeAll_of_not_mem fun key hkey heq => hstale ⟨key, hkey, heq⟩,
        putAll_of_not_mem fun k hk heq => hmem ⟨k, hk, heq⟩]
      -- A file that is listed and not put is stale.
      by_contra hfile
      obtain ⟨key, hkey, rfl⟩ := h.key rel hrel hfile
      refine hstale ⟨key, (mem_staleKeys rep).2 ⟨hkey, ?_⟩, rfl⟩
      rintro ⟨k, hk, rfl⟩
      exact hmem ⟨k, hk, rfl⟩

end Runs

/-! ## The loops of a run -/

variable {base t t' : FileTree} {cwd : Place} {root p : Path} {files : Files} {names : Place}
  {items : List Keyed} {k : Keyed} {previous : Option Manifest} {s s' : Progress}

/-- A file that can be read lies at a path for files. -/
theorem placeable_of_read {bytes : List UInt8} (hbelow : p.Below root names) (hne : names ≠ [])
    (h : t.read cwd p = .ok bytes) :
    Placeable cwd p ∧ t.look (placeOf cwd p) = some (.file bytes) := by
  rw [FileTree.read_eq] at h
  obtain ⟨place, hplace, h⟩ := Outcome.bind_eq_ok.1 h
  obtain rfl := FileTree.destination_eq_ok hplace
  split at h
  · cases h
  · rename_i found hfile
    split_ifs at h with hslash
    cases h
    refine ⟨⟨FileTree.usable_of_destination hplace, ?_, by simpa using hslash⟩, hfile⟩
    obtain ⟨front, last, rfl⟩ := (List.eq_nil_or_concat' names).resolve_left hne
    have hmoves : p.moves = root.moves ++ front ++ [last] := by rw [hbelow.moves, List.append_assoc]
    refine FileTree.endsNamed_of_tidy (.inr fun hdot => ?_) hmoves (hbelow.names last (by simp)).2
    rw [FileTree.look_of_dot hplace hdot] at hfile
    cases hfile
  · cases h

theorem question_currentDigest (root : Path) (previous : Option Manifest) (k : Keyed) :
    (currentDigest root previous k).Asks Request.Question := by
  unfold currentDigest
  split_ifs
  · exact question_fileDigest _
  · exact .done _

theorem read_of_fileDigest {digest : String}
    (h : (fileDigest p).on cwd t = (.ok (some digest), t')) :
    ∃ bytes, t.read cwd p = .ok bytes ∧ Digest.sha256Hex bytes = digest := by
  rw [fileDigest, Program.on_request_bind, FileTree.reply] at h
  cases hread : t.read cwd p with
  | error cause =>
    rw [hread] at h
    cases cause <;> cases h
  | ok bytes =>
    rw [hread] at h
    obtain ⟨hanswer, -⟩ := Prod.mk.inj h
    exact ⟨bytes, rfl, Option.some.inj (Except.ok.inj hanswer)⟩

/-- An artifact is written, or a file with its digest is left as it is. -/
theorem of_writeArtifact (h : (writeArtifact root previous s k).on cwd t = (.ok s', t')) :
    s'.manifest = s.manifest.insert k.key k.digest ∧
      s'.written + s'.unchanged = s.written + s.unchanged + 1 ∧
      ((replaceFile (root.join k.artifact.path) k.bytes).on cwd t = (.ok (), t') ∨
        t' = t ∧ ∃ bytes, t.read cwd (root.join k.artifact.path) = .ok bytes ∧
          Digest.sha256Hex bytes = k.digest) := by
  rw [writeArtifact_eq] at h
  obtain ⟨current, hcurrent, hwrite⟩ := (question_currentDigest root previous k).on_bind_ok h
  split_ifs at hwrite with hdigest
  · cases hwrite
    refine ⟨rfl, rfl, .inr ⟨rfl, ?_⟩⟩
    subst hdigest
    unfold currentDigest at hcurrent
    split_ifs at hcurrent
    · exact read_of_fileDigest hcurrent
    · cases hcurrent
  · obtain ⟨_, _, hreplace, hdone⟩ := Program.on_bind_eq_ok.1 hwrite
    cases hdone
    exact ⟨rfl, Nat.add_right_comm .., .inl hreplace⟩

/-- **Writing an artifact.** It is in the tree afterwards, whether it was written or left. -/
theorem grown_of_writeArtifact (hroot : Rooted base cwd root)
    (hgrown : Grown base (placeOf cwd root) files [] t) (hk : k.Valid)
    (hdigest : ∀ bytes, files k.place = some bytes → Digest.sha256Hex bytes = k.digest →
      bytes = k.bytes)
    (h : (writeArtifact root previous s k).on cwd t = (.ok s', t')) :
    Grown base (placeOf cwd root) (put files k) [] t' ∧
      Placeable cwd (root.join k.artifact.path) := by
  have hbelow := hk.below root
  have hne := hk.place_ne_nil
  rcases (of_writeArtifact h).2.2 with hreplace | ⟨rfl, bytes, hread, hsame⟩
  · exact ⟨grown_of_replaceFile hroot hgrown hbelow hne hreplace,
      (replaceFile_inv hroot hgrown hbelow hne hreplace).1⟩
  · obtain ⟨hp, hlook⟩ := placeable_of_read hbelow hne hread
    rw [hbelow.placeOf_eq, hgrown.file] at hlook
    have heq : put files k = files := by
      rw [put, ← hdigest bytes hlook hsame, ← hlook, Function.update_eq_self]
    exact ⟨by rwa [heq], hp⟩

/-- Contents with different digests. -/
def Distinguished (items : List Keyed) : Prop :=
  ∀ k ∈ items, ∀ k' ∈ items, k.digest = k'.digest → k.bytes = k'.bytes

/-- A file that lies where an artifact belongs and has its digest has its bytes. -/
def Faithful (files : Files) (items : List Keyed) : Prop :=
  ∀ k ∈ items, ∀ bytes, files k.place = some bytes → Digest.sha256Hex bytes = k.digest →
    bytes = k.bytes

theorem Faithful.put (h : Faithful files (k :: items)) (hdistinct : Distinguished (k :: items)) :
    Faithful (put files k) items := by
  intro k' hk' bytes hbytes hsame
  by_cases hplace : k'.place = k.place
  · rw [hplace, Output.put, Function.update_self] at hbytes
    cases hbytes
    exact hdistinct k List.mem_cons_self k' (List.mem_cons_of_mem _ hk') hsame
  · rw [Output.put, Function.update_of_ne hplace] at hbytes
    exact h k' (List.mem_cons_of_mem _ hk') bytes hbytes hsame

theorem Distinguished.tail (h : Distinguished (k :: items)) : Distinguished items :=
  fun a ha b hb => h a (List.mem_cons_of_mem _ ha) b (List.mem_cons_of_mem _ hb)

theorem grown_of_writeArtifacts (hroot : Rooted base cwd root)
    (hgrown : Grown base (placeOf cwd root) files [] t) (hitems : ∀ k ∈ items, k.Valid)
    (hdistinct : Distinguished items) (hdigest : Faithful files items)
    (h : (writeArtifacts root previous s items).on cwd t = (.ok s', t')) :
    Grown base (placeOf cwd root) (putAll files items) [] t' ∧
      s'.manifest = record s.manifest items ∧
      ∀ k ∈ items, Placeable cwd (root.join k.artifact.path) := by
  induction items generalizing files s t with
  | nil =>
    cases h
    exact ⟨hgrown, rfl, by simp⟩
  | cons k items ih =>
    obtain ⟨between, t₁, hfirst, h⟩ := Program.on_bind_eq_ok.1 h
    obtain ⟨hgrown₁, hp⟩ := grown_of_writeArtifact hroot hgrown (hitems k List.mem_cons_self)
      (hdigest k List.mem_cons_self) hfirst
    obtain ⟨hgrown', hmanifest, hall⟩ := ih hgrown₁
      (fun k' hk' => hitems k' (List.mem_cons_of_mem _ hk')) hdistinct.tail
      (hdigest.put hdistinct) h
    refine ⟨hgrown', ?_, List.forall_mem_cons.2 ⟨hp, hall⟩⟩
    rw [hmanifest, (of_writeArtifact hfirst).1]
    rfl

/-- Without an earlier manifest, each artifact is written where it can be. -/
theorem writeArtifacts_grown (hroot : Rooted base cwd root)
    (hgrown : Grown base (placeOf cwd root) files [] t) (hitems : ∀ k ∈ items, k.Valid)
    (hp : ∀ k ∈ items, Placeable cwd (root.join k.artifact.path))
    (hfree : ∀ k ∈ items, Free (putAll files items) k.place) (s : Progress) :
    ∃ s' t', (writeArtifacts root none s items).on cwd t = (.ok s', t') ∧
      Grown base (placeOf cwd root) (putAll files items) [] t' ∧
      s'.manifest = record s.manifest items := by
  induction items generalizing files s t with
  | nil => exact ⟨s, t, rfl, hgrown, rfl⟩
  | cons k items ih =>
    have hk := hitems k List.mem_cons_self
    obtain ⟨t₁, hreplace, hgrown₁⟩ := replaceFile_grown hroot hgrown (hk.below root)
      hk.place_ne_nil (hp k List.mem_cons_self)
      (fun key hkey => hfree k List.mem_cons_self key (putAll_ne_none hkey)) k.bytes
    obtain ⟨s', t', hrest, hgrown', hmanifest⟩ := ih hgrown₁
      (fun k' hk' => hitems k' (List.mem_cons_of_mem _ hk'))
      (fun k' hk' => hp k' (List.mem_cons_of_mem _ hk'))
      (fun k' hk' => hfree k' (List.mem_cons_of_mem _ hk'))
      ⟨s.manifest.insert k.key k.digest, s.written + 1, s.unchanged⟩
    refine ⟨s', t', Program.on_bind_eq_ok.2 ⟨_, t₁, ?_, hrest⟩, hgrown', hmanifest⟩
    rw [writeArtifact_eq]
    exact Program.on_bind_eq_ok.2 ⟨none, t, rfl, Program.on_bind_eq_ok.2 ⟨(), t₁, hreplace, rfl⟩⟩

theorem grown_of_removeAllStale (hroot : Rooted base cwd root) {keys : List String}
    (hgrown : Grown base (placeOf cwd root) files [] t) (hkeys : ∀ key ∈ keys, IsKey key)
    (hnodup : keys.Nodup) (hfiles : ∀ key ∈ keys, files (placeOfKey key) ≠ none)
    (h : (removeAllStale root keys).on cwd t = (.ok (), t')) :
    Grown base (placeOf cwd root) (removeAll files keys) [] t' := by
  induction keys generalizing files t with
  | nil =>
    cases h
    exact hgrown
  | cons key keys ih =>
    obtain ⟨_, t₁, hfirst, h⟩ := Program.on_bind_eq_ok.1 h
    have hkey := hkeys key List.mem_cons_self
    rw [List.nodup_cons] at hnodup
    have hgrown₁ := grown_of_removeStale hroot hgrown hkey.names? hkey.ne_nil
      (hfiles key List.mem_cons_self) hfirst
    refine ih hgrown₁ (fun key' hkey' => hkeys key' (List.mem_cons_of_mem _ hkey')) hnodup.2
      (fun key' hkey' => ?_) h
    dsimp only
    rw [Function.update_of_ne]
    · exact hfiles key' (List.mem_cons_of_mem _ hkey')
    · intro heq
      rw [(hkeys key' (List.mem_cons_of_mem _ hkey')).placeOfKey_inj hkey heq] at hkey'
      exact hnodup.1 hkey'

end WireSchema.Output
