import WireSchema.Proofs.Output.History

/-!
# The files of a directory

A root may hold anything before a run: files that nobody knows of, edited ones, empty directories.
What a run does to it is told by the bytes of its files alone (`filesAt`). Directories come and go
without any file changing, a file that is replaced is set, one that is removed is gone, and all
other files stay as they are.

As long as the path of the root leads to it (`Leads`), what is not found below the root is not
there. Only a removal can make the root unreachable, and it does not as long as the path of the root
leads through no directory of its own tree (`Leads.removeAllStale`).
-/

namespace WireSchema

namespace Disk

/-- The bytes of a file. -/
def Item.bytes? : Option Item → Option (List UInt8)
  | some (.file bytes) => some bytes
  | _ => none

theorem Item.bytes?_eq_some {item : Option Item} {bytes : List UInt8} :
    bytes? item = some bytes ↔ item = some (.file bytes) := by
  cases item with
  | none => simp [bytes?]
  | some item => cases item <;> simp [bytes?]

end Disk

namespace Output

open Disk

variable {t t' : FileTree} {cwd place names : Place} {root p : Path} {bytes : List UInt8}
  {items : List Keyed} {k : Keyed} {previous : Option Manifest} {s s' : Progress}

/-- The bytes of the files in a directory and below it. -/
def filesAt (t : FileTree) (place : Place) : Files := fun rel => Item.bytes? (t.look (place ++ rel))

theorem filesAt_eq_some {rel : Place} :
    filesAt t place rel = some bytes ↔ t.look (place ++ rel) = some (.file bytes) :=
  Item.bytes?_eq_some

theorem filesAt_of_sets {rel : Place} {item : Option Item}
    (h : FileTree.Sets t t' (place ++ rel) item) :
    filesAt t' place = Function.update (filesAt t place) rel (Item.bytes? item) := by
  funext other
  by_cases hother : other = rel
  · rw [hother, Function.update_self, filesAt, h, if_pos rfl]
  · rw [Function.update_of_ne hother, filesAt, h, if_neg (by simpa using hother)]
    rfl

/-! ## Directories -/

/-- No directory has been lost. -/
def DirectoriesKept (t t' : FileTree) : Prop :=
  ∀ other, t.look other = some .directory → t'.look other = some .directory

theorem DirectoriesKept.trans {t'' : FileTree} (h : DirectoriesKept t t')
    (h' : DirectoriesKept t' t'') : DirectoriesKept t t'' :=
  fun other hlook => h' other (h other hlook)

theorem DirectoriesKept.destination (h : DirectoriesKept t t') {place : Place}
    (hdestination : t.destination cwd p = .ok place) : t'.destination cwd p = .ok place := by
  obtain ⟨hplace, hsayable, hpass⟩ := FileTree.destination_eq_ok_iff.1 hdestination
  refine FileTree.destination_eq_ok_iff.2 ⟨hplace, hsayable, fun front part back hsplit => ?_⟩
  obtain ⟨hdirectory, hshort⟩ := hpass front part back hsplit
  exact ⟨h _ hdirectory, hshort⟩

theorem Leads.of_kept (h : Leads t cwd root) (hkept : DirectoriesKept t t') : Leads t' cwd root :=
  fun front rest hsplit => hkept _ (h front rest hsplit)

/-- What is set where there is no directory takes none away. -/
theorem kept_of_sets {item : Option Item} (h : FileTree.Sets t t' place item)
    (hnot : t.look place ≠ some .directory) : DirectoriesKept t t' := by
  intro other hlook
  rw [h, if_neg, hlook]
  intro heq
  rw [heq] at hlook
  exact hnot hlook

section MakeDirectories

variable {x : Except OutputError (Except OsError Unit)}
  (hmake : (Program.makeDirectories p : Program OutputError _).on cwd t = (x, t'))

include hmake

theorem filesAt_makeDirectories (place : Place) : filesAt t' place = filesAt t place := by
  funext rel
  unfold filesAt
  rcases look_makeDirectories cwd t p (place ++ rel) hmake with heq | ⟨-, hnone, hmade⟩
  · rw [heq]
  · rw [hnone, hmade]
    rfl

theorem kept_of_makeDirectories : DirectoriesKept t t' :=
  fun _ hlook => look_of_makeDirectories hlook hmake

end MakeDirectories

/-! ## Replacing files -/

/-- A file is replaced once its directory has been made, and nothing else changes. -/
theorem sets_of_replaceFile (h : (replaceFile p bytes).on cwd t = (.ok (), t')) :
    ∃ parent t₀,
      (Program.makeDirectories parent : Program OutputError _).on cwd t = (.ok (.ok ()), t₀) ∧
      t₀.look (placeOf cwd p) ≠ some .directory ∧
      FileTree.Sets t₀ t' (placeOf cwd p) (some (.file bytes)) := by
  obtain ⟨parent, t₀, temporary, t₁, t₂, -, hmade, hmake, hfill, hpersist⟩ :=
    on_replaceFile_eq_ok.1 h
  exact ⟨parent, t₀, hmade, sets_of_requests hmake hfill hpersist⟩

theorem filesAt_replaceFile (hbelow : p.Below root names)
    (h : (replaceFile p bytes).on cwd t = (.ok (), t')) :
    filesAt t' (placeOf cwd root) =
      Function.update (filesAt t (placeOf cwd root)) names (some bytes) := by
  obtain ⟨parent, t₀, hmade, -, hsets⟩ := sets_of_replaceFile h
  rw [hbelow.placeOf_eq] at hsets
  rw [filesAt_of_sets hsets, filesAt_makeDirectories hmade]
  rfl

theorem kept_of_replaceFile (h : (replaceFile p bytes).on cwd t = (.ok (), t')) :
    DirectoriesKept t t' := by
  obtain ⟨parent, t₀, hmade, hnot, hsets⟩ := sets_of_replaceFile h
  exact (kept_of_makeDirectories hmade).trans (kept_of_sets hsets hnot)

/-- The path to which a file has been moved leads to it. -/
theorem reached_of_persist {temporary : Temporary} (h : t.persist cwd temporary p = .ok t') :
    t'.destination cwd p = .ok (placeOf cwd p) ∧ Placeable cwd p := by
  obtain ⟨hdestination, hp⟩ := of_persist h
  obtain ⟨found, between, hfound, hnot, hfrom, hto⟩ := FileTree.sets_persist h
  have hkept : DirectoriesKept t between := kept_of_sets hfrom (by simp [hfound])
  refine ⟨(hkept.trans (kept_of_sets hto fun hlook => hnot ?_)).destination hdestination, hp⟩
  -- Nothing but the temporary file is gone.
  rw [hfrom] at hlook
  split_ifs at hlook
  exact hlook

/-- The path of a file that has been replaced leads to it. -/
theorem reached_of_replaceFile (h : (replaceFile p bytes).on cwd t = (.ok (), t')) :
    t'.destination cwd p = .ok (placeOf cwd p) ∧ Placeable cwd p := by
  obtain ⟨parent, t₀, temporary, t₁, t₂, -, -, -, -, hpersist⟩ := on_replaceFile_eq_ok.1 h
  exact reached_of_persist hpersist

/-- The path of a root leads to it, if that of a file below it leads somewhere. -/
theorem leads_of_below (hbelow : p.Below root names) (hne : names ≠ []) {place : Place}
    (h : t.destination cwd p = .ok place) : Leads t cwd root := by
  intro front rest hsplit
  have hroute : route cwd p = front ++ (rest ++ names) := by
    rw [route_below hbelow, hsplit, List.append_assoc]
  exact look_of_passed h hroute (by simp [hne])

/-- The path of a root in which a file has been replaced leads to it. -/
theorem leads_of_replaceFile (hbelow : p.Below root names) (hne : names ≠ [])
    (h : (replaceFile p bytes).on cwd t = (.ok (), t')) : Leads t' cwd root :=
  leads_of_below hbelow hne (reached_of_replaceFile h).1

/-! ## Removing files -/

/-- What happens below the root does not matter to a path that does not lead there. -/
theorem Leads.of_sets (h : Leads t cwd root) (houtward : Outward cwd root) {rel : Place}
    (hne : rel ≠ []) {item : Option Item}
    (hsets : FileTree.Sets t t' (placeOf cwd root ++ rel) item) : Leads t' cwd root := by
  intro front rest hsplit
  rw [hsets, if_neg, h front rest hsplit]
  intro heq
  have hplace := houtward front rest hsplit (heq ▸ List.prefix_append _ _)
  rw [heq] at hplace
  exact hne (by simpa using hplace)

/-- **Removing directories** changes no file and leaves the root in reach. -/
theorem Leads.removeEmpty (h : Leads t cwd root) (houtward : Outward cwd root) {way : Place}
    (hbelow : p.Below root way) (hrun : (removeEmpty root p.ancestors).on cwd t = (.ok (), t')) :
    Leads t' cwd root ∧ filesAt t' (placeOf cwd root) = filesAt t (placeOf cwd root) := by
  induction way using List.reverseRecOn generalizing p t with
  | nil =>
    rw [Path.ancestors_eq, Output.removeEmpty, if_pos hbelow.same] at hrun
    cases hrun
    exact ⟨h, rfl⟩
  | append_singleton way last ih =>
    obtain ⟨q, hq, hqbelow, -, -⟩ := hbelow.parent?
    have hdifferent : ¬p.same root = true := by
      rw [Path.same_iff hbelow.start, hbelow.moves]
      simp
    rw [Path.ancestors_eq, hq, Output.removeEmpty, if_neg hdifferent, Program.on_request_bind,
      FileTree.reply] at hrun
    cases hremove : t.removeDirectory cwd p with
    | error cause =>
      rw [hremove] at hrun
      cases hrun
      exact ⟨h, rfl⟩
    | ok between =>
      rw [hremove] at hrun
      obtain ⟨hlook, -, hsets⟩ := FileTree.sets_removeDirectory hremove
      rw [hbelow.placeOf_eq] at hlook hsets
      obtain ⟨hleads, hfiles⟩ := ih (h.of_sets houtward (by simp) hsets) hqbelow hrun
      refine ⟨hleads, hfiles.trans ?_⟩
      rw [filesAt_of_sets hsets, Function.update_eq_iff]
      exact ⟨by rw [filesAt, hlook]; rfl, fun _ _ => rfl⟩

/-- **Removing a file.** The file of a key is gone, and no other file. -/
theorem Leads.removeStale (h : Leads t cwd root) (houtward : Outward cwd root) {key : String}
    (hkey : IsKey key) (hrun : (removeStale root key).on cwd t = (.ok (), t')) :
    Leads t' cwd root ∧ filesAt t' (placeOf cwd root) =
      Function.update (filesAt t (placeOf cwd root)) (placeOfKey key) none := by
  obtain ⟨front, last, hnames⟩ := (List.eq_nil_or_concat' (placeOfKey key)).resolve_left hkey.ne_nil
  have hbelow : (root.join ⟨key⟩).Below root (placeOfKey key) := Path.below_join hkey.names?
  obtain ⟨parent, hparent, hparentBelow, -, -⟩ := (hnames ▸ hbelow).parent?
  have htail : (root.join ⟨key⟩).ancestors.tail = parent.ancestors := by
    rw [Path.ancestors_eq, hparent]
    rfl
  obtain ⟨between, hremove, hempty⟩ := of_removeStale hrun
  rw [htail] at hempty
  rcases hremove with hremove | ⟨hremove, rfl⟩
  · have hsets := (FileTree.sets_removeFile hremove).2
    rw [hbelow.placeOf_eq] at hsets
    obtain ⟨hleads, hfiles⟩ :=
      (h.of_sets houtward hkey.ne_nil hsets).removeEmpty houtward hparentBelow hempty
    exact ⟨hleads, by rw [hfiles, filesAt_of_sets hsets]; rfl⟩
  · obtain ⟨hleads, hfiles⟩ := h.removeEmpty houtward hparentBelow hempty
    refine ⟨hleads, hfiles.trans ?_⟩
    rw [eq_comm, Function.update_eq_iff]
    exact ⟨by rw [filesAt, h.look_of_notFound hbelow hkey.ne_nil hremove]; rfl, fun _ _ => rfl⟩

theorem Leads.removeAllStale (h : Leads t cwd root) (houtward : Outward cwd root)
    {keys : List String} (hkeys : ∀ key ∈ keys, IsKey key)
    (hrun : (removeAllStale root keys).on cwd t = (.ok (), t')) :
    Leads t' cwd root ∧
      filesAt t' (placeOf cwd root) = removeAll (filesAt t (placeOf cwd root)) keys := by
  induction keys generalizing t with
  | nil =>
    cases hrun
    exact ⟨h, rfl⟩
  | cons key keys ih =>
    obtain ⟨_, t₁, hfirst, hrun⟩ := Program.on_bind_eq_ok.1 hrun
    obtain ⟨hleads, hfiles⟩ := h.removeStale houtward (hkeys key List.mem_cons_self) hfirst
    obtain ⟨hleads', hfiles'⟩ :=
      ih hleads (fun key' hkey' => hkeys key' (List.mem_cons_of_mem _ hkey')) hrun
    exact ⟨hleads', by rw [hfiles', hfiles]; rfl⟩

/-! ## Writing artifacts -/

theorem kept_of_writeArtifact (hrun : (writeArtifact root previous s k).on cwd t = (.ok s', t')) :
    DirectoriesKept t t' := by
  rcases (of_writeArtifact hrun).2.2 with hreplace | ⟨rfl, -⟩
  · exact kept_of_replaceFile hreplace
  · exact fun _ hlook => hlook

theorem kept_of_writeArtifacts
    (hrun : (writeArtifacts root previous s items).on cwd t = (.ok s', t')) :
    DirectoriesKept t t' := by
  induction items generalizing s t with
  | nil =>
    cases hrun
    exact fun _ hlook => hlook
  | cons k items ih =>
    obtain ⟨between, t₁, hfirst, hrun⟩ := Program.on_bind_eq_ok.1 hrun
    exact (kept_of_writeArtifact hfirst).trans (ih hrun)

/-- **Writing an artifact.** Its file has its bytes afterwards, whether it was written or left. -/
theorem filesAt_writeArtifact (hk : k.Valid)
    (hdigest : ∀ bytes, filesAt t (placeOf cwd root) k.place = some bytes →
      Digest.sha256Hex bytes = k.digest → bytes = k.bytes)
    (hrun : (writeArtifact root previous s k).on cwd t = (.ok s', t')) :
    Placeable cwd (root.join k.artifact.path) ∧
      filesAt t' (placeOf cwd root) = put (filesAt t (placeOf cwd root)) k := by
  have hbelow := hk.below root
  rcases (of_writeArtifact hrun).2.2 with hreplace | ⟨rfl, found, hread, hsame⟩
  · exact ⟨(reached_of_replaceFile hreplace).2, filesAt_replaceFile hbelow hreplace⟩
  · obtain ⟨hp, hlook⟩ := placeable_of_read hbelow hk.place_ne_nil hread
    rw [hbelow.placeOf_eq] at hlook
    have hfound := filesAt_eq_some.2 hlook
    refine ⟨hp, ?_⟩
    rw [put, ← hdigest found hfound hsame, ← hfound, Function.update_eq_self]

theorem filesAt_writeArtifacts (hitems : ∀ k ∈ items, k.Valid) (hdistinct : Distinguished items)
    (hdigest : Faithful (filesAt t (placeOf cwd root)) items)
    (hrun : (writeArtifacts root previous s items).on cwd t = (.ok s', t')) :
    (∀ k ∈ items, Placeable cwd (root.join k.artifact.path)) ∧
      filesAt t' (placeOf cwd root) = putAll (filesAt t (placeOf cwd root)) items := by
  induction items generalizing s t with
  | nil =>
    cases hrun
    exact ⟨by simp, rfl⟩
  | cons k items ih =>
    obtain ⟨between, t₁, hfirst, hrun⟩ := Program.on_bind_eq_ok.1 hrun
    obtain ⟨hp, hfiles⟩ := filesAt_writeArtifact (hitems k List.mem_cons_self)
      (hdigest k List.mem_cons_self) hfirst
    obtain ⟨hplaceable, hfiles'⟩ := ih (fun k' hk' => hitems k' (List.mem_cons_of_mem _ hk'))
      hdistinct.tail (hfiles ▸ hdigest.put hdistinct) hrun
    refine ⟨List.forall_mem_cons.2 ⟨hp, hplaceable⟩, ?_⟩
    rw [hfiles', hfiles]
    rfl

/-- Each artifact is recorded and counted. -/
theorem progress_of_writeArtifacts
    (hrun : (writeArtifacts root previous s items).on cwd t = (.ok s', t')) :
    s'.manifest = record s.manifest items ∧
      s'.written + s'.unchanged = s.written + s.unchanged + items.length := by
  induction items generalizing s t with
  | nil =>
    cases hrun
    exact ⟨rfl, rfl⟩
  | cons k items ih =>
    obtain ⟨between, t₁, hfirst, hrun⟩ := Program.on_bind_eq_ok.1 hrun
    obtain ⟨hmanifest, hcount, -⟩ := of_writeArtifact hfirst
    obtain ⟨hmanifest', hcount'⟩ := ih hrun
    constructor
    · rw [hmanifest', hmanifest]
      rfl
    · rw [hcount', hcount, List.length_cons]
      omega

end Output

end WireSchema
