import Mathlib.Data.String.Basic
import WireSchema.Proofs.Output.Interruption
import WireSchema.Output.Verify

/-!
# Checking a tree

**Theorem (`verify_exact`).** After a run that succeeds and any changes to files that leave the
manifest alone, a check lists exactly the files that have other contents than the run gave them, and
exactly those that are gone.

A run writes a file by the path of its artifact, and a check reads it by its key. Both lead to the
same place, and the key has no more text than the path, so that the system takes it as well
(`Placeable.of_key`). A file that is not there is not found, unless a file lies on the way to it
(`Leads.read_of_none`). When a run has succeeded, all of its files are there, so that there were
directories on all these ways (`Generated`), and no symbolic links that lead elsewhere.
-/

namespace WireSchema

open Disk

/-! ## Keys as paths -/

namespace Path

variable {p q root : Path} {names : List String}

theorem sublist_joinParts {ps qs : List (List Char)} (h : ps.Sublist qs) :
    (joinParts ps).Sublist (joinParts qs) := by
  induction h with
  | slnil => exact .refl _
  | @cons ps qs part h ih =>
    refine ih.trans ?_
    cases qs with
    | nil => exact List.nil_sublist _
    | cons next qs =>
      rw [joinParts_cons (List.cons_ne_nil _ _)]
      exact (List.sublist_cons_self _ _).trans (List.sublist_append_right _ _)
  | @cons_cons ps qs part h ih =>
    cases ps with
    | nil => exact (joinParts_isPrefix [part] qs).sublist
    | cons first ps =>
      have hne : qs ≠ [] := by
        rintro rfl
        cases h
      rw [joinParts_cons (List.cons_ne_nil _ _), joinParts_cons hne]
      exact (List.Sublist.refl part).append (ih.cons_cons '/')

/-- The names of a path with slashes between them are a part of its text. -/
theorem sublist_joinNames (h : p.names? = some names) :
    (Output.Manifest.joinNames names).toList.Sublist p.text.toList := by
  obtain ⟨-, rfl, -⟩ := names?_eq_some_iff.1 h
  have hparts : p.moves.map String.toList = (parts p.text.toList).filter (!isIdle ·) := by
    rw [moves, movesIn, List.map_map]
    simp [Function.comp_def]
  rw [toList_joinNames, hparts]
  nth_rewrite 2 [← joinParts_parts p.text.toList]
  exact sublist_joinParts List.filter_sublist

/-- A relative path with less text leaves less text behind a root. -/
theorem sublist_join (hp : p.isAbsolute = false) (hq : q.isAbsolute = false)
    (h : p.text.toList.Sublist q.text.toList) :
    (root.join p).text.toList.Sublist (root.join q).text.toList := by
  unfold join
  rw [if_neg (by simp [hp]), if_neg (by simp [hq])]
  split <;> simp only [String.toList_append] <;> exact (List.Sublist.refl _).append h

theorem isAbsolute_of_names (h : p.names? = some names) : p.isAbsolute = false := by
  rw [← Bool.not_eq_true, isAbsolute_iff, (names?_eq_some_iff.1 h).1]
  simp

/-- The parts of names with slashes between them are the names. -/
theorem partsOf_joinNames (h : p.names? = some names) (hne : names ≠ []) :
    FileTree.partsOf ⟨Output.Manifest.joinNames names⟩ = names := by
  obtain ⟨-, hmoves, -⟩ := names?_eq_some_iff.1 h
  have hmem : ∀ name ∈ names, name ≠ "" ∧ name ≠ "." ∧ '/' ∉ name.toList := fun name hname =>
    mem_movesIn (hmoves ▸ hname)
  have hparts : parts (Output.Manifest.joinNames names).toList = names.map String.toList := by
    rw [toList_joinNames, parts_joinParts (by simpa using hne)]
    intro part hpart
    obtain ⟨name, hname, rfl⟩ := List.mem_map.1 hpart
    exact (hmem name hname).2.2
  rw [FileTree.partsOf, hparts, List.filter_eq_self.2, List.map_map]
  · simp [Function.comp_def]
  · intro part hpart
    obtain ⟨name, hname, rfl⟩ := List.mem_map.1 hpart
    have hempty : name.toList ≠ [] := fun hnil => (hmem name hname).1 (String.toList_inj.1 hnil)
    simpa using hempty

/-- Names with slashes between them end with a letter of the last name. -/
theorem getLast?_joinNames (h : p.names? = some names) (hne : names ≠ []) :
    ∃ c, c ≠ '/' ∧ (Output.Manifest.joinNames names).toList.getLast? = some c := by
  obtain ⟨front, last, rfl⟩ := (List.eq_nil_or_concat' names).resolve_left hne
  obtain ⟨-, hmoves, -⟩ := names?_eq_some_iff.1 h
  have hlast : last ∈ movesIn p.text.toList := by
    change last ∈ p.moves
    rw [hmoves]
    simp
  obtain ⟨hempty, -, hslash⟩ := mem_movesIn hlast
  obtain ⟨cs, c, hcs⟩ := (List.eq_nil_or_concat' last.toList).resolve_left fun hnil =>
    hempty (String.toList_inj.1 hnil)
  refine ⟨c, ?_, ?_⟩
  · rintro rfl
    exact hslash (by simp [hcs])
  · rw [toList_joinNames, List.map_append, List.map_singleton]
    by_cases hfront : front = []
    · simp [hfront, joinParts, hcs]
    · rw [joinParts_append (by simpa using hfront) (by simp), joinParts, hcs]
      simp [List.getLast?_cons]

end Path

namespace Output

variable {t t' : FileTree} {cwd : Place} {root p : Path} {names : Place} {key : String}
  {bytes : List UInt8}

/-- Where an artifact can lie, a file can be looked for by its key. -/
theorem Placeable.of_key (hkey : Manifest.key? p = some key) (h : Placeable cwd (root.join p)) :
    Placeable cwd (root.join ⟨key⟩) := by
  obtain ⟨names, hp, hnames, hne, -, rfl⟩ := Manifest.key?_eq_some hkey
  -- A key leaves out what is idle in the path, so all that limits a path limits it less.
  have hsublist : (root.join ⟨Manifest.joinNames names⟩).text.toList.Sublist
      (root.join p).text.toList :=
    Path.sublist_join (Path.isAbsolute_of_names hnames) (Path.isAbsolute_of_names hp)
      (Path.sublist_joinNames hp)
  have hbelow : (root.join ⟨Manifest.joinNames names⟩).Below root names := Path.below_join hnames
  refine ⟨⟨⟨?_, ?_, ?_⟩, ?_⟩, ?_, ?_⟩
  · have hnul := h.usable.sayable.nul
    rw [FileTree.holdsNul, List.contains_eq_mem, decide_eq_false_iff_not] at hnul ⊢
    exact fun hmem => hnul (hsublist.mem hmem)
  · intro hempty
    have hmoves : (root.join ⟨Manifest.joinNames names⟩).moves = [] := by
      rw [Path.moves, hempty]
      rfl
    rw [hbelow.moves, List.append_eq_nil_iff] at hmoves
    exact hne hmoves.2
  · refine le_trans ?_ h.usable.sayable.size
    have hsize := String.utf8Len_le_of_sublist hsublist
    rwa [← String.utf8ByteSize_ofList, ← String.utf8ByteSize_ofList, String.ofList_toList,
      String.ofList_toList] at hsize
  · rw [route_below hbelow, ← route_below (Path.below_join hp)]
    exact h.usable.short
  · obtain ⟨front, last, rfl⟩ := (List.eq_nil_or_concat' names).resolve_left hne
    obtain ⟨hdot, hup⟩ := hbelow.names last (by simp)
    rw [FileTree.endsNamed, partsOf_join (Path.isAbsolute_of_names hnames),
      Path.partsOf_joinNames hp hne, ← List.append_assoc, List.getLast?_concat]
    simp [hdot, hup]
  · obtain ⟨c, hslash, hlast⟩ := Path.getLast?_joinNames hp hne
    have hjoin : (root.join ⟨Manifest.joinNames names⟩).text.toList.getLast? = some c := by
      unfold Path.join
      rw [if_neg (by simp [Path.isAbsolute_of_names hnames])]
      split <;> simp [List.getLast?_append, List.getLast?_cons, hlast]
    rw [FileTree.endsSlash, hjoin]
    simpa using hslash

/-! ## Files that can be looked for -/

/-- A file that is not there is not found, as long as no file lies on the way to it. -/
theorem Leads.read_of_none (h : Leads t cwd root) (hbelow : p.Below root names) (hne : names ≠ [])
    (hp : Placeable cwd p)
    (hway : ∀ rel, rel <+: names → rel ≠ names → ∀ bytes,
      t.look (placeOf cwd root ++ rel) ≠ some (.file bytes))
    (hnone : t.look (placeOf cwd root ++ names) = none) : t.read cwd p = .error .notFound := by
  rw [FileTree.read_eq]
  -- Either the walk gets to the place, where nothing lies, or it stops at the first thing missing.
  by_cases hpass : ∀ front part back, trek cwd p = front ++ part :: back →
      t.look (Place.reach front) = some .directory
  · rw [FileTree.destination_of_usable hp.usable hpass, Outcome.ok_bind, hbelow.placeOf_eq, hnone]
  · have hfile : ∀ front part back, trek cwd p = front ++ part :: back →
        ∀ bytes, t.look (Place.reach front) ≠ some (.file bytes) := by
      intro front part back hsplit bytes hlook
      rcases reach_of_trek hbelow hsplit with ⟨rest, hrest⟩ | ⟨rel, hrel, hreach, hlast⟩
      · rw [← Place.reach_filter, h _ rest hrest] at hlook
        cases hlook
      · rw [hreach] at hlook
        refine hway rel hrel (fun heq => ?_) bytes hlook
        refine getLast?_trek (FileTree.tidy_of_endsNamed hp.named) ?_ (hlast heq)
        rw [hbelow.moves]
        simp [hne]
    push Not at hpass
    obtain ⟨front, part, back, hsplit, hnot⟩ := hpass
    have hmissing : t.look (Place.reach front) = none := by
      cases hlook : t.look (Place.reach front) with
      | none => rfl
      | some item =>
        cases item with
        | file bytes => exact absurd hlook (hfile front part back hsplit bytes)
        | directory => exact absurd hlook hnot
    rw [FileTree.destination_of_missing hp.usable hfile ⟨front, part, back, hsplit, hmissing⟩]
    rfl

/-! ## Reports -/

/-- What reading a file gives, by its bytes. -/
def readingOf : Option (List UInt8) → Except OsError (List UInt8)
  | none => .error .notFound
  | some bytes => .ok bytes

theorem on_fileDigest {content : Option (List UInt8)} (h : t.read cwd p = readingOf content) :
    (fileDigest p).on cwd t = (.ok (content.map Digest.sha256Hex), t) := by
  rw [fileDigest, Program.on_request_bind, FileTree.reply, h]
  cases content <;> rfl

/-- A check goes through the entries and finds those with other digests and those without files. -/
theorem on_checkFiles {entries : List (String × String)} (contentOf : String → Option (List UInt8))
    (h : ∀ e ∈ entries, t.read cwd (root.join ⟨e.1⟩) = readingOf (contentOf e.1)) (r : Report) :
    (checkFiles root r entries).on cwd t =
      (.ok ⟨r.checked + entries.length,
        r.modified ++ (entries.filter fun e =>
          (contentOf e.1).any (Digest.sha256Hex · ≠ e.2)).map Prod.fst,
        r.missing ++ (entries.filter fun e => (contentOf e.1).isNone).map Prod.fst⟩, t) := by
  induction entries generalizing r with
  | nil => simp [checkFiles, Program.on, pure]
  | cons e entries ih =>
    obtain ⟨key, expected⟩ := e
    rw [checkFiles, Program.on_bind, on_fileDigest (h _ List.mem_cons_self)]
    dsimp only
    rw [ih fun e he => h e (List.mem_cons_of_mem _ he)]
    cases hcontent : contentOf key with
    | none => simp [Report.add, hcontent, Nat.add_assoc, Nat.add_comm 1]
    | some bytes =>
      by_cases hdigest : Digest.sha256Hex bytes = expected <;>
        simp [Report.add, hcontent, hdigest, Nat.add_assoc, Nat.add_comm 1]

/-! ## What a run leaves to be checked -/

variable {m m' : Machine} {rep : Representation} {own artifacts : List Artifact}
  {items : List Keyed} {k : Keyed} {previous : Option Manifest} {s s' : Progress}
  {summary : Summary}

theorem of_run_replaceFile (h : (replaceFile p bytes).run m = (.ok (), m')) :
    m'.tree.destination m.cwd p = .ok (placeOf m.cwd p) ∧ Placeable m.cwd p ∧
      m'.tree.look (placeOf m.cwd p) = some (.file bytes) := by
  obtain ⟨parent, made, temporary, t₁, t₂, -, hmake, hfill, hpersist⟩ := run_replaceFile_eq_ok h
  obtain ⟨hdestination, hp⟩ := reached_of_persist hpersist
  exact ⟨hdestination, hp, by rw [(sets_of_requests hmake hfill hpersist).2, if_pos rfl]⟩

/-- An artifact that has been written is at its key. -/
theorem placed_of_run_writeArtifact (hk : k.Valid)
    (h : (writeArtifact root previous s k).run m = (.ok s', m')) :
    Placeable m.cwd (root.join k.artifact.path) ∧
      m'.tree.bytesAt (placeOf m.cwd (root.join ⟨k.key⟩)) ≠ none := by
  rw [← hk.placeOf_eq]
  rcases (of_run_writeArtifact h).2 with ⟨m₁, m₂, -, hcwd, htree, hreplace⟩ | ⟨htree, bytes, hread⟩
  · obtain ⟨-, hp, hlook⟩ := of_run_replaceFile hreplace
    rw [hcwd] at hp hlook
    refine ⟨hp, ?_⟩
    rw [← htree, FileTree.bytesAt_eq_some.2 hlook]
    exact Option.some_ne_none _
  · obtain ⟨hp, hlook⟩ := placeable_of_read (hk.below root) hk.place_ne_nil hread
    refine ⟨hp, ?_⟩
    rw [htree, FileTree.bytesAt_eq_some.2 hlook]
    exact Option.some_ne_none _

theorem not_puts_none {place : Place} : ¬Puts cwd root own place none := by
  rintro ⟨a, -, key, -, -, hcontents⟩
  cases hcontents

theorem placed_of_run_writeArtifacts (hitems : ∀ k ∈ items, k.Valid)
    (h : (writeArtifacts root previous s items).run m = (.ok s', m')) :
    ∀ k ∈ items, Placeable m.cwd (root.join k.artifact.path) ∧
      m'.tree.bytesAt (placeOf m.cwd (root.join ⟨k.key⟩)) ≠ none := by
  induction items generalizing s m with
  | nil => simp
  | cons k items ih =>
    obtain ⟨between, m₁, hfirst, h⟩ := Program.run_bind_eq_ok.1 h
    have hcwd := Program.cwd_of_run hfirst
    have hrest : ∀ k ∈ items, k.Valid := fun k' hk' => hitems k' (List.mem_cons_of_mem _ hk')
    obtain ⟨hp, hfile⟩ := placed_of_run_writeArtifact (hitems k List.mem_cons_self) hfirst
    rw [← hcwd] at hfile ⊢
    refine List.forall_mem_cons.2 ⟨⟨hcwd ▸ hp, ?_⟩, ih hrest h⟩
    -- Those that come later remove nothing.
    exact ((rewrites_writeArtifacts hrest rfl).ok s' m' h).bytesAt_ne_none hfile not_puts_none

theorem run_writeAfter_eq_ok
    (h : (writeAfter root rep artifacts previous).run m = (.ok summary, m')) :
    ∃ items m₁ s m₂ m₃ m₄, keyed (artifactsFor artifacts rep) = .ok items ∧ m₁.cwd = m.cwd ∧
      (writeArtifacts root previous ⟨.empty rep, 0, 0⟩ items).run m₁ = (.ok s, m₂) ∧
      (removeAllStale root (staleKeys previous s.manifest)).run m₂ = (.ok (), m₃) ∧
      (replaceFile (Manifest.path root) (Text.utf8 s.manifest.render)).run m₃ = (.ok (), m₄) ∧
      m'.tree = m₄.tree := by
  obtain ⟨items, m₀, hkeyed, h₀⟩ := Program.run_bind_eq_ok.1 h
  cases hitems : keyed (artifactsFor artifacts rep) with
  | error e =>
    rw [hitems] at hkeyed
    cases hkeyed
  | ok found =>
    rw [hitems] at hkeyed
    cases hkeyed
    obtain ⟨made, m₁, hmade, h₁⟩ := Program.run_bind_eq_ok.1 h₀
    cases made with
    | error => cases h₁
    | ok =>
      obtain ⟨s, m₂, hwrite, h₂⟩ := Program.run_bind_eq_ok.1 h₁
      obtain ⟨_, m₃, hremove, h₃⟩ := Program.run_bind_eq_ok.1 h₂
      obtain ⟨_, m₄, hreplace, h₄⟩ := Program.run_bind_eq_ok.1 h₃
      cases h₄
      exact ⟨items, m₁, s, m₂, m₃, m₄, rfl, Program.cwd_of_run hmade, hwrite, hremove, hreplace, rfl⟩

/-- A tree with the files of artifacts and their manifest. -/
structure Generated (cwd : Place) (root : Path) (rep : Representation) (items : List Keyed)
    (t : FileTree) : Prop where
  leads : Leads t cwd root
  manifestPath : Placeable cwd (Manifest.path root)
  manifest : t.look (placeOf cwd (Manifest.path root)) =
    some (.file (Text.utf8 (manifestFor rep items).render))
  valid : ∀ k ∈ items, k.Valid
  path : ∀ k ∈ items, Placeable cwd (root.join k.artifact.path)
  file : ∀ k ∈ items, t.bytesAt (placeOf cwd (root.join ⟨k.key⟩)) ≠ none

/-- The files of the artifacts of a run are there when it has succeeded. -/
theorem generated_of_writeAfter (hkeys : ∀ key ∈ keysOf previous, IsKey key)
    (h : (writeAfter root rep artifacts previous).run m = (.ok summary, m')) :
    ∃ items, items.map Keyed.artifact = artifactsFor artifacts rep ∧
      Generated m.cwd root rep items m'.tree := by
  obtain ⟨items, m₁, s, m₂, m₃, m₄, hkeyed, hcwd₁, hwrite, hremove, hreplace, htree⟩ :=
    run_writeAfter_eq_ok h
  have hvalid : ∀ k ∈ items, k.Valid := key?_of_keyed hkeyed
  have hmanifest : s.manifest = manifestFor rep items := manifest_of_run_writeArtifacts hwrite
  have hcwd₂ := (Program.cwd_of_run hwrite).trans hcwd₁
  have hcwd₃ := (Program.cwd_of_run hremove).trans hcwd₂
  have hplaced := placed_of_run_writeArtifacts hvalid hwrite
  rw [hmanifest] at hreplace hremove
  rw [hcwd₁] at hplaced
  obtain ⟨hdestination, hp, hlook⟩ := of_run_replaceFile hreplace
  rw [hcwd₃, ← htree] at hdestination hlook
  rw [hcwd₃] at hp
  refine ⟨items, artifact_of_keyed hkeyed, leads_of_below (below_manifestPath root) (by simp)
    hdestination, hp, hlook, hvalid, fun k hk => (hplaced k hk).1, fun k hk => ?_⟩
  have hremoved := (rewrites_removeAllStale _ hcwd₂).ok () m₃ hremove
  have hreplaced := (rewrites_replaceFile _ _ m₃).ok () m₄ hreplace
  rw [htree]
  refine hreplaced.bytesAt_ne_none (hremoved.bytesAt_ne_none (hplaced k hk).2 ?_) ?_
  · -- A key that is removed is not that of an artifact.
    rintro ⟨key, hkey, hplace, -⟩
    obtain ⟨hold, hnew⟩ := (mem_staleKeys rep).1 hkey
    have hisKey := hkeys key hold
    rw [(Path.below_join (hvalid k hk).isKey.names?).placeOf_eq,
      (Path.below_join hisKey.names?).placeOf_eq] at hplace
    exact hnew ⟨k, hk, (hvalid k hk).isKey.placeOfKey_inj hisKey (List.append_cancel_left hplace)⟩
  · rintro ⟨-, hcontents⟩
    cases hcontents

/-! ## Edited trees -/

/-- A tree whose files have been changed, removed and added. The manifest is as it was, no directory
lies at the key of an artifact and no file where there was a directory. Directories may be gone, but
not those that the path of the root leads through. -/
structure Edited (cwd : Place) (root : Path) (own : List Artifact) (t t' : FileTree) : Prop where
  manifest : t'.look (placeOf cwd (Manifest.path root)) = t.look (placeOf cwd (Manifest.path root))
  listed : ∀ a ∈ own, ∀ key, Manifest.key? a.path = some key →
    t'.look (placeOf cwd (root.join ⟨key⟩)) ≠ some .directory
  directories : ∀ place, t.look place = some .directory →
    ∀ bytes, t'.look place ≠ some (.file bytes)
  passed : ∀ front rest, route cwd root = front ++ rest →
    t.look (Place.reach front) = some .directory → t'.look (Place.reach front) = some .directory

/-- Changes that take no directory away. -/
theorem Edited.of_kept (hkept : DirectoriesKept t t')
    (hmanifest : t'.look (placeOf cwd (Manifest.path root)) =
      t.look (placeOf cwd (Manifest.path root)))
    (hlisted : ∀ a ∈ own, ∀ key, Manifest.key? a.path = some key →
      t'.look (placeOf cwd (root.join ⟨key⟩)) ≠ some .directory) : Edited cwd root own t t' where
  manifest := hmanifest
  listed := hlisted
  directories place hlook bytes hfile := by
    rw [hkept place hlook] at hfile
    cases hfile
  passed _ _ _ := hkept _

/-- Whether the file of a key has other contents than the last artifact with that key. -/
def isEdited (t : FileTree) (cwd : Place) (root : Path) (own : List Artifact) (key : String) :
    Bool :=
  (t.bytesAt (placeOf cwd (root.join ⟨key⟩))).any fun bytes =>
    some bytes ≠ (latest own key).map fun a => Text.utf8 a.contents

/-- Whether there is no file at a key. -/
def isLost (t : FileTree) (cwd : Place) (root : Path) (key : String) : Bool :=
  (t.bytesAt (placeOf cwd (root.join ⟨key⟩))).isNone

theorem of_latest_eq_some {a : Artifact} (h : latest own key = some a) :
    a ∈ own ∧ Manifest.key? a.path = some key := by
  obtain ⟨ha, hkey⟩ := List.mem_filter.1 (List.mem_of_getLast? h)
  exact ⟨ha, by simpa using hkey⟩

/-- An entry of the manifest has the digest of the last artifact with its key. -/
theorem of_mem_entries (hitems : ∀ k ∈ items, k.Valid) {digest : String}
    (h : (key, digest) ∈ (manifestFor rep items).files.entries) :
    (∃ k ∈ items, k.key = key) ∧ ∃ a, latest (items.map Keyed.artifact) key = some a ∧
      Digest.sha256Hex (Text.utf8 a.contents) = digest := by
  refine ⟨(mem_keys_manifestFor rep).1 (List.mem_map.2 ⟨_, h, rfl⟩), ?_⟩
  have hget := StringMap.get?_of_mem h
  rw [manifestFor, get?_record hitems] at hget
  obtain ⟨a, ha, hdigest⟩ := Option.map_eq_some_iff.1 (hget.symm.trans Option.or_none).symm
  exact ⟨a, ha, hdigest⟩

/-- By its digest it is seen whether a file has been edited. -/
theorem any_digest_eq {digest : String} {a : Artifact}
    (hdigest : DigestsApart (involved t cwd root own)) (hlatest : latest own key = some a)
    (hsame : Digest.sha256Hex (Text.utf8 a.contents) = digest)
    (hplace : placeOf cwd (root.join a.path) = placeOf cwd (root.join ⟨key⟩)) :
    (t.bytesAt (placeOf cwd (root.join ⟨key⟩))).any (Digest.sha256Hex · ≠ digest) =
      isEdited t cwd root own key := by
  have ha := (of_latest_eq_some hlatest).1
  rw [isEdited, hlatest]
  cases hbytes : t.bytesAt (placeOf cwd (root.join ⟨key⟩)) with
  | none => rw [Option.any_none, Option.any_none]
  | some bytes =>
    have hold : Text.utf8 a.contents ∈ involved t cwd root own :=
      List.mem_append_left _ (List.mem_map.2 ⟨a, ha, rfl⟩)
    have hnew : bytes ∈ involved t cwd root own := by
      refine List.mem_append_right _ (List.mem_filterMap.2 ⟨a, ha, ?_⟩)
      rw [hplace]
      exact hbytes
    have hiff : Digest.sha256Hex bytes = digest ↔ bytes = Text.utf8 a.contents := by
      rw [← hsame]
      exact ⟨hdigest _ hnew _ hold, fun heq => by rw [heq]⟩
    simp [hiff]

namespace Generated

variable (h : Generated cwd root rep items t)
  (hedited : Edited cwd root (items.map Keyed.artifact) t t')

include h hedited

theorem leads_edited : Leads t' cwd root :=
  fun front rest hsplit => hedited.passed front rest hsplit (h.leads front rest hsplit)

/-- The file of a key is read, or it is found that there is none. -/
theorem read_key (hk : k ∈ items) :
    t'.read cwd (root.join ⟨k.key⟩) =
      readingOf (t'.bytesAt (placeOf cwd (root.join ⟨k.key⟩))) := by
  have hvalid := h.valid k hk
  have hbelow : (root.join ⟨k.key⟩).Below root (placeOfKey k.key) :=
    Path.below_join hvalid.isKey.names?
  have hp := (h.path k hk).of_key hvalid
  have hleads := h.leads_edited hedited
  have hlisted := hedited.listed k.artifact (List.mem_map_of_mem hk) k.key hvalid
  have hfile := h.file k hk
  rw [FileTree.bytesAt]
  rw [FileTree.bytesAt] at hfile
  rw [hbelow.placeOf_eq] at hlisted hfile ⊢
  cases hlook : t'.look (placeOf cwd root ++ placeOfKey k.key) with
  | none =>
    refine hleads.read_of_none hbelow hvalid.isKey.ne_nil hp (fun rel hrel hne => ?_) hlook
    -- The file was there, and so were the directories on the way to it.
    obtain ⟨rest, hrest⟩ := hrel
    refine hedited.directories _ ?_
    obtain ⟨bytes, hbytes⟩ := Option.ne_none_iff_exists'.1 hfile
    have hlook := Item.bytes?_eq_some.1 hbytes
    rw [← hrest, ← List.append_assoc] at hlook
    exact FileTree.look_of_look_append hlook fun hnil => hne (by rw [← hrest, hnil, List.append_nil])
  | some item =>
    cases item with
    | file bytes => exact hleads.read hbelow hp (filesAt_eq_some.2 hlook)
    | directory => exact absurd hlook hlisted

/-- **A check** counts the keys of the manifest, and finds those whose files have been edited and
those that have none. -/
theorem on_verify (hdigest : DigestsApart (involved t' cwd root (items.map Keyed.artifact))) :
    (verify root).on cwd t' =
      (.ok ⟨(manifestFor rep items).files.keys.length,
        (manifestFor rep items).files.keys.filter
          (isEdited t' cwd root (items.map Keyed.artifact)),
        (manifestFor rep items).files.keys.filter (isLost t' cwd root)⟩, t') := by
  have hread : t'.read cwd (Manifest.path root) =
      .ok (Text.utf8 (manifestFor rep items).render) := by
    refine (h.leads_edited hedited).read (below_manifestPath root) h.manifestPath
      (filesAt_eq_some.2 ?_)
    rw [← (below_manifestPath root).placeOf_eq, hedited.manifest, h.manifest]
  have hload : (loadManifest root).on cwd t' = (.ok (some (manifestFor rep items)), t') := by
    rw [on_loadManifest, hread, manifestOf, Text.ofUtf8?_utf8]
    dsimp only
    rw [manifestIn, Manifest.parse?_render]
  have hreads : ∀ e ∈ (manifestFor rep items).files.entries, t'.read cwd (root.join ⟨e.1⟩) =
      readingOf (t'.bytesAt (placeOf cwd (root.join ⟨e.1⟩))) := by
    intro e he
    obtain ⟨⟨k, hk, hkey⟩, -⟩ := of_mem_entries h.valid he
    rw [← hkey]
    exact h.read_key hedited hk
  -- Digests are compared, and they differ exactly where contents do.
  have hmodified := StringMap.filter_keys (m := (manifestFor rep items).files)
    (f := isEdited t' cwd root (items.map Keyed.artifact))
    (g := fun e => (t'.bytesAt (placeOf cwd (root.join ⟨e.1⟩))).any (Digest.sha256Hex · ≠ e.2))
    fun key digest hmem => by
      obtain ⟨-, a, hlatest, hsame⟩ := of_mem_entries h.valid hmem
      have hvalid : Keyed.Valid ⟨key, a⟩ := (of_latest_eq_some hlatest).2
      exact (any_digest_eq hdigest hlatest hsame (hvalid.placeOf_eq cwd root)).symm
  have hmissing := StringMap.filter_keys (m := (manifestFor rep items).files)
    (f := isLost t' cwd root) (g := fun e => (t'.bytesAt (placeOf cwd (root.join ⟨e.1⟩))).isNone)
    fun key digest _ => by rw [isLost]
  rw [verify, Program.on_bind, hload]
  dsimp only
  rw [on_checkFiles (fun key => t'.bytesAt (placeOf cwd (root.join ⟨key⟩))) hreads,
    hmodified, hmissing, StringMap.keys, List.length_map]
  simp

end Generated

/-- A report is clean if every file has the contents of the last artifact with its key. -/
theorem filter_eq_nil_iff {keys : List String}
    (hkeys : ∀ key ∈ keys, ∃ a, latest own key = some a) :
    keys.filter (isEdited t cwd root own) = [] ∧ keys.filter (isLost t cwd root) = [] ↔
      ∀ key ∈ keys, ∃ a, latest own key = some a ∧
        t.look (placeOf cwd (root.join ⟨key⟩)) = some (.file (Text.utf8 a.contents)) := by
  rw [List.filter_eq_nil_iff, List.filter_eq_nil_iff, ← forall₂_and]
  refine forall₂_congr fun key hkey => ?_
  obtain ⟨a, ha⟩ := hkeys key hkey
  rw [isEdited, isLost, ha]
  cases hbytes : t.bytesAt (placeOf cwd (root.join ⟨key⟩)) with
  | none =>
    have hlook : t.look (placeOf cwd (root.join ⟨key⟩)) ≠ some (.file (Text.utf8 a.contents)) := by
      rw [ne_eq, ← FileTree.bytesAt_eq_some, hbytes]
      simp
    simpa using hlook
  | some bytes =>
    rw [FileTree.bytesAt_eq_some] at hbytes
    simp [hbytes]

/-- **A check is exact.** After a run that succeeds, whichever of its requests met a fault, and any
changes to files that leave the manifest alone, a check succeeds. It counts the keys of the manifest,
which are those of the artifacts. It lists in order the keys whose files have other contents than the
last artifact with that key, and the keys without a file. So it is clean if and only if every file
that was generated is there with its contents. -/
theorem verify_exact (m m' later : Machine) (root : Path) (force : Bool) (rep : Representation)
    (artifacts : List Artifact) (summary : Summary)
    (hkeys : ∀ key ∈ keysOf (earlier m.tree m.cwd root rep), IsKey key)
    (hwrite : (writeTree root force rep artifacts).run m = (.ok summary, m'))
    (hcwd : later.cwd = m.cwd) (hquiet : later.faults = [])
    (hedited : Edited m.cwd root (artifactsFor artifacts rep) m'.tree later.tree)
    (hdigest : DigestsApart (involved later.tree m.cwd root (artifactsFor artifacts rep))) :
    ∃ manifest report, m'.tree.manifest? (placeOf m.cwd root) = some manifest ∧
      (∀ key, key ∈ manifest.files.keys ↔
        ∃ a ∈ artifactsFor artifacts rep, Manifest.key? a.path = some key) ∧
      ((verify root).run later).1 = .ok report ∧
      report.checked = manifest.files.keys.length ∧
      report.modified = manifest.files.keys.filter
        (isEdited later.tree m.cwd root (artifactsFor artifacts rep)) ∧
      report.missing = manifest.files.keys.filter (isLost later.tree m.cwd root) ∧
      report.modified.Pairwise (· < ·) ∧ report.missing.Pairwise (· < ·) ∧
      (report.isClean = true ↔ ∀ key ∈ manifest.files.keys, ∃ a,
        latest (artifactsFor artifacts rep) key = some a ∧
        later.tree.look (placeOf m.cwd (root.join ⟨key⟩)) =
          some (.file (Text.utf8 a.contents))) := by
  rw [writeTree_eq] at hwrite
  obtain ⟨previous, m₁, hprepare, hwrite⟩ := Program.run_bind_eq_ok.1 hwrite
  -- The preparation hands on no manifest, or the earlier one.
  have hprevious : ∀ key ∈ keysOf previous, IsKey key := by
    rcases previous_of_run_prepare hprepare with rfl | rfl
    · intro key hkey
      cases hkey
    · exact hkeys
  obtain ⟨items, hown, hgenerated⟩ := generated_of_writeAfter hprevious hwrite
  rw [Program.cwd_of_run hprepare] at hgenerated
  rw [← hown] at hedited hdigest ⊢
  have hverify := hgenerated.on_verify hedited hdigest
  have hsorted := (manifestFor rep items).files.sorted
  -- Every key of the manifest has a latest artifact, so a clean report speaks of all of them.
  have hlatest : ∀ key ∈ (manifestFor rep items).files.keys,
      ∃ a, latest (items.map Keyed.artifact) key = some a := by
    intro key hkey
    rw [← Option.ne_none_iff_exists', ne_eq, latest_eq_none_iff hgenerated.valid, not_not]
    exact (mem_keys_manifestFor rep).1 hkey
  refine ⟨manifestFor rep items, ⟨(manifestFor rep items).files.keys.length,
      (manifestFor rep items).files.keys.filter _, (manifestFor rep items).files.keys.filter _⟩,
    ?_, fun key => ?_, ?_, rfl, rfl, rfl, hsorted.filter _, hsorted.filter _, ?_⟩
  · refine manifest?_of_look ?_
    rw [← (below_manifestPath root).placeOf_eq]
    exact hgenerated.manifest
  · rw [mem_keys_manifestFor]
    constructor
    · rintro ⟨k, hk, rfl⟩
      exact ⟨k.artifact, List.mem_map_of_mem hk, hgenerated.valid k hk⟩
    · rintro ⟨a, ha, hkey⟩
      obtain ⟨k, hk, rfl⟩ := List.mem_map.1 ha
      exact ⟨k, hk, Option.some.inj ((hgenerated.valid k hk).symm.trans hkey)⟩
  · rw [(Program.run_of_quiet _ hquiet).1, hcwd, hverify]
  · rw [Report.isClean, Bool.and_eq_true, List.isEmpty_iff, List.isEmpty_iff]
    exact filter_eq_nil_iff hlatest

/-- A machine with an empty directory, whose first request fails. -/
def faltering : Machine where
  tree := ⟨[("work", .directory [])]⟩
  cwd := ["work"]
  faults := [some ⟨.other "Input/output error (os error 5)", 0⟩]

/-- Two contents for one key, and another file. -/
def drafts : List Artifact :=
  [⟨.host, ⟨"a/f"⟩, "1"⟩, ⟨.host, ⟨"a//f"⟩, "2"⟩, ⟨.host, ⟨"b"⟩, "4"⟩]

/-- The machine after these have been written, one file has been edited and the other removed. -/
def revised : Machine where
  tree := (((writeTree ⟨"r"⟩ false .host drafts).run faltering).2.tree.insert
    ["work", "r", "a", "f"] (.file (Text.utf8 "1"))).erase ["work", "r", "b"]
  cwd := ["work"]

theorem exists_concat_of_file {place : Place} (h : t.look place = some (.file bytes)) :
    ∃ parent name, place = parent ++ [name] ∧ t.look parent = some .directory := by
  rcases List.eq_nil_or_concat' place with rfl | ⟨parent, name, rfl⟩
  · cases h
  · exact ⟨parent, name, rfl, FileTree.look_of_look_append h (by simp)⟩

/-- An edit and a removal, and nothing else. -/
theorem of_insert_erase {place place' : Place} {old old' : List UInt8}
    (hfile : t.look place = some (.file old)) (hfile' : t.look place' = some (.file old'))
    (hne : place' ≠ place) (bytes : List UInt8) :
    DirectoriesKept t ((t.insert place (.file bytes)).erase place') ∧
      ∀ other, ((t.insert place (.file bytes)).erase place').look other =
        if other = place' then none
        else if other = place then some (.file bytes) else t.look other := by
  have hset : FileTree.Sets t (t.insert place (.file bytes)) place (some (.file bytes)) := by
    obtain ⟨parent, name, rfl, hparent⟩ := exists_concat_of_file hfile
    exact FileTree.sets_insert hparent (fun _ => FileTree.look_file bytes) fun rest =>
      FileTree.look_append_of_file hfile
  have hfile₁ : (t.insert place (.file bytes)).look place' = some (.file old') := by
    rw [hset, if_neg hne, hfile']
  have hgone : FileTree.Sets (t.insert place (.file bytes))
      ((t.insert place (.file bytes)).erase place') place' none := by
    obtain ⟨parent, name, rfl, hparent⟩ := exists_concat_of_file hfile₁
    exact FileTree.sets_erase hparent fun rest => FileTree.look_append_of_file hfile₁
  refine ⟨(kept_of_sets hset (by simp [hfile])).trans (kept_of_sets hgone (by simp [hfile₁])),
    fun other => ?_⟩
  rw [hgone, hset]

/-- A check after one file has got the contents of the first artifact with its key, which is not the
last one, and the other file has been removed. -/
theorem verify_exact_revised :
    ((writeTree ⟨"r"⟩ false .host drafts).run faltering).1 = .ok ⟨3, 0, []⟩ ∧
      ∃ report, ((verify ⟨"r"⟩).run revised).1 = .ok report ∧
        (∀ key, key ∈ report.modified ↔ key = "a/f") ∧ ∀ key, key ∈ report.missing ↔ key = "b" := by
  have hrun : ((writeTree ⟨"r"⟩ false .host drafts).run faltering).1 = .ok ⟨3, 0, []⟩ ∧
      ((writeTree ⟨"r"⟩ false .host drafts).run faltering).2.tree.look ["work", "r", "a", "f"] =
        some (.file (Text.utf8 "2")) ∧
      ((writeTree ⟨"r"⟩ false .host drafts).run faltering).2.tree.look ["work", "r", "b"] =
        some (.file (Text.utf8 "4")) := by
    decide +kernel
  have hearlier : earlier faltering.tree faltering.cwd ⟨"r"⟩ .host = none := by decide +kernel
  have hkeyed (key : String) : (∃ a ∈ artifactsFor drafts .host, Manifest.key? a.path = some key) ↔
      key = "a/f" ∨ key = "b" := by
    have hf : Manifest.key? ⟨"a/f"⟩ = some "a/f" := by decide
    have hf' : Manifest.key? ⟨"a//f"⟩ = some "a/f" := by decide
    have hb : Manifest.key? ⟨"b"⟩ = some "b" := by decide
    have hown : artifactsFor drafts .host = drafts := rfl
    rw [hown, drafts]
    simp only [List.mem_cons, List.not_mem_nil, or_false, exists_eq_or_imp, exists_eq_left, hf, hf',
      hb, Option.some_inj]
    grind
  have hf : placeOf faltering.cwd (Path.join ⟨"r"⟩ ⟨"a/f"⟩) = ["work", "r", "a", "f"] := by decide
  have hb : placeOf faltering.cwd (Path.join ⟨"r"⟩ ⟨"b"⟩) = ["work", "r", "b"] := by decide
  have hmanifest : placeOf faltering.cwd (Manifest.path ⟨"r"⟩) = ["work", "r", manifestFile] := by
    decide
  have hdigest : DigestsApart (involved revised.tree faltering.cwd ⟨"r"⟩
      (artifactsFor drafts .host)) := by decide +kernel
  obtain ⟨hanswer, hfile, hfile'⟩ := hrun
  obtain ⟨hkept, hlook⟩ : DirectoriesKept
        ((writeTree ⟨"r"⟩ false .host drafts).run faltering).2.tree revised.tree ∧
      ∀ other, revised.tree.look other = if other = ["work", "r", "b"] then none
        else if other = ["work", "r", "a", "f"] then some (.file (Text.utf8 "1"))
        else ((writeTree ⟨"r"⟩ false .host drafts).run faltering).2.tree.look other :=
    of_insert_erase hfile hfile' (by decide) (Text.utf8 "1")
  have hedited : Edited faltering.cwd ⟨"r"⟩ (artifactsFor drafts .host)
      ((writeTree ⟨"r"⟩ false .host drafts).run faltering).2.tree revised.tree := by
    refine .of_kept hkept ?_ fun a ha key hkey => ?_
    · rw [hmanifest, hlook, if_neg (by decide), if_neg (by decide)]
    · rcases (hkeyed key).1 ⟨a, ha, hkey⟩ with rfl | rfl
      · rw [hf, hlook, if_neg (by decide), if_pos rfl]
        simp
      · rw [hb, hlook, if_pos rfl]
        simp
  generalize hresult : (writeTree ⟨"r"⟩ false .host drafts).run faltering = result at hanswer hedited
  obtain ⟨answer, m'⟩ := result
  obtain rfl := hanswer
  obtain ⟨manifest, report, -, hkeys, hreport, -, hmodified, hmissing, -⟩ :=
    verify_exact faltering m' revised ⟨"r"⟩ false .host drafts _
      (by rw [hearlier]; simp [keysOf]) hresult rfl rfl hedited hdigest
  refine ⟨rfl, report, hreport, fun key => ?_, fun key => ?_⟩
  · rw [hmodified, List.mem_filter, hkeys, hkeyed]
    constructor
    · rintro ⟨rfl | rfl, hedit⟩
      · rfl
      · rw [isEdited, FileTree.bytesAt, hb, hlook, if_pos rfl] at hedit
        cases hedit
    · rintro rfl
      refine ⟨.inl rfl, ?_⟩
      rw [isEdited, FileTree.bytesAt, hf, hlook, if_neg (by decide), if_pos rfl]
      decide
  · rw [hmissing, List.mem_filter, hkeys, hkeyed]
    constructor
    · rintro ⟨rfl | rfl, hlost⟩
      · rw [isLost, FileTree.bytesAt, hf, hlook, if_neg (by decide), if_pos rfl] at hlost
        cases hlost
      · rfl
    · rintro rfl
      refine ⟨.inr rfl, ?_⟩
      rw [isLost, FileTree.bytesAt, hb, hlook, if_pos rfl]
      rfl

end Output

end WireSchema
