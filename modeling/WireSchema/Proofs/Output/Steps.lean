import WireSchema.Proofs.Output.Growth

/-!
# The steps of a run in a grown tree

Each step of a run takes a grown tree to another: directories are made (`makeDirectories_grown`), a
file is replaced (`replaceFile_grown`), a file is removed together with the directories that it
leaves empty (`grown_of_removeStale`).

Whether a step succeeds depends on its path and on the files that are there: no file can lie where
another one needs a directory. `replaceFile_inv` reads this off a step that has succeeded, so that
the same step can be made in another tree.
-/

namespace WireSchema.Output

open Disk

variable {base t t' : FileTree} {cwd : Place} {root p : Path} {files : Files} {way names : Place}

/-! ## Making directories -/

theorem kind_eq_directory (h : t.kind cwd p = .ok .directory) :
    t.destination cwd p = .ok (placeOf cwd p) ∧ t.look (placeOf cwd p) = some .directory := by
  have hdestination := (FileTree.kind_eq_ok h).1
  refine ⟨hdestination, ?_⟩
  rw [FileTree.kind_eq, hdestination, Outcome.ok_bind] at h
  split at h
  · cases h
  · split_ifs at h
    cases h
  · assumption

/-- A place that is no directory and is set leaves all paths as they are. -/
theorem destination_of_sets {place place' : Place} {item : Option Item}
    (hsets : FileTree.Sets t t' place item) (hlook : t.look place ≠ some .directory)
    (h : t.destination cwd p = .ok place') : t'.destination cwd p = .ok place' := by
  obtain ⟨hplace, hsayable, hpass⟩ := FileTree.destination_eq_ok_iff.1 h
  refine FileTree.destination_eq_ok_iff.2 ⟨hplace, hsayable, fun front part back hsplit => ?_⟩
  obtain ⟨hdirectory, hshort⟩ := hpass front part back hsplit
  refine ⟨?_, hshort⟩
  rw [hsets, if_neg, hdirectory]
  intro heq
  rw [heq] at hdirectory
  exact hlook hdirectory

/-- A directory that has been made is there, and its path leads to it. -/
theorem of_makeDirectories (htext : p.text ≠ "")
    (h : (Program.makeDirectories p : Program OutputError _).on cwd t = (.ok (.ok ()), t')) :
    t'.destination cwd p = .ok (placeOf cwd p) ∧ t'.look (placeOf cwd p) = some .directory := by
  rw [Program.makeDirectories, Path.ancestors_eq] at h
  rcases Program.of_on_makeChain_eq_ok h with hempty | ⟨between, hmake⟩ | hkind
  · exact absurd hempty htext
  · obtain ⟨hnone, hsets⟩ := FileTree.sets_makeDirectory hmake
    rw [FileTree.makeDirectory_eq] at hmake
    obtain ⟨place, hplace, -⟩ := Outcome.bind_eq_ok.1 hmake
    obtain rfl := FileTree.destination_eq_ok hplace
    exact ⟨destination_of_sets hsets (by simp [hnone]) hplace, by rw [hsets, if_pos rfl]⟩
  · exact kind_eq_directory hkind

/-- Making directories changes nothing but that directories on the way are there. -/
theorem look_makeDirectories (cwd : Place) (t : FileTree) (p : Path) (place : Place)
    {x : Except OutputError (Except OsError Unit)}
    (h : (Program.makeDirectories p : Program OutputError _).on cwd t = (x, t')) :
    t'.look place = t.look place ∨
      (∃ a ∈ p.ancestors, a.text ≠ "" ∧ placeOf cwd a = place) ∧ t.look place = none ∧
        t'.look place = some .directory := by
  have hasks : (Program.makeDirectories p : Program OutputError _).Asks (Request.Within cwd
      (fun _ => False) fun place => ∃ a ∈ p.ancestors, a.text ≠ "" ∧ placeOf cwd a = place) :=
    Program.asks_makeChain (fun _ => trivial) fun a ha htext => .inr ⟨a, ha, htext, rfl⟩
  have hconfined := hasks.on_confined t place id
  rwa [h] at hconfined

/-- Making directories takes nothing away. -/
theorem look_of_makeDirectories {item : Item} {place : Place} (hlook : t.look place = some item)
    {x : Except OutputError (Except OsError Unit)}
    (h : (Program.makeDirectories p : Program OutputError _).on cwd t = (x, t')) :
    t'.look place = some item := by
  rcases look_makeDirectories cwd t p place h with heq | ⟨-, hnone, -⟩
  · exact heq.trans hlook
  · rw [hlook] at hnone
    cases hnone

theorem look_of_isPrefix {place rel rel' : Place}
    (hlook : t.look (place ++ rel) = some .directory) (hrel : rel' <+: rel) :
    t.look (place ++ rel') = some .directory := by
  obtain ⟨rest, rfl⟩ := hrel
  by_cases hrest : rest = []
  · rwa [hrest, List.append_nil] at hlook
  · rw [← List.append_assoc] at hlook
    exact FileTree.look_of_look_append hlook hrest

/-- A path below the root has a text, since the root has one. -/
theorem text_ne_empty (hroot : FileTree.Usable cwd root) (h : p.Below root names) :
    p.text ≠ "" := by
  intro hempty
  have hstart : p.start? = none := by rw [Path.start?, hempty]; rfl
  have hmoves : p.moves = [] := by rw [Path.moves, hempty]; rfl
  rw [h.moves, List.append_eq_nil_iff] at hmoves
  exact hroot.sayable.text (Path.text_eq_empty (h.start ▸ hstart) hmoves.1)

/-- A directory is made in one that is there, unless it is there too. -/
theorem makes_grown (hroot : Rooted base cwd root)
    (hgrown : Grown base (placeOf cwd root) files way t) (hway : way <+: names)
    (hbelow : p.Below root names) (husable : FileTree.Usable cwd p) (htidy : p.Tidy)
    (hfree : files names = none)
    (hparent : t.look (placeOf cwd root ++ names.dropLast) = some .directory) :
    ∃ t', Program.Makes t cwd p t' ∧ Grown base (placeOf cwd root) files names t' := by
  have hdestination : t.destination cwd p = .ok (placeOf cwd root ++ names) :=
    hroot.destination_eq_ok hgrown hbelow husable
      (fun rel hrel hne => look_of_isPrefix hparent (Grown.isPrefix_dropLast hrel hne)) (.inl htidy)
  -- The system makes the directory, or says that it is there already.
  cases hlook : t.look (placeOf cwd root ++ names) with
  | none =>
    have hnil : names ≠ [] := by
      rintro rfl
      rw [List.append_nil, hgrown.look_place] at hlook
      cases hlook
    have hmoves : p.moves = root.moves ++ names.dropLast ++ [names.getLast hnil] := by
      rw [List.append_assoc, List.dropLast_append_getLast, hbelow.moves]
    have hnamed : FileTree.endsNamed p = true :=
      FileTree.endsNamed_of_tidy htidy hmoves (hbelow.names _ (List.getLast_mem hnil)).2
    have hmake : t.makeDirectory cwd p =
        .ok (t.insert (placeOf cwd root ++ names) (.directory [])) := by
      rw [FileTree.makeDirectory_eq, hdestination, Outcome.ok_bind, if_pos ⟨hnamed, hlook⟩]
    have hsets := (FileTree.sets_makeDirectory hmake).2
    rw [hbelow.placeOf_eq] at hsets
    exact ⟨_, .inl hmake, hgrown.make hway hparent hlook hsets⟩
  | some item =>
    cases item with
    | file bytes =>
      rw [hgrown.file, hfree] at hlook
      cases hlook
    | directory =>
      refine ⟨t, .inr ⟨?_, FileTree.kind_of_directory hdestination hlook, rfl⟩,
        hgrown.extend hway hlook⟩
      rw [FileTree.makeDirectory_eq, hdestination, Outcome.ok_bind, if_neg]
      simp [hlook]

/-- **Making directories.** The way to a directory is made as far as it is missing. -/
theorem makeDirectories_grown (hroot : Rooted base cwd root)
    (hgrown : Grown base (placeOf cwd root) files way t) (hway : way <+: names)
    (hbelow : p.Below root names) (husable : FileTree.Usable cwd p) (htidy : p.Tidy ∨ names = [])
    (hfree : ∀ rel, rel <+: names → files rel = none) :
    ∃ t', (Program.makeDirectories p : Program OutputError _).on cwd t = (.ok (.ok ()), t') ∧
      Grown base (placeOf cwd root) files names t' := by
  unfold Program.makeDirectories
  induction names using List.reverseRecOn generalizing p way t with
  | nil =>
    -- The root itself is there.
    have hplace : t.look (placeOf cwd root ++ []) = some .directory := by
      rw [List.append_nil]
      exact hgrown.look_place
    have hdestination := hroot.destination_eq_ok hgrown hbelow husable
      (fun rel hrel hne => absurd (List.prefix_nil.1 hrel) hne) (.inr hplace)
    refine ⟨t, ?_, hgrown.extend hway hplace⟩
    rw [Path.ancestors_eq]
    refine Program.on_makeChain_of_makes (text_ne_empty hroot.usable hbelow)
      (.inr ⟨?_, FileTree.kind_of_directory hdestination hplace, rfl⟩)
    rw [FileTree.makeDirectory_eq, hdestination, Outcome.ok_bind, hplace, if_neg]
    simp
  | append_singleton names last ih =>
    obtain ⟨q, hq, hqbelow, hqtext, hqtidy⟩ := hbelow.parent?
    have htext := text_ne_empty hroot.usable hbelow
    have hqusable := husable.parent hq hqtext (text_ne_empty hroot.usable hqbelow)
    have htidy : p.Tidy := htidy.resolve_right (by simp)
    have hqfree : ∀ rel, rel <+: names → files rel = none :=
      fun rel hrel => hfree rel (hrel.trans (List.prefix_append _ _))
    have hmakes (u : FileTree) (w : Place) (hu : Grown base (placeOf cwd root) files w u)
        (hw : w <+: names ++ [last])
        (hlook : u.look (placeOf cwd root ++ names) = some .directory) :=
      makes_grown hroot hu hw hbelow husable htidy (hfree _ (List.prefix_refl _))
        (by rwa [List.dropLast_concat])
    rw [Path.ancestors_eq, hq]
    cases hparent : t.look (placeOf cwd root ++ names) with
    | none =>
      have hnotFound : t.makeDirectory cwd p = .error .notFound := by
        rw [FileTree.makeDirectory_eq,
          hroot.destination_eq_notFound hgrown hbelow husable htidy hqfree hparent]
        rfl
      -- With its parent missing, the directory cannot be on the way made so far.
      have hqway : way <+: names := by
        by_contra hlong
        have heq : way = names ++ [last] := by
          by_contra hne
          exact hlong (by simpa using Grown.isPrefix_dropLast hway hne)
        have hlook := (hgrown.directory way).2 ⟨hfree way hway, .inl (List.prefix_refl _)⟩
        rw [look_of_isPrefix hlook (heq ▸ List.prefix_append _ _)] at hparent
        cases hparent
      -- The way to the parent is made first, and then the directory is tried again.
      obtain ⟨between, hbetween, hgrown'⟩ := ih hgrown hqway hqbelow hqusable (.inl hqtidy) hqfree
      have hlook := (hgrown'.directory names).2 ⟨hqfree names (List.prefix_refl _),
        .inl (List.prefix_refl _)⟩
      obtain ⟨t', hagain, hgrown''⟩ := hmakes between names hgrown' (List.prefix_append _ _) hlook
      exact ⟨t', Program.on_makeChain_of_missing htext hnotFound hbetween hagain, hgrown''⟩
    | some item =>
      cases item with
      | file bytes =>
        rw [hgrown.file, hqfree names (List.prefix_refl _)] at hparent
        cases hparent
      | directory =>
        obtain ⟨t', hmade, hgrown'⟩ := hmakes t way hgrown hway hparent
        exact ⟨t', Program.on_makeChain_of_makes htext hmade, hgrown'⟩

/-! ## Replacing files -/

/-- A path at which a file can lie. -/
structure Placeable (cwd : Place) (p : Path) : Prop where
  usable : FileTree.Usable cwd p
  named : FileTree.endsNamed p = true
  slash : FileTree.endsSlash p = false

/-- No other file lies where `names` or a directory above it is. -/
def Free (files : Files) (names : Place) : Prop :=
  ∀ key, files key ≠ none → key <+: names ∨ names <+: key → key = names

theorem findTemporary_of_look {temporary : Temporary} {place : Place} {bytes : List UInt8}
    (h : t.destination cwd (FileTree.orDot temporary.directory) = .ok place)
    (hlook : t.look (place ++ [temporary.name]) = some (.file bytes)) :
    t.findTemporary cwd temporary = .ok (place ++ [temporary.name], bytes) := by
  have hdirectory := FileTree.look_of_look_append hlook (by simp)
  rw [FileTree.look_eq] at hdirectory
  obtain ⟨node, hnode, hitem⟩ := Option.map_eq_some_iff.1 hdirectory
  cases node with
  | file => cases hitem
  | directory entries =>
    rw [FileTree.look_of_lookup hnode] at hlook
    obtain ⟨found, hfound, hfile⟩ := Option.map_eq_some_iff.1 hlook
    cases found with
    | directory => cases hfile
    | file found =>
      cases hfile
      have hat : t.directoryAt cwd temporary.directory = .ok (place, entries) := by
        rw [FileTree.directoryAt_eq, h, Outcome.ok_bind, hnode]
      rw [FileTree.findTemporary, hat, Outcome.ok_bind]
      dsimp only
      rw [hfound]
      rfl

theorem destination_of_directoryAt {found : Place × List (String × Node)}
    (h : t.directoryAt cwd p = .ok found) :
    t.destination cwd (FileTree.orDot p) = .ok (placeOf cwd p) := by
  rw [FileTree.directoryAt_eq] at h
  obtain ⟨place, hplace, -⟩ := Outcome.bind_eq_ok.1 h
  rw [hplace, FileTree.destination_eq_ok hplace, FileTree.placeOf_orDot]

/-- A temporary file that has been made is found. -/
theorem findTemporary_of_makeTemporary {directory : Path} {temporary : Temporary}
    (h : t.makeTemporary cwd directory = .ok (temporary, t')) :
    t'.findTemporary cwd temporary = .ok (FileTree.placeOfTemporary cwd temporary, []) := by
  obtain ⟨rfl, -, hnone, hsets⟩ := FileTree.sets_makeTemporary h
  rw [FileTree.makeTemporary] at h
  obtain ⟨found, hfound, -⟩ := Outcome.bind_eq_ok.1 h
  refine findTemporary_of_look (destination_of_sets hsets (by simp [hnone])
    (destination_of_directoryAt hfound)) ?_
  exact (hsets _).trans (if_pos rfl)

/-- It is found with the bytes that it was filled with. -/
theorem findTemporary_of_fill {temporary : Temporary} {bytes : List UInt8}
    (h : t.fill cwd temporary bytes = .ok t') :
    t'.findTemporary cwd temporary = .ok (FileTree.placeOfTemporary cwd temporary, bytes) := by
  obtain ⟨⟨old, hold⟩, hsets⟩ := FileTree.sets_fill h
  rw [FileTree.fill] at h
  obtain ⟨_, hfile, -⟩ := Outcome.bind_eq_ok.1 h
  rw [FileTree.findTemporary] at hfile
  obtain ⟨found, hfound, -⟩ := Outcome.bind_eq_ok.1 hfile
  refine findTemporary_of_look (destination_of_sets hsets (by simp [hold])
    (destination_of_directoryAt hfound)) ?_
  exact (hsets _).trans (if_pos rfl)

theorem exists_makeTemporary {place : Place} (h : t.destination cwd (FileTree.orDot p) = .ok place)
    (hlook : t.look place = some .directory) :
    ∃ temporary t', t.makeTemporary cwd p = .ok (temporary, t') := by
  rw [FileTree.look_eq] at hlook
  obtain ⟨node, hnode, hitem⟩ := Option.map_eq_some_iff.1 hlook
  cases node with
  | file => cases hitem
  | directory entries =>
    have hat : t.directoryAt cwd p = .ok (place, entries) := by
      rw [FileTree.directoryAt_eq, h, Outcome.ok_bind, hnode]
    rw [FileTree.makeTemporary, hat, Outcome.ok_bind]
    exact ⟨_, _, rfl⟩

/-- A file is written beside its place and moved there: in the end nothing else has changed. -/
theorem sets_of_requests {directory : Path} {temporary : Temporary} {bytes : List UInt8}
    {t₁ t₂ t₃ : FileTree} (hmake : t.makeTemporary cwd directory = .ok (temporary, t₁))
    (hfill : t₁.fill cwd temporary bytes = .ok t₂)
    (hpersist : t₂.persist cwd temporary p = .ok t₃) :
    t.look (placeOf cwd p) ≠ some .directory ∧
      FileTree.Sets t t₃ (placeOf cwd p) (some (.file bytes)) := by
  obtain ⟨-, -, hnone, hsets₁⟩ := FileTree.sets_makeTemporary hmake
  have hsets₂ := (FileTree.sets_fill hfill).2
  obtain ⟨found, between, hfound, hnot, hfrom, hto⟩ := FileTree.sets_persist hpersist
  obtain rfl : bytes = found := by
    rw [hsets₂, if_pos rfl] at hfound
    cases hfound
    rfl
  constructor
  · intro hlook
    have hapart : placeOf cwd p ≠ FileTree.placeOfTemporary cwd temporary := by
      intro heq
      rw [← heq, hlook] at hnone
      cases hnone
    rw [hsets₂, if_neg hapart, hsets₁, if_neg hapart] at hnot
    exact hnot hlook
  · intro other
    rw [hto, hfrom, hsets₂, hsets₁]
    split_ifs with hother htemporary
    · rfl
    · rw [htemporary, hnone]
    · rfl

/-- A file can be written beside its place and moved there. -/
theorem replace_of_placeable {directory : Path} {front : Place} (bytes : List UInt8)
    (hp : Placeable cwd p) (hdirectory : t.destination cwd (FileTree.orDot directory) = .ok front)
    (hfront : t.look front = some .directory)
    (htarget : t.destination cwd p = .ok (placeOf cwd p))
    (hlook : t.look (placeOf cwd p) ≠ some .directory) :
    ∃ temporary t₁ t₂ t₃, t.makeTemporary cwd directory = .ok (temporary, t₁) ∧
      t₁.fill cwd temporary bytes = .ok t₂ ∧ t₂.persist cwd temporary p = .ok t₃ ∧
      FileTree.Sets t t₃ (placeOf cwd p) (some (.file bytes)) := by
  obtain ⟨temporary, t₁, hmake⟩ := exists_makeTemporary hdirectory hfront
  obtain ⟨-, -, hnone, hsets₁⟩ := FileTree.sets_makeTemporary hmake
  have hfill : ∃ t₂, t₁.fill cwd temporary bytes = .ok t₂ := by
    rw [FileTree.fill, findTemporary_of_makeTemporary hmake]
    exact ⟨_, rfl⟩
  obtain ⟨t₂, hfill⟩ := hfill
  obtain ⟨⟨old, hold⟩, hsets₂⟩ := FileTree.sets_fill hfill
  -- The temporary file is no directory, so the target is where it was without it.
  have htarget₂ : t₂.destination cwd p = .ok (placeOf cwd p) :=
    destination_of_sets hsets₂ (by simp [hold])
      (destination_of_sets hsets₁ (by simp [hnone]) htarget)
  have hpersist : ∃ t₃, t₂.persist cwd temporary p = .ok t₃ := by
    have hkept : t₂.look (placeOf cwd p) ≠ some .directory := by
      rw [hsets₂, hsets₁]
      split_ifs
      · simp
      · exact hlook
    have hnul : ¬FileTree.holdsNul p = true := by simp [hp.usable.sayable.nul]
    rw [FileTree.persist, if_neg hnul, findTemporary_of_fill hfill, FileTree.locate_eq, htarget₂]
    simp only [Outcome.ok_bind, hp.named, hp.slash]
    rw [if_neg (by decide), if_neg (by decide), if_neg (mt FileTree.isDirectory_get?.1 hkept)]
    exact ⟨_, rfl⟩
  obtain ⟨t₃, hpersist⟩ := hpersist
  exact ⟨temporary, t₁, t₂, t₃, hmake, hfill, hpersist,
    (sets_of_requests hmake hfill hpersist).2⟩

theorem of_persist {temporary : Temporary} (h : t.persist cwd temporary p = .ok t') :
    t.destination cwd p = .ok (placeOf cwd p) ∧ Placeable cwd p := by
  unfold FileTree.persist at h
  obtain ⟨-, h⟩ := Outcome.check_eq_ok.1 h
  obtain ⟨⟨_, _⟩, -, h⟩ := Outcome.bind_eq_ok.1 h
  obtain ⟨goal, hgoal, h⟩ := Outcome.bind_eq_ok.1 h
  obtain ⟨hdestination, rfl⟩ := FileTree.locate_eq_ok hgoal
  obtain ⟨hnamed, h⟩ := Outcome.check_eq_ok.1 h
  obtain ⟨hslash, -⟩ := Outcome.check_eq_ok.1 h
  exact ⟨hdestination, FileTree.usable_of_destination hdestination, by simpa using hnamed,
    by simpa using hslash⟩

theorem on_commit_eq_ok {temporary : Temporary} {bytes : List UInt8} :
    (commit temporary p bytes).on cwd t = (.ok (.ok ()), t') ↔
      ∃ between, t.fill cwd temporary bytes = .ok between ∧
        between.persist cwd temporary p = .ok t' := by
  rw [commit, Program.on_request_bind, FileTree.reply]
  cases t.fill cwd temporary bytes with
  | error cause =>
    constructor
    · rintro ⟨⟩
    · rintro ⟨_, ⟨⟩, -⟩
  | ok between =>
    have hpersist :
        (Program.request (.persist temporary p) : Program OutputError _).on cwd between =
          (.ok (.ok ()), t') ↔ between.persist cwd temporary p = .ok t' := by
      rw [← FileTree.settle_eq_ok (t := between)]
      constructor
      · intro h
        obtain ⟨hanswer, htree⟩ := Prod.mk.inj h
        exact Prod.ext (Except.ok.inj hanswer) htree
      · intro h
        rw [Program.request, Program.on, Program.on, FileTree.reply, h]
    constructor
    · intro h
      exact ⟨between, rfl, hpersist.1 h⟩
    · rintro ⟨_, ⟨⟩, h⟩
      exact hpersist.2 h

/-- A file is replaced if and only if each of the requests for it succeeds. -/
theorem on_replaceFile_eq_ok {bytes : List UInt8} :
    (replaceFile p bytes).on cwd t = (.ok (), t') ↔
      ∃ parent t₀ temporary t₁ t₂, p.parent? = some parent ∧
        (Program.makeDirectories parent : Program OutputError _).on cwd t = (.ok (.ok ()), t₀) ∧
        t₀.makeTemporary cwd parent = .ok (temporary, t₁) ∧
        t₁.fill cwd temporary bytes = .ok t₂ ∧ t₂.persist cwd temporary p = .ok t' := by
  rw [replaceFile]
  cases p.parent? with
  | none =>
    constructor
    · rintro ⟨⟩
    · rintro ⟨_, _, _, _, _, ⟨⟩, -⟩
  | some parent =>
    constructor
    · intro h
      obtain ⟨made, t₀, hmade, h⟩ := Program.on_bind_eq_ok.1 h
      cases made with
      | error => cases h
      | ok =>
        obtain ⟨temporary, t₁, hdemand, h⟩ := Program.on_bind_eq_ok.1 h
        obtain ⟨done, t₂, hdone, h⟩ := Program.on_bind_eq_ok.1 h
        cases done with
        | error cause =>
          obtain ⟨_, _, -, h⟩ := Program.on_bind_eq_ok.1 h
          cases h
        | ok =>
          cases h
          obtain ⟨t₂, hfill, hpersist⟩ := on_commit_eq_ok.1 hdone
          refine ⟨parent, t₀, temporary, t₁, t₂, rfl, hmade, ?_, hfill, hpersist⟩
          rw [Program.on_demand, FileTree.reply] at hdemand
          cases hmake : t₀.makeTemporary cwd parent with
          | error =>
            rw [hmake] at hdemand
            cases hdemand
          | ok result =>
            rw [hmake] at hdemand
            cases hdemand
            rfl
    · rintro ⟨_, t₀, temporary, t₁, t₂, ⟨⟩, hmade, hmake, hfill, hpersist⟩
      refine Program.on_bind_eq_ok.2 ⟨.ok (), t₀, hmade, Program.on_bind_eq_ok.2
        ⟨temporary, t₁, ?_, Program.on_bind_eq_ok.2
          ⟨.ok (), t', on_commit_eq_ok.2 ⟨t₂, hfill, hpersist⟩, rfl⟩⟩⟩
      rw [Program.on_demand, FileTree.reply, hmake]
      rfl

/-- **Replacing a file.** A file is put where it belongs, and its directories are made. -/
theorem replaceFile_grown (hroot : Rooted base cwd root)
    (hgrown : Grown base (placeOf cwd root) files [] t) (hbelow : p.Below root names)
    (hne : names ≠ []) (hp : Placeable cwd p) (hfree : Free files names) (bytes : List UInt8) :
    ∃ t', (replaceFile p bytes).on cwd t = (.ok (), t') ∧
      Grown base (placeOf cwd root) (Function.update files names (some bytes)) [] t' := by
  obtain ⟨front, last, rfl⟩ := (List.eq_nil_or_concat' names).resolve_left hne
  obtain ⟨parent, hparent, hparentBelow, hparentText, hparentTidy⟩ := hbelow.parent?
  have htext := text_ne_empty hroot.usable hparentBelow
  have hfrontFree : ∀ rel, rel <+: front → files rel = none := by
    intro rel hrel
    by_contra hsome
    have heq := hfree rel hsome (.inl (hrel.trans (List.prefix_append _ _)))
    exact Grown.not_isPrefix_concat front last (heq ▸ hrel)
  obtain ⟨t₀, hmade, hgrown₀⟩ := makeDirectories_grown hroot hgrown List.nil_prefix hparentBelow
    (hp.usable.parent hparent hparentText htext) (.inl hparentTidy) hfrontFree
  have hlook : t₀.look (placeOf cwd root ++ front) = some .directory :=
    (hgrown₀.directory front).2 ⟨hfrontFree front (List.prefix_refl _), .inl (List.prefix_refl _)⟩
  have hdirectory : t₀.destination cwd parent = .ok (placeOf cwd root ++ front) :=
    hroot.destination_eq_ok hgrown₀ hparentBelow (hp.usable.parent hparent hparentText htext)
      (fun rel hrel _ => look_of_isPrefix hlook hrel) (.inr hlook)
  have htarget : t₀.destination cwd p = .ok (placeOf cwd p) := by
    rw [hbelow.placeOf_eq]
    refine hroot.destination_eq_ok hgrown₀ hbelow hp.usable (fun rel hrel hrel' => ?_)
      (.inl (FileTree.tidy_of_endsNamed hp.named))
    exact look_of_isPrefix hlook (by simpa using Grown.isPrefix_dropLast hrel hrel')
  -- A directory at the target would be needed by a file below it, but the place is free.
  have hnotDirectory : t₀.look (placeOf cwd p) ≠ some .directory := by
    rw [hbelow.placeOf_eq, ne_eq, hgrown₀.directory]
    rintro ⟨hnone, hbefore | ⟨key, hkey, hbefore⟩⟩
    · exact Grown.not_isPrefix_concat front last hbefore
    · rw [hfree key hkey (.inr hbefore)] at hkey
      exact hkey hnone
  obtain ⟨temporary, t₁, t₂, t', hmake, hfill, hpersist, hsets⟩ :=
    replace_of_placeable bytes hp (by rwa [FileTree.orDot, if_neg htext]) hlook htarget
      hnotDirectory
  rw [hbelow.placeOf_eq] at hsets
  exact ⟨t', on_replaceFile_eq_ok.2
    ⟨parent, t₀, temporary, t₁, t₂, hparent, hmade, hmake, hfill, hpersist⟩,
    Grown.put (by rwa [List.dropLast_concat]) hne hsets⟩

/-- What can be read off a file that has been replaced: its path is good for a file, and no other
file is in the way. -/
theorem replaceFile_inv (hroot : Rooted base cwd root)
    (hgrown : Grown base (placeOf cwd root) files [] t) (hbelow : p.Below root names)
    (hne : names ≠ []) {bytes : List UInt8} (h : (replaceFile p bytes).on cwd t = (.ok (), t')) :
    Placeable cwd p ∧ Free files names := by
  obtain ⟨front, last, rfl⟩ := (List.eq_nil_or_concat' names).resolve_left hne
  obtain ⟨parent, t₀, temporary, t₁, t₂, hparent, hmade, hmake, hfill, hpersist⟩ :=
    on_replaceFile_eq_ok.1 h
  obtain ⟨parent', hparent', hparentBelow, -, hparentTidy⟩ := hbelow.parent?
  obtain rfl : parent = parent' := Option.some.inj (hparent.symm.trans hparent')
  obtain ⟨hleads, hdirectory⟩ := of_makeDirectories (text_ne_empty hroot.usable hparentBelow) hmade
  rw [hparentBelow.placeOf_eq] at hdirectory
  -- A file on the way to a directory would still be there.
  have hfrontFree : ∀ rel, rel <+: front → files rel = none := by
    intro rel hrel
    by_contra hsome
    obtain ⟨found, hfound⟩ := Option.ne_none_iff_exists'.1 hsome
    have hfile := look_of_makeDirectories ((hgrown.file rel found).2 hfound) hmade
    rw [look_of_isPrefix hdirectory hrel] at hfile
    cases hfile
  obtain ⟨t₀', hmade', hgrown₀⟩ := makeDirectories_grown hroot hgrown List.nil_prefix hparentBelow
    (FileTree.usable_of_destination hleads) (.inl hparentTidy) hfrontFree
  obtain rfl : t₀ = t₀' := (Prod.mk.inj (hmade.symm.trans hmade')).2
  refine ⟨(of_persist hpersist).2, fun key hkey hkeys => ?_⟩
  by_contra hother
  rcases hkeys with hbefore | ⟨rest, hrest⟩
  · exact hkey (hfrontFree key (by simpa using Grown.isPrefix_dropLast hbefore hother))
  · -- With a file below it, the place is a directory, which no file replaces.
    obtain ⟨found, hfound⟩ := Option.ne_none_iff_exists'.1 hkey
    have hfile := (hgrown₀.file key found).2 hfound
    have hne' : rest ≠ [] := by
      rintro rfl
      exact hother (by rw [← hrest, List.append_nil])
    rw [← hrest, ← List.append_assoc] at hfile
    have hnotDirectory := (sets_of_requests hmake hfill hpersist).1
    rw [hbelow.placeOf_eq] at hnotDirectory
    exact hnotDirectory (FileTree.look_of_look_append hfile hne')

/-- A file that has been replaced has been put where it belongs. -/
theorem grown_of_replaceFile (hroot : Rooted base cwd root)
    (hgrown : Grown base (placeOf cwd root) files [] t) (hbelow : p.Below root names)
    (hne : names ≠ []) {bytes : List UInt8} (h : (replaceFile p bytes).on cwd t = (.ok (), t')) :
    Grown base (placeOf cwd root) (Function.update files names (some bytes)) [] t' := by
  obtain ⟨hp, hfree⟩ := replaceFile_inv hroot hgrown hbelow hne h
  obtain ⟨t'', hreplace, hgrown'⟩ := replaceFile_grown hroot hgrown hbelow hne hp hfree bytes
  obtain rfl : t' = t'' := (Prod.mk.inj (h.symm.trans hreplace)).2
  exact hgrown'

/-! ## Removing files -/

/-- **Removing directories.** Directories are removed from the end of the way up to the first that
is needed. -/
theorem removeEmpty_grown (hroot : Rooted base cwd root)
    (hgrown : Grown base (placeOf cwd root) files way t) (hbelow : p.Below root way)
    (husable : FileTree.Usable cwd p) (htidy : p.Tidy)
    (hfree : ∀ rel, rel <+: way → files rel = none) :
    ∃ t', (removeEmpty root p.ancestors).on cwd t = (.ok (), t') ∧
      Grown base (placeOf cwd root) files [] t' := by
  induction way using List.reverseRecOn generalizing p t with
  | nil =>
    rw [Path.ancestors_eq, removeEmpty, if_pos hbelow.same]
    exact ⟨t, rfl, hgrown⟩
  | append_singleton way last ih =>
    obtain ⟨q, hq, hqbelow, hqtext, hqtidy⟩ := hbelow.parent?
    have hmoves : p.moves = root.moves ++ way ++ [last] := by
      rw [hbelow.moves, List.append_assoc]
    have hdifferent : ¬p.same root = true := by
      rw [Path.same_iff hbelow.start, hbelow.moves]
      simp
    have hlook : t.look (placeOf cwd root ++ (way ++ [last])) = some .directory :=
      (hgrown.directory _).2 ⟨hfree _ (List.prefix_refl _), .inl (List.prefix_refl _)⟩
    have hdestination := hroot.destination_eq_ok hgrown hbelow husable
      (fun rel hrel _ => look_of_isPrefix hlook hrel) (.inr hlook)
    have hnamed := FileTree.endsNamed_of_tidy htidy hmoves (hbelow.names last (by simp)).2
    rw [Path.ancestors_eq, hq, removeEmpty, if_neg hdifferent]
    -- A directory that is removed takes the way back by one name; otherwise the walk up ends here.
    cases hremove : t.removeDirectory cwd p with
    | ok between =>
      obtain ⟨-, hempty, hsets⟩ := FileTree.sets_removeDirectory hremove
      rw [hbelow.placeOf_eq] at hempty hsets
      have hgrown' : Grown base (placeOf cwd root) files way between := by
        simpa using hgrown.shrink (by simp) hlook hempty hsets
      obtain ⟨t', hrest, hgrown''⟩ := ih hgrown' hqbelow
        (husable.parent hq hqtext (text_ne_empty hroot.usable hqbelow)) hqtidy
        fun rel hrel => hfree rel (hrel.trans (List.prefix_append _ _))
      refine ⟨t', ?_, hgrown''⟩
      rw [Program.on_request_bind, FileTree.reply, hremove]
      exact hrest
    | error cause =>
      refine ⟨t, ?_, ?_⟩
      · rw [Program.on_request_bind, FileTree.reply, hremove]
        rfl
      · -- The directory is there, so it was not removed because it is not empty.
        by_contra hnot
        have hvacant : t.isVacant (placeOf cwd root ++ (way ++ [last])) = true := by
          refine (FileTree.isVacant_iff hlook).2 fun rest hrest => ?_
          by_contra hsome
          exact hnot (hgrown.settle hrest hsome)
        rw [FileTree.removeDirectory_eq, hdestination, Outcome.ok_bind, hnamed, if_neg (by decide)]
          at hremove
        rw [FileTree.isVacant] at hvacant
        split at hvacant
        · rename_i entries hentries
          rw [hentries] at hremove
          dsimp only at hremove
          rw [if_pos hvacant] at hremove
          cases hremove
        · cases hvacant

/-- Where a file is not found for removal, there is nothing. -/
theorem Leads.look_of_notFound (h : Leads t cwd root) (hbelow : p.Below root names)
    (hne : names ≠ []) (hremove : t.removeFile cwd p = .error .notFound) :
    t.look (placeOf cwd root ++ names) = none := by
  have htext : p.text ≠ "" := by
    intro hempty
    have hmoves : p.moves = [] := by rw [Path.moves, hempty]; rfl
    rw [hbelow.moves, List.append_eq_nil_iff] at hmoves
    exact hne hmoves.2
  rw [FileTree.removeFile_eq] at hremove
  -- Either the walk ends at the place and nothing lies there, or it finds something missing before.
  cases hdestination : t.destination cwd p with
  | ok place =>
    rw [hdestination, Outcome.ok_bind, FileTree.destination_eq_ok hdestination,
      hbelow.placeOf_eq] at hremove
    split at hremove
    · cases hremove
    · split at hremove
      · assumption
      · cases hremove
      · split_ifs at hremove
        cases hremove
  | error cause =>
    rw [hdestination] at hremove
    cases hremove
    obtain ⟨front, part, back, hsplit, hnone⟩ :=
      FileTree.missing_of_destination htext hdestination
    rcases reach_of_trek hbelow hsplit with ⟨rest, hrest⟩ | ⟨rel, ⟨rest, rfl⟩, hreach, -⟩
    · rw [← Place.reach_filter, h _ rest hrest] at hnone
      cases hnone
    · rw [← List.append_assoc, ← hreach, FileTree.look_append_of_none hnone]

/-- A file of a grown tree can be found. -/
theorem removeFile_ne_notFound (hroot : Rooted base cwd root)
    (hgrown : Grown base (placeOf cwd root) files [] t) (hbelow : p.Below root names)
    (hfile : files names ≠ none) : t.removeFile cwd p ≠ .error .notFound := by
  intro h
  obtain ⟨bytes, hbytes⟩ := Option.ne_none_iff_exists'.1 hfile
  have hlook := (hgrown.file names bytes).2 hbytes
  have hne : names ≠ [] := fun hnil => hfile (hnil ▸ hgrown.top)
  rw [(hroot.leadsIn hgrown).look_of_notFound hbelow hne h] at hlook
  cases hlook

/-- A file of the earlier run is removed or not there, and directories are removed behind it. -/
theorem of_removeStale {key : String} (h : (removeStale root key).on cwd t = (.ok (), t')) :
    ∃ between, (t.removeFile cwd (root.join ⟨key⟩) = .ok between ∨
        t.removeFile cwd (root.join ⟨key⟩) = .error .notFound ∧ between = t) ∧
      (removeEmpty root (root.join ⟨key⟩).ancestors.tail).on cwd between = (.ok (), t') := by
  have hrest {between : FileTree}
      (hempty : (removeEmpty root (root.join ⟨key⟩).ancestors.tail >>= fun _ =>
        Program.log (.removedStale (root.join ⟨key⟩).text)).on cwd between = (.ok (), t')) :
      (removeEmpty root (root.join ⟨key⟩).ancestors.tail).on cwd between = (.ok (), t') := by
    obtain ⟨_, _, hempty, hlog⟩ := Program.on_bind_eq_ok.1 hempty
    cases hlog
    exact hempty
  rw [removeStale, Program.on_request_bind, FileTree.reply] at h
  cases hremove : t.removeFile cwd (root.join ⟨key⟩) with
  | ok between =>
    rw [hremove] at h
    exact ⟨between, .inl rfl, hrest h⟩
  | error cause =>
    rw [hremove] at h
    cases cause with
    | notFound => exact ⟨t, .inr ⟨rfl, rfl⟩, hrest h⟩
    | _ => cases h

/-- **Removing a file.** A file is removed, with the directories that only it needed. -/
theorem grown_of_removeStale (hroot : Rooted base cwd root)
    (hgrown : Grown base (placeOf cwd root) files [] t) {key : String}
    (hnames : (⟨key⟩ : Path).names? = some names) (hne : names ≠ []) (hfile : files names ≠ none)
    (h : (removeStale root key).on cwd t = (.ok (), t')) :
    Grown base (placeOf cwd root) (Function.update files names none) [] t' := by
  obtain ⟨front, last, rfl⟩ := (List.eq_nil_or_concat' names).resolve_left hne
  have hbelow : (root.join ⟨key⟩).Below root (front ++ [last]) := Path.below_join hnames
  obtain ⟨parent, hparent, hparentBelow, hparentText, hparentTidy⟩ := hbelow.parent?
  have htail : (root.join ⟨key⟩).ancestors.tail = parent.ancestors := by
    rw [Path.ancestors_eq, hparent]
    rfl
  obtain ⟨between, hremove | ⟨hnotFound, -⟩, hempty'⟩ := of_removeStale h
  · obtain ⟨⟨bytes, hlook⟩, hsets⟩ := FileTree.sets_removeFile hremove
    rw [hbelow.placeOf_eq] at hlook hsets
    have hgrown' : Grown base (placeOf cwd root) (Function.update files (front ++ [last]) none)
        front between := by
      simpa using hgrown.take hne hlook hsets
    have husable : FileTree.Usable cwd (root.join ⟨key⟩) := by
      rw [FileTree.removeFile_eq] at hremove
      obtain ⟨place, hplace, -⟩ := Outcome.bind_eq_ok.1 hremove
      exact FileTree.usable_of_destination hplace
    -- Only directories lie on the way to the file, so no other file of the tree is on it.
    have hfree : ∀ rel, rel <+: front →
        Function.update files (front ++ [last]) none rel = none := by
      intro rel hrel
      have hdirectory : t.look (placeOf cwd root ++ front) = some .directory :=
        FileTree.look_of_look_append (by rwa [List.append_assoc]) (List.cons_ne_nil last [])
      rw [Function.update_of_ne, ((hgrown.directory rel).1 (look_of_isPrefix hdirectory hrel)).1]
      rintro rfl
      exact Grown.not_isPrefix_concat front last hrel
    obtain ⟨t'', hempty, hgrown''⟩ := removeEmpty_grown hroot hgrown' hparentBelow
      (husable.parent hparent hparentText (text_ne_empty hroot.usable hparentBelow)) hparentTidy
      hfree
    rw [htail] at hempty'
    cases hempty.symm.trans hempty'
    exact hgrown''
  · exact absurd hnotFound (removeFile_ne_notFound hroot hgrown hbelow hfile)

end WireSchema.Output
