import WireSchema.Proofs.Output.Preparation

/-!
# Refused trees

Both trees are checked before the first is written. Each writer checks its tree once more, and the
second one does so when the first tree has been changed already. It finds what was found before,
since writing the first tree changes nothing at the second root or below it (`ofDisk_of_second`).

**Theorem (`writeTrees_on_error`).** If both trees cannot be written for another reason than the
disk, neither of them is touched.
-/

namespace WireSchema

open Disk

namespace Disk

namespace Program

variable {ε α β : Type} {p : Program ε α} {cwd : Place} {t t' : FileTree}

/-- A failure behind a question is a failure of the question, or one in the same tree. -/
theorem Asks.on_bind_error (hp : p.Asks Request.Question) {f : α → Program ε β} {error : ε}
    (h : (p >>= f).on cwd t = (.error error, t')) :
    t' = t ∨ ∃ a, p.on cwd t = (.ok a, t) ∧ (f a).on cwd t = (.error error, t') := by
  have htree := hp.on_tree_eq cwd t
  rcases on_bind_eq_error.1 h with hfail | ⟨a, between, hdone, hrest⟩
  · rw [hfail] at htree
    exact .inl htree
  · rw [hdone] at htree
    obtain rfl : between = t := htree
    exact .inr ⟨a, hdone, hrest⟩

theorem failsOnly_makeChain (E : ε → Prop) (paths : List Path) :
    (makeChain paths : Program ε _).FailsOnly E := by
  have hcheck (path : Path) (cause : OsError) :
      (do if ← isDirectory path then return .ok () else return .error cause :
        Program ε (Except OsError Unit)).FailsOnly E := by
    refine .ask fun answer => ?_
    cases answer with
    | error => exact .done _
    | ok kind => cases kind <;> exact .done _
  induction paths with
  | nil => exact .done _
  | cons path parents ih =>
    rw [makeChain]
    split_ifs
    · exact .done _
    refine failsOnly_request_bind fun answer => ?_
    split
    · exact .done _
    · refine ih.bind fun made => ?_
      cases made with
      | error => exact .done _
      | ok =>
        refine failsOnly_request_bind fun answer => ?_
        cases answer with
        | ok => exact .done _
        | error cause => exact hcheck path cause
    · exact hcheck path _

end Program

namespace FileTree

variable {t t' : FileTree} {cwd : Place} {p : Path}

/-- A grounded path that leads to something which was there before led to it before, if no directory
on the way to it has been lost. -/
theorem Grounded.destination_eq_ok (h : t.Grounded cwd p)
    (hplace : t.look (placeOf cwd p) ≠ none)
    (habove : ∀ place, place <+: placeOf cwd p → t'.look place = some .directory →
      t.look place = some .directory ∨ t.look place = none)
    (hdestination : t'.destination cwd p = .ok (placeOf cwd p)) :
    t.destination cwd p = .ok (placeOf cwd p) := by
  obtain ⟨-, hsayable, hpass⟩ := destination_eq_ok_iff.1 hdestination
  refine destination_eq_ok_iff.2 ⟨rfl, hsayable, fun front part back hsplit => ?_⟩
  obtain ⟨hlook, hshort⟩ := hpass front part back hsplit
  refine ⟨?_, hshort⟩
  rcases h.look_trek hsplit with hdirectory | hfront
  · exact hdirectory
  · rcases habove _ hfront hlook with hdirectory | hnone
    · exact hdirectory
    · obtain ⟨rest, hrest⟩ := hfront
      rw [← hrest] at hplace
      exact absurd (look_append_of_none hnone rest) hplace

end FileTree

end Disk

namespace Output

variable {cwd : Place} {t t' : FileTree} {root : Path}

/-! ## Failures of the disk -/

/-- A failure of the disk. -/
def OfDisk (error : OutputError) : Prop := error.code = 8

theorem failsOnly_replaceFile {p : Path} {names : List String} {last : String}
    (h : p.Below root (names ++ [last])) (bytes : List UInt8) :
    (replaceFile p bytes).FailsOnly OfDisk := by
  obtain ⟨parent, hparent, -⟩ := h.parent?
  rw [replaceFile, hparent]
  refine (Program.failsOnly_makeChain OfDisk parent.ancestors).bind fun made => ?_
  cases made with
  | error cause => exact .fail rfl
  | ok =>
    refine .ask fun answer => ?_
    cases answer with
    | error cause => exact .fail rfl
    | ok temporary =>
      refine Program.FailsOnly.bind (p := commit temporary p bytes) ?_ fun done => ?_
      · refine .ask fun answer => ?_
        cases answer with
        | error => exact .done _
        | ok =>
          refine .ask fun answer => ?_
          cases answer with
          | error => exact .done _
          | ok => exact .ask fun answer => .done answer
      · cases done with
        | ok => exact .done _
        | error => exact .ask fun _ => .fail rfl

theorem failsOnly_writeArtifacts {items : List Keyed}
    (h : ∀ k ∈ items, Manifest.key? k.artifact.path = some k.key) (previous : Option Manifest)
    (s : Progress) : (writeArtifacts root previous s items).FailsOnly OfDisk := by
  induction items generalizing s with
  | nil => exact .done _
  | cons k items ih =>
    refine Program.FailsOnly.bind (p := writeArtifact root previous s k) ?_ fun s =>
      ih (fun k hk => h k (List.mem_cons_of_mem _ hk)) s
    obtain ⟨names, hnames, -, hne, -⟩ := Manifest.key?_eq_some (h k List.mem_cons_self)
    obtain ⟨front, last, rfl⟩ := (List.eq_nil_or_concat' names).resolve_left hne
    rw [writeArtifact_eq]
    refine Program.FailsOnly.bind ?_ fun current => ?_
    · unfold currentDigest
      split_ifs
      · refine Program.failsOnly_request_bind fun answer => ?_
        split
        · exact .done _
        · exact .done _
        · exact .fail rfl
      · exact .done _
    · split_ifs
      · exact .done _
      · exact (failsOnly_replaceFile (Path.below_join hnames) _).bind fun _ => .report (.done _)

theorem failsOnly_removeEmpty (root : Path) (directories : List Path) :
    (removeEmpty root directories).FailsOnly OfDisk := by
  induction directories with
  | nil => exact .done _
  | cons directory rest ih =>
    rw [removeEmpty]
    split_ifs
    · exact .done _
    · refine .ask fun answer => ?_
      cases answer with
      | ok => exact ih
      | error => exact .done _

theorem failsOnly_removeAllStale (root : Path) (keys : List String) :
    (removeAllStale root keys).FailsOnly OfDisk := by
  induction keys with
  | nil => exact .done _
  | cons key keys ih =>
    refine Program.FailsOnly.bind (p := removeStale root key) ?_ fun _ => ih
    refine Program.failsOnly_request_bind fun answer => ?_
    have hempty : (removeEmpty root (root.join ⟨key⟩).ancestors.tail >>= fun _ =>
        Program.log (.removedStale (root.join ⟨key⟩).text)).FailsOnly OfDisk :=
      (failsOnly_removeEmpty root _).bind fun _ => .report (.done ())
    split
    · exact hempty
    · exact hempty
    · exact .fail rfl

/-- Once it is known that a tree may be written, only the disk can fail. -/
theorem failsOnly_writeAfter {rep : Representation} {artifacts : List Artifact} {items : List Keyed}
    (h : keyed (artifactsFor artifacts rep) = .ok items) (previous : Option Manifest) :
    (writeAfter root rep artifacts previous).FailsOnly OfDisk := by
  have hmanifest : (Manifest.path root).Below root ([] ++ [manifestFile]) :=
    Path.below_join Manifest.names?_manifestFile
  unfold writeAfter
  rw [h]
  change Program.FailsOnly _ (Program.makeDirectories root >>= _)
  refine Program.FailsOnly.bind (Program.failsOnly_makeChain OfDisk root.ancestors) fun made => ?_
  cases made with
  | error => exact .fail rfl
  | ok =>
    refine Program.FailsOnly.bind (failsOnly_writeArtifacts (key?_of_keyed h) previous _) fun s => ?_
    refine Program.FailsOnly.bind (failsOnly_removeAllStale root _) fun _ => ?_
    refine Program.FailsOnly.bind (failsOnly_replaceFile hmanifest _) fun _ => ?_
    exact .report (.done _)

/-! ## The second tree -/

/-- The verdict on a directory goes by what is in it. -/
theorem verdict_congr {place : Place} (hdirectory : t.look place = some .directory)
    (h : ∀ other, place <+: other → t'.look other = t.look other) (force : Bool)
    (rep : Representation) : verdict t' place root force rep = verdict t place root force rep := by
  have hdirectory' : t'.look place = some .directory := (h place (List.prefix_refl _)).trans hdirectory
  have hvacant : t'.isVacant place = t.isVacant place := by
    rw [Bool.eq_iff_iff, FileTree.isVacant_iff hdirectory, FileTree.isVacant_iff hdirectory']
    exact forall₂_congr fun rest _ => by rw [h _ (List.prefix_append _ _)]
  rw [verdict, verdict, h _ (List.prefix_append _ _), hvacant]

/-- A root that was taken is not refused afterwards, if nothing has changed in it. -/
theorem ofDisk_of_prepare (hground : t.Grounded cwd root)
    (hbelow : ∀ place, placeOf cwd root <+: place → t'.look place = t.look place)
    (habove : ∀ place, place <+: placeOf cwd root → t'.look place = some .directory →
      t.look place = some .directory ∨ t.look place = none)
    {force : Bool} {rep : Representation} {previous : Option Manifest} {error : OutputError}
    {t'' : FileTree} (htaken : (prepare root force rep).on cwd t = (.ok previous, t))
    (hrefused : (prepare root force rep).on cwd t' = (.error error, t'')) : OfDisk error := by
  rcases prepare_on_cases t' cwd root force rep with ⟨-, h⟩ | ⟨cause, h⟩ | ⟨hfound, hlook, hsayable⟩
  · rw [h] at hrefused
    cases hrefused
  · rw [h] at hrefused
    cases hrefused
    rfl
  · have hdirectory : t.look (placeOf cwd root) = some .directory :=
      (hbelow _ (List.prefix_refl _)).symm.trans hlook
    have hfound' := hground.destination_eq_ok (by simp [hdirectory]) habove hfound
    rw [prepare_on hfound hlook hsayable, verdict_congr hdirectory hbelow] at hrefused
    rw [prepare_on hfound' hdirectory hsayable] at htaken
    rw [(Prod.mk.inj htaken).1] at hrefused
    cases hrefused

/-- What writing a tree changes outside of it: it makes directories on the way to the root. -/
theorem look_of_writeAfter {force : Bool} {rep : Representation} {previous : Option Manifest}
    (hground : t.Grounded cwd root) (hkeys : KeysInside t (placeOf cwd root) rep)
    (hprepare : (prepare root force rep).on cwd t = (.ok previous, t)) (artifacts : List Artifact)
    {place : Place} (hplace : ¬placeOf cwd root <+: place) :
    ((writeAfter root rep artifacts previous).on cwd t).2.look place = t.look place ∨
      place <+: placeOf cwd root ∧ t.look place = none ∧
        ((writeAfter root rep artifacts previous).on cwd t).2.look place = some .directory := by
  obtain rfl := previous_of_prepare hprepare
  rcases (asks_writeAfter_earlier hkeys artifacts).on_confined t place hplace with
    heq | ⟨⟨above, habove, rfl⟩, hnone, hmade⟩
  · exact .inl heq
  · rcases hground.ancestor habove with hdirectory | hbefore
    · rw [hnone] at hdirectory
      cases hdirectory
    · exact .inr ⟨hbefore, hnone, hmade⟩

/-! ## Both trees -/

theorem question_comparable (root : Path) : (comparable root).Asks Request.Question := by
  refine (Program.asks_request (r := .resolve root) trivial).bind fun answer => ?_
  cases answer with
  | ok => exact .done _
  | error =>
    dsimp only
    split_ifs
    · exact .done _
    · refine (Program.asks_request (r := .workingDirectory) trivial).bind fun answer => ?_
      cases answer <;> exact .done _

theorem question_overlapping (host embedded : Path) :
    (overlapping host embedded).Asks Request.Question :=
  (question_comparable host).bind fun _ => (question_comparable embedded).bind fun _ => .done _

theorem keyed_eq_ok_iff {artifacts : List Artifact} :
    (∃ items, keyed artifacts = .ok items) ↔ ∀ a ∈ artifacts, Manifest.key? a.path ≠ none := by
  induction artifacts with
  | nil => exact ⟨fun _ => by simp, fun _ => ⟨[], rfl⟩⟩
  | cons a artifacts ih =>
    rw [keyed, List.forall_mem_cons, ← ih]
    cases Manifest.key? a.path with
    | none => simp
    | some key =>
      constructor
      · rintro ⟨items, h⟩
        obtain ⟨rest, hrest, -⟩ := Outcome.bind_eq_ok.1 h
        exact ⟨by simp, rest, hrest⟩
      · rintro ⟨-, rest, hrest⟩
        exact ⟨⟨key, a⟩ :: rest, Outcome.bind_eq_ok.2 ⟨rest, hrest, rfl⟩⟩

theorem keyed_artifactsFor {artifacts : List Artifact} {items : List Keyed}
    (h : keyed artifacts = .ok items) (rep : Representation) :
    ∃ items, keyed (artifactsFor artifacts rep) = .ok items :=
  keyed_eq_ok_iff.2 fun a ha => keyed_eq_ok_iff.1 ⟨items, h⟩ a (List.mem_filter.1 ha).1

/-- Two roots for which a refusal comes in time. -/
structure Separate (t : FileTree) (cwd : Place) (host embedded : Path) : Prop where
  /-- Neither of the directories is the other or lies in it. -/
  apart : ¬placeOf cwd host <+: placeOf cwd embedded ∧ ¬placeOf cwd embedded <+: placeOf cwd host
  groundedHost : t.Grounded cwd host
  groundedEmbedded : t.Grounded cwd embedded
  keys : KeysInside t (placeOf cwd host) .host

/-- Writing the host tree does not make the embedded one a tree to be refused. -/
theorem ofDisk_of_second {host embedded : Path} (h : Separate t cwd host embedded) {force : Bool}
    {artifacts : List Artifact} {previous taken : Option Manifest} {first : Summary}
    {error : OutputError} {t'' : FileTree}
    (hhost : (prepare host force .host).on cwd t = (.ok previous, t))
    (htaken : (prepare embedded force .embedded).on cwd t = (.ok taken, t))
    (hwrite : (writeAfter host .host artifacts previous).on cwd t = (.ok first, t'))
    (hrefused : (prepare embedded force .embedded).on cwd t' = (.error error, t'')) :
    OfDisk error := by
  have hlook {place : Place} (hplace : ¬placeOf cwd host <+: place) :
      t'.look place = t.look place ∨ place <+: placeOf cwd host ∧ t.look place = none := by
    have hlook := look_of_writeAfter h.groundedHost h.keys hhost artifacts hplace
    rw [hwrite] at hlook
    exact hlook.imp_right fun ⟨hbefore, hnone, _⟩ => ⟨hbefore, hnone⟩
  refine ofDisk_of_prepare h.groundedEmbedded (fun place hplace => ?_) (fun place hplace hlook' => ?_)
    htaken hrefused
  · -- A place in the embedded root is neither in the host root nor on the way to it.
    have hhost : ¬placeOf cwd host <+: place := fun hbelow =>
      (List.prefix_or_prefix_of_prefix hbelow hplace).elim h.apart.1 h.apart.2
    rcases hlook hhost with heq | ⟨hbefore, -⟩
    · exact heq
    · exact absurd (hplace.trans hbefore) h.apart.2
  · rcases hlook fun hbelow => h.apart.1 (hbelow.trans hplace) with heq | ⟨-, hnone⟩
    · exact .inl (heq.symm.trans hlook')
    · exact .inr hnone

/-- Trees that are refused are not touched. -/
theorem writeTrees_on_error {host embedded : Path} (h : Separate t cwd host embedded) {force : Bool}
    {artifacts : List Artifact} {error : OutputError}
    (hfail : (writeTrees host embedded force artifacts).on cwd t = (.error error, t'))
    (hdisk : ¬OfDisk error) : t' = t := by
  rcases (question_overlapping host embedded).on_bind_error hfail with heq | ⟨overlap, -, hfail⟩
  · exact heq
  cases overlap with
  | true =>
    cases hfail
    rfl
  | false =>
    rw [if_neg (by decide)] at hfail
    rcases (question_prepare host force .host).on_bind_error hfail with
      heq | ⟨previous, hhost, hfail⟩
    · exact heq
    rcases (question_prepare embedded force .embedded).on_bind_error hfail with
      heq | ⟨taken, htaken, hfail⟩
    · exact heq
    cases hkeyed : keyed artifacts with
    | error e =>
      rw [hkeyed] at hfail
      cases hfail
      rfl
    | ok items =>
      rw [hkeyed] at hfail
      -- Behind its preparation a run fails by the disk only, since all paths of artifacts have
      -- keys.
      have hdiskOnly (root : Path) (rep : Representation) (previous : Option Manifest) :
          (writeAfter root rep artifacts previous).FailsOnly OfDisk :=
        (keyed_artifactsFor hkeyed rep).elim fun _ hitems => failsOnly_writeAfter hitems previous
      have hfail : (writeTree host force .host artifacts >>= fun first =>
          writeTree embedded force .embedded artifacts >>= fun second =>
            .done (first, second)).on cwd t = (.error error, t') := hfail
      rcases Program.on_bind_eq_error.1 hfail with hfirst | ⟨first, between, hfirst, hfail⟩
      · -- The host tree fails: its preparation, which changes nothing, or the disk.
        rw [writeTree_eq, Program.on_bind, hhost] at hfirst
        exact absurd ((hdiskOnly host .host previous).on hfirst) hdisk
      · rw [writeTree_eq, Program.on_bind, hhost] at hfirst
        rcases Program.on_bind_eq_error.1 hfail with hsecond | ⟨second, after, -, hfail⟩
        · rw [writeTree_eq] at hsecond
          rcases Program.on_bind_eq_error.1 hsecond with hrefused | ⟨previous', last, -, hlast⟩
          · exact absurd (ofDisk_of_second h hhost htaken hfirst hrefused) hdisk
          · exact absurd ((hdiskOnly embedded .embedded previous').on hlast) hdisk
        · cases hfail

end Output

end WireSchema
