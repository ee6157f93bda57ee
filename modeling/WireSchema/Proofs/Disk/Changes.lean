import WireSchema.Proofs.Disk.Walking

/-!
# What operations change

Every operation on a tree that succeeds changes what lies at one place, or moves a file from one
place to another. The statements here say for each operation when it succeeds and what lies where
afterwards, in terms of `look` and `destination` only; nothing later opens a tree.
-/

namespace WireSchema.Disk

namespace FileTree

variable {t t' : FileTree} {cwd : Place} {p : Path}

/-- The one change from `t` to `t'` is that `item` lies at `place`. -/
def Sets (t t' : FileTree) (place : Place) (item : Option Item) : Prop :=
  ∀ other, t'.look other = if other = place then item else t.look other

/-! ## Insertion and removal -/

theorem root_ofRoot_alter (f : Option Node → Option Node) (place : Place) :
    (ofRoot (t.root.alter f place)).root = t.root.alter f place := by
  unfold root
  match place with
  | [] => rfl
  | [_] => rfl
  | name :: next :: rest =>
    rw [Node.alter]
    split <;> rfl

theorem look_insert {place : Place} (h : t.look place = some .directory) (name : String)
    (node : Node) (other : Place) :
    (t.insert (place ++ [name]) node).look other =
      if place ++ [name] <+: other then node.look (other.drop (place.length + 1))
      else t.look other := by
  rw [insert, look, root_ofRoot_alter, Node.look_alter _ _ _ _ _ h]
  rfl

theorem look_erase {place : Place} (h : t.look place = some .directory) (name : String)
    (other : Place) :
    (t.erase (place ++ [name])).look other =
      if place ++ [name] <+: other then none else t.look other := by
  rw [erase, look, root_ofRoot_alter, Node.look_alter _ _ _ _ _ h]
  rfl

/-- A node without anything below it. -/
theorem sets_insert {place : Place} (h : t.look place = some .directory) {name : String}
    {node : Node} (hleaf : ∀ rest, rest ≠ [] → node.look rest = none)
    (hnone : ∀ rest, rest ≠ [] → t.look (place ++ [name] ++ rest) = none) :
    Sets t (t.insert (place ++ [name]) node) (place ++ [name]) (some node.item) := by
  intro other
  rw [look_insert h]
  by_cases hother : other = place ++ [name]
  · rw [if_pos hother, if_pos ⟨[], by rw [hother, List.append_nil]⟩, hother]
    simp
  · rw [if_neg hother]
    split_ifs with hbelow
    · obtain ⟨rest, rfl⟩ := hbelow
      have hrest : rest ≠ [] := by
        rintro rfl
        exact hother (List.append_nil _)
      have hdrop : (place ++ [name] ++ rest).drop (place.length + 1) = rest := by
        rw [show place.length + 1 = (place ++ [name]).length by simp, List.drop_left]
      rw [hdrop, hleaf rest hrest, hnone rest hrest]
    · rfl

theorem sets_erase {place : Place} (h : t.look place = some .directory) {name : String}
    (hnone : ∀ rest, rest ≠ [] → t.look (place ++ [name] ++ rest) = none) :
    Sets t (t.erase (place ++ [name])) (place ++ [name]) none := by
  intro other
  rw [look_erase h]
  by_cases hother : other = place ++ [name]
  · rw [if_pos hother, if_pos ⟨[], by rw [hother, List.append_nil]⟩]
  · rw [if_neg hother]
    split_ifs with hbelow
    · obtain ⟨rest, rfl⟩ := hbelow
      refine (hnone rest ?_).symm
      rintro rfl
      exact hother (List.append_nil _)
    · rfl

theorem look_file (bytes : List UInt8) {rest : Place} (h : rest ≠ []) :
    (Node.file bytes).look rest = none := by
  cases rest with
  | nil => exact absurd rfl h
  | cons name rest => rfl

theorem look_empty {rest : Place} (h : rest ≠ []) : (Node.directory []).look rest = none := by
  cases rest with
  | nil => exact absurd rfl h
  | cons name rest => rfl

/-! ## Named destinations -/

theorem follow_append (t : FileTree) (place : Place) (parts more : List String) :
    t.follow place (parts ++ more) = t.follow place parts >>= fun next => t.follow next more := by
  induction parts generalizing place with
  | nil => rfl
  | cons part parts ih =>
    rw [List.cons_append, follow, follow]
    split
    · rfl
    · rfl
    · split_ifs
      · rfl
      · exact ih _

/-- A path that ends with a name leads into a directory. -/
theorem exists_of_endsNamed {place : Place} (h : t.destination cwd p = .ok place)
    (hnamed : endsNamed p = true) :
    ∃ parent name, place = parent ++ [name] ∧ t.look parent = some .directory := by
  unfold destination at h
  obtain ⟨-, h⟩ := Outcome.check_eq_ok.1 h
  obtain ⟨-, h⟩ := Outcome.check_eq_ok.1 h
  obtain ⟨-, h⟩ := Outcome.check_eq_ok.1 h
  obtain ⟨start, -, h⟩ := Outcome.bind_eq_ok.1 h
  unfold endsNamed at hnamed
  split at hnamed
  · rename_i name hlast
    rw [Bool.and_eq_true, bne_iff_ne, bne_iff_ne] at hnamed
    obtain ⟨front, hfront⟩ := List.getLast?_eq_some_iff.1 hlast
    rw [hfront, follow_append] at h
    obtain ⟨parent, -, h⟩ := Outcome.bind_eq_ok.1 h
    refine ⟨parent, name, ?_, ?_⟩
    · rw [follow_eq_ok h]
      simp [Place.turn, hnamed]
    · rw [follow] at h
      split at h
      · cases h
      · cases h
      · assumption
  · cases hnamed

/-! ## Questions -/

theorem find_eq (t : FileTree) (cwd : Place) (p : Path) :
    t.find cwd p = t.destination cwd p >>= fun place =>
      match t.get? place with
      | none => .error .notFound
      | some (.file bytes) => if endsSlash p then .error .notDirectory else .ok (place, .file bytes)
      | some (.directory entries) => .ok (place, .directory entries) := by
  rw [find, locate_eq]
  cases t.destination cwd p with
  | error e => rfl
  | ok place =>
    simp only [Outcome.ok_bind]
    cases t.get? place with
    | none => rfl
    | some node =>
      cases node with
      | file bytes => rfl
      | directory entries => rfl

theorem kind_eq (t : FileTree) (cwd : Place) (p : Path) :
    t.kind cwd p = t.destination cwd p >>= fun place =>
      match t.look place with
      | none => .error .notFound
      | some (.file _) => if endsSlash p then .error .notDirectory else .ok .file
      | some .directory => .ok .directory := by
  rw [kind, find_eq, bind_assoc]
  congr
  funext place
  rw [look_eq]
  cases t.get? place with
  | none => rfl
  | some node =>
    cases node with
    | file bytes =>
      simp only [Option.map_some, Node.item]
      split_ifs <;> rfl
    | directory entries => rfl

theorem read_eq (t : FileTree) (cwd : Place) (p : Path) :
    t.read cwd p = t.destination cwd p >>= fun place =>
      match t.look place with
      | none => .error .notFound
      | some (.file bytes) => if endsSlash p then .error .notDirectory else .ok bytes
      | some .directory => .error .isDirectory := by
  rw [read, find_eq, bind_assoc]
  congr
  funext place
  rw [look_eq]
  cases t.get? place with
  | none => rfl
  | some node =>
    cases node with
    | file bytes =>
      simp only [Option.map_some, Node.item]
      split_ifs <;> rfl
    | directory entries => rfl

theorem names_eq (t : FileTree) (cwd : Place) (p : Path) :
    t.names cwd p = t.destination cwd p >>= fun place =>
      match t.get? place with
      | none => .error .notFound
      | some (.file _) => .error .notDirectory
      | some (.directory entries) => .ok (entries.map Prod.fst) := by
  rw [names, find_eq, bind_assoc]
  congr
  funext place
  cases t.get? place with
  | none => rfl
  | some node =>
    cases node with
    | file bytes =>
      dsimp only
      split_ifs <;> rfl
    | directory entries => rfl

/-- A directory has no entries if and only if nothing lies in it. -/
theorem entries_eq_nil_iff {place : Place} {entries : List (String × Node)}
    (h : t.get? place = some (.directory entries)) :
    entries = [] ↔ ∀ rest, rest ≠ [] → t.look (place ++ rest) = none := by
  constructor
  · rintro rfl rest hrest
    rw [look_append, h]
    exact look_empty hrest
  · intro hnone
    cases entries with
    | nil => rfl
    | cons entry entries =>
      obtain ⟨name, node⟩ := entry
      have hlook := hnone [name] (by simp)
      rw [look_append, h] at hlook
      simp [Node.look_cons, Node.child?] at hlook

/-! ## Directories and files -/

theorem makeDirectory_eq (t : FileTree) (cwd : Place) (p : Path) :
    t.makeDirectory cwd p = t.destination cwd p >>= fun place =>
      if endsNamed p = true ∧ t.look place = none then .ok (t.insert place (.directory []))
      else .error .alreadyExists := by
  rw [makeDirectory, locate_eq]
  cases t.destination cwd p with
  | error e => rfl
  | ok place =>
    simp only [Outcome.ok_bind]
    by_cases hcond : endsNamed p = true ∧ t.look place = none
    · have hnode : t.get? place = none := Option.map_eq_none_iff.1 hcond.2
      rw [if_pos hcond, if_neg (by simp [hcond.1, hnode])]
      rfl
    · have hnode : endsNamed p = true → t.get? place ≠ none := fun hnamed hnone =>
        hcond ⟨hnamed, by rw [look_eq, hnone]; rfl⟩
      rw [if_neg hcond, if_pos]
      · rfl
      · rw [Bool.or_eq_true, Bool.not_eq_true', Option.isSome_iff_ne_none, or_iff_not_imp_left,
          Bool.not_eq_false]
        exact hnode

theorem sets_makeDirectory (h : t.makeDirectory cwd p = .ok t') :
    t.look (placeOf cwd p) = none ∧ Sets t t' (placeOf cwd p) (some .directory) := by
  rw [makeDirectory_eq] at h
  obtain ⟨place, hplace, h⟩ := Outcome.bind_eq_ok.1 h
  obtain rfl := destination_eq_ok hplace
  split_ifs at h with hcond
  cases h
  obtain ⟨parent, name, hname, hparent⟩ := exists_of_endsNamed hplace hcond.1
  rw [hname] at hcond ⊢
  exact ⟨hcond.2, sets_insert hparent (fun _ => look_empty) fun rest _ =>
    look_append_of_none hcond.2 rest⟩

theorem removeFile_eq (t : FileTree) (cwd : Place) (p : Path) :
    t.removeFile cwd p = t.destination cwd p >>= fun place =>
      if endsNamed p = false then .error .isDirectory
      else
        match t.look place with
        | none => .error .notFound
        | some .directory => .error .isDirectory
        | some (.file _) =>
          if endsSlash p then .error .notDirectory else .ok (t.erase place) := by
  rw [removeFile, locate_eq]
  cases t.destination cwd p with
  | error e => rfl
  | ok place =>
    simp only [Outcome.ok_bind]
    rw [look_eq]
    cases hnamed : endsNamed p with
    | false => rfl
    | true =>
      cases t.get? place with
      | none => rfl
      | some node =>
        cases node with
        | file bytes => rfl
        | directory entries => rfl

theorem sets_removeFile (h : t.removeFile cwd p = .ok t') :
    (∃ bytes, t.look (placeOf cwd p) = some (.file bytes)) ∧ Sets t t' (placeOf cwd p) none := by
  rw [removeFile_eq] at h
  obtain ⟨place, hplace, h⟩ := Outcome.bind_eq_ok.1 h
  obtain rfl := destination_eq_ok hplace
  by_cases hnamed : endsNamed p = false
  · rw [if_pos hnamed] at h
    cases h
  rw [if_neg hnamed] at h
  split at h
  · cases h
  · cases h
  · rename_i bytes hfile
    split_ifs at h
    cases h
    obtain ⟨parent, name, hname, hparent⟩ :=
      exists_of_endsNamed hplace (Bool.not_eq_false _ ▸ hnamed)
    rw [hname] at hfile ⊢
    exact ⟨⟨bytes, hfile⟩, sets_erase hparent fun rest hrest => look_append_of_file hfile hrest⟩

theorem removeDirectory_eq (t : FileTree) (cwd : Place) (p : Path) :
    t.removeDirectory cwd p = t.destination cwd p >>= fun place =>
      if endsNamed p = false then .error .busy
      else
        match t.get? place with
        | none => .error .notFound
        | some (.file _) => .error .notDirectory
        | some (.directory entries) =>
          if entries.isEmpty then .ok (t.erase place)
          else .error (.other "Directory not empty (os error 39)") := by
  rw [removeDirectory, locate_eq]
  cases t.destination cwd p with
  | error e => rfl
  | ok place =>
    simp only [Outcome.ok_bind]
    cases hnamed : endsNamed p with
    | false => rfl
    | true =>
      cases t.get? place with
      | none => rfl
      | some node =>
        cases node with
        | file bytes => rfl
        | directory entries => rfl

theorem sets_removeDirectory (h : t.removeDirectory cwd p = .ok t') :
    t.look (placeOf cwd p) = some .directory ∧
      (∀ rest, rest ≠ [] → t.look (placeOf cwd p ++ rest) = none) ∧
      Sets t t' (placeOf cwd p) none := by
  rw [removeDirectory_eq] at h
  obtain ⟨place, hplace, h⟩ := Outcome.bind_eq_ok.1 h
  obtain rfl := destination_eq_ok hplace
  by_cases hnamed : endsNamed p = false
  · rw [if_pos hnamed] at h
    cases h
  rw [if_neg hnamed] at h
  split at h
  · cases h
  · cases h
  · rename_i entries hentries
    split_ifs at h with hempty
    cases h
    obtain ⟨parent, name, hname, hparent⟩ :=
      exists_of_endsNamed hplace (Bool.not_eq_false _ ▸ hnamed)
    have hnone := (entries_eq_nil_iff hentries).1 (List.isEmpty_iff.1 hempty)
    refine ⟨by rw [look_eq, hentries]; rfl, hnone, ?_⟩
    rw [hname] at hnone ⊢
    exact sets_erase hparent hnone

/-! ## Temporary files -/

/-- The path by which a directory is found: the empty path is the working directory. -/
def orDot (p : Path) : Path := if p.text = "" then ⟨"."⟩ else p

theorem placeOf_orDot (cwd : Place) (p : Path) : placeOf cwd (orDot p) = placeOf cwd p := by
  unfold orDot
  split_ifs with h
  · obtain rfl : p = ⟨""⟩ := by rw [← h]
    rfl
  · rfl

theorem directoryAt_eq (t : FileTree) (cwd : Place) (p : Path) :
    t.directoryAt cwd p = t.destination cwd (orDot p) >>= fun place =>
      match t.get? place with
      | none => .error .notFound
      | some (.file _) => .error .notDirectory
      | some (.directory entries) => .ok (place, entries) := by
  rw [directoryAt, ← orDot, find_eq, bind_assoc]
  congr
  funext place
  cases t.get? place with
  | none => rfl
  | some node =>
    cases node with
    | file bytes =>
      dsimp only
      split_ifs <;> rfl
    | directory entries => rfl

theorem directoryAt_eq_ok {place : Place} {entries : List (String × Node)}
    (h : t.directoryAt cwd p = .ok (place, entries)) :
    place = placeOf cwd p ∧ t.get? place = some (.directory entries) := by
  rw [directoryAt_eq] at h
  obtain ⟨found, hfound, h⟩ := Outcome.bind_eq_ok.1 h
  obtain rfl := destination_eq_ok hfound
  rw [placeOf_orDot] at h
  split at h
  · cases h
  · cases h
  · cases h
    exact ⟨rfl, ‹_›⟩

def placeOfTemporary (cwd : Place) (temporary : Temporary) : Place :=
  placeOf cwd temporary.directory ++ [temporary.name]

theorem look_of_lookup {place : Place} {entries : List (String × Node)}
    (h : t.get? place = some (.directory entries)) (name : String) :
    t.look (place ++ [name]) = (entries.lookup name).map Node.item := by
  rw [look_append, h, Option.bind_some, Node.look_cons, Node.child?]
  cases entries.lookup name <;> rfl

theorem sets_makeTemporary {temporary : Temporary}
    (h : t.makeTemporary cwd p = .ok (temporary, t')) :
    temporary.directory = p ∧ t.look (placeOf cwd p) = some .directory ∧
      t.look (placeOfTemporary cwd temporary) = none ∧
      Sets t t' (placeOfTemporary cwd temporary) (some (.file [])) := by
  unfold makeTemporary at h
  obtain ⟨⟨place, entries⟩, hdirectory, h⟩ := Outcome.bind_eq_ok.1 h
  obtain ⟨rfl, hentries⟩ := directoryAt_eq_ok hdirectory
  cases h
  have hlook : t.look (placeOf cwd p) = some .directory := by rw [look_eq, hentries]; rfl
  have hnone : t.look (placeOf cwd p ++ [freshName (entries.map Prod.fst)]) = none := by
    rw [look_of_lookup hentries, Option.map_eq_none_iff, List.lookup_eq_none_iff]
    intro entry hentry
    rw [bne_iff_ne]
    intro heq
    have hmem : entry.1 ∈ entries.map Prod.fst := List.mem_map_of_mem hentry
    exact freshName_not_mem _ (heq ▸ hmem)
  exact ⟨rfl, hlook, hnone, sets_insert hlook (fun _ => look_file []) fun rest _ =>
    look_append_of_none hnone rest⟩

theorem findTemporary_eq_ok {temporary : Temporary} {place : Place} {bytes : List UInt8}
    (h : t.findTemporary cwd temporary = .ok (place, bytes)) :
    place = placeOfTemporary cwd temporary ∧
      t.look (placeOf cwd temporary.directory) = some .directory ∧
      t.look (placeOfTemporary cwd temporary) = some (.file bytes) := by
  unfold findTemporary at h
  obtain ⟨⟨parent, entries⟩, hdirectory, h⟩ := Outcome.bind_eq_ok.1 h
  obtain ⟨rfl, hentries⟩ := directoryAt_eq_ok hdirectory
  dsimp only at h
  split at h
  · rename_i found hlookup
    cases h
    refine ⟨rfl, by rw [look_eq, hentries]; rfl, ?_⟩
    rw [placeOfTemporary, look_of_lookup hentries, hlookup]
    rfl
  · cases h
  · cases h

theorem sets_fill {temporary : Temporary} {bytes : List UInt8}
    (h : t.fill cwd temporary bytes = .ok t') :
    (∃ old, t.look (placeOfTemporary cwd temporary) = some (.file old)) ∧
      Sets t t' (placeOfTemporary cwd temporary) (some (.file bytes)) := by
  unfold fill at h
  obtain ⟨⟨place, old⟩, hfound, h⟩ := Outcome.bind_eq_ok.1 h
  obtain ⟨rfl, hdirectory, hfile⟩ := findTemporary_eq_ok hfound
  cases h
  exact ⟨⟨old, hfile⟩, sets_insert hdirectory (fun _ => look_file bytes) fun rest hrest =>
    look_append_of_file hfile hrest⟩

theorem sets_discard {temporary : Temporary} (h : t.discard cwd temporary = .ok t') :
    (∃ old, t.look (placeOfTemporary cwd temporary) = some (.file old)) ∧
      Sets t t' (placeOfTemporary cwd temporary) none := by
  unfold discard at h
  obtain ⟨⟨place, old⟩, hfound, h⟩ := Outcome.bind_eq_ok.1 h
  obtain ⟨rfl, hdirectory, hfile⟩ := findTemporary_eq_ok hfound
  cases h
  exact ⟨⟨old, hfile⟩, sets_erase hdirectory fun rest hrest => look_append_of_file hfile hrest⟩

theorem isDirectory_get? {place : Place} :
    isDirectory (t.get? place) = true ↔ t.look place = some .directory := by
  rw [look_eq]
  cases t.get? place with
  | none => simp [isDirectory]
  | some node =>
    cases node with
    | file => simp [isDirectory, Node.item]
    | directory => simp [isDirectory, Node.item]

/-- A temporary file is moved: it is gone from its place, and the target has its bytes. -/
theorem sets_persist {temporary : Temporary} {target : Path}
    (h : t.persist cwd temporary target = .ok t') :
    ∃ bytes between, t.look (placeOfTemporary cwd temporary) = some (.file bytes) ∧
      t.look (placeOf cwd target) ≠ some .directory ∧
      Sets t between (placeOfTemporary cwd temporary) none ∧
      Sets between t' (placeOf cwd target) (some (.file bytes)) := by
  unfold persist at h
  obtain ⟨-, h⟩ := Outcome.check_eq_ok.1 h
  obtain ⟨⟨place, bytes⟩, hfound, h⟩ := Outcome.bind_eq_ok.1 h
  obtain ⟨rfl, hdirectory, hfile⟩ := findTemporary_eq_ok hfound
  obtain ⟨goal, hgoal, h⟩ := Outcome.bind_eq_ok.1 h
  obtain ⟨hdestination, rfl⟩ := locate_eq_ok hgoal
  obtain ⟨hnamed, h⟩ := Outcome.check_eq_ok.1 h
  obtain ⟨-, h⟩ := Outcome.check_eq_ok.1 h
  obtain ⟨hisDirectory, h⟩ := Outcome.check_eq_ok.1 h
  cases h
  have hnotDirectory : t.look (placeOf cwd target) ≠ some .directory :=
    fun hlook => hisDirectory (isDirectory_get?.2 hlook)
  have herased : Sets t (t.erase (placeOfTemporary cwd temporary))
      (placeOfTemporary cwd temporary) none :=
    sets_erase hdirectory fun rest hrest => look_append_of_file hfile hrest
  refine ⟨bytes, _, hfile, hnotDirectory, herased, ?_⟩
  obtain ⟨parent, name, hname, hparent⟩ :=
    exists_of_endsNamed hdestination (by simpa using hnamed)
  -- The directory of the target is not the file that is moved.
  have hparent' : (t.erase (placeOfTemporary cwd temporary)).look parent = some .directory := by
    rw [herased, if_neg, hparent]
    rintro rfl
    rw [hfile] at hparent
    cases hparent
  rw [hname] at hnotDirectory ⊢
  refine sets_insert hparent' (fun _ => look_file bytes) fun rest hrest => ?_
  rw [herased]
  split_ifs
  · rfl
  · by_contra hsome
    obtain ⟨item, hitem⟩ := Option.ne_none_iff_exists'.1 hsome
    exact hnotDirectory (look_of_look_append hitem hrest)

end FileTree

end WireSchema.Disk
