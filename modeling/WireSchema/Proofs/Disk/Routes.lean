import WireSchema.Proofs.Disk.Walking
import WireSchema.Proofs.Disk.Changes

/-!
# Routes through a tree

A path leads somewhere if its text is one that the system takes and if there is a directory wherever
it goes on (`destination_eq_ok_iff`). Two dots are a step like any other and need a directory to go
up from. So a path that goes up from a directory that does not exist leads nowhere, although its text
names a place; once somebody makes that directory, it leads there. A path without such steps is
`Grounded`: where it leads does not depend on directories off the way to its place.
-/

namespace WireSchema.Disk

/-- Where a path leads from the root of a tree, step by step. -/
def trek (cwd : Place) (p : Path) : List String :=
  (if p.isAbsolute then [] else cwd) ++ FileTree.partsOf p

/-- The steps of a path that lead somewhere else. -/
def route (cwd : Place) (p : Path) : List String := (trek cwd p).filter (· ≠ ".")

/-- The place behind some steps from the root. -/
def Place.reach (parts : List String) : Place := parts.foldl turn []

theorem Place.reach_append (parts more : List String) :
    reach (parts ++ more) = more.foldl turn (reach parts) := List.foldl_append

theorem Place.reach_filter (parts : List String) : reach (parts.filter (· ≠ ".")) = reach parts :=
  foldl_turn_filter parts []

theorem reach_trek (cwd : Place) (p : Path) : Place.reach (trek cwd p) = placeOf cwd p := by
  rw [placeOf_eq, trek, Place.reach_append, Place.start]
  split_ifs <;> rfl

theorem reach_route (cwd : Place) (p : Path) : Place.reach (route cwd p) = placeOf cwd p := by
  rw [route, Place.reach_filter, reach_trek]

theorem route_eq (cwd : Place) (p : Path) :
    route cwd p = (if p.isAbsolute then [] else cwd.filter (· ≠ ".")) ++ p.moves := by
  rw [route, trek, List.filter_append, partsOf_filter]
  split_ifs <;> rfl

theorem partsOf_join {p q : Path} (h : q.isAbsolute = false) :
    FileTree.partsOf (p.join q) = FileTree.partsOf p ++ FileTree.partsOf q := by
  by_cases hp : p.text = ""
  · rw [Path.join_empty h hp, FileTree.partsOf, FileTree.partsOf, hp]
    rfl
  · obtain ⟨cs, hjoin, hcs⟩ := Path.toList_join h hp
    rw [FileTree.partsOf, hjoin, Path.parts_append_slash, List.filter_append, List.map_append,
      FileTree.partsOf, FileTree.partsOf]
    rcases hcs with hcs | hcs
    · rw [hcs]
    · rw [hcs, Path.parts_append_slash, List.filter_append]
      simp [Path.parts, Text.splitWhere]

theorem trek_join {p q : Path} (h : q.start? = none) (cwd : Place) :
    trek cwd (p.join q) = trek cwd p ++ FileTree.partsOf q := by
  have habsolute : q.isAbsolute = false := by
    rw [← Bool.not_eq_true, Path.isAbsolute_iff, h]
    simp
  rw [trek, trek, Path.isAbsolute_join h, partsOf_join habsolute, List.append_assoc]

/-- The way to a directory above is the beginning of the way. -/
theorem route_parent {p q : Path} (h : p.parent? = some q) (cwd : Place) :
    route cwd q <+: route cwd p := by
  rcases List.eq_nil_or_concat' p.moves with hmoves | ⟨ms, last, hmoves⟩
  · rw [Path.parent?_of_moves_nil hmoves] at h
    split_ifs at h with hstart
    cases h
    have habsolute : p.isAbsolute = false := by
      rw [← Bool.not_eq_true, Path.isAbsolute_iff, hstart]
      simp
    rw [route_eq, route_eq, hmoves, habsolute]
    exact List.prefix_refl _
  · obtain ⟨q', hq', hmoves', hstart, -, -⟩ := Path.parent?_of_moves hmoves
    rw [h] at hq'
    cases hq'
    have habsolute : q.isAbsolute = p.isAbsolute := by
      rw [Bool.eq_iff_iff, Path.isAbsolute_iff, Path.isAbsolute_iff, hstart]
    rw [route_eq, route_eq, habsolute, hmoves', hmoves, ← List.append_assoc]
    exact List.prefix_append _ _

theorem route_ancestor {p a : Path} (h : a ∈ p.ancestors) (cwd : Place) :
    route cwd a <+: route cwd p := by
  induction hn : p.components.length using Nat.strongRecOn generalizing p with
  | ind n ih =>
    rcases Path.mem_ancestors.1 h with rfl | ⟨q, hq, ha⟩
    · exact List.prefix_refl _
    · have hlength := Path.length_components_parent hq
      exact (ih _ (by omega) ha rfl).trans (route_parent hq cwd)

namespace FileTree

variable {t t' : FileTree} {cwd : Place} {p : Path}

/-! ## Paths that lead somewhere -/

/-- A part of a path that the system takes. -/
def Short (part : String) : Prop := part = "." ∨ part = ".." ∨ part.utf8ByteSize ≤ nameLimit

/-- Steps from the root each of which starts at a directory. -/
def Passable (t : FileTree) (parts : List String) : Prop :=
  ∀ front part back, parts = front ++ part :: back →
    t.look (Place.reach front) = some .directory ∧ Short part

/-- A text that the system takes for a path. -/
structure Sayable (p : Path) : Prop where
  nul : holdsNul p = false
  text : p.text ≠ ""
  size : p.text.utf8ByteSize ≤ pathLimit

theorem follow_eq_ok_iff {place place' : Place} {parts : List String} :
    t.follow place parts = .ok place' ↔
      place' = parts.foldl Place.turn place ∧
        ∀ front part back, parts = front ++ part :: back →
          t.look (front.foldl Place.turn place) = some .directory ∧ Short part := by
  induction parts generalizing place with
  | nil => simp [follow, eq_comm]
  | cons part parts ih =>
    have hshort : Short part ↔ ¬(part ≠ "." ∧ part ≠ ".." ∧ nameLimit < part.utf8ByteSize) := by
      unfold Short
      grind
    -- Each part is looked up from where the parts before it lead.
    rw [follow]
    constructor
    · intro h
      split at h
      · cases h
      · cases h
      · rename_i hlook
        split_ifs at h with hlong
        obtain ⟨rfl, hpass⟩ := ih.1 h
        refine ⟨rfl, fun front next back hsplit => ?_⟩
        cases front with
        | nil =>
          cases hsplit
          exact ⟨hlook, hshort.2 hlong⟩
        | cons first front =>
          cases hsplit
          exact hpass front next back rfl
    · rintro ⟨rfl, hpass⟩
      obtain ⟨hlook, hpart⟩ := hpass [] part parts rfl
      rw [List.foldl_nil] at hlook
      rw [hlook]
      dsimp only
      rw [if_neg (hshort.1 hpart)]
      exact ih.2 ⟨rfl, fun front next back hsplit =>
        hpass (part :: front) next back (by rw [hsplit, List.cons_append])⟩

theorem follow_trek (t : FileTree) (cwd : Place) (p : Path) :
    (t.origin cwd p >>= fun place => t.follow place (partsOf p)) = t.follow [] (trek cwd p) := by
  unfold origin trek
  split_ifs
  · rfl
  · exact (follow_append t [] cwd (partsOf p)).symm

/-- A path leads somewhere if and only if it can be said and its steps can be made. -/
theorem destination_eq_ok_iff {place : Place} :
    t.destination cwd p = .ok place ↔
      place = placeOf cwd p ∧ Sayable p ∧ t.Passable (trek cwd p) := by
  unfold destination
  rw [Outcome.check_eq_ok, Outcome.check_eq_ok, Outcome.check_eq_ok, follow_trek, follow_eq_ok_iff,
    ← reach_trek]
  constructor
  · rintro ⟨hnul, htext, hsize, hplace, hpass⟩
    exact ⟨hplace, ⟨by simpa using hnul, htext, by simpa using hsize⟩, hpass⟩
  · rintro ⟨hplace, hsayable, hpass⟩
    exact ⟨by simp [hsayable.nul], hsayable.text, by simpa using hsayable.size, hplace, hpass⟩

/-- A path leads on from the place of its beginning. -/
theorem destination_join {root q : Path} {place : Place} (h : t.destination cwd root = .ok place)
    (hq : q.start? = none) (hsayable : Sayable (root.join q)) :
    t.destination cwd (root.join q) = t.follow place (partsOf q) := by
  obtain ⟨rfl, -, hpass⟩ := destination_eq_ok_iff.1 h
  have hfollow : t.follow [] (trek cwd root) = .ok (placeOf cwd root) :=
    follow_eq_ok_iff.2 ⟨(reach_trek cwd root).symm, hpass⟩
  have hnul : ¬holdsNul (root.join q) = true := by simp [hsayable.nul]
  have hsize : ¬pathLimit < (root.join q).text.utf8ByteSize := Nat.not_lt.2 hsayable.size
  unfold destination
  rw [if_neg hnul, if_neg hsayable.text, if_neg hsize]
  calc (t.origin cwd (root.join q) >>= fun place => t.follow place (partsOf (root.join q)))
      = t.follow [] (trek cwd (root.join q)) := follow_trek t cwd (root.join q)
    _ = t.follow (placeOf cwd root) (partsOf q) := by
      rw [trek_join hq, follow_append, hfollow, Outcome.ok_bind]

/-- What the system says of a text that it does not take. -/
theorem destination_of_not_sayable (t : FileTree) (cwd : Place) (h : ¬Sayable p)
    (htext : p.text ≠ "") :
    t.destination cwd p = .error .nulInPath ∨ t.destination cwd p = .error .nameTooLong := by
  unfold destination
  by_cases hnul : holdsNul p = true
  · rw [if_pos hnul]
    exact .inl rfl
  · have hsize : pathLimit < p.text.utf8ByteSize := by
      by_contra hsize
      exact h ⟨by simpa using hnul, htext, Nat.not_lt.1 hsize⟩
    rw [if_neg hnul, if_neg htext, if_pos hsize]
    exact .inr rfl

/-- The first thing that is missing is what the system speaks of. -/
theorem follow_eq_notFound {place : Place} {parts : List String}
    (hshort : ∀ part ∈ parts, Short part)
    (hfile : ∀ front part back, parts = front ++ part :: back →
      ∀ bytes, t.look (front.foldl Place.turn place) ≠ some (.file bytes))
    (hmissing : ∃ front part back, parts = front ++ part :: back ∧
      t.look (front.foldl Place.turn place) = none) : t.follow place parts = .error .notFound := by
  induction parts generalizing place with
  | nil =>
    obtain ⟨front, part, back, hsplit, -⟩ := hmissing
    simp at hsplit
  | cons first parts ih =>
    rw [follow]
    cases hlook : t.look place with
    | none => rfl
    | some item =>
      cases item with
      | file bytes => exact absurd hlook (hfile [] first parts rfl bytes)
      | directory =>
        have hfirst : ¬(first ≠ "." ∧ first ≠ ".." ∧ nameLimit < first.utf8ByteSize) := by
          have h := hshort first List.mem_cons_self
          unfold Short at h
          grind
        dsimp only
        rw [if_neg hfirst]
        refine ih (fun part hpart => hshort part (List.mem_cons_of_mem _ hpart)) ?_ ?_
        · intro front part back hsplit
          exact hfile (first :: front) part back (by rw [hsplit, List.cons_append])
        · obtain ⟨front, part, back, hsplit, hnone⟩ := hmissing
          cases front with
          | nil =>
            rw [List.foldl_nil, hlook] at hnone
            cases hnone
          | cons next front =>
            rw [List.cons_append, List.cons.injEq] at hsplit
            obtain ⟨rfl, hsplit⟩ := hsplit
            exact ⟨front, part, back, hsplit, hnone⟩

theorem missing_of_follow {place : Place} {parts : List String}
    (h : t.follow place parts = .error .notFound) :
    ∃ front part back, parts = front ++ part :: back ∧
      t.look (front.foldl Place.turn place) = none := by
  induction parts generalizing place with
  | nil => cases h
  | cons first parts ih =>
    rw [follow] at h
    split at h
    · exact ⟨[], first, parts, rfl, ‹_›⟩
    · cases h
    · split_ifs at h
      · cases h
      · obtain ⟨front, part, back, rfl, hnone⟩ := ih h
        exact ⟨first :: front, part, back, rfl, hnone⟩

/-- A path that is not found has a part that is missing. -/
theorem missing_of_destination (htext : p.text ≠ "")
    (h : t.destination cwd p = .error .notFound) :
    ∃ front part back, trek cwd p = front ++ part :: back ∧ t.look (Place.reach front) = none := by
  unfold destination at h
  by_cases hnul : holdsNul p = true
  · rw [if_pos hnul] at h
    cases h
  rw [if_neg hnul, if_neg htext] at h
  by_cases hsize : pathLimit < p.text.utf8ByteSize
  · rw [if_pos hsize] at h
    cases h
  rw [if_neg hsize] at h
  exact missing_of_follow ((follow_trek t cwd p).symm.trans h)

/-! ## Usable paths -/

/-- A path that the system takes, wherever it leads. -/
structure Usable (cwd : Place) (p : Path) : Prop where
  sayable : Sayable p
  short : ∀ part ∈ route cwd p, Short part

theorem Usable.short_trek (h : Usable cwd p) : ∀ part ∈ trek cwd p, Short part := by
  intro part hpart
  by_cases hdot : part = "."
  · exact .inl hdot
  · exact h.short part (List.mem_filter.2 ⟨hpart, by simpa using hdot⟩)

theorem usable_of_destination {place : Place} (h : t.destination cwd p = .ok place) :
    Usable cwd p := by
  obtain ⟨-, hsayable, hpass⟩ := destination_eq_ok_iff.1 h
  refine ⟨hsayable, fun part hpart => ?_⟩
  obtain ⟨front, back, hsplit⟩ := List.append_of_mem (List.mem_filter.1 hpart).1
  exact (hpass front part back hsplit).2

theorem destination_of_usable (h : Usable cwd p)
    (hpass : ∀ front part back, trek cwd p = front ++ part :: back →
      t.look (Place.reach front) = some .directory) :
    t.destination cwd p = .ok (placeOf cwd p) := by
  refine destination_eq_ok_iff.2 ⟨rfl, h.sayable, fun front part back hsplit => ?_⟩
  refine ⟨hpass front part back hsplit, h.short_trek part ?_⟩
  rw [hsplit]
  simp

theorem destination_of_missing (h : Usable cwd p)
    (hfile : ∀ front part back, trek cwd p = front ++ part :: back →
      ∀ bytes, t.look (Place.reach front) ≠ some (.file bytes))
    (hmissing : ∃ front part back, trek cwd p = front ++ part :: back ∧
      t.look (Place.reach front) = none) : t.destination cwd p = .error .notFound := by
  have hnul : ¬holdsNul p = true := by simp [h.sayable.nul]
  have hsize : ¬pathLimit < p.text.utf8ByteSize := Nat.not_lt.2 h.sayable.size
  unfold destination
  rw [if_neg hnul, if_neg h.sayable.text, if_neg hsize]
  exact (follow_trek t cwd p).trans (follow_eq_notFound h.short_trek hfile hmissing)

/-- A part of a usable path is usable. -/
theorem Usable.parent (h : Usable cwd p) {q : Path} (hparent : p.parent? = some q)
    (htext : q.text.toList <+: p.text.toList) (hne : q.text ≠ "") : Usable cwd q := by
  obtain ⟨rest, hrest⟩ := htext
  refine ⟨⟨?_, hne, ?_⟩, fun part hpart => ?_⟩
  · have hnul := h.sayable.nul
    unfold holdsNul at hnul ⊢
    rw [← hrest, List.contains_eq_mem, decide_eq_false_iff_not, List.mem_append, not_or] at hnul
    rw [List.contains_eq_mem, decide_eq_false_iff_not]
    exact hnul.1
  · have hp : p.text = q.text ++ String.ofList rest := by
      rw [← String.toList_inj, String.toList_append, String.toList_ofList, hrest]
    have hsize := h.sayable.size
    rw [hp, String.utf8ByteSize_append] at hsize
    omega
  · exact h.short part ((route_parent hparent cwd).mem hpart)

/-- A path that does not end with a dot ends with its last move. -/
theorem endsNamed_of_tidy {moves : List String} {last : String} (h : p.Tidy)
    (hmoves : p.moves = moves ++ [last]) (hlast : last ≠ "..") : endsNamed p = true := by
  have htidy : (partsOf p).getLast? ≠ some "." := by
    refine h.resolve_left ?_
    rw [hmoves]
    simp
  have hfilter := partsOf_filter p
  rw [hmoves] at hfilter
  rcases List.eq_nil_or_concat' (partsOf p) with hnil | ⟨front, part, hparts⟩
  · rw [hnil] at hfilter
    simp at hfilter
  · rw [hparts, List.getLast?_concat, ne_eq, Option.some_inj] at htidy
    rw [hparts, List.filter_append, List.filter_cons_of_pos (by simpa using htidy),
      List.filter_nil] at hfilter
    have hpart : part = last := List.singleton_inj.1 (List.append_inj_right' hfilter rfl)
    subst hpart
    rw [endsNamed, hparts, List.getLast?_concat]
    simp [htidy, hlast]

/-- A path that ends with a dot leads to a directory. -/
theorem look_of_dot {place : Place} (h : t.destination cwd p = .ok place)
    (hdot : (partsOf p).getLast? = some ".") : t.look place = some .directory := by
  obtain ⟨rfl, -, hpass⟩ := destination_eq_ok_iff.1 h
  obtain ⟨front, hfront⟩ : ∃ front, trek cwd p = front ++ ["."] := by
    obtain ⟨parts, hparts⟩ := List.getLast?_eq_some_iff.1 hdot
    rw [trek, hparts]
    exact ⟨_, (List.append_assoc _ _ _).symm⟩
  rw [← reach_trek, hfront, Place.reach_append]
  exact (hpass front "." [] hfront).1

theorem tidy_of_endsNamed (h : endsNamed p = true) : p.Tidy := by
  refine .inr fun hdot => ?_
  rw [endsNamed, hdot] at h
  simp at h

/-! ## Grounded paths -/

/-- Wherever the path goes up, it goes up from a directory of the tree. -/
def Grounded (t : FileTree) (cwd : Place) (p : Path) : Prop :=
  ∀ front back, route cwd p = front ++ ".." :: back →
    t.look (Place.reach front) = some .directory

theorem grounded_iff : t.Grounded cwd p ↔
    ∀ i < (route cwd p).length, (route cwd p)[i]? = some ".." →
      t.look (Place.reach ((route cwd p).take i)) = some .directory := by
  constructor
  · intro h i hi hup
    refine h _ ((route cwd p).drop (i + 1)) ?_
    rw [List.getElem?_eq_getElem hi, Option.some_inj] at hup
    rw [← hup, ← List.drop_eq_getElem_cons hi, List.take_append_drop]
  · intro h front back hsplit
    have hlook := h front.length (by simp [hsplit]) (by simp [hsplit])
    rwa [hsplit, List.take_left] at hlook

instance : Decidable (t.Grounded cwd p) := decidable_of_iff' _ grounded_iff

/-- What a grounded path passes is a directory or lies on the way to its place. -/
theorem Grounded.look (h : t.Grounded cwd p) {front back : List String}
    (hsplit : route cwd p = front ++ back) :
    t.look (Place.reach front) = some .directory ∨ Place.reach front <+: placeOf cwd p := by
  have hdot : ∀ part ∈ back, part ≠ "." := fun part hpart => by
    have hmem : part ∈ route cwd p := hsplit ▸ List.mem_append_right _ hpart
    simpa using (List.mem_filter.1 hmem).2
  have hnames {names : List String} (hnames : ".." ∉ names) (hsub : ∀ name ∈ names, name ∈ back) :
      Place.reach (front ++ names) = Place.reach front ++ names := by
    rw [Place.reach_append]
    refine Place.foldl_turn_names (fun name hname => ⟨hdot name (hsub name hname), ?_⟩) _
    rintro rfl
    exact hnames hname
  by_cases hup : ".." ∈ back
  · -- Up to the first step up there are only names, so it starts below.
    obtain ⟨names, rest, rfl, hfirst⟩ := List.eq_append_cons_of_mem hup
    have hlook := h (front ++ names) rest (by rw [hsplit, List.append_assoc])
    rw [hnames hfirst fun name hname => List.mem_append_left _ hname] at hlook
    left
    by_cases hnil : names = []
    · rwa [hnil, List.append_nil] at hlook
    · exact look_of_look_append hlook hnil
  · right
    rw [← reach_route, hsplit, hnames hup fun _ => id]
    exact List.prefix_append _ _

theorem Grounded.look_trek (h : t.Grounded cwd p) {front back : List String}
    (hsplit : trek cwd p = front ++ back) :
    t.look (Place.reach front) = some .directory ∨ Place.reach front <+: placeOf cwd p := by
  have hroute : route cwd p = front.filter (· ≠ ".") ++ back.filter (· ≠ ".") := by
    rw [route, hsplit, List.filter_append]
  have hlook := h.look hroute
  rwa [Place.reach_filter] at hlook

/-- The directories that a grounded path needs exist already or lie on the way to its place. -/
theorem Grounded.ancestor (h : t.Grounded cwd p) {a : Path} (ha : a ∈ p.ancestors) :
    t.look (placeOf cwd a) = some .directory ∨ placeOf cwd a <+: placeOf cwd p := by
  obtain ⟨back, hback⟩ := route_ancestor ha cwd
  rw [← reach_route cwd a]
  exact h.look hback.symm

end FileTree

/-! ## Outward paths -/

/-- The path does not lead through anything below its own place. -/
def Outward (cwd : Place) (p : Path) : Prop :=
  ∀ front back, route cwd p = front ++ back → placeOf cwd p <+: Place.reach front →
    Place.reach front = placeOf cwd p

theorem outward_iff {cwd : Place} {p : Path} : Outward cwd p ↔
    ∀ i < (route cwd p).length + 1, placeOf cwd p <+: Place.reach ((route cwd p).take i) →
      Place.reach ((route cwd p).take i) = placeOf cwd p := by
  constructor
  · intro h i _
    exact h _ _ (List.take_append_drop i _).symm
  · intro h front back hsplit
    have hfront := h front.length (by rw [hsplit, List.length_append]; omega)
    rwa [hsplit, List.take_left] at hfront

instance {cwd : Place} {p : Path} : Decidable (Outward cwd p) := decidable_of_iff' _ outward_iff

theorem Outward.ancestor {cwd : Place} {p a : Path} (h : Outward cwd p) (ha : a ∈ p.ancestors)
    (hbelow : placeOf cwd p <+: placeOf cwd a) : placeOf cwd a = placeOf cwd p := by
  obtain ⟨back, hback⟩ := route_ancestor ha cwd
  rw [← reach_route cwd a] at hbelow ⊢
  exact h _ _ hback.symm hbelow

end WireSchema.Disk
