import WireSchema.Output.Manifest
import WireSchema.Proofs.Disk.Walking

/-!
# Keys and the paths below a root

A key is a path that consists of names. Joined to a root it leads to a place below the root
(`Below.placeOf_eq`), and the directories above it are either below the root as well or above the
root (`Below.mem_ancestors`). A key that has `..` in it or starts with a slash has neither property.
-/

namespace WireSchema

namespace Path

/-! ## Names -/

theorem mapM_normal {f : Component → Option String}
    (hf : ∀ c name, f c = some name ↔ c = .normal name) {cs : List Component} {names : List String} :
    cs.mapM f = some names ↔ cs = names.map .normal := by
  induction cs generalizing names with
  | nil => simp [eq_comm]
  | cons c cs ih =>
    rw [List.mapM_cons, Option.bind_eq_bind, Option.bind_eq_some_iff]
    constructor
    · rintro ⟨name, hname, h⟩
      obtain ⟨rest, hrest, h⟩ := Option.bind_eq_some_iff.1 h
      cases h
      rw [(hf c name).1 hname, ih.1 hrest, List.map_cons]
    · intro h
      cases names with
      | nil => cases h
      | cons name names =>
        rw [List.map_cons, List.cons.injEq] at h
        exact ⟨name, (hf c name).2 h.1, Option.bind_eq_some_iff.2 ⟨names, ih.2 h.2, rfl⟩⟩

theorem map_ofMove {moves names : List String} :
    moves.map ofMove = names.map .normal ↔ moves = names ∧ ".." ∉ moves := by
  induction moves generalizing names with
  | nil => simp [eq_comm]
  | cons move moves ih =>
    cases names with
    | nil => simp
    | cons name names =>
      rw [List.map_cons, List.map_cons, List.cons.injEq, ih, List.cons.injEq, List.mem_cons, not_or]
      unfold ofMove
      by_cases h : move = ".."
      · simp [h]
      · simp [h, Ne.symm h, and_assoc]

/-- The paths that consist of names. -/
theorem names?_eq_some_iff {p : Path} {names : List String} :
    p.names? = some names ↔ p.start? = none ∧ p.moves = names ∧ ".." ∉ p.moves := by
  rw [names?, mapM_normal fun c name => by cases c <;> simp, components_eq]
  cases hstart : p.start? with
  | none => simp [map_ofMove]
  | some c =>
    -- A path that starts with a slash or a dot has that as its first component.
    have hc : ∀ name, c ≠ .normal name := by
      have hsplits := splits_splitHead p.text.toList
      rw [start?] at hstart
      rw [hstart] at hsplits
      generalize p.text.toList = cs at hsplits
      rintro name rfl
      cases hsplits
    cases names with
    | nil => simp
    | cons name names => simp [hc]

theorem toList_joinNames (names : List String) :
    (Output.Manifest.joinNames names).toList = joinParts (names.map String.toList) := by
  have hslash : "/".toList = ['/'] := by decide
  rw [Output.Manifest.joinNames, String.toList_intercalate, hslash]
  induction names with
  | nil => rfl
  | cons name names ih =>
    cases names with
    | nil => simp [joinParts]
    | cons next names =>
      rw [List.map_cons, List.map_cons, List.intercalate_cons_cons, joinParts_cons (by simp),
        ← List.map_cons, ih]
      simp

theorem isIdle_toList {name : String} (hempty : name ≠ "") (hdot : name ≠ ".") :
    isIdle name.toList = false := by
  have hempty' : name.toList ≠ [] := fun h => hempty (String.toList_inj.1 h)
  have hdot' : name.toList ≠ ['.'] := fun h => hdot (String.toList_inj.1 h)
  simp [isIdle, hempty', hdot']

/-- A path that starts with a name has neither a slash nor a dot in front of it. -/
theorem start?_eq_none {p : Path} {part : List Char} {rest : List (List Char)}
    (hparts : parts p.text.toList = part :: rest) (hidle : isIdle part = false) :
    p.start? = none := by
  have hsplits : Splits p.text.toList none p.text.toList := by
    refine .plain (fun first rest h hfirst => ?_) fun rest h => ?_
    · rw [hparts, List.cons.injEq] at h
      rw [h.1, hfirst] at hidle
      cases hidle
    · rw [hparts, List.cons.injEq] at h
      rw [h.1] at hidle
      cases hidle
  rw [start?, hsplits.splitHead]

/-- Names between slashes are the parts of a path that starts with none of its own. -/
theorem names?_of_parts {p : Path} {names : List String}
    (hparts : parts p.text.toList = names.map String.toList)
    (hnames : ∀ name ∈ names, name ≠ "" ∧ name ≠ "." ∧ name ≠ "..") : p.names? = some names := by
  have hidle : ∀ part ∈ names.map String.toList, isIdle part = false := by
    intro part hpart
    obtain ⟨name, hname, rfl⟩ := List.mem_map.1 hpart
    obtain ⟨hempty, hdot, -⟩ := hnames name hname
    exact isIdle_toList hempty hdot
  have hmoves : p.moves = names := by
    rw [moves, movesIn, hparts, List.filter_eq_self.2 fun part hpart => by simp [hidle part hpart],
      List.map_map]
    simp [Function.comp_def]
  have hstart : p.start? = none := by
    obtain ⟨part, rest, h⟩ := List.exists_cons_of_ne_nil (parts_ne_nil p.text.toList)
    exact start?_eq_none h (hidle part (hparts ▸ h ▸ List.mem_cons_self))
  exact names?_eq_some_iff.2 ⟨hstart, hmoves, fun h => (hnames _ (hmoves ▸ h)).2.2 rfl⟩

/-- Names put together and read again. -/
theorem names?_joinNames {p : Path} {names : List String} (h : p.names? = some names)
    (hne : names ≠ []) : (⟨Output.Manifest.joinNames names⟩ : Path).names? = some names := by
  obtain ⟨-, hmoves, hdots⟩ := names?_eq_some_iff.1 h
  have hmem : ∀ name ∈ names, name ≠ "" ∧ name ≠ "." ∧ '/' ∉ name.toList := fun name hname =>
    mem_movesIn (hmoves ▸ hname)
  refine names?_of_parts ?_ fun name hname => ⟨(hmem name hname).1, (hmem name hname).2.1, ?_⟩
  · rw [toList_joinNames, parts_joinParts (by simpa using hne)]
    intro part hpart
    obtain ⟨name, hname, rfl⟩ := List.mem_map.1 hpart
    exact (hmem name hname).2.2
  · rintro rfl
    exact hdots (hmoves ▸ hname)

/-! ## Paths with the same components -/

/-- Two paths that start and move alike. -/
def Alike (p q : Path) : Prop := p.start? = q.start? ∧ p.moves = q.moves

theorem Alike.refl (p : Path) : Alike p p := ⟨rfl, rfl⟩

theorem Alike.placeOf_eq {p q : Path} (h : Alike p q) (cwd : Disk.Place) :
    Disk.placeOf cwd p = Disk.placeOf cwd q := by
  have habsolute : p.isAbsolute = q.isAbsolute := by
    rw [Bool.eq_iff_iff, isAbsolute_iff, isAbsolute_iff, h.1]
  rw [Disk.placeOf, Disk.placeOf, Disk.Place.start, Disk.Place.start, h.2, habsolute]

/-- The paths above alike paths are alike. -/
theorem Alike.mem_ancestors {p q a : Path} (h : Alike p q) (ha : a ∈ p.ancestors) :
    ∃ b ∈ q.ancestors, Alike a b := by
  induction hn : p.components.length using Nat.strongRecOn generalizing p q with
  | ind n ih =>
    rcases Path.mem_ancestors.1 ha with rfl | ⟨p', hp', ha⟩
    · exact ⟨q, Path.mem_ancestors.2 (.inl rfl), h⟩
    · obtain ⟨q', hq', halike⟩ : ∃ q', q.parent? = some q' ∧ Alike p' q' := by
        rcases List.eq_nil_or_concat' p.moves with hmoves | ⟨ms, last, hmoves⟩
        · rw [parent?_of_moves_nil hmoves, h.1] at hp'
          exact ⟨p', by rw [parent?_of_moves_nil (h.2 ▸ hmoves), hp'], .refl p'⟩
        · obtain ⟨p'', hp'', hmoves', hstart', -, -⟩ := parent?_of_moves hmoves
          obtain ⟨q', hq', hmovesq, hstartq, -, -⟩ := parent?_of_moves (h.2 ▸ hmoves)
          rw [hp'] at hp''
          cases hp''
          exact ⟨q', hq', by rw [hstart', hstartq, h.1], by rw [hmoves', hmovesq]⟩
      have hlength := length_components_parent hp'
      obtain ⟨b, hb, hab⟩ := ih _ (by omega) halike ha rfl
      exact ⟨b, Path.mem_ancestors.2 (.inr ⟨q', hq', hb⟩), hab⟩

/-! ## Below a root -/

/-- The path `p` goes on from `root` with `names`. -/
structure Below (p root : Path) (names : List String) : Prop where
  start : p.start? = root.start?
  moves : p.moves = root.moves ++ names
  names : ∀ name ∈ names, name ≠ "." ∧ name ≠ ".."

variable {root p q : Path} {names : List String}

theorem below_join (h : q.names? = some names) : (root.join q).Below root names := by
  obtain ⟨hstart, rfl, hdots⟩ := names?_eq_some_iff.1 h
  have habsolute : q.isAbsolute = false := by
    rw [← Bool.not_eq_true, isAbsolute_iff, hstart]
    simp
  refine ⟨start?_join hstart, moves_join habsolute, fun name hname => ⟨(mem_movesIn hname).2.1, ?_⟩⟩
  rintro rfl
  exact hdots hname

namespace Below

theorem alike (h : p.Below root []) : Alike p root := ⟨h.start, by rw [h.moves, List.append_nil]⟩

theorem same (h : p.Below root []) : p.same root = true :=
  (same_iff h.start).2 h.alike.2

theorem placeOf_eq (h : p.Below root names) (cwd : Disk.Place) :
    Disk.placeOf cwd p = Disk.placeOf cwd root ++ names := by
  have habsolute : p.isAbsolute = root.isAbsolute := by
    rw [Bool.eq_iff_iff, isAbsolute_iff, isAbsolute_iff, h.start]
  rw [Disk.placeOf, Disk.placeOf, Disk.Place.start, Disk.Place.start, h.moves, habsolute,
    List.foldl_append, Disk.Place.foldl_turn_names h.names]

theorem parent? {last : String} (h : p.Below root (names ++ [last])) :
    ∃ q, p.parent? = some q ∧ q.Below root names ∧ q.text.toList <+: p.text.toList ∧ q.Tidy := by
  have hmoves : p.moves = (root.moves ++ names) ++ [last] := by rw [h.moves, List.append_assoc]
  obtain ⟨q, hq, hmoves', hstart, htext, htidy⟩ := parent?_of_moves hmoves
  exact ⟨q, hq, ⟨hstart.trans h.start, hmoves',
    fun name hname => h.names name (List.mem_append_left _ hname)⟩, htext, htidy⟩

/-- The directories above a path below the root are below the root or above it. -/
theorem mem_ancestors {a : Path} (h : p.Below root names) (ha : a ∈ p.ancestors) :
    (∃ front, front <+: names ∧ a.Below root front) ∨ ∃ b ∈ root.ancestors, Alike a b := by
  induction names using List.reverseRecOn generalizing p with
  | nil => exact .inr (h.alike.mem_ancestors ha)
  | append_singleton names last ih =>
    rcases Path.mem_ancestors.1 ha with rfl | ⟨q, hq, ha⟩
    · exact .inl ⟨_, List.prefix_refl _, h⟩
    · obtain ⟨q', hq', hbelow, -, -⟩ := h.parent?
      rw [hq] at hq'
      cases hq'
      rcases ih hbelow ha with ⟨front, hfront, h⟩ | h
      · exact .inl ⟨front, hfront.trans (List.prefix_append _ _), h⟩
      · exact .inr h

end Below

end Path

namespace Output.Manifest

/-- A key that stays below the root. -/
def Inside (key : String) : Prop := ∃ names, names ≠ [] ∧ (⟨key⟩ : Path).names? = some names

/-- The key of a path has the names of the path, and does not name the manifest. -/
theorem key?_eq_some {p : Path} {key : String} (h : key? p = some key) :
    ∃ names, p.names? = some names ∧ (⟨key⟩ : Path).names? = some names ∧ names ≠ [] ∧
      names.getLast? ≠ some manifestFile ∧ joinNames names = key := by
  unfold key? at h
  split at h
  · cases h
  · cases h
  · rename_i names hne hnames
    split_ifs at h with hlast
    cases h
    have hne : names ≠ [] := fun h => hne h
    exact ⟨names, hnames, Path.names?_joinNames hnames hne, hne, hlast, rfl⟩

theorem names?_manifestFile : (⟨manifestFile⟩ : Path).names? = some [manifestFile] := by decide

end Output.Manifest

end WireSchema
