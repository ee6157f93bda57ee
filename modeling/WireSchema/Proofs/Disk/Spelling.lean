import WireSchema.Proofs.Output.Keys

/-!
# Paths spelled with names

A name is a text that a path can hold between two slashes and that leads one step down. A text of
names with slashes between them has exactly these components (`components_of_text`), a path that
goes on with names gets them as further components (`components_join`), and the path of a place has
the names of the place (`components_path`).
-/

namespace WireSchema

/-- A text that leads one step down. -/
def IsName (name : String) : Prop := name ≠ "" ∧ name ≠ "." ∧ name ≠ ".." ∧ '/' ∉ name.toList

instance (name : String) : Decidable (IsName name) :=
  inferInstanceAs (Decidable (name ≠ "" ∧ name ≠ "." ∧ name ≠ ".." ∧ '/' ∉ name.toList))

namespace Path

variable {p q : Path} {names : List String}

theorem isName_of_mem_moves {move : String} (h : move ∈ p.moves) (hup : move ≠ "..") :
    IsName move := by
  obtain ⟨hempty, hdot, hslash⟩ := mem_movesIn h
  exact ⟨hempty, hdot, hup, hslash⟩

/-- Names with slashes between them are the names of the path. -/
theorem names?_of_text (htext : p.text = Output.Manifest.joinNames names) (hne : names ≠ [])
    (hnames : ∀ name ∈ names, IsName name) : p.names? = some names := by
  refine names?_of_parts ?_ fun name hname => ?_
  · rw [htext, toList_joinNames, parts_joinParts (by simpa using hne)]
    intro part hpart
    obtain ⟨name, hname, rfl⟩ := List.mem_map.1 hpart
    exact (hnames name hname).2.2.2
  · obtain ⟨hempty, hdot, hup, -⟩ := hnames name hname
    exact ⟨hempty, hdot, hup⟩

theorem components_of_names (h : p.names? = some names) :
    p.components = names.map .normal := by
  obtain ⟨hstart, hmoves, hup⟩ := names?_eq_some_iff.1 h
  rw [components_eq, hstart, map_ofMove.2 ⟨hmoves, hup⟩]
  rfl

theorem components_of_text (htext : p.text = Output.Manifest.joinNames names) (hne : names ≠ [])
    (hnames : ∀ name ∈ names, IsName name) : p.components = names.map .normal :=
  components_of_names (names?_of_text htext hne hnames)

/-- A path ends as what is joined to it does. -/
theorem suffix_join {cs : List Char} (h : cs <:+ q.text.toList) :
    cs <:+ (p.join q).text.toList := by
  have happend : ∀ front : String, cs <:+ (front ++ q.text).toList := by
    intro front
    rw [String.toList_append]
    exact h.trans (List.suffix_append ..)
  rw [join]
  split
  · exact h
  · split
    · exact happend _
    · exact happend _
    · exact happend _

/-- Names behind a path are further components of it. -/
theorem components_join (h : q.names? = some names) :
    (p.join q).components = p.components ++ names.map .normal := by
  have hbelow : (p.join q).Below p names := below_join h
  have hnames : names.map ofMove = names.map .normal :=
    map_ofMove.2 ⟨rfl, fun hup => (hbelow.names _ hup).2 rfl⟩
  rw [components_eq, components_eq, hbelow.start, hbelow.moves, List.map_append, hnames,
    List.append_assoc]

theorem components_ne_nil (h : p.text ≠ "") : p.components ≠ [] := by
  intro hnil
  rw [components_eq, List.append_eq_nil_iff, List.map_eq_nil_iff, Option.toList_eq_nil_iff] at hnil
  exact h (text_eq_empty hnil.1 hnil.2)

end Path

/-- The path of a place starts at the root and goes down by the names of the place. -/
theorem Disk.Place.components_path {place : Disk.Place} (h : ∀ name ∈ place, IsName name) :
    place.path.components = .root :: place.map .normal := by
  have htext : place.path.text.toList = '/' :: (Output.Manifest.joinNames place).toList := by
    rw [path, String.toList_append]
    rfl
  have hstart : place.path.start? = some .root := by
    rw [Path.start?, htext]
    rfl
  have hmoves : place.path.moves = (⟨Output.Manifest.joinNames place⟩ : Path).moves := by
    rw [Path.moves, htext, Path.movesIn_slash]
    rfl
  have hnames : (⟨Output.Manifest.joinNames place⟩ : Path).moves.map Path.ofMove =
      place.map .normal := by
    cases place with
    | nil => rfl
    | cons name rest =>
      obtain ⟨-, hnames, hup⟩ :=
        Path.names?_eq_some_iff.1 (Path.names?_of_text rfl (List.cons_ne_nil name rest) h)
      exact Path.map_ofMove.2 ⟨hnames, hup⟩
  rw [Path.components_eq, hstart, hmoves, hnames]
  rfl

end WireSchema
