import WireSchema.Proofs.Disk.Paths
import WireSchema.Proofs.Outcome

/-!
# Where paths lead

A path is walked with the directories on the way at hand. What comes of it depends only on what
lies at each place, which is how `follow` says it. Without links there is nothing but the moves of a
path that decides where it leads, if it leads anywhere: `placeOf` computes the place from the text
alone.

**Theorem (`destination_eq_ok`).** A path that leads somewhere leads to the place that is computed
from its text.
-/

namespace WireSchema.Disk

/-! ## Places by text -/

namespace Place

/-- The place after one more part of a path. -/
def turn (place : Place) (part : String) : Place :=
  if part = "." then place else if part = ".." then place.dropLast else place ++ [part]

/-- Where the parts of a path lead from the root. -/
def start (cwd : Place) (p : Path) : Place := if p.isAbsolute then [] else cwd.foldl turn []

theorem foldl_turn_filter (parts : List String) (place : Place) :
    (parts.filter (· ≠ ".")).foldl turn place = parts.foldl turn place := by
  induction parts generalizing place with
  | nil => rfl
  | cons part parts ih =>
    by_cases h : part = "."
    · rw [List.filter_cons_of_neg (by simp [h]), List.foldl_cons, ih, h]
      rfl
    · rw [List.filter_cons_of_pos (by simp [h]), List.foldl_cons, List.foldl_cons, ih]

theorem foldl_turn_names {names : List String} (h : ∀ name ∈ names, name ≠ "." ∧ name ≠ "..")
    (place : Place) : names.foldl turn place = place ++ names := by
  induction names generalizing place with
  | nil => simp
  | cons name names ih =>
    obtain ⟨hdot, hdots⟩ := h name List.mem_cons_self
    rw [List.foldl_cons, ih fun n hn => h n (List.mem_cons_of_mem _ hn), turn, if_neg hdot,
      if_neg hdots, List.append_assoc, List.singleton_append]

end Place

/-- The place that the text of a path names, seen from a working directory. -/
def placeOf (cwd : Place) (p : Path) : Place := p.moves.foldl Place.turn (Place.start cwd p)

theorem partsOf_filter (p : Path) : (FileTree.partsOf p).filter (· ≠ ".") = p.moves := by
  rw [FileTree.partsOf, Path.moves, Path.movesIn, List.filter_map, List.filter_filter]
  congr 1
  refine List.filter_congr fun part _ => ?_
  have hdot : String.ofList part = "." ↔ part = ['.'] :=
    ⟨fun h => by simpa using congrArg String.toList h, fun h => by rw [h]⟩
  by_cases h : part = ['.']
  · simp [h, Path.isIdle]
  · simp [h, hdot, Path.isIdle]

theorem placeOf_eq (cwd : Place) (p : Path) :
    placeOf cwd p = (FileTree.partsOf p).foldl Place.turn (Place.start cwd p) := by
  rw [placeOf, ← partsOf_filter, Place.foldl_turn_filter]

namespace FileTree

/-! ## What lies where -/

variable {t t' : FileTree}

theorem look_nil (t : FileTree) : t.look [] = some .directory := rfl

theorem look_append (t : FileTree) (place rest : Place) :
    t.look (place ++ rest) = (t.get? place).bind (·.look rest) := by
  rw [look, Node.look, root, Node.find?_append, get?, Option.map_bind]
  rfl

theorem look_eq (t : FileTree) (place : Place) : t.look place = (t.get? place).map Node.item := rfl

/-- Whatever has something below it is a directory. -/
theorem look_of_look_append {place rest : Place} {item : Item}
    (h : t.look (place ++ rest) = some item) (hne : rest ≠ []) :
    t.look place = some .directory := by
  rw [look_append] at h
  obtain ⟨node, hnode, h⟩ := Option.bind_eq_some_iff.1 h
  cases rest with
  | nil => exact absurd rfl hne
  | cons name rest =>
    rw [look_eq, hnode]
    cases node with
    | file bytes => simp [Node.look_cons, Node.child?] at h
    | directory entries => rfl

theorem look_append_of_none {place : Place} (h : t.look place = none) (rest : Place) :
    t.look (place ++ rest) = none := by
  rw [look_eq, Option.map_eq_none_iff] at h
  rw [look_append, h]
  rfl

theorem look_append_of_file {place : Place} {bytes : List UInt8}
    (h : t.look place = some (.file bytes)) {rest : Place} (hne : rest ≠ []) :
    t.look (place ++ rest) = none := by
  by_contra hsome
  obtain ⟨item, hitem⟩ := Option.ne_none_iff_exists'.1 hsome
  rw [look_of_look_append hitem hne] at h
  cases h

/-! ## Following parts -/

/-- The place behind some parts of a path, if there are directories on the way. -/
def follow (t : FileTree) (place : Place) : List String → Except OsError Place
  | [] => .ok place
  | part :: rest =>
    match t.look place with
    | none => .error .notFound
    | some (.file _) => .error .notDirectory
    | some .directory =>
      if part ≠ "." ∧ part ≠ ".." ∧ nameLimit < part.utf8ByteSize then .error .nameTooLong
      else t.follow (place.turn part) rest

theorem follow_eq_ok {place place' : Place} {parts : List String}
    (h : t.follow place parts = .ok place') : place' = parts.foldl Place.turn place := by
  induction parts generalizing place with
  | nil =>
    cases h
    rfl
  | cons part parts ih =>
    rw [follow] at h
    split at h
    · cases h
    · cases h
    · split_ifs at h
      exact ih h

/-- A trail through a tree: the directories on it are those of the tree. -/
structure Trail.Sound (trail : Trail) (t : FileTree) : Prop where
  here : trail.here = t.get? trail.place
  above : ∀ below name entries above, trail.above = below ++ (name, entries) :: above →
    t.get? (above.map Prod.fst).reverse = some (.directory entries)

theorem sound_start (t : FileTree) : t.start.Sound t where
  here := rfl
  above below name entries above h := by simp [start] at h

theorem Trail.Sound.up {trail : Trail} (h : trail.Sound t) : trail.up.Sound t := by
  unfold Trail.up
  split
  · exact h
  · rename_i name entries above habove
    refine ⟨(h.above [] name entries above habove).symm, fun below name' entries' above' hsplit => ?_⟩
    refine h.above ((name, entries) :: below) name' entries' above' ?_
    rw [habove, List.cons_append]
    exact congrArg _ hsplit

theorem Trail.place_up (trail : Trail) : trail.up.place = trail.place.dropLast := by
  unfold Trail.up Trail.place
  cases habove : trail.above with
  | nil => simp [habove]
  | cons step above => simp

theorem Trail.Sound.down {trail : Trail} (h : trail.Sound t) {entries : List (String × Node)}
    (hhere : trail.here = some (.directory entries)) (name : String) :
    Trail.Sound ⟨(name, entries) :: trail.above, entries.lookup name⟩ t := by
  have hplace : t.get? trail.place = some (.directory entries) := h.here ▸ hhere
  refine ⟨?_, fun below name' entries' above' hsplit => ?_⟩
  · have hget : t.get? (trail.place ++ [name]) = entries.lookup name := by
      rw [get?, Node.find?_append, ← get?, hplace]
      simp [Node.find?, Node.child?]
    rw [← hget]
    simp [Trail.place]
  · cases below with
    | nil =>
      simp only [List.nil_append, List.cons.injEq, Prod.mk.injEq] at hsplit
      obtain ⟨⟨-, rfl⟩, rfl⟩ := hsplit
      exact hplace
    | cons step below =>
      rw [List.cons_append, List.cons.injEq] at hsplit
      exact h.above below name' entries' above' hsplit.2

/-- Walking a trail is following parts. -/
theorem Trail.Sound.walk {trail : Trail} (h : trail.Sound t) (parts : List String) :
    (∃ trail', trail.walk parts = .ok trail' ∧ trail'.Sound t ∧
      t.follow trail.place parts = .ok trail'.place) ∨
    ∃ e, trail.walk parts = .error e ∧ t.follow trail.place parts = .error e := by
  induction parts generalizing trail with
  | nil => exact .inl ⟨trail, rfl, h, rfl⟩
  | cons part parts ih =>
    have hlook : t.look trail.place = trail.here.map Node.item := by rw [look_eq, h.here]
    cases hhere : trail.here with
    | none =>
      rw [hhere] at hlook
      exact .inr ⟨.notFound, by simp [Trail.walk, hhere], by simp [follow, hlook]⟩
    | some node =>
      cases node with
      | file bytes =>
        rw [hhere] at hlook
        exact .inr ⟨.notDirectory, by simp [Trail.walk, hhere],
          by simp [follow, hlook, Node.item]⟩
      | directory entries =>
        rw [hhere] at hlook
        simp only [Trail.walk, hhere, follow, hlook, Option.map_some, Node.item]
        by_cases hdot : part = "."
        · simpa [hdot, Place.turn] using ih h
        · by_cases hdots : part = ".."
          · simpa [hdots, Place.turn, trail.place_up] using ih h.up
          · by_cases hlong : nameLimit < part.utf8ByteSize
            · exact .inr ⟨.nameTooLong, by simp [hdot, hdots, hlong], by simp [hdot, hdots, hlong]⟩
            · have hdown := ih (h.down hhere part)
              simpa [hdot, hdots, hlong, Place.turn, Trail.place] using hdown

/-! ## Destinations -/

/-- Where a path starts, if there is a working directory. -/
def origin (t : FileTree) (cwd : Place) (p : Path) : Except OsError Place :=
  if p.isAbsolute then .ok [] else t.follow [] cwd

def destination (t : FileTree) (cwd : Place) (p : Path) : Except OsError Place := do
  if holdsNul p then throw .nulInPath
  if p.text = "" then throw .notFound
  if pathLimit < p.text.utf8ByteSize then throw .nameTooLong
  let place ← t.origin cwd p
  t.follow place (partsOf p)

/-- Whether the last part of a path is a name. -/
def endsNamed (p : Path) : Bool :=
  match (partsOf p).getLast? with
  | some part => part != "." && part != ".."
  | none => false

def endsSlash (p : Path) : Bool := p.text.toList.getLast? == some '/'

/-- The rest of `locate` behind the start of the path. -/
theorem Trail.Sound.locate {trail : Trail} (h : trail.Sound t) (p : Path) :
    (do let last ← trail.walk (partsOf p)
        pure ⟨last.place, last.here, endsNamed p, endsSlash p⟩ : Except OsError Target) =
      t.follow trail.place (partsOf p) >>= fun place =>
        .ok ⟨place, t.get? place, endsNamed p, endsSlash p⟩ := by
  rcases h.walk (partsOf p) with ⟨last, hwalk, hsound, hfollow⟩ | ⟨e, hwalk, hfollow⟩
  · rw [hwalk, hfollow, Outcome.ok_bind, Outcome.ok_bind, hsound.here]
    rfl
  · rw [hwalk, hfollow]
    rfl

theorem locate_eq (t : FileTree) (cwd : Place) (p : Path) :
    t.locate cwd p =
      t.destination cwd p >>= fun place => .ok ⟨place, t.get? place, endsNamed p, endsSlash p⟩ := by
  unfold locate destination
  by_cases hnul : holdsNul p = true
  · rw [if_pos hnul, if_pos hnul]
    rfl
  by_cases hempty : p.text = ""
  · rw [if_neg hnul, if_neg hnul, if_pos hempty, if_pos hempty]
    rfl
  by_cases hlong : pathLimit < p.text.utf8ByteSize
  · rw [if_neg hnul, if_neg hnul, if_neg hempty, if_neg hempty, if_pos hlong, if_pos hlong]
    rfl
  rw [if_neg hnul, if_neg hnul, if_neg hempty, if_neg hempty, if_neg hlong, if_neg hlong, origin]
  by_cases habsolute : p.isAbsolute = true
  · rw [if_pos habsolute, if_pos habsolute]
    exact t.sound_start.locate p
  · rw [if_neg habsolute, if_neg habsolute]
    rcases t.sound_start.walk cwd with ⟨trail, hwalk, hsound, hfollow⟩ | ⟨e, hwalk, hfollow⟩
    · have hplace : t.start.place = [] := rfl
      rw [hplace] at hfollow
      rw [hwalk, hfollow]
      exact hsound.locate p
    · have hplace : t.start.place = [] := rfl
      rw [hplace] at hfollow
      rw [hwalk, hfollow]
      rfl

theorem origin_eq_ok {cwd place : Place} {p : Path} (h : t.origin cwd p = .ok place) :
    place = Place.start cwd p := by
  unfold origin at h
  unfold Place.start
  split_ifs at h ⊢
  · cases h
    rfl
  · exact follow_eq_ok h

/-- A path that leads somewhere leads to the place that its text names. -/
theorem destination_eq_ok {cwd place : Place} {p : Path} (h : t.destination cwd p = .ok place) :
    place = placeOf cwd p := by
  unfold destination at h
  obtain ⟨-, h⟩ := Outcome.check_eq_ok.1 h
  obtain ⟨-, h⟩ := Outcome.check_eq_ok.1 h
  obtain ⟨-, h⟩ := Outcome.check_eq_ok.1 h
  obtain ⟨start, hstart, h⟩ := Outcome.bind_eq_ok.1 h
  rw [placeOf_eq, ← origin_eq_ok hstart]
  exact follow_eq_ok h

theorem locate_eq_ok {cwd : Place} {p : Path} {target : Target}
    (h : t.locate cwd p = .ok target) :
    t.destination cwd p = .ok (placeOf cwd p) ∧
      target = ⟨placeOf cwd p, t.get? (placeOf cwd p), endsNamed p, endsSlash p⟩ := by
  rw [locate_eq] at h
  obtain ⟨place, hplace, h⟩ := Outcome.bind_eq_ok.1 h
  cases h
  rw [hplace, destination_eq_ok hplace]
  exact ⟨rfl, rfl⟩

end FileTree

end WireSchema.Disk
