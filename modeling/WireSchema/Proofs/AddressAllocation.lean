import Mathlib.Data.List.Nodup
import WireSchema.Address
import WireSchema.Proofs.Outcome

/-!
# Which address schemas are accepted, and what they are given

Allocation goes through the lines of a schema with three counters and a table of names. What it
comes to can be said without them, from the lines alone.

**Theorem (`allocate_iff`).** An address schema is accepted exactly if all its lines can be read, it
opens at most 256 regions with at most 256 addresses each, addresses are identifiers, addresses and
close markers stand in open regions, and no name is declared twice. Regions are then numbered by the
open markers before them and addresses by the declarations before them in their region, and the
addresses increase along the file.

The state behind some lines is told by `Allocation.Tracks`, a line may follow them if
`Line.MayFollow` holds, and a step succeeds exactly then (`Tracks.step_iff`, `Tracks.step`). The
addresses increase because each is below what the counters of the state behind it stand for.
-/

namespace WireSchema

namespace Line

/-! ## What lines say about regions -/

def opens (line : Line) : Bool :=
  match line.directive with
  | .opened _ => true
  | _ => false

def declares (line : Line) : Bool :=
  match line.directive with
  | .declared _ => true
  | _ => false

/-- The name of the region or the address of a line. -/
def name? (line : Line) : Option String :=
  match line.directive with
  | .opened name | .declared name => some name
  | .closed => none

/-- All names of regions and addresses in some lines. -/
def declaredNames (lines : List Line) : List String := lines.filterMap name?

/-- How many regions some lines open. -/
def regions (lines : List Line) : Nat := lines.countP opens

/-- How many addresses some lines declare. -/
def declarations (lines : List Line) : Nat := lines.countP declares

/-- Whether a region is open behind some lines: the last marker of them opens one. -/
def regionIsOpen (lines : List Line) : Bool :=
  (lines.reverse.find? (!·.declares)).any opens

/-- How many addresses some lines declare behind the last open marker. -/
def sinceOpened (lines : List Line) : Nat := declarations (lines.reverse.takeWhile (!·.opens))

variable {lines : List Line} {line : Line} {name : String}

theorem regions_append (before after : List Line) :
    regions (before ++ after) = regions before + regions after := List.countP_append

theorem declaredNames_append (before after : List Line) :
    declaredNames (before ++ after) = declaredNames before ++ declaredNames after := List.filterMap_append

section Opened

variable (h : line.directive = .opened name)
include h

theorem opens_of_opened : line.opens = true := by simp [opens, h]

theorem declares_of_opened : line.declares = false := by simp [declares, h]

theorem name?_of_opened : line.name? = some name := by simp [name?, h]

theorem regionIsOpen_concat_opened (lines : List Line) : regionIsOpen (lines ++ [line]) = true := by
  simp [regionIsOpen, declares_of_opened h, opens_of_opened h]

theorem regions_concat_opened (lines : List Line) :
    regions (lines ++ [line]) = regions lines + 1 := by
  simp [regions, opens_of_opened h]

theorem declarations_concat_opened (lines : List Line) :
    declarations (lines ++ [line]) = declarations lines := by
  simp [declarations, declares_of_opened h]

theorem sinceOpened_concat_opened (lines : List Line) : sinceOpened (lines ++ [line]) = 0 := by
  simp [sinceOpened, declarations, opens_of_opened h]

end Opened

section Closed

variable (h : line.directive = .closed)
include h

theorem opens_of_closed : line.opens = false := by simp [opens, h]

theorem declares_of_closed : line.declares = false := by simp [declares, h]

theorem name?_of_closed : line.name? = none := by simp [name?, h]

theorem regionIsOpen_concat_closed (lines : List Line) :
    regionIsOpen (lines ++ [line]) = false := by
  simp [regionIsOpen, declares_of_closed h, opens_of_closed h]

theorem regions_concat_closed (lines : List Line) :
    regions (lines ++ [line]) = regions lines := by
  simp [regions, opens_of_closed h]

theorem declarations_concat_closed (lines : List Line) :
    declarations (lines ++ [line]) = declarations lines := by
  simp [declarations, declares_of_closed h]

theorem sinceOpened_concat_closed (lines : List Line) :
    sinceOpened (lines ++ [line]) = sinceOpened lines := by
  simp [sinceOpened, declarations, opens_of_closed h, declares_of_closed h]

end Closed

section Declared

variable (h : line.directive = .declared name)
include h

theorem opens_of_declared : line.opens = false := by simp [opens, h]

theorem declares_of_declared : line.declares = true := by simp [declares, h]

theorem name?_of_declared : line.name? = some name := by simp [name?, h]

theorem regionIsOpen_concat_declared (lines : List Line) :
    regionIsOpen (lines ++ [line]) = regionIsOpen lines := by
  simp [regionIsOpen, declares_of_declared h]

theorem regions_concat_declared (lines : List Line) :
    regions (lines ++ [line]) = regions lines := by
  simp [regions, opens_of_declared h]

theorem declarations_concat_declared (lines : List Line) :
    declarations (lines ++ [line]) = declarations lines + 1 := by
  simp [declarations, declares_of_declared h]

theorem sinceOpened_concat_declared (lines : List Line) :
    sinceOpened (lines ++ [line]) = sinceOpened lines + 1 := by
  simp [sinceOpened, declarations, opens_of_declared h, declares_of_declared h]

end Declared

/-! ## Which lines are accepted -/

/-- The rules of an address schema, for its lines in order. -/
structure Acceptable (lines : List Line) : Prop where
  regions_le : regions lines ≤ 256
  /-- No region has more than 256 addresses, wherever it ends. -/
  sinceOpened_le : ∀ before after, lines = before ++ after → sinceOpened before ≤ 256
  declared : ∀ before line after name, lines = before ++ line :: after →
    line.directive = .declared name →
      regionIsOpen before = true ∧ Naming.isIdentifier name = true
  closed : ∀ before line after, lines = before ++ line :: after → line.directive = .closed →
    regionIsOpen before = true
  declaredNames_nodup : (declaredNames lines).Nodup

/-- Whether a line may stand behind acceptable lines. -/
def MayFollow (lines : List Line) (line : Line) : Prop :=
  match line.directive with
  | .opened name => regions lines < 256 ∧ name ∉ declaredNames lines
  | .closed => regionIsOpen lines = true
  | .declared name =>
    regionIsOpen lines = true ∧ Naming.isIdentifier name = true ∧ sinceOpened lines < 256 ∧
      name ∉ declaredNames lines

theorem acceptable_nil : Acceptable [] where
  regions_le := Nat.zero_le _
  sinceOpened_le before after h := by
    rw [(List.append_eq_nil_iff.1 h.symm).1]
    exact Nat.zero_le _
  declared before line after name h := by simp at h
  closed before line after h := by simp at h
  declaredNames_nodup := List.nodup_nil

theorem Acceptable.left {before after : List Line} (h : Acceptable (before ++ after)) :
    Acceptable before where
  regions_le := by
    have hle := h.regions_le
    rw [regions_append] at hle
    omega
  sinceOpened_le front back hsplit :=
    h.sinceOpened_le front (back ++ after) (by rw [hsplit, List.append_assoc])
  declared front line back name hsplit :=
    h.declared front line (back ++ after) name (by simp [hsplit])
  closed front line back hsplit := h.closed front line (back ++ after) (by simp [hsplit])
  declaredNames_nodup := by
    have hnodup := h.declaredNames_nodup
    rw [declaredNames_append] at hnodup
    exact hnodup.of_append_left

/-- An item in a longer list is the last one, or one of those before it. -/
theorem split_concat {α : Type} {items before after : List α} {item other : α}
    (h : items ++ [item] = before ++ other :: after) :
    before = items ∧ other = item ∨ ∃ rest, items = before ++ other :: rest := by
  rcases List.eq_nil_or_concat' after with rfl | ⟨rest, last, rfl⟩
  · obtain ⟨rfl, hlast⟩ := List.append_inj' h rfl
    exact .inl ⟨rfl, (List.singleton_inj.1 hlast).symm⟩
  · refine .inr ⟨rest, ?_⟩
    have hassoc : items ++ [item] = (before ++ other :: rest) ++ [last] := by simpa using h
    exact (List.append_inj' hassoc rfl).1

theorem mem_declaredNames_concat (hname : line.name? = some name) {other : String} :
    other ∈ declaredNames (lines ++ [line]) ↔ other ∈ declaredNames lines ∨ other = name := by
  simp [declaredNames, hname]

theorem nodup_concat_name (hname : line.name? = some name) :
    (declaredNames (lines ++ [line])).Nodup ↔ (declaredNames lines).Nodup ∧ name ∉ declaredNames lines := by
  have hsingle : declaredNames [line] = [name] := by simp [declaredNames, hname]
  rw [declaredNames_append, hsingle, ← List.concat_eq_append, List.nodup_concat]
  exact and_comm

/-- What the rules ask of every line has to be shown for the last one only. -/
theorem Acceptable.concat (hlines : Acceptable lines) (hregions : regions (lines ++ [line]) ≤ 256)
    (hsince : sinceOpened (lines ++ [line]) ≤ 256)
    (hdeclared : ∀ name, line.directive = .declared name →
      regionIsOpen lines = true ∧ Naming.isIdentifier name = true)
    (hclosed : line.directive = .closed → regionIsOpen lines = true)
    (hnodup : (declaredNames (lines ++ [line])).Nodup) : Acceptable (lines ++ [line]) where
  regions_le := hregions
  sinceOpened_le before after hsplit := by
    rcases List.eq_nil_or_concat' after with rfl | ⟨rest, last, rfl⟩
    · rw [List.append_nil] at hsplit
      rwa [← hsplit]
    · rw [← List.append_assoc] at hsplit
      exact hlines.sinceOpened_le before rest (List.append_inj' hsplit rfl).1
  declared before other after name hsplit hother := by
    rcases split_concat hsplit with ⟨rfl, rfl⟩ | ⟨rest, hrest⟩
    · exact hdeclared name hother
    · exact hlines.declared before other rest name hrest hother
  closed before other after hsplit hother := by
    rcases split_concat hsplit with ⟨rfl, rfl⟩ | ⟨rest, hrest⟩
    · exact hclosed hother
    · exact hlines.closed before other rest hrest hother
  declaredNames_nodup := hnodup

theorem MayFollow.acceptable (h : MayFollow lines line) (hlines : Acceptable lines) :
    Acceptable (lines ++ [line]) := by
  have hregions := hlines.regions_le
  have hsince := hlines.sinceOpened_le lines [] (List.append_nil _).symm
  have hnodup := hlines.declaredNames_nodup
  -- Each directive extends the counts in its own way, and the guard is what keeps them in range.
  unfold MayFollow at h
  cases hline : line.directive with
  | opened name =>
    simp only [hline] at h
    refine hlines.concat ?_ ?_ ?_ ?_ ?_
    · rw [regions_concat_opened hline]
      omega
    · rw [sinceOpened_concat_opened hline]
      omega
    · rw [hline]
      exact nofun
    · rw [hline]
      exact nofun
    · exact (nodup_concat_name (name?_of_opened hline)).2 ⟨hnodup, h.2⟩
  | closed =>
    simp only [hline] at h
    refine hlines.concat ?_ ?_ ?_ (fun _ => h) ?_
    · rwa [regions_concat_closed hline]
    · rwa [sinceOpened_concat_closed hline]
    · rw [hline]
      exact nofun
    · have hnone : declaredNames [line] = [] := by simp [declaredNames, name?_of_closed hline]
      rwa [declaredNames_append, hnone, List.append_nil]
  | declared name =>
    simp only [hline] at h
    obtain ⟨hopen, hidentifier, hcount, hnew⟩ := h
    refine hlines.concat ?_ ?_ ?_ ?_ ?_
    · rwa [regions_concat_declared hline]
    · rw [sinceOpened_concat_declared hline]
      omega
    · rw [hline]
      rintro _ ⟨⟩
      exact ⟨hopen, hidentifier⟩
    · rw [hline]
      exact nofun
    · exact (nodup_concat_name (name?_of_declared hline)).2 ⟨hnodup, hnew⟩

theorem Acceptable.mayFollow (h : Acceptable (lines ++ [line])) : MayFollow lines line := by
  have hregions := h.regions_le
  have hsince := h.sinceOpened_le (lines ++ [line]) [] (List.append_nil _).symm
  unfold MayFollow
  cases hline : line.directive with
  | opened name =>
    rw [regions_concat_opened hline] at hregions
    exact ⟨hregions, ((nodup_concat_name (name?_of_opened hline)).1 h.declaredNames_nodup).2⟩
  | closed => exact h.closed lines line [] rfl hline
  | declared name =>
    obtain ⟨hopen, hidentifier⟩ := h.declared lines line [] name rfl hline
    rw [sinceOpened_concat_declared hline] at hsince
    exact ⟨hopen, hidentifier, hsince,
      ((nodup_concat_name (name?_of_declared hline)).1 h.declaredNames_nodup).2⟩

end Line

open Line

/-! ## What is allocated -/

/-- The regions and addresses of some lines, in order, with their numbers. -/
structure AddressMap.Numbers (m : AddressMap) (lines : List Line) : Prop where
  domains_length : m.domains.length = regions lines
  /-- A region is numbered by the regions before it. -/
  domain : ∀ before line after name, lines = before ++ line :: after →
    line.directive = .opened name → ∃ d, m.domains[regions before]? = some d ∧ d.name = name ∧
      d.location = line.location ∧ (d.region : Nat) = regions before ∧
      d.value = 256 * regions before
  entries_length : m.entries.length = declarations lines
  /-- An address is numbered by the last region that is opened before it and by the declarations
  between. -/
  entry : ∀ before line after name, lines = before ++ line :: after →
    line.directive = .declared name → ∃ e, m.entries[declarations before]? = some e ∧
      e.name = name ∧ e.location = line.location ∧ (e.region : Nat) + 1 = regions before ∧
      (e.index : Nat) = sinceOpened before

namespace AddressMap.Numbers

variable {m : AddressMap} {lines : List Line} {line : Line} {name : String}

theorem getElem?_append {α : Type} {items : List α} {i : Nat} {x : α} (h : items[i]? = some x)
    (more : List α) : (items ++ more)[i]? = some x := by
  rw [List.getElem?_append_left (List.getElem?_eq_some_iff.1 h).1, h]

theorem opened (h : m.Numbers lines) (hline : line.directive = .opened name) {region : Fin 256}
    (hregion : m.domains.length = region) :
    ({ m with domains := m.domains ++ [⟨name, region, line.location⟩] } : AddressMap).Numbers
      (lines ++ [line]) where
  domains_length := by
    rw [List.length_append, h.domains_length, regions_concat_opened hline]
    rfl
  domain before other after text hsplit hother := by
    rcases split_concat hsplit with ⟨rfl, rfl⟩ | ⟨rest, hrest⟩
    · rw [hline] at hother
      cases hother
      rw [h.domains_length] at hregion
      refine ⟨⟨name, region, other.location⟩, ?_, rfl, rfl, hregion.symm, ?_⟩
      · rw [← h.domains_length, List.getElem?_concat_length]
      · rw [Domain.value, hregion]
    · obtain ⟨d, hd, hrow⟩ := h.domain before other rest text hrest hother
      exact ⟨d, getElem?_append hd _, hrow⟩
  entries_length := by
    rw [h.entries_length, declarations_concat_opened hline]
  entry before other after text hsplit hother := by
    rcases split_concat hsplit with ⟨rfl, rfl⟩ | ⟨rest, hrest⟩
    · rw [hline] at hother
      cases hother
    · exact h.entry before other rest text hrest hother

theorem closed (h : m.Numbers lines) (hline : line.directive = .closed) :
    m.Numbers (lines ++ [line]) where
  domains_length := by rw [h.domains_length, regions_concat_closed hline]
  domain before other after text hsplit hother := by
    rcases split_concat hsplit with ⟨rfl, rfl⟩ | ⟨rest, hrest⟩
    · rw [hline] at hother
      cases hother
    · exact h.domain before other rest text hrest hother
  entries_length := by rw [h.entries_length, declarations_concat_closed hline]
  entry before other after text hsplit hother := by
    rcases split_concat hsplit with ⟨rfl, rfl⟩ | ⟨rest, hrest⟩
    · rw [hline] at hother
      cases hother
    · exact h.entry before other rest text hrest hother

theorem declared (h : m.Numbers lines) (hline : line.directive = .declared name)
    {region index : Fin 256} (hregion : (region : Nat) + 1 = regions lines)
    (hindex : sinceOpened lines = index) :
    ({ m with entries := m.entries ++ [⟨name, region, index, line.location⟩] } :
      AddressMap).Numbers (lines ++ [line]) where
  domains_length := by rw [h.domains_length, regions_concat_declared hline]
  domain before other after text hsplit hother := by
    rcases split_concat hsplit with ⟨rfl, rfl⟩ | ⟨rest, hrest⟩
    · rw [hline] at hother
      cases hother
    · exact h.domain before other rest text hrest hother
  entries_length := by
    rw [List.length_append, h.entries_length, declarations_concat_declared hline]
    rfl
  entry before other after text hsplit hother := by
    rcases split_concat hsplit with ⟨rfl, rfl⟩ | ⟨rest, hrest⟩
    · rw [hline] at hother
      cases hother
      refine ⟨⟨name, region, index, other.location⟩, ?_, rfl, rfl, hregion, hindex.symm⟩
      rw [← h.entries_length, List.getElem?_concat_length]
    · obtain ⟨e, he, hrow⟩ := h.entry before other rest text hrest hother
      exact ⟨e, getElem?_append he _, hrow⟩

end AddressMap.Numbers

namespace Allocation

variable {a a' : Allocation} {lines : List Line} {line : Line} {name : String}

/-- The state behind some lines. -/
structure Tracks (a : Allocation) (lines : List Line) : Prop where
  numbers : a.map.Numbers lines
  isOpen : a.region.isSome = regionIsOpen lines
  region : ∀ region, a.region = some region → (region : Nat) + 1 = regions lines
  index : a.index = sinceOpened lines
  names : ∀ name, name ∈ a.map.domains.map Domain.name ++ a.map.entries.map AddressEntry.name ↔
    name ∈ declaredNames lines
  increasing : (a.map.entries.map AddressEntry.address).Pairwise (· < ·)
  /-- All addresses are below the next one. -/
  below : ∀ e ∈ a.map.entries, e.address + 256 < 256 * regions lines + a.index

theorem tracks_initial : Tracks {} [] where
  numbers :=
    { domains_length := rfl
      domain := fun before line after name h => by simp at h
      entries_length := rfl
      entry := fun before line after name h => by simp at h }
  isOpen := rfl
  region := nofun
  index := rfl
  names name := by simp [declaredNames]
  increasing := .nil
  below := nofun

/-! ## Checks -/

theorem fit_eq_ok {location : Location} {part : AddressPart} {value : Nat} {n : Fin 256} :
    fit location part value = .ok n ↔ value = n := by
  unfold fit
  by_cases h : value < 256
  · rw [dif_pos h, Except.ok.injEq]
    exact ⟨fun heq => by rw [← heq], fun heq => Fin.ext heq⟩
  · rw [dif_neg h]
    refine ⟨nofun, fun heq => ?_⟩
    omega

theorem declared?_eq_none_iff {m : AddressMap} :
    m.declared? name = none ↔
      name ∉ m.domains.map Domain.name ++ m.entries.map AddressEntry.name := by
  unfold AddressMap.declared?
  cases hdomain : m.domain? name with
  | some d =>
    have hmem := List.mem_of_find?_eq_some hdomain
    have hname := List.find?_some hdomain
    rw [beq_iff_eq] at hname
    simp only [List.mem_append, List.mem_map, not_or, reduceCtorEq, false_iff, not_and]
    exact fun hnot => absurd ⟨d, hmem, hname⟩ hnot
  | none =>
    have hdomain' := List.find?_eq_none.1 hdomain
    simp only [Option.map_eq_none_iff, AddressMap.entry?, List.find?_eq_none, beq_iff_eq,
      List.mem_append, List.mem_map, not_or, not_exists, not_and] at hdomain' ⊢
    exact ⟨fun h => ⟨hdomain', h⟩, fun h => h.2⟩

theorem claim_eq_ok {location : Location} {kind : NameKind} {u : Unit} :
    a.claim location kind name = .ok u ↔
      name ∉ a.map.domains.map Domain.name ++ a.map.entries.map AddressEntry.name := by
  rw [← declared?_eq_none_iff]
  unfold claim
  cases a.map.declared? name <;> simp

/-! ## Steps -/

theorem openRegion_eq_ok {location : Location} :
    (a.openRegion location name).outcome = .ok a' ↔ ∃ region : Fin 256,
      a.map.domains.length = region ∧
      name ∉ a.map.domains.map Domain.name ++ a.map.entries.map AddressEntry.name ∧
      a' = { map := { a.map with domains := a.map.domains ++ [⟨name, region, location⟩] }
             region := some region
             index := 0 } := by
  have htail : (a.openRegion location name).outcome =
      fit location .region a.map.domains.length >>= fun region =>
        a.claim location .domain name >>= fun _ => .ok
          { map := { a.map with domains := a.map.domains ++ [⟨name, region, location⟩] }
            region := some region
            index := 0 } := by
    unfold openRegion
    cases a.region <;> simp [Outcome.ok_bind] <;> rfl
  rw [htail, Outcome.bind_eq_ok]
  refine exists_congr fun region => ?_
  rw [fit_eq_ok, Outcome.bind_eq_ok]
  simp only [claim_eq_ok, Except.ok.injEq, exists_const, eq_comm (a := a')]

theorem closeRegion_eq_ok {location : Location} :
    a.closeRegion location = .ok a' ↔ a.region.isSome = true ∧ a' = { a with region := none } := by
  unfold closeRegion
  cases a.region <;> simp [eq_comm]

theorem declare_eq_ok {location : Location} :
    a.declare location name = .ok a' ↔ ∃ region index : Fin 256, a.region = some region ∧
      Naming.isIdentifier name = true ∧ a.index = index ∧
      name ∉ a.map.domains.map Domain.name ++ a.map.entries.map AddressEntry.name ∧
      a' = { a with
        map := { a.map with entries := a.map.entries ++ [⟨name, region, index, location⟩] }
        index := a.index + 1 } := by
  unfold declare
  cases hregion : a.region with
  | none => simp [throw, throwThe, MonadExceptOf.throw]
  | some region =>
    dsimp only
    rw [Outcome.check_eq_ok, Outcome.bind_eq_ok]
    simp only [fit_eq_ok, Outcome.bind_eq_ok, claim_eq_ok, Option.some.injEq, exists_const,
      Bool.not_eq_true', Bool.not_eq_false, pure, Except.pure, Except.ok.injEq, eq_comm (a := a'),
      ← exists_and_left]
    constructor
    · rintro ⟨index, hrest⟩
      exact ⟨region, index, rfl, hrest⟩
    · rintro ⟨_, index, rfl, hrest⟩
      exact ⟨index, hrest⟩

/-- A line is taken exactly if it may follow the lines before it. -/
theorem Tracks.step_iff (h : a.Tracks lines) :
    (∃ a', (a.step line).outcome = .ok a') ↔ MayFollow lines line := by
  unfold step MayFollow
  cases hline : line.directive with
  | opened name =>
    simp only [openRegion_eq_ok, h.names, ← h.numbers.domains_length]
    constructor
    · rintro ⟨_, region, hregion, hnew, -⟩
      exact ⟨hregion ▸ region.isLt, hnew⟩
    · rintro ⟨hlt, hnew⟩
      exact ⟨_, ⟨_, hlt⟩, rfl, hnew, rfl⟩
  | closed =>
    simp only [Traced.outcome_ofExcept, closeRegion_eq_ok, h.isOpen]
    constructor
    · rintro ⟨_, hopen, -⟩
      exact hopen
    · intro hopen
      exact ⟨_, hopen, rfl⟩
  | declared name =>
    simp only [Traced.outcome_ofExcept, declare_eq_ok, h.names, ← h.isOpen, ← h.index]
    constructor
    · rintro ⟨_, region, index, hregion, hidentifier, hindex, hnew, -⟩
      exact ⟨by rw [hregion]; rfl, hidentifier, hindex ▸ index.isLt, hnew⟩
    · rintro ⟨hopen, hidentifier, hlt, hnew⟩
      obtain ⟨region, hregion⟩ := Option.isSome_iff_exists.1 hopen
      exact ⟨_, region, ⟨_, hlt⟩, hregion, hidentifier, rfl, hnew, rfl⟩

theorem Tracks.openRegion (h : a.Tracks lines) (hline : line.directive = .opened name)
    (hindex : a.index ≤ 256) (hstep : (a.openRegion line.location name).outcome = .ok a') :
    a'.Tracks (lines ++ [line]) := by
  obtain ⟨region, hregion, -, rfl⟩ := openRegion_eq_ok.1 hstep
  refine
    { numbers := h.numbers.opened hline hregion
      isOpen := (regionIsOpen_concat_opened hline lines).symm
      region := ?_
      index := (sinceOpened_concat_opened hline lines).symm
      names := fun other => ?_
      increasing := h.increasing
      below := fun e he => ?_ }
  · rintro _ ⟨⟩
    rw [regions_concat_opened hline, ← h.numbers.domains_length, hregion]
  · rw [mem_declaredNames_concat (name?_of_opened hline), ← h.names other]
    simp only [List.map_append, List.mem_append, List.map_singleton, List.mem_singleton]
    tauto
  · -- The addresses of a region end where the next region starts.
    have hbelow := h.below e he
    rw [regions_concat_opened hline]
    dsimp only
    omega

theorem Tracks.closeRegion (h : a.Tracks lines) (hline : line.directive = .closed)
    (hstep : a.closeRegion line.location = .ok a') : a'.Tracks (lines ++ [line]) := by
  obtain ⟨-, rfl⟩ := closeRegion_eq_ok.1 hstep
  refine
    { numbers := h.numbers.closed hline
      isOpen := (regionIsOpen_concat_closed hline lines).symm
      region := nofun
      index := h.index.trans (sinceOpened_concat_closed hline lines).symm
      names := fun other => ?_
      increasing := h.increasing
      below := fun e he => ?_ }
  · have hnone : declaredNames [line] = [] := by simp [declaredNames, name?_of_closed hline]
    rw [declaredNames_append, hnone, List.append_nil]
    exact h.names other
  · rw [regions_concat_closed hline]
    exact h.below e he

theorem Tracks.declare (h : a.Tracks lines) (hline : line.directive = .declared name)
    (hstep : a.declare line.location name = .ok a') : a'.Tracks (lines ++ [line]) := by
  obtain ⟨region, index, hregion, -, hindex, -, rfl⟩ := declare_eq_ok.1 hstep
  have hlast := h.region region hregion
  refine
    { numbers := h.numbers.declared hline hlast (h.index ▸ hindex)
      isOpen := h.isOpen.trans (regionIsOpen_concat_declared hline lines).symm
      region := fun r hr => (h.region r hr).trans (regions_concat_declared hline lines).symm
      index := ?_
      names := fun other => ?_
      increasing := ?_
      below := fun e he => ?_ }
  · rw [sinceOpened_concat_declared hline, ← h.index]
  · rw [mem_declaredNames_concat (name?_of_declared hline), ← h.names other]
    simp only [List.map_append, List.mem_append, List.map_singleton, List.mem_singleton]
    tauto
  · rw [List.map_append, List.pairwise_append]
    refine ⟨h.increasing, List.pairwise_singleton _ _, fun address haddress next hnext => ?_⟩
    obtain ⟨e, he, rfl⟩ := List.mem_map.1 haddress
    have hbelow := h.below e he
    rw [List.map_singleton, List.mem_singleton] at hnext
    -- The new address is behind all others, as its index is the next one in the last region.
    have hlt : e.address < 256 * (region : Nat) + index := by omega
    rwa [hnext]
  · rw [regions_concat_declared hline]
    rcases List.mem_append.1 he with he | he
    · have hbelow := h.below e he
      dsimp only
      omega
    · rw [List.mem_singleton.1 he, AddressEntry.address]
      dsimp only
      omega

theorem Tracks.step (h : a.Tracks lines) (hlines : Acceptable lines)
    (hstep : (a.step line).outcome = .ok a') : a'.Tracks (lines ++ [line]) := by
  unfold Allocation.step at hstep
  cases hline : line.directive with
  | opened name =>
    rw [hline] at hstep
    refine h.openRegion hline ?_ hstep
    rw [h.index]
    exact hlines.sinceOpened_le lines [] (List.append_nil _).symm
  | closed =>
    rw [hline] at hstep
    exact h.closeRegion hline hstep
  | declared name =>
    rw [hline] at hstep
    exact h.declare hline hstep

/-! ## Runs -/

theorem run_cons_eq_ok {item : Except SchemaError Line} {items : List (Except SchemaError Line)} :
    (a.run (item :: items)).outcome = .ok a' ↔
      ∃ line next, item = .ok line ∧ (a.step line).outcome = .ok next ∧
        (next.run items).outcome = .ok a' := by
  unfold run
  rw [List.foldlM_cons, Traced.bind_eq_ok]
  constructor
  · rintro ⟨next, hnext, hrun⟩
    obtain ⟨line, hline, hstep⟩ := Traced.bind_eq_ok.1 hnext
    exact ⟨line, next, hline, hstep, hrun⟩
  · rintro ⟨line, next, hline, hstep, hrun⟩
    exact ⟨next, Traced.bind_eq_ok.2 ⟨line, hline, hstep⟩, hrun⟩

/-- A run goes through exactly if all lines can be read and are acceptable behind those before. -/
theorem Tracks.run_iff {items : List (Except SchemaError Line)} (h : a.Tracks lines)
    (hlines : Acceptable lines) :
    (∃ a', (a.run items).outcome = .ok a') ↔
      ∃ more, items = more.map .ok ∧ Acceptable (lines ++ more) := by
  induction items generalizing a lines with
  | nil =>
    refine ⟨fun _ => ⟨[], rfl, by rwa [List.append_nil]⟩, fun _ => ⟨a, rfl⟩⟩
  | cons item items ih =>
    constructor
    · rintro ⟨a', hrun⟩
      obtain ⟨line, next, rfl, hstep, hrun⟩ := run_cons_eq_ok.1 hrun
      have hnext := (h.step_iff.1 ⟨next, hstep⟩).acceptable hlines
      obtain ⟨more, rfl, hmore⟩ := (ih (h.step hlines hstep) hnext).1 ⟨a', hrun⟩
      exact ⟨line :: more, rfl, by rwa [List.append_assoc] at hmore⟩
    · rintro ⟨more, hitems, hmore⟩
      cases more with
      | nil => cases hitems
      | cons line more =>
        rw [List.map_cons, List.cons.injEq] at hitems
        obtain ⟨rfl, rfl⟩ := hitems
        have hassoc : Acceptable ((lines ++ [line]) ++ more) := by
          rwa [List.append_assoc]
        have hnext := hassoc.left
        obtain ⟨next, hstep⟩ := h.step_iff.2 hnext.mayFollow
        obtain ⟨a', hrun⟩ := (ih (h.step hlines hstep) hnext).2 ⟨more, rfl, hassoc⟩
        exact ⟨a', run_cons_eq_ok.2 ⟨line, next, rfl, hstep, hrun⟩⟩

theorem Tracks.run {items : List (Except SchemaError Line)} {more : List Line}
    (h : a.Tracks lines) (hmore : Acceptable (lines ++ more)) (hitems : items = more.map .ok)
    (hrun : (a.run items).outcome = .ok a') : a'.Tracks (lines ++ more) := by
  induction more generalizing a lines items with
  | nil =>
    subst hitems
    cases hrun
    rwa [List.append_nil]
  | cons line more ih =>
    subst hitems
    obtain ⟨_, next, hline, hstep, hrun⟩ := run_cons_eq_ok.1 hrun
    cases hline
    have hassoc : lines ++ line :: more = (lines ++ [line]) ++ more := by simp
    rw [hassoc] at hmore ⊢
    exact ih (h.step hmore.left.left hstep) hmore rfl hrun

end Allocation

/-! ## Addresses -/

theorem AddressEntry.address_lt (e : AddressEntry) : e.address < 65536 := by
  unfold address
  omega

theorem AddressEntry.address_div (e : AddressEntry) : e.address / 256 = e.region := by
  unfold address
  omega

theorem AddressEntry.address_mod (e : AddressEntry) : e.address % 256 = e.index := by
  unfold address
  omega

theorem outcome_allocate (markers : Markers) (file text : String) :
    (AddressMap.allocate markers file text).outcome =
      (Allocation.run {} (Line.readAll markers file text)).outcome >>= fun a => .ok a.map := by
  rw [AddressMap.allocate, Traced.outcome_bind]
  congr
  funext a
  cases a.region <;> rfl

/-- **Allocation.** An address schema is accepted exactly if its lines can be read and keep the
rules. Regions and addresses are then numbered by their places among the lines, and the addresses
are 16-bit numbers that increase along the file, the region in the high byte and the place in it in
the low byte. -/
theorem allocate_iff (markers : Markers) (file text : String) :
    ((∃ m, (AddressMap.allocate markers file text).outcome = .ok m) ↔
      ∃ lines, Line.readAll markers file text = lines.map .ok ∧ Acceptable lines) ∧
    ∀ m lines, (AddressMap.allocate markers file text).outcome = .ok m →
      Line.readAll markers file text = lines.map .ok →
        m.Numbers lines ∧ (m.entries.map AddressEntry.address).Pairwise (· < ·) ∧
          ∀ e ∈ m.entries, e.address < 65536 ∧ e.address / 256 = e.region ∧
            e.address % 256 = e.index := by
  have hiff : (∃ a, (Allocation.run {} (Line.readAll markers file text)).outcome = .ok a) ↔
      ∃ lines, Line.readAll markers file text = lines.map .ok ∧ Acceptable lines :=
    Allocation.tracks_initial.run_iff acceptable_nil
  rw [outcome_allocate]
  constructor
  · rw [← hiff]
    constructor
    · rintro ⟨m, h⟩
      obtain ⟨a, hrun, -⟩ := Outcome.bind_eq_ok.1 h
      exact ⟨a, hrun⟩
    · rintro ⟨a, hrun⟩
      exact ⟨a.map, Outcome.bind_eq_ok.2 ⟨a, hrun, rfl⟩⟩
  · intro m lines h hread
    obtain ⟨a, hrun, hmap⟩ := Outcome.bind_eq_ok.1 h
    cases hmap
    obtain ⟨_, hread', hlines⟩ := hiff.1 ⟨a, hrun⟩
    obtain rfl := List.map_injective_iff.2 (fun _ _ h => Except.ok.inj h) (hread.symm.trans hread')
    have htracks := Allocation.tracks_initial.run hlines hread hrun
    exact ⟨htracks.numbers, htracks.increasing, fun e _ =>
      ⟨e.address_lt, e.address_div, e.address_mod⟩⟩

/-- The lines of a schema whose first region is cut short by the second, and whose second one is
closed. -/
def Line.threeRegions : List Line :=
  [⟨⟨"a", 1⟩, .opened "A"⟩, ⟨⟨"a", 2⟩, .declared "x"⟩, ⟨⟨"a", 3⟩, .declared "y"⟩,
    ⟨⟨"a", 4⟩, .opened "B"⟩, ⟨⟨"a", 5⟩, .closed⟩, ⟨⟨"a", 7⟩, .opened "C"⟩,
    ⟨⟨"a", 8⟩, .declared "z"⟩]

/-- What `Line.threeRegions` is given. -/
def AddressMap.threeRegions : AddressMap where
  domains := [⟨"A", 0, ⟨"a", 1⟩⟩, ⟨"B", 1, ⟨"a", 4⟩⟩, ⟨"C", 2, ⟨"a", 7⟩⟩]
  entries := [⟨"x", 0, 0, ⟨"a", 2⟩⟩, ⟨"y", 0, 1, ⟨"a", 3⟩⟩, ⟨"z", 2, 0, ⟨"a", 8⟩⟩]

/-- The empty region takes a number, and a schema with an address behind a closed region has lines
that are not acceptable. -/
theorem allocate_three_regions :
    (AddressMap.threeRegions.Numbers Line.threeRegions ∧
      AddressMap.threeRegions.entries.map AddressEntry.address = [0, 1, 512]) ∧
    ¬∃ lines, Line.readAll ⟨'*', '#'⟩ "a" "*A\n*\nx" = lines.map .ok ∧ Acceptable lines := by
  constructor
  · have hread : Line.readAll ⟨'*', '#'⟩ "a" "*A\nx\ny\n*B\n*\n\n*C\nz" =
        Line.threeRegions.map .ok := rfl
    have hallocate : (AddressMap.allocate ⟨'*', '#'⟩ "a" "*A\nx\ny\n*B\n*\n\n*C\nz").outcome =
        .ok AddressMap.threeRegions := Outcome.of_toOption (by decide +kernel)
    obtain ⟨hnumbers, -, -⟩ := (allocate_iff _ _ _).2 _ _ hallocate hread
    exact ⟨hnumbers, by decide⟩
  · rw [← (allocate_iff _ _ _).1]
    rintro ⟨m, h⟩
    have hnone : (AddressMap.allocate ⟨'*', '#'⟩ "a" "*A\n*\nx").outcome.toOption = none := by
      decide +kernel
    rw [h] at hnone
    cases hnone

end WireSchema
