import Mathlib.Data.List.TakeDrop
import WireSchema.Proofs.AddressAllocation
import WireSchema.Proofs.Emit.Reading
import WireSchema.Proofs.Json.Strings
import WireSchema.Proofs.Schema.Outline
import WireSchema.Report

/-!
# The address table

The table shows each region and, indented below it, the addresses that carry its number. So it is
put together region by region from a flat list of addresses, and does not look at the schema.

**Theorem (`table_of_allocate`).** The table of an accepted address schema has one row for each
region and one for each address, in the order in which the schema has them, each address under its
own region. The numbers in it, read as hexadecimal, are the values of the regions and the addresses,
and they never decrease down the table.

A line of the schema adds its row at the end of the table: a new region has no addresses yet
(`rows_concat_domain`), and a new address goes to the last region (`rows_concat_entry`), which no
region before it shares its number with (`Allocation.Listed`).
-/

namespace WireSchema

open Emit Line

/-! ## Hexadecimal numbers -/

namespace Text

/-- The number with further hexadecimal digits behind it. -/
def hexFrom? (n : Nat) (digits : List Char) : Option Nat :=
  digits.foldlM (fun n c => (Json.hexDigit? c).map (16 * n + ·)) n

theorem hexFrom?_append (n : Nat) (front back : List Char) :
    hexFrom? n (front ++ back) = (hexFrom? n front).bind (hexFrom? · back) :=
  List.foldlM_append

theorem hexFrom?_digitChar (n : Nat) {d : Nat} (h : d < 16) :
    hexFrom? n [Nat.digitChar d] = some (16 * n + d) := by
  simp [hexFrom?, Json.hexDigit?_digitChar d h]

theorem hexFrom?_toDigits (n : Nat) : hexFrom? 0 (Nat.toDigits 16 n) = some n := by
  induction n using Nat.strongRecOn with
  | ind n ih =>
    rw [Nat.toDigits_eq_if (by decide)]
    split
    · rename_i hlt
      rw [hexFrom?_digitChar 0 hlt, Nat.mul_zero, Nat.zero_add]
    · rw [hexFrom?_append, ih (n / 16) (by omega), Option.bind_some,
        hexFrom?_digitChar _ (by omega), Nat.div_add_mod]

theorem hexFrom?_zeros (count : Nat) : hexFrom? 0 (List.replicate count '0') = some 0 := by
  induction count with
  | zero => rfl
  | succ count ih =>
    rw [List.replicate_succ', hexFrom?_append, ih]
    rfl

theorem hexFrom?_hexPadded (width n : Nat) :
    hexFrom? 0 (hexPadded width n).toList = some n := by
  rw [hexPadded, String.toList_ofList, hexFrom?_append, hexFrom?_zeros, Option.bind_some,
    hexFrom?_toDigits]

/-- What is read as a number has no blank in it. -/
theorem blank_not_mem_of_hexFrom? {digits : List Char} {n value : Nat}
    (h : hexFrom? n digits = some value) : ' ' ∉ digits := by
  intro hmem
  obtain ⟨front, back, rfl⟩ := List.append_of_mem hmem
  rw [hexFrom?_append] at h
  obtain ⟨m, -, hback⟩ := Option.bind_eq_some_iff.1 h
  cases hback

theorem span_append {p : Char → Bool} {front back : List Char} (hfront : ∀ c ∈ front, p c = true)
    (hback : ∀ c ∈ back.head?, p c = false) : (front ++ back).span p = (front, back) := by
  rw [List.span_eq_takeWhile_dropWhile, List.takeWhile_append_of_pos hfront,
    List.dropWhile_append_of_pos hfront]
  cases back with
  | nil => simp
  | cons c back =>
    have hc : p c = false := hback c rfl
    simp [hc]

end Text

/-! ## Rows -/

namespace AddressMap

/-- A row of the address table. -/
inductive Row where
  /-- A region with its value. -/
  | domain (value : Nat) (name : String)
  /-- An address. -/
  | entry (value : Nat) (name : String)
deriving Repr, DecidableEq

namespace Row

/-- The number in front. -/
def value : Row → Nat
  | domain value _ => value
  | entry value _ => value

def name : Row → String
  | domain _ name => name
  | entry _ name => name

/-- What a schema says for the row. -/
def directive : Row → Directive
  | domain _ name => .opened name
  | entry _ name => .declared name

/-- The value and the name of a region. -/
def domain? : Row → Option (Nat × String)
  | domain value name => some (value, name)
  | entry _ _ => none

/-- An address and its name. -/
def address? : Row → Option (Nat × String)
  | domain _ _ => none
  | entry value name => some (value, name)

def line : Row → String
  | domain value name => s!"{tableValue value}  {name}"
  | entry value name => s!"{tableValue value}    {name}"

/-- Reads a line of the table: `0x` and a number, a gap, a name. The gap is wider in front of the
name of an address. -/
def read? (line : String) : Option Row := do
  let text ← between? "0x" "" line
  let (digits, rest) := text.toList.span (· != ' ')
  let (gap, name) := rest.span (· == ' ')
  let value ← Text.hexFrom? 0 digits
  if gap.length = 2 then some (domain value (String.ofList name))
  else if gap.length = 4 then some (entry value (String.ofList name))
  else none

theorem read?_gap (value blanks : Nat) {name : String} (hname : name.toList.head? ≠ some ' ') :
    read? (tableValue value ++ String.ofList (List.replicate (blanks + 1) ' ') ++ name) =
      if blanks + 1 = 2 then some (domain value name)
      else if blanks + 1 = 4 then some (entry value name) else none := by
  have hdigits : ∀ c ∈ (Text.hexPadded 4 value).toList, (c != ' ') = true := by
    intro c hc
    rw [bne_iff_ne]
    rintro rfl
    exact Text.blank_not_mem_of_hexFrom? (Text.hexFrom?_hexPadded 4 value) hc
  have hblanks : ∀ c ∈ List.replicate (blanks + 1) ' ', (c == ' ') = true := by
    intro c hc
    rw [List.eq_of_mem_replicate hc]
    rfl
  have hname : ∀ c ∈ name.toList.head?, (c == ' ') = false := by
    intro c hc
    rw [beq_eq_false_iff_ne]
    rintro rfl
    exact hname hc
  have htext : between? "0x" "" (tableValue value ++
      String.ofList (List.replicate (blanks + 1) ' ') ++ name) =
      some (Text.hexPadded 4 value ++ String.ofList (List.replicate (blanks + 1) ' ') ++ name) := by
    rw [between?_eq_some_iff, tableValue, String.append_empty]
    simp only [String.append_assoc]
  rw [read?, htext]
  simp only [Option.bind_eq_bind, Option.bind_some, String.toList_append, String.toList_ofList,
    List.append_assoc]
  rw [Text.span_append hdigits (by simp [List.replicate_succ]), Text.span_append hblanks hname]
  simp only [Text.hexFrom?_hexPadded, Option.bind_some, List.length_replicate,
    String.ofList_toList]

theorem read?_line {row : Row} (h : row.name.toList.head? ≠ some ' ') :
    read? row.line = some row := by
  cases row with
  | domain value name =>
    exact read?_gap value 1 h
  | entry value name =>
    exact read?_gap value 3 h

end Row

/-! ## The rows of a table -/

/-- The row of a region and those of its addresses. -/
def rowsOf (entries : List AddressEntry) (d : Domain) : List Row :=
  .domain d.value d.name ::
    (entries.filter (·.region == d.region)).map fun e => .entry e.address e.name

/-- The rows of the table. -/
def rows (m : AddressMap) : List Row := m.domains.flatMap (rowsOf m.entries)

variable {m : AddressMap} {lines : List Line} {line : Line}

theorem table_eq (m : AddressMap) : m.table = m.rows.map Row.line := by
  rw [table, rows, List.map_flatMap]
  simp only [rowsOf, List.map_cons, List.map_map]
  rfl

theorem mem_rows {row : Row} (h : row ∈ m.rows) :
    (∃ d ∈ m.domains, row = .domain d.value d.name) ∨
      ∃ e ∈ m.entries, row = .entry e.address e.name := by
  obtain ⟨d, hd, hrow⟩ := List.mem_flatMap.1 h
  rcases List.mem_cons.1 hrow with rfl | hrow
  · exact .inl ⟨d, hd, rfl⟩
  · obtain ⟨e, he, rfl⟩ := List.mem_map.1 hrow
    exact .inr ⟨e, (List.mem_filter.1 he).1, rfl⟩

theorem rowsOf_of_forall_ne {entries : List AddressEntry} {d : Domain}
    (h : ∀ e ∈ entries, e.region ≠ d.region) : rowsOf entries d = [.domain d.value d.name] := by
  have hnone : entries.filter (·.region == d.region) = [] := by
    rw [List.filter_eq_nil_iff]
    intro e he
    rw [beq_iff_eq]
    exact h e he
  rw [rowsOf, hnone, List.map_nil]

theorem rowsOf_concat (entries : List AddressEntry) (e : AddressEntry) (d : Domain) :
    rowsOf (entries ++ [e]) d =
      rowsOf entries d ++ if e.region = d.region then [.entry e.address e.name] else [] := by
  rw [rowsOf, rowsOf, List.filter_append, List.map_append, List.cons_append]
  by_cases h : e.region = d.region <;> simp [h]

/-- A region without addresses adds one row. -/
theorem rows_concat_domain {d : Domain} (h : ∀ e ∈ m.entries, e.region ≠ d.region) :
    ({ m with domains := m.domains ++ [d] } : AddressMap).rows =
      m.rows ++ [.domain d.value d.name] := by
  rw [rows, List.flatMap_append, List.flatMap_singleton, rowsOf_of_forall_ne h]
  rfl

/-- An address of the last region adds one row. -/
theorem rows_concat_entry {e : AddressEntry} {front : List Domain} {last : Domain}
    (hdomains : m.domains = front ++ [last]) (hlast : e.region = last.region)
    (hfront : ∀ d ∈ front, e.region ≠ d.region) :
    ({ m with entries := m.entries ++ [e] } : AddressMap).rows =
      m.rows ++ [.entry e.address e.name] := by
  have hsame : front.flatMap (rowsOf (m.entries ++ [e])) = front.flatMap (rowsOf m.entries) := by
    refine List.flatMap_congr fun d hd => ?_
    rw [rowsOf_concat, if_neg (hfront d hd), List.append_nil]
  rw [rows, rows, hdomains, List.flatMap_append, List.flatMap_append, hsame, List.flatMap_singleton,
    List.flatMap_singleton, rowsOf_concat, if_pos hlast, List.append_assoc]

/-! ## What a table shows -/

/-- Rows that show the regions and addresses of some lines. -/
structure ShownBy (m : AddressMap) (lines : List Line) (rows : List Row) : Prop where
  /-- There is one row for each open marker and each declaration, in the order of the lines. -/
  directives : rows.map Row.directive = (lines.map Line.directive).filter (· ≠ .closed)
  domains : rows.filterMap Row.domain? = m.domains.map fun d => (d.value, d.name)
  addresses : rows.filterMap Row.address? = m.entries.map fun e => (e.address, e.name)
  /-- The last region above an address is its own. -/
  above : ∀ front value name back, rows = front ++ .entry value name :: back →
    ∃ e ∈ m.entries, ∃ d ∈ m.domains, e.region = d.region ∧ (e.address, e.name) = (value, name) ∧
      (front.filterMap Row.domain?).getLast? = some (d.value, d.name)
  values : (rows.map Row.value).Pairwise (· ≤ ·)

namespace ShownBy

variable {rows : List Row}

theorem empty : ({} : AddressMap).ShownBy [] [] where
  directives := rfl
  domains := rfl
  addresses := rfl
  above front value name back h := by simp at h
  values := .nil

theorem values_concat {row : Row} (h : m.ShownBy lines rows)
    (hle : ∀ other ∈ rows, other.value ≤ row.value) :
    ((rows ++ [row]).map Row.value).Pairwise (· ≤ ·) := by
  rw [List.map_append, List.pairwise_append]
  refine ⟨h.values, List.pairwise_singleton _ _, fun value hvalue last hlast => ?_⟩
  obtain ⟨other, hother, rfl⟩ := List.mem_map.1 hvalue
  rw [List.mem_singleton.1 hlast]
  exact hle other hother

theorem directives_concat {row : Row} (h : m.ShownBy lines rows)
    (hline : line.directive = row.directive) :
    (rows ++ [row]).map Row.directive =
      ((lines ++ [line]).map Line.directive).filter (· ≠ .closed) := by
  have hopen : row.directive ≠ .closed := by
    cases row <;> exact Directive.noConfusion
  rw [List.map_append, List.map_append, List.filter_append, h.directives]
  simp [hline, hopen]

theorem opened {d : Domain} (h : m.ShownBy lines rows) (hline : line.directive = .opened d.name)
    (hle : ∀ row ∈ rows, row.value ≤ d.value) :
    ({ m with domains := m.domains ++ [d] } : AddressMap).ShownBy (lines ++ [line])
      (rows ++ [.domain d.value d.name]) where
  directives := h.directives_concat hline
  domains := by
    rw [List.filterMap_append, List.map_append, h.domains]
    rfl
  addresses := by
    rw [List.filterMap_append, h.addresses]
    exact List.append_nil _
  above front value name back hsplit := by
    rcases split_concat hsplit with ⟨-, hrow⟩ | ⟨rest, hrest⟩
    · cases hrow
    · obtain ⟨e, he, other, hother, hown⟩ := h.above front value name rest hrest
      exact ⟨e, he, other, List.mem_append_left _ hother, hown⟩
  values := h.values_concat hle

theorem closed (h : m.ShownBy lines rows) (hline : line.directive = .closed) :
    m.ShownBy (lines ++ [line]) rows where
  directives := by
    rw [List.map_append, List.filter_append, h.directives]
    simp [hline]
  domains := h.domains
  addresses := h.addresses
  above := h.above
  values := h.values

theorem declared {e : AddressEntry} {front : List Domain} {last : Domain}
    (h : m.ShownBy lines rows) (hline : line.directive = .declared e.name)
    (hdomains : m.domains = front ++ [last]) (hlast : e.region = last.region)
    (hle : ∀ row ∈ rows, row.value ≤ e.address) :
    ({ m with entries := m.entries ++ [e] } : AddressMap).ShownBy (lines ++ [line])
      (rows ++ [.entry e.address e.name]) where
  directives := h.directives_concat hline
  domains := by
    rw [List.filterMap_append, h.domains]
    exact List.append_nil _
  addresses := by
    rw [List.filterMap_append, List.map_append, h.addresses]
    rfl
  above above value name back hsplit := by
    rcases split_concat hsplit with ⟨rfl, hrow⟩ | ⟨rest, hrest⟩
    · cases hrow
      refine ⟨e, List.mem_append_right _ (List.mem_singleton_self e), last, ?_, hlast, rfl, ?_⟩
      · rw [hdomains]
        exact List.mem_append_right _ (List.mem_singleton_self last)
      · rw [h.domains, hdomains, List.map_append]
        exact List.getLast?_concat
    · obtain ⟨other, hother, hown⟩ := h.above above value name rest hrest
      exact ⟨other, List.mem_append_left _ hother, hown⟩
  values := h.values_concat hle

end ShownBy

end AddressMap

/-! ## The table behind some lines -/

namespace Allocation

variable {a a' : Allocation} {lines : List Line} {line : Line} {name : String}

/-- The table behind some lines, and what its order rests on: regions are numbered by their places,
and no address has the number of a region to come. -/
structure Listed (a : Allocation) (lines : List Line) : Prop where
  domains : ∀ i d, a.map.domains[i]? = some d → (d.region : Nat) = i
  entries : ∀ e ∈ a.map.entries, (e.region : Nat) < a.map.domains.length
  shown : a.map.ShownBy lines a.map.rows

theorem listed_initial : Listed {} [] where
  domains i d h := by simp at h
  entries e h := absurd h List.not_mem_nil
  shown := .empty

namespace Listed

theorem region_lt (h : a.Listed lines) {d : Domain} (hd : d ∈ a.map.domains) :
    (d.region : Nat) < a.map.domains.length := by
  obtain ⟨i, hi⟩ := List.mem_iff_getElem?.1 hd
  rw [h.domains i d hi]
  exact (List.getElem?_eq_some_iff.1 hi).1

theorem openRegion (h : a.Listed lines) (hline : line.directive = .opened name)
    (hstep : (a.openRegion line.location name).outcome = .ok a') : a'.Listed (lines ++ [line]) := by
  obtain ⟨region, hregion, -, rfl⟩ := openRegion_eq_ok.1 hstep
  -- The region is the next number, which no entry has so far, so that its rows come last.
  have hnew : ∀ e ∈ a.map.entries, e.region ≠ region := by
    intro e he heq
    have hlt := h.entries e he
    omega
  refine
    { domains := fun i d hd => ?_
      entries := fun e he => ?_
      shown := ?_ }
  · rcases Nat.lt_or_ge i a.map.domains.length with hi | hi
    · rw [List.getElem?_append_left hi] at hd
      exact h.domains i d hd
    · rw [List.getElem?_append_right hi, List.getElem?_singleton] at hd
      split at hd
      · cases hd
        dsimp only
        omega
      · cases hd
  · rw [List.length_append]
    exact Nat.lt_add_right _ (h.entries e he)
  · rw [AddressMap.rows_concat_domain hnew]
    refine h.shown.opened hline fun row hrow => ?_
    rcases AddressMap.mem_rows hrow with ⟨d, hd, rfl⟩ | ⟨e, he, rfl⟩
    · have hlt := h.region_lt hd
      simp only [AddressMap.Row.value, Domain.value]
      omega
    · have hlt := h.entries e he
      simp only [AddressMap.Row.value, Domain.value, AddressEntry.address]
      omega

theorem closeRegion (h : a.Listed lines) (hline : line.directive = .closed)
    (hstep : a.closeRegion line.location = .ok a') : a'.Listed (lines ++ [line]) := by
  obtain ⟨-, rfl⟩ := closeRegion_eq_ok.1 hstep
  exact { domains := h.domains, entries := h.entries, shown := h.shown.closed hline }

theorem declare (h : a.Listed lines) (ht : a.Tracks lines)
    (hline : line.directive = .declared name) (hstep : a.declare line.location name = .ok a') :
    a'.Listed (lines ++ [line]) := by
  obtain ⟨region, index, hregion, -, hindex, -, rfl⟩ := declare_eq_ok.1 hstep
  have hlength : a.map.domains.length = (region : Nat) + 1 :=
    ht.numbers.domains_length.trans (ht.region region hregion).symm
  rcases List.eq_nil_or_concat' a.map.domains with hnil | ⟨front, last, hdomains⟩
  · rw [hnil] at hlength
    cases hlength
  -- The open region is the last one, so its domain is the last domain and the row is the last row.
  have hfront : front.length = region := by
    rw [hdomains, List.length_append, List.length_singleton] at hlength
    exact Nat.succ.inj hlength
  have hlast : region = last.region := by
    refine Fin.ext (hfront.symm.trans (h.domains front.length last ?_).symm)
    rw [hdomains, List.getElem?_concat_length]
  have hbefore : ∀ d ∈ front, region ≠ d.region := by
    intro d hd heq
    obtain ⟨i, hi⟩ := List.mem_iff_getElem?.1 hd
    have hi' := (List.getElem?_eq_some_iff.1 hi).1
    have hd' := h.domains i d (by rw [hdomains, List.getElem?_append_left hi', hi])
    omega
  refine
    { domains := h.domains
      entries := fun e he => ?_
      shown := ?_ }
  · rcases List.mem_append.1 he with he | he
    · exact h.entries e he
    · rw [List.mem_singleton.1 he, hlength]
      exact Nat.lt_succ_self _
  · rw [AddressMap.rows_concat_entry hdomains hlast hbefore]
    refine h.shown.declared hline hdomains hlast fun row hrow => ?_
    rcases AddressMap.mem_rows hrow with ⟨d, hd, rfl⟩ | ⟨e, he, rfl⟩
    · have hlt := h.region_lt hd
      simp only [AddressMap.Row.value, Domain.value, AddressEntry.address]
      omega
    · have hbelow := ht.below e he
      rw [← ht.region region hregion] at hbelow
      simp only [AddressMap.Row.value, AddressEntry.address] at hbelow ⊢
      omega

theorem step (h : a.Listed lines) (ht : a.Tracks lines) (hstep : (a.step line).outcome = .ok a') :
    a'.Listed (lines ++ [line]) := by
  unfold Allocation.step at hstep
  cases hline : line.directive with
  | opened name =>
    rw [hline] at hstep
    exact h.openRegion hline hstep
  | closed =>
    rw [hline] at hstep
    exact h.closeRegion hline hstep
  | declared name =>
    rw [hline] at hstep
    exact h.declare ht hline hstep

theorem run {items : List (Except SchemaError Line)} {more : List Line} (h : a.Listed lines)
    (ht : a.Tracks lines) (hmore : Acceptable (lines ++ more)) (hitems : items = more.map .ok)
    (hrun : (a.run items).outcome = .ok a') : a'.Listed (lines ++ more) := by
  induction more generalizing a lines items with
  | nil =>
    subst hitems
    cases hrun
    rwa [List.append_nil]
  | cons line more ih =>
    subst hitems
    obtain ⟨_, next, hline, hstep, hrun⟩ := run_cons_eq_ok.1 hrun
    cases hline
    have hassoc : lines ++ line :: more = (lines ++ [line]) ++ more := by simp
    rw [hassoc] at hmore ⊢
    exact ih (h.step ht hstep) (ht.step hmore.left.left hstep) hmore rfl hrun

end Listed

end Allocation

/-! ## The table of a schema -/

namespace AddressMap

/-- The name in a row does not start with a blank. -/
theorem ShownBy.head?_name {m : AddressMap} {lines : List Line} {rows : List Row}
    (h : m.ShownBy lines rows) {markers : Markers} {file text : String}
    (hread : Line.readAll markers file text = lines.map .ok) (hlines : Acceptable lines)
    {row : Row} (hrow : row ∈ rows) : row.name.toList.head? ≠ some ' ' := by
  have hdirective : row.directive ∈ lines.map Line.directive := by
    have hmem := List.mem_map_of_mem (f := Row.directive) hrow
    rw [h.directives] at hmem
    exact List.mem_of_mem_filter hmem
  obtain ⟨⟨location, directive⟩, hline, hdirective⟩ := List.mem_map.1 hdirective
  cases hdirective
  intro hblank
  have hmem : ' ' ∈ row.name.toList := List.mem_of_head? hblank
  cases row with
  | domain value name =>
    have hread' : .ok ⟨location, .opened name⟩ ∈ Line.readAll markers file text := by
      rw [hread]
      exact List.mem_map_of_mem hline
    have hspace := Line.isSpace_of_mem_readAll hread' ' ' hmem
    revert hspace
    decide
  | entry value name =>
    obtain ⟨before, after, rfl⟩ := List.append_of_mem hline
    have hname := (hlines.declared before _ after name rfl rfl).2
    have hword := Naming.isWord_of_isIdentifier hname ' ' hmem
    revert hword
    decide

/-- **The address table.** The lines of the table of an accepted schema can be read as rows, and
the rows show the regions and the addresses of the schema in its order. -/
theorem table_of_allocate {markers : Markers} {file text : String} {m : AddressMap}
    (h : (allocate markers file text).outcome = .ok m) :
    ∃ lines rows, Line.readAll markers file text = lines.map .ok ∧
      m.table.map Row.read? = rows.map some ∧ m.ShownBy lines rows := by
  rw [outcome_allocate] at h
  obtain ⟨a, hrun, hmap⟩ := Outcome.bind_eq_ok.1 h
  cases hmap
  obtain ⟨lines, hread, hlines⟩ :=
    (Allocation.tracks_initial.run_iff acceptable_nil).1 ⟨a, hrun⟩
  have hshown := (Allocation.listed_initial.run Allocation.tracks_initial hlines hread hrun).shown
  refine ⟨lines, a.map.rows, hread, ?_, hshown⟩
  rw [table_eq, List.map_map]
  exact List.map_congr_left fun row hrow => Row.read?_line (hshown.head?_name hread hlines hrow)

/-- The region without addresses has its row. -/
theorem table_three_regions :
    (allocate {} "a" "*A\nx\ny\n*B\n*\n\n*C\nz").outcome = .ok threeRegions ∧
      threeRegions.table = ["0x0000  A", "0x0000    x", "0x0001    y", "0x0100  B", "0x0200  C",
        "0x0200    z"] ∧
      ∃ lines rows, Line.readAll {} "a" "*A\nx\ny\n*B\n*\n\n*C\nz" = lines.map .ok ∧
        threeRegions.table.map Row.read? = rows.map some ∧ threeRegions.ShownBy lines rows := by
  have h : (allocate {} "a" "*A\nx\ny\n*B\n*\n\n*C\nz").outcome = .ok threeRegions :=
    Outcome.of_toOption (by decide +kernel)
  exact ⟨h, by decide +kernel, table_of_allocate h⟩

end AddressMap

end WireSchema
