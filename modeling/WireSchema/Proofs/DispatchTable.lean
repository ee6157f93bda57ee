import Mathlib.Data.List.Find
import WireSchema.Proofs.Registry

/-!
# What a dispatch table holds

A dispatch table is collected from the member lists of the interfaces, and then it is checked that
every message on the wire came out exactly once. Member lists are filled by whoever makes an
interface, and the targets of a message need not be those of its interface, so a list may hold names
of no message, names of messages that are not on the wire, and the same name many times.

**Theorem (`dispatchTable_of_reachable`).** After any calls on an empty registry, the table exists
if and only if every message on the wire is listed exactly once. It then holds just these messages
with their type ids, in the order of the ids. Otherwise the error names the first message that is
listed another number of times, and says how often it is.

Names and type ids determine each other (`Distinct`), so entries with the id of a message are
counted by counting its name (`entryCount_countedId`). If all counts are one, the entries have no
repetition and are the messages on the wire in some order, which sorting by id makes the order of
declaration (`mergeSort_dispatchEntries`).
-/

namespace WireSchema.Registry

variable {r : Registry} {rep : Representation} {d : Descriptor}

/-! ## Listed names and messages on the wire -/

/-- The names that the interfaces of a representation list. -/
def listed (r : Registry) (rep : Representation) : List String :=
  (r.interfacesFor rep).flatMap Interface.messages

/-- Every message on the wire is listed exactly once. -/
def Covered (r : Registry) (rep : Representation) : Prop :=
  ∀ d ∈ r.messages, d.isWire rep = true → (r.listed rep).count d.name = 1

instance : Decidable (r.Covered rep) :=
  inferInstanceAs
    (Decidable (∀ d ∈ r.messages, d.isWire rep = true → (r.listed rep).count d.name = 1))

/-- The messages on the wire with their type ids, in the order of declaration. -/
def wireEntries (r : Registry) (rep : Representation) : List DispatchEntry :=
  ((r.messages.zipIdx 1).filter fun p => p.1.isWire rep).map fun p => ⟨p.2, p.1.name⟩

theorem mem_zipIdx_one {p : Descriptor × Nat} :
    p ∈ r.messages.zipIdx 1 ↔ r.byId? p.2 = some p.1 := by
  obtain ⟨d, id⟩ := p
  rw [byId?_eq_some_iff, List.mk_mem_zipIdx_iff_le_and_getElem?_sub]
  constructor
  · rintro ⟨hle, hget⟩
    exact ⟨id - 1, by omega, hget⟩
  · rintro ⟨index, rfl, hget⟩
    exact ⟨Nat.le_add_left .., hget⟩

theorem mem_wireEntries {e : DispatchEntry} :
    e ∈ r.wireEntries rep ↔
      ∃ d, r.byId? e.typeId = some d ∧ d.name = e.name ∧ d.isWire rep = true := by
  rw [wireEntries, List.mem_map]
  constructor
  · rintro ⟨p, hp, rfl⟩
    obtain ⟨hp, hwire⟩ := List.mem_filter.1 hp
    exact ⟨p.1, mem_zipIdx_one.1 hp, rfl, hwire⟩
  · rintro ⟨d, hd, hname, hwire⟩
    refine ⟨(d, e.typeId), List.mem_filter.2 ⟨mem_zipIdx_one.2 hd, hwire⟩, ?_⟩
    rw [hname]

/-- Type ids grow along the messages. -/
theorem pairwise_wireEntries (r : Registry) (rep : Representation) :
    (r.wireEntries rep).Pairwise fun a b => a.typeId < b.typeId := by
  have hids : (r.messages.zipIdx 1).Pairwise fun p q => p.2 < q.2 := by
    have hrange := List.pairwise_lt_range' (s := 1) (n := r.messages.length)
    rw [← List.zipIdx_map_snd] at hrange
    exact List.pairwise_map.1 hrange
  exact List.pairwise_map.2 (hids.filter _)

/-! ## Entries -/

theorem dispatchEntries_eq (r : Registry) (rep : Representation) :
    r.dispatchEntries rep = (r.listed rep).filterMap (r.dispatchEntry? rep) :=
  List.filterMap_flatMap.symm

/-- A listed name has an entry if it is the name of a message on the wire. -/
theorem dispatchEntry?_eq_some_iff (hr : r.Distinct) {name : String} {e : DispatchEntry} :
    r.dispatchEntry? rep name = some e ↔ e.name = name ∧ e ∈ r.wireEntries rep := by
  rw [mem_wireEntries]
  constructor
  · intro h
    obtain ⟨d, hfind, h⟩ := Option.bind_eq_some_iff.1 h
    have hname : d.name = name := by simpa using List.find?_some hfind
    split at h
    · obtain ⟨id, hid, h⟩ := Option.bind_eq_some_iff.1 h
      cases h
      exact ⟨rfl, d, (byId?_of_typeId? hid).trans hfind, hname, ‹_›⟩
    · cases h
  · rintro ⟨rfl, d, hd, hname, hwire⟩
    have hfind := message?_name hr hd
    have hid := typeId?_name hr hd
    rw [hname] at hfind hid
    simp [hfind, hid, hwire, dispatchEntry?]

/-- The entries of a message are as many as the places that list it. -/
theorem entryCount_countedId (hr : r.Distinct) (hd : d ∈ r.messages)
    (hwire : d.isWire rep = true) :
    entryCount (r.dispatchEntries rep) (r.countedId d) = (r.listed rep).count d.name := by
  obtain ⟨index, hget⟩ := List.mem_iff_getElem?.1 hd
  have hid : r.byId? (index + 1) = some d := hget
  rw [dispatchEntries_eq, entryCount, List.countP_filterMap, List.count_eq_countP, countedId,
    typeId?_name hr hid, Option.getD_some]
  refine List.countP_congr fun name _ => ?_
  rw [beq_iff_eq]
  constructor
  · intro h
    cases hentry : r.dispatchEntry? rep name with
    | none => simp [hentry] at h
    | some e =>
      obtain ⟨rfl, he⟩ := (dispatchEntry?_eq_some_iff hr).1 hentry
      obtain ⟨d', hd', hname, -⟩ := mem_wireEntries.1 he
      have htype : e.typeId = index + 1 := by simpa [hentry] using h
      rw [htype, hid] at hd'
      cases hd'
      exact hname.symm
  · rintro rfl
    have hentry : r.dispatchEntry? rep d.name = some ⟨index + 1, d.name⟩ :=
      (dispatchEntry?_eq_some_iff hr).2 ⟨rfl, mem_wireEntries.2 ⟨d, hid, rfl, hwire⟩⟩
    simp [hentry]

/-- Every entry is a message on the wire. -/
theorem mem_wireEntries_of_mem (hr : r.Distinct) {e : DispatchEntry}
    (he : e ∈ r.dispatchEntries rep) : e ∈ r.wireEntries rep := by
  rw [dispatchEntries_eq] at he
  obtain ⟨name, -, hentry⟩ := List.mem_filterMap.1 he
  exact ((dispatchEntry?_eq_some_iff hr).1 hentry).2

theorem mem_dispatchEntries (hr : r.Distinct) (hcovered : r.Covered rep) {e : DispatchEntry} :
    e ∈ r.dispatchEntries rep ↔ e ∈ r.wireEntries rep := by
  refine ⟨mem_wireEntries_of_mem hr, fun he => ?_⟩
  obtain ⟨d, hd, hname, hwire⟩ := mem_wireEntries.1 he
  have hone := hcovered d (mem_of_byId? hd) hwire
  rw [hname] at hone
  rw [dispatchEntries_eq, List.mem_filterMap]
  exact ⟨e.name, List.count_pos_iff.1 (by omega), (dispatchEntry?_eq_some_iff hr).2 ⟨rfl, he⟩⟩

theorem nodup_dispatchEntries (hr : r.Distinct) (hcovered : r.Covered rep) :
    (r.dispatchEntries rep).Nodup := by
  refine List.nodup_iff_count_le_one.2 fun e => ?_
  by_cases he : e ∈ r.dispatchEntries rep
  · obtain ⟨d, hd, -, hwire⟩ := mem_wireEntries.1 (mem_wireEntries_of_mem hr he)
    have hone := entryCount_countedId hr (mem_of_byId? hd) hwire
    rw [hcovered d (mem_of_byId? hd) hwire, countedId, typeId?_name hr hd, Option.getD_some] at hone
    rw [← hone]
    -- Entries equal to `e` are among those with its type id.
    refine List.countP_mono_left fun e' _ h => ?_
    rw [beq_iff_eq.1 h, beq_self_eq_true]
  · rw [List.count_eq_zero.2 he]
    exact Nat.zero_le 1

/-- Sorted by type id, the entries are the messages on the wire in the order of declaration. -/
theorem mergeSort_dispatchEntries (hr : r.Distinct) (hcovered : r.Covered rep) :
    (r.dispatchEntries rep).mergeSort (fun a b => a.typeId ≤ b.typeId) = r.wireEntries rep := by
  have hids := pairwise_wireEntries r rep
  have hnodup : (r.wireEntries rep).Nodup := hids.imp fun h heq => by
    rw [heq] at h
    exact Nat.lt_irrefl _ h
  have hperm : (r.dispatchEntries rep).Perm (r.wireEntries rep) :=
    (List.perm_ext_iff_of_nodup (nodup_dispatchEntries hr hcovered) hnodup).2 fun _ =>
      mem_dispatchEntries hr hcovered
  have hsorted : ((r.dispatchEntries rep).mergeSort fun a b => a.typeId ≤ b.typeId).Pairwise
      fun a b => a.typeId ≤ b.typeId := by
    have h := @List.pairwise_mergeSort _ (fun a b : DispatchEntry => a.typeId ≤ b.typeId)
      (by simp only [decide_eq_true_eq]; omega)
      (by simp only [Bool.or_eq_true, decide_eq_true_eq]; omega) (r.dispatchEntries rep)
    exact h.imp of_decide_eq_true
  refine List.Perm.eq_of_pairwise (fun a b ha hb hab hba => ?_) hsorted
    (hids.imp Nat.le_of_lt) ((List.mergeSort_perm _ _).trans hperm)
  -- Both are messages on the wire, and they have one type id.
  rw [List.mem_mergeSort, mem_dispatchEntries hr hcovered] at ha
  obtain ⟨d, hd, hname, -⟩ := mem_wireEntries.1 ha
  obtain ⟨d', hd', hname', -⟩ := mem_wireEntries.1 hb
  have hid : a.typeId = b.typeId := Nat.le_antisymm hab hba
  rw [hid, hd'] at hd
  cases hd
  cases a
  cases b
  simp_all

/-! ## The table -/

/-- `d` is the first message on the wire that is not listed exactly once, and `before` are the
messages declared before it. -/
structure FirstMislisted (r : Registry) (rep : Representation) (before : List Descriptor)
    (d : Descriptor) : Prop where
  messages_eq : ∃ behind, r.messages = before ++ d :: behind
  isWire : d.isWire rep = true
  count_ne : (r.listed rep).count d.name ≠ 1
  before_once : ∀ b ∈ before, b.isWire rep = true → (r.listed rep).count b.name = 1

theorem firstUncovered?_eq (hr : r.Distinct) :
    r.firstUncovered? rep (r.dispatchEntries rep) =
      r.messages.find? fun d => d.isWire rep && (r.listed rep).count d.name != 1 := by
  rw [firstUncovered?, List.find?_filter]
  refine List.find?_congr fun d hd => ?_
  by_cases hwire : d.isWire rep = true
  · rw [entryCount_countedId hr hd hwire, Bool.decide_and, Bool.decide_eq_true, Bool.decide_eq_true]
  · simp [hwire]

theorem dispatchTable_of_covered (hr : r.Distinct) (hcovered : r.Covered rep) :
    r.dispatchTable rep = .ok (r.wireEntries rep) := by
  have hnone : r.firstUncovered? rep (r.dispatchEntries rep) = none := by
    rw [firstUncovered?_eq hr, List.find?_eq_none]
    intro d hd
    by_cases hwire : d.isWire rep = true
    · simp [hcovered d hd hwire]
    · simp [hwire]
  rw [← mergeSort_dispatchEntries hr hcovered]
  simp only [dispatchTable, hnone]

theorem dispatchTable_of_not_covered (hr : r.Distinct) (hcovered : ¬r.Covered rep) :
    ∃ before d, r.FirstMislisted rep before d ∧ r.typeId? d.name = some (before.length + 1) ∧
      r.dispatchTable rep =
        .error (.dispatch rep d.name (before.length + 1) ((r.listed rep).count d.name)) := by
  cases hfirst : r.firstUncovered? rep (r.dispatchEntries rep) with
  | none =>
    rw [firstUncovered?_eq hr, List.find?_eq_none] at hfirst
    refine absurd (fun d hd hwire => ?_) hcovered
    simpa [hwire] using hfirst d hd
  | some d =>
    have hfind := hfirst
    rw [firstUncovered?_eq hr, List.find?_eq_some_iff_append] at hfind
    obtain ⟨hd, before, behind, hmessages, hbefore⟩ := hfind
    rw [Bool.and_eq_true, bne_iff_ne] at hd
    have hid : r.typeId? d.name = some (before.length + 1) := by
      refine typeId?_name hr (byId?_eq_some_iff.2 ⟨before.length, rfl, ?_⟩)
      rw [hmessages, List.getElem?_append_right (Nat.le_refl _), Nat.sub_self]
      rfl
    refine ⟨before, d, ⟨⟨behind, hmessages⟩, hd.1, hd.2, fun b hb hwire => ?_⟩, hid, ?_⟩
    · simpa [hwire] using hbefore b hb
    · have hcount := entryCount_countedId hr (by simp [hmessages]) hd.1
      simp only [dispatchTable, hfirst, hcount]
      rw [countedId, hid, Option.getD_some]

theorem dispatchTable_eq_ok_iff (hr : r.Distinct) {table : List DispatchEntry} :
    r.dispatchTable rep = .ok table ↔ r.Covered rep ∧ table = r.wireEntries rep := by
  by_cases hcovered : r.Covered rep
  · rw [dispatchTable_of_covered hr hcovered, Except.ok.injEq, eq_comm]
    simp [hcovered]
  · obtain ⟨before, d, -, -, htable⟩ := dispatchTable_of_not_covered hr hcovered
    simp [htable, hcovered]

/-- **Dispatch tables hold what is on the wire.** Whatever was added to a registry, its table exists
exactly when every message on the wire is listed once. It then has these messages in the order of
their type ids, and nothing else. If there is no table, the error names the first message that is
listed another number of times. -/
theorem dispatchTable_of_reachable (h : Reachable r) (rep : Representation) :
    ((∃ table, r.dispatchTable rep = .ok table) ↔ r.Covered rep) ∧
      (∀ table, r.dispatchTable rep = .ok table →
        table = r.wireEntries rep ∧ table.Pairwise fun a b => a.typeId < b.typeId) ∧
      ∀ e, r.dispatchTable rep = .error e → ∃ before d,
        r.FirstMislisted rep before d ∧ r.typeId? d.name = some (before.length + 1) ∧
          e = .dispatch rep d.name (before.length + 1) ((r.listed rep).count d.name) := by
  have hr := h.distinct
  refine ⟨?_, fun table htable => ?_, fun e he => ?_⟩
  · simp [dispatchTable_eq_ok_iff hr]
  · obtain ⟨-, rfl⟩ := (dispatchTable_eq_ok_iff hr).1 htable
    exact ⟨rfl, pairwise_wireEntries r rep⟩
  · by_cases hcovered : r.Covered rep
    · cases (dispatchTable_of_covered hr hcovered).symm.trans he
    · obtain ⟨before, d, hfirst, hid, htable⟩ := dispatchTable_of_not_covered hr hcovered
      cases htable.symm.trans he
      exact ⟨before, d, hfirst, hid, rfl⟩

/-- A message for both sides in an embedded interface. An interface for both sides, made before it,
lists its name too and another name that no message has. -/
def straying : Registry :=
  (((({} : Registry).edit (.interface ⟨"A", ⟨true, true⟩, ⟨"m", 1⟩, ["M", "Z"]⟩)).edit
    (.interface ⟨"B", ⟨false, true⟩, ⟨"m", 2⟩, []⟩)).edit
    (.message ⟨"M", "C", ⟨true, true⟩, [], [], false, ⟨"m", 3⟩⟩)).edit
    (.message ⟨"M", "B", ⟨true, true⟩, [], [], false, ⟨"m", 4⟩⟩)

theorem reachable_straying : Reachable straying := .edit _ (.edit _ (.edit _ (.edit _ .empty)))

/-- The host table has the message once, and the embedded table would have it twice. -/
theorem dispatchTable_of_straying :
    straying.dispatchTable .host = .ok [⟨1, "M"⟩] ∧ ∃ before d,
      straying.dispatchTable .embedded = .error (.dispatch .embedded "M" 1 2) ∧
        straying.FirstMislisted .embedded before d := by
  obtain ⟨hiff, hentries, -⟩ := dispatchTable_of_reachable reachable_straying .host
  obtain ⟨table, htable⟩ := hiff.2 (by decide)
  obtain ⟨rfl, -⟩ := hentries table htable
  obtain ⟨-, -, herror⟩ := dispatchTable_of_reachable reachable_straying .embedded
  obtain ⟨before, d, hfirst, -⟩ := herror _ rfl
  exact ⟨htable, before, d, rfl, hfirst⟩

end WireSchema.Registry
