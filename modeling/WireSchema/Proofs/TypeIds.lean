import Mathlib.Algebra.Ring.Nat
import WireSchema.Proofs.Outcome
import WireSchema.Proofs.Registry

/-!
# Type ids over a history of calls

Type ids are never stored. The id of a name, the message with an id and the enumeration of all type
names are each computed from the list of messages in its own way, and the enumeration has a reserved
name in front and another one behind.

**Theorem (`ids_of_history`).** After any calls on an empty registry, refused ones included, no two
messages have one name and none has a reserved name, and the three ways to number messages agree. An
id that was given out for a name stays the id of that name, whatever is called later. A refused call
leaves the registry as it was, also when the calls change a registry in place.

The invariant is that the enumeration of types lists no name twice (`Reachable.typeNames_nodup`): it
says at once that names are distinct and that none is reserved. Ids stay because a call only adds
messages behind the others (`messages_edit`). In place, a new message changes two lists one after the
other; that this cannot stop half way is `inPlace_call`.
-/

namespace WireSchema.Registry

variable {r : Registry}

/-! ## The enumeration of types -/

theorem typeNames_nodup_edit (hr : r.typeNames.Nodup) (e : Edit) : (r.edit e).typeNames.Nodup := by
  cases e with
  | interface i =>
    rw [edit]
    split
    · obtain ⟨-, rfl⟩ := pushInterface_eq_ok ‹_›
      exact hr
    · exact hr
  | message d =>
    rw [edit]
    split
    · exact typeNames_nodup_pushMessage hr ‹_›
    · exact hr
  | addresses m => exact hr

/-- The enumeration of types lists no name twice, whatever calls made the registry. -/
theorem Reachable.typeNames_nodup (h : Reachable r) : r.typeNames.Nodup := by
  induction h with
  | empty => decide
  | edit e _ ih => exact typeNames_nodup_edit ih e

/-- No message is called like the first or the last type. -/
theorem name_ne_reserved (hr : r.typeNames.Nodup) {name : String}
    (hname : name ∈ r.messages.map Descriptor.name) : name ≠ noType ∧ name ≠ lastType := by
  rw [typeNames, List.cons_append, List.nodup_cons, List.nodup_append] at hr
  obtain ⟨hfirst, -, -, hlast⟩ := hr
  refine ⟨?_, hlast name hname lastType List.mem_cons_self⟩
  rintro rfl
  exact hfirst (List.mem_append_left _ hname)

/-- The enumeration has the messages at their ids. -/
theorem getElem?_typeNames_of_byId? {id : Nat} {d : Descriptor} (h : r.byId? id = some d) :
    r.typeNames[id]? = some d.name := by
  obtain ⟨index, rfl, hget⟩ := byId?_eq_some_iff.1 h
  have hlt : index < (r.messages.map Descriptor.name).length := by
    rw [List.length_map]
    exact (List.getElem?_eq_some_iff.1 hget).1
  rw [typeNames, List.cons_append, List.getElem?_cons_succ, List.getElem?_append_left hlt,
    List.getElem?_map, hget, Option.map_some]

/-! ## Three ways to number messages -/

theorem typeId?_eq_some_iff_byId? (hr : r.Distinct) {name : String} {id : Nat} :
    r.typeId? name = some id ↔ ∃ d, r.byId? id = some d ∧ d.name = name := by
  constructor
  · intro h
    obtain ⟨index, rfl, hindex⟩ := typeId?_eq_some_iff.1 h
    obtain ⟨hlt, hname, -⟩ := List.findIdx?_eq_some_iff_getElem.1 hindex
    exact ⟨r.messages[index], List.getElem?_eq_getElem hlt, beq_iff_eq.1 hname⟩
  · rintro ⟨d, hd, rfl⟩
    exact typeId?_name hr hd

theorem typeId?_eq_some_iff_typeNames (hr : r.typeNames.Nodup) {name : String} {id : Nat} :
    r.typeId? name = some id ↔
      name ∈ r.messages.map Descriptor.name ∧ r.typeNames[id]? = some name := by
  have hdistinct := distinct_of_typeNames hr
  constructor
  · intro h
    obtain ⟨d, hd, rfl⟩ := (typeId?_eq_some_iff_byId? hdistinct).1 h
    exact ⟨List.mem_map_of_mem (mem_of_byId? hd), getElem?_typeNames_of_byId? hd⟩
  · rintro ⟨hmem, hname⟩
    obtain ⟨d, hd, rfl⟩ := List.mem_map.1 hmem
    obtain ⟨index, hindex⟩ := List.mem_iff_getElem?.1 hd
    have hid : r.byId? (index + 1) = some d := hindex
    -- The name stands in the enumeration at the id of its message, and nowhere else.
    have hsame : index + 1 = id := by
      apply (List.getElem?_inj _ hr).1
      · rw [getElem?_typeNames_of_byId? hid, hname]
      · exact (List.getElem?_eq_some_iff.1 (getElem?_typeNames_of_byId? hid)).1
    rw [← hsame]
    exact typeId?_name hdistinct hid

/-- Messages are named and numbered without ambiguity. -/
structure WellNumbered (r : Registry) : Prop where
  names_nodup : (r.messages.map Descriptor.name).Nodup
  name_free : ∀ d ∈ r.messages, d.name ≠ noType ∧ d.name ≠ lastType
  typeId_iff_byId : ∀ name id,
    r.typeId? name = some id ↔ ∃ d, r.byId? id = some d ∧ d.name = name
  typeId_iff_typeNames : ∀ name id,
    r.typeId? name = some id ↔
      name ∈ r.messages.map Descriptor.name ∧ r.typeNames[id]? = some name

theorem wellNumbered_of_typeNames (hr : r.typeNames.Nodup) : r.WellNumbered where
  names_nodup := distinct_of_typeNames hr
  name_free _ hd := name_ne_reserved hr (List.mem_map_of_mem hd)
  typeId_iff_byId _ _ := typeId?_eq_some_iff_byId? (distinct_of_typeNames hr)
  typeId_iff_typeNames _ _ := typeId?_eq_some_iff_typeNames hr

theorem lt_lastTypeId {name : String} {id : Nat} (h : r.typeId? name = some id) :
    0 < id ∧ id < r.lastTypeId := by
  obtain ⟨index, rfl, hindex⟩ := typeId?_eq_some_iff.1 h
  obtain ⟨hlt, -⟩ := List.findIdx?_eq_some_iff_getElem.1 hindex
  exact ⟨Nat.succ_pos index, Nat.succ_lt_succ hlt⟩

/-! ## Ids stay -/

/-- The registry after calls, first call first. -/
def edits (r : Registry) (history : List Edit) : Registry := history.foldl edit r

theorem Reachable.edits (h : Reachable r) (history : List Edit) : Reachable (r.edits history) := by
  induction history generalizing r with
  | nil => exact h
  | cons e history ih => exact ih (.edit e h)

/-- A call adds messages only behind the others. -/
theorem messages_edit (r : Registry) (e : Edit) : r.messages <+: (r.edit e).messages := by
  cases e with
  | interface i =>
    rw [edit]
    split
    · obtain ⟨-, rfl⟩ := pushInterface_eq_ok ‹_›
      exact List.prefix_refl _
    · exact List.prefix_refl _
  | message d =>
    rw [edit]
    split
    · obtain ⟨-, -, -, -, interfaces, -, rfl⟩ := pushMessage_eq_ok ‹_›
      exact List.prefix_append _ _
    · exact List.prefix_refl _
  | addresses m => exact List.prefix_refl _

theorem messages_edits (r : Registry) (history : List Edit) :
    r.messages <+: (r.edits history).messages := by
  induction history generalizing r with
  | nil => exact List.prefix_refl _
  | cons e history ih => exact (messages_edit r e).trans (ih (r.edit e))

/-- The id that a new message is given is the id of its name. -/
theorem typeId?_of_pushMessage (hr : r.Distinct) {r' : Registry} {d : Descriptor} {id : Nat}
    (h : r.pushMessage d = .ok (r', id)) : r'.typeId? d.name = some id := by
  have hr' := hr.pushMessage h
  obtain ⟨-, -, -, rfl, interfaces, -, rfl⟩ := pushMessage_eq_ok h
  refine typeId?_name hr' (byId?_eq_some_iff.2 ⟨r.messages.length, rfl, ?_⟩)
  simp

/-! ## Calls in place -/

/-- What a call does to a copy of a registry, and the id of a new message. -/
def attempt (e : Edit) (r : Registry) : Except SchemaError (Option Nat × Registry) :=
  match e with
  | .interface i => (r.pushInterface i).map fun next => (none, next)
  | .message d => (r.pushMessage d).map fun p => (some p.2, p.1)
  | .addresses m => .ok (none, r.setAddresses m)

/-- Makes a call on a registry that is held in place, by one assignment after the other. -/
def call : Edit → EStateM SchemaError Registry (Option Nat)
  | .interface i => do
    match (← get).interfaces.find? (·.name == i.name) with
    | some first => throw (.duplicateName i.location .interface i.name first.location)
    | none =>
      modify fun r => { r with interfaces := r.interfaces ++ [i] }
      return none
  | .message d => do
    if d.name == noType || d.name == lastType then
      throw (.malformed d.location (.reservedName d.name))
    else
      match (← get).message? d.name with
      | some first => throw (.duplicateName d.location .message d.name first.location)
      | none =>
        match addMember d.interface d.name (← get).interfaces with
        | none => throw (.malformed d.location (.unknownInterface d.interface))
        | some interfaces =>
          modify fun r => { r with interfaces := interfaces }
          let id := (← get).messages.length + 1
          modify fun r => { r with messages := r.messages ++ [d] }
          return some id
  | .addresses m => do
    modify fun r => { r with addresses := m }
    return none

/-- All checks of a call come before its first assignment. -/
theorem inPlace_call (e : Edit) : Outcome.InPlace (call e) (attempt e) := by
  intro r
  cases e with
  | interface i =>
    cases hfind : r.interfaces.find? (·.name == i.name) <;>
      simp only [call, attempt, pushInterface, Outcome.get_bind, hfind] <;> rfl
  | message d =>
    by_cases hreserved : (d.name == noType || d.name == lastType) = true
    · simp only [call, attempt, pushMessage, if_pos hreserved]
      rfl
    · simp only [call, attempt, pushMessage, if_neg hreserved, Outcome.get_bind]
      cases hfind : r.message? d.name with
      | some first => rfl
      | none =>
        cases hlisted : addMember d.interface d.name r.interfaces with
        | none => simp only [Outcome.get_bind, hlisted]; rfl
        | some interfaces => simp only [Outcome.get_bind, hlisted]; rfl
  | addresses m => rfl

/-- **Type ids are stable and unambiguous.** Whatever calls were made on an empty registry, messages
have different names, none of them reserved, and the three ways to number them agree. With fewer
than `2 ^ 32 - 2` messages all ids are 32-bit words. An id that a new message is given stays the id
of its name, and a refused call leaves nothing behind. -/
theorem ids_of_history (history : List Edit) :
    let r := edits {} history
    r.WellNumbered ∧
      (r.messages.length < 2 ^ 32 - 2 →
        r.lastTypeId < 2 ^ 32 ∧ ∀ name id, r.typeId? name = some id → 0 < id ∧ id < r.lastTypeId) ∧
      (∀ d id next, r.pushMessage d = .ok (next, id) →
        ∀ later, (next.edits later).typeId? d.name = some id) ∧
      ∀ e, Outcome.InPlace (call e) (attempt e) ∧
        ∀ err left, call e r = .error err left → left = r := by
  intro r
  have hnames : r.typeNames.Nodup := (Reachable.empty.edits history).typeNames_nodup
  refine ⟨wellNumbered_of_typeNames hnames, ?_, ?_, ?_⟩
  · intro hfew
    refine ⟨?_, fun name id hid => lt_lastTypeId hid⟩
    rw [lastTypeId]
    omega
  · intro d id next hpush later
    have hid := typeId?_of_pushMessage (distinct_of_typeNames hnames) hpush
    exact typeId?_of_prefix (messages_edits next later) hid
  · intro e
    exact ⟨inPlace_call e, fun err left => (inPlace_call e).unchanged⟩

/-- A message of the interface `A` without fields. -/
def bare (name : String) (line : Nat) : Descriptor :=
  ⟨name, "A", ⟨true, true⟩, [], [], false, ⟨"m", line⟩⟩

/-- Before and behind the one message that is added, a message of an unknown interface, one with a
reserved name, one with a name that is taken and a second interface of one name are refused. -/
def refusing : List Edit :=
  [.message (bare "M" 1), .interface ⟨"A", ⟨true, true⟩, ⟨"m", 2⟩, ["Z"]⟩,
    .message (bare "Msg_LastType" 3), .message (bare "M" 4), .message (bare "M" 5),
    .interface ⟨"A", ⟨true, false⟩, ⟨"m", 6⟩, []⟩]

/-- The next message gets the id two and keeps it, and a repeated one is refused in place. -/
theorem ids_of_refusing :
    (edits {} refusing).WellNumbered ∧ (edits {} refusing).typeNames = [noType, "M", lastType] ∧
      (∃ next, (edits {} refusing).pushMessage (bare "N" 7) = .ok (next, 2) ∧
        ∀ later, (next.edits later).typeId? "N" = some 2) ∧
      ∃ err, call (.message (bare "M" 8)) (edits {} refusing) = .error err (edits {} refusing) := by
  obtain ⟨hnumbered, -, hstays, hrefused⟩ := ids_of_history refusing
  refine ⟨hnumbered, by decide, ?_, ?_⟩
  · obtain ⟨next, hpush⟩ : ∃ next, (edits {} refusing).pushMessage (bare "N" 7) = .ok (next, 2) :=
      ⟨_, rfl⟩
    exact ⟨next, hpush, hstays _ _ _ hpush⟩
  · obtain ⟨err, left, hcall⟩ : ∃ err left,
        call (.message (bare "M" 8)) (edits {} refusing) = .error err left := ⟨_, _, rfl⟩
    obtain rfl := (hrefused _).2 err left hcall
    exact ⟨err, hcall⟩

end WireSchema.Registry
