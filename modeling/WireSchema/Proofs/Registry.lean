import Mathlib.Data.List.Nodup
import WireSchema.Registry

/-!
# Names and type ids

A registry grows by calls that each add an interface or a message or set the addresses, and that may
be refused. Whatever calls were made, no two messages have one name (`Reachable.distinct`). A
message is found by its name or by its type id, and when names are distinct the two ways agree
(`byId?_of_typeId?`, `typeId?_name`).
-/

namespace WireSchema.Registry

variable {r : Registry}

/-- No two messages have one name. -/
def Distinct (r : Registry) : Prop := (r.messages.map Descriptor.name).Nodup

/-! ## Adding to a registry -/

theorem message?_eq_none_iff {r : Registry} {name : String} :
    r.message? name = none ↔ name ∉ r.messages.map Descriptor.name := by
  simp [message?]

theorem pushInterface_eq_ok {r r' : Registry} {i : Interface} (h : r.pushInterface i = .ok r') :
    i.name ∉ r.interfaces.map Interface.name ∧
      r' = { r with interfaces := r.interfaces ++ [i] } := by
  unfold pushInterface at h
  split at h
  · cases h
  · cases h
    refine ⟨fun hmem => ?_, rfl⟩
    obtain ⟨j, hj, hname⟩ := List.mem_map.1 hmem
    have hfree : r.interfaces.find? (·.name == i.name) = none := ‹_›
    exact List.find?_eq_none.1 hfree j hj (beq_iff_eq.2 hname)

theorem pushMessage_eq_ok {r r' : Registry} {d : Descriptor} {id : Nat}
    (h : r.pushMessage d = .ok (r', id)) :
    d.name ≠ noType ∧ d.name ≠ lastType ∧ d.name ∉ r.messages.map Descriptor.name ∧
      id = r.messages.length + 1 ∧
      ∃ interfaces, addMember d.interface d.name r.interfaces = some interfaces ∧
        r' = { r with interfaces := interfaces, messages := r.messages ++ [d] } := by
  unfold pushMessage at h
  split at h
  · cases h
  · have hfree : ¬(d.name == noType || d.name == lastType) = true := ‹_›
    rw [Bool.or_eq_true, beq_iff_eq, beq_iff_eq, not_or] at hfree
    split at h
    · cases h
    · split at h
      · cases h
      · cases h
        exact ⟨hfree.1, hfree.2, message?_eq_none_iff.1 ‹_›, rfl, _, ‹_›, rfl⟩

theorem Distinct.pushInterface {r' : Registry} {i : Interface} (hr : r.Distinct)
    (h : r.pushInterface i = .ok r') : r'.Distinct := by
  obtain ⟨-, rfl⟩ := pushInterface_eq_ok h
  exact hr

/-- A message is added only under a new name. -/
theorem Distinct.pushMessage {r' : Registry} {d : Descriptor} {id : Nat} (hr : r.Distinct)
    (h : r.pushMessage d = .ok (r', id)) : r'.Distinct := by
  obtain ⟨-, -, hnew, -, interfaces, -, rfl⟩ := pushMessage_eq_ok h
  unfold Distinct
  rw [List.map_append, List.map_singleton, ← List.concat_eq_append]
  exact List.Nodup.concat hnew hr

/-! ## The enumeration of types -/

theorem mem_typeNames {r : Registry} {name : String} :
    name ∈ r.typeNames ↔
      name = noType ∨ name = lastType ∨ name ∈ r.messages.map Descriptor.name := by
  simp only [typeNames, List.mem_append, List.mem_cons, List.not_mem_nil]
  tauto

/-- A new message has a name that the enumeration of types does not list. -/
theorem typeNames_nodup_pushMessage {r' : Registry} {d : Descriptor} {id : Nat}
    (hr : r.typeNames.Nodup) (h : r.pushMessage d = .ok (r', id)) : r'.typeNames.Nodup := by
  obtain ⟨hfirst, hlast, hnew, -, interfaces, -, rfl⟩ := pushMessage_eq_ok h
  have hfree : d.name ∉ r.typeNames := by
    rw [mem_typeNames]
    simp [hfirst, hlast, hnew]
  refine List.Perm.nodup_iff ?_ |>.2 (List.nodup_cons.2 ⟨hfree, hr⟩)
  simp only [typeNames, List.map_append, List.map_singleton, List.cons_append, List.append_assoc]
  exact List.Perm.trans (.cons _ List.perm_middle) (.swap ..)

theorem distinct_of_typeNames (hr : r.typeNames.Nodup) : r.Distinct := by
  rw [typeNames, List.cons_append, List.nodup_cons] at hr
  exact (List.nodup_append.1 hr.2).1

/-! ## Histories -/

/-- A call that adds to a registry. -/
inductive Edit where
  | interface (i : Interface)
  | message (d : Descriptor)
  | addresses (m : AddressMap)
deriving Repr, DecidableEq

/-- The registry after a call. A refused call leaves it as it was. -/
def edit (r : Registry) : Edit → Registry
  | .interface i =>
    match r.pushInterface i with
    | .ok s => s
    | .error _ => r
  | .message d =>
    match r.pushMessage d with
    | .ok (s, _) => s
    | .error _ => r
  | .addresses m => r.setAddresses m

/-- The registries that calls make out of an empty one. -/
inductive Reachable : Registry → Prop
  | empty : Reachable {}
  | edit {r : Registry} (e : Edit) : Reachable r → Reachable (r.edit e)

theorem Distinct.edit (hr : r.Distinct) (e : Edit) : (r.edit e).Distinct := by
  cases e with
  | interface i =>
    rw [Registry.edit]
    split
    · exact hr.pushInterface ‹_›
    · exact hr
  | message d =>
    rw [Registry.edit]
    split
    · exact hr.pushMessage ‹_›
    · exact hr
  | addresses m => exact hr

/-- No two messages of a registry have one name, whatever calls made it. -/
theorem Reachable.distinct (h : Reachable r) : r.Distinct := by
  induction h with
  | empty => exact List.nodup_nil
  | edit e _ ih => exact ih.edit e

/-! ## Type ids -/

theorem byId?_eq_some_iff {id : Nat} {d : Descriptor} :
    r.byId? id = some d ↔ ∃ index, id = index + 1 ∧ r.messages[index]? = some d := by
  cases id with
  | zero => simp [byId?]
  | succ index => simp [byId?]

theorem mem_of_byId? {id : Nat} {d : Descriptor} (h : r.byId? id = some d) : d ∈ r.messages := by
  obtain ⟨index, -, hget⟩ := byId?_eq_some_iff.1 h
  exact List.mem_of_getElem? hget

theorem typeId?_eq_some_iff {name : String} {id : Nat} :
    r.typeId? name = some id ↔
      ∃ index, id = index + 1 ∧ r.messages.findIdx? (·.name == name) = some index := by
  rw [typeId?, Option.map_eq_some_iff]
  constructor
  · rintro ⟨index, hindex, rfl⟩
    exact ⟨index, rfl, hindex⟩
  · rintro ⟨index, rfl, hindex⟩
    exact ⟨index, hindex, rfl⟩

/-- The type id of a name is the id of the message that the name finds. -/
theorem byId?_of_typeId? {name : String} {id : Nat} (h : r.typeId? name = some id) :
    r.byId? id = r.message? name := by
  obtain ⟨index, rfl, hindex⟩ := typeId?_eq_some_iff.1 h
  obtain ⟨hlt, hname, hfirst⟩ := List.findIdx?_eq_some_iff_getElem.1 hindex
  have hfind : r.message? name = some r.messages[index] :=
    List.find?_eq_some_iff_getElem.2
      ⟨hname, index, hlt, rfl, fun j hj => by simpa using hfirst j hj⟩
  rw [hfind, byId?, List.getElem?_eq_getElem hlt]

/-- Messages that are added behind the others leave the type ids alone. -/
theorem typeId?_of_prefix {r' : Registry} (h : r.messages <+: r'.messages) {name : String} {id : Nat}
    (hid : r.typeId? name = some id) : r'.typeId? name = some id := by
  obtain ⟨index, rfl, hindex⟩ := typeId?_eq_some_iff.1 hid
  obtain ⟨more, hmore⟩ := h
  refine typeId?_eq_some_iff.2 ⟨index, rfl, ?_⟩
  rw [← hmore, List.findIdx?_append, hindex]
  rfl

/-- When names are distinct, the name of a message finds its type id. -/
theorem typeId?_name (hr : r.Distinct) {id : Nat} {d : Descriptor} (h : r.byId? id = some d) :
    r.typeId? d.name = some id := by
  obtain ⟨index, rfl, hget⟩ := byId?_eq_some_iff.1 h
  obtain ⟨hlt, hget⟩ := List.getElem?_eq_some_iff.1 hget
  refine typeId?_eq_some_iff.2 ⟨index, rfl, List.findIdx?_eq_some_iff_getElem.2 ⟨hlt, ?_, ?_⟩⟩
  · rw [hget, beq_self_eq_true]
  · -- An earlier message of this name would be a second one.
    intro j hj hsame
    have hbelow : j < (r.messages.map Descriptor.name).length := by
      rw [List.length_map]
      exact Nat.lt_trans hj hlt
    have hindex : j = index := by
      apply (List.getElem?_inj hbelow hr).1
      rw [List.getElem?_map, List.getElem?_map, List.getElem?_eq_getElem (Nat.lt_trans hj hlt),
        List.getElem?_eq_getElem hlt, hget]
      exact congrArg some (beq_iff_eq.1 hsame)
    exact Nat.ne_of_lt hj hindex

theorem message?_name (hr : r.Distinct) {id : Nat} {d : Descriptor} (h : r.byId? id = some d) :
    r.message? d.name = some d := by
  rw [← byId?_of_typeId? (typeId?_name hr h), h]

end WireSchema.Registry
