/-!
# Maps from strings in key order

An association list that is strictly sorted by key, so that equal maps are equal lists and reading a
map out in order needs no sorting.
-/

namespace WireSchema

/-- A finite map whose entries stand in the order of their keys. -/
structure StringMap (α : Type) where
  entries : List (String × α)
  sorted : (entries.map Prod.fst).Pairwise (· < ·)
deriving Repr, DecidableEq

namespace StringMap

variable {α : Type}

/-- Puts an entry at its place, over an entry with the same key. -/
def insertEntry (key : String) (value : α) : List (String × α) → List (String × α)
  | [] => [(key, value)]
  | (k, v) :: rest =>
    if key < k then (key, value) :: (k, v) :: rest
    else if key = k then (key, value) :: rest
    else (k, v) :: insertEntry key value rest

theorem mem_keys_insertEntry {key k : String} {value : α} {entries : List (String × α)} :
    k ∈ (insertEntry key value entries).map Prod.fst ↔ k = key ∨ k ∈ entries.map Prod.fst := by
  induction entries with
  | nil => simp [insertEntry]
  | cons e rest ih =>
    obtain ⟨k', v'⟩ := e
    by_cases hlt : key < k'
    · simp [insertEntry, hlt]
    · by_cases heq : key = k'
      · rw [insertEntry, if_neg hlt, if_pos heq, ← heq]
        simp
      · simp only [insertEntry, hlt, heq, if_false, List.map_cons, List.mem_cons, ih]
        grind

theorem pairwise_insertEntry {key : String} {value : α} {entries : List (String × α)}
    (h : (entries.map Prod.fst).Pairwise (· < ·)) :
    ((insertEntry key value entries).map Prod.fst).Pairwise (· < ·) := by
  induction entries with
  | nil => simp [insertEntry]
  | cons e rest ih =>
    obtain ⟨k', v'⟩ := e
    simp only [List.map_cons, List.pairwise_cons] at h
    by_cases hlt : key < k'
    · simp only [insertEntry, hlt, if_true, List.map_cons, List.pairwise_cons, List.mem_cons]
      refine ⟨?_, h⟩
      rintro a (rfl | ha)
      · exact hlt
      · exact String.lt_trans hlt (h.1 a ha)
    · by_cases heq : key = k'
      · rw [insertEntry, if_neg hlt, if_pos heq, List.map_cons, List.pairwise_cons, heq]
        exact h
      · simp only [insertEntry, hlt, heq, if_false, List.map_cons, List.pairwise_cons]
        refine ⟨?_, ih h.2⟩
        intro a ha
        rcases mem_keys_insertEntry.1 ha with rfl | ha
        · exact String.not_le.1 fun hle =>
            heq (String.le_antisymm hle (String.not_lt.1 hlt))
        · exact h.1 a ha

/-- The map without entries. -/
def empty : StringMap α := ⟨[], .nil⟩

instance : Inhabited (StringMap α) := ⟨empty⟩

def insert (m : StringMap α) (key : String) (value : α) : StringMap α :=
  ⟨insertEntry key value m.entries, pairwise_insertEntry m.sorted⟩

/-- The value bound to `key`. -/
def get? (m : StringMap α) (key : String) : Option α := m.entries.lookup key

/-- The keys in order. -/
def keys (m : StringMap α) : List String := m.entries.map Prod.fst

/-- Whether `key` is bound. -/
def contains (m : StringMap α) (key : String) : Bool := m.keys.contains key

/-- The number of entries. -/
def size (m : StringMap α) : Nat := m.entries.length

/-- The entries of a list, later ones over earlier ones with the same key. -/
def ofList (entries : List (String × α)) : StringMap α :=
  entries.foldl (fun m e => m.insert e.1 e.2) empty

end StringMap

end WireSchema
