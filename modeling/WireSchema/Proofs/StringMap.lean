import WireSchema.StringMap

/-!
# Maps and their entries

The entries of a map determine it, so a map that is put together again from its entries is the same
(`StringMap.ofList_entries`). Of the values that were bound to a key, the last one counts
(`StringMap.get?_insert`).
-/

namespace WireSchema.StringMap

variable {α : Type}

theorem eq_of_entries {m m' : StringMap α} (h : m.entries = m'.entries) : m = m' := by
  cases m
  cases m'
  cases h
  rfl

theorem mem_keys_insert {m : StringMap α} {key k : String} {value : α} :
    k ∈ (m.insert key value).keys ↔ k = key ∨ k ∈ m.keys :=
  mem_keys_insertEntry

theorem contains_iff {m : StringMap α} {key : String} : m.contains key = true ↔ key ∈ m.keys := by
  rw [contains, List.contains_iff_mem]

theorem nodup_keys (m : StringMap α) : m.keys.Nodup := by
  refine List.Pairwise.imp (fun {a b} (hlt : a < b) => ?_) m.sorted
  rintro rfl
  exact String.lt_irrefl _ hlt

theorem lookup_cons_pair (k key : String) (value : α) (rest : List (String × α)) :
    ((key, value) :: rest).lookup k = if k = key then some value else rest.lookup k := by
  by_cases hk : k = key
  · rw [if_pos hk, hk, List.lookup_cons_self]
  · rw [if_neg hk, List.lookup_cons, beq_false_of_ne hk]

theorem lookup_insertEntry {key k : String} {value : α} {entries : List (String × α)} :
    (insertEntry key value entries).lookup k =
      if k = key then some value else entries.lookup k := by
  induction entries with
  | nil => exact lookup_cons_pair k key value []
  | cons e rest ih =>
    obtain ⟨k', v'⟩ := e
    by_cases hlt : key < k'
    · rw [insertEntry, if_pos hlt, lookup_cons_pair]
    · by_cases heq : key = k'
      · subst heq
        rw [insertEntry, if_neg hlt, if_pos rfl, lookup_cons_pair, lookup_cons_pair]
        by_cases hk : k = key <;> simp [hk]
      · rw [insertEntry, if_neg hlt, if_neg heq, lookup_cons_pair, lookup_cons_pair, ih]
        by_cases hk : k = key
        · simp [hk, heq]
        · simp [hk]

/-- The value of a key is the one that was bound last. -/
theorem get?_insert {m : StringMap α} {key k : String} {value : α} :
    (m.insert key value).get? k = if k = key then some value else m.get? k :=
  lookup_insertEntry

/-- Every entry is found by its key. -/
theorem get?_of_mem {m : StringMap α} {key : String} {value : α} (h : (key, value) ∈ m.entries) :
    m.get? key = some value := by
  have hlookup (entries : List (String × α)) (hnodup : (entries.map Prod.fst).Nodup)
      (hmem : (key, value) ∈ entries) : entries.lookup key = some value := by
    induction entries with
    | nil => cases hmem
    | cons e entries ih =>
      obtain ⟨k, v⟩ := e
      rw [List.map_cons, List.nodup_cons] at hnodup
      rw [lookup_cons_pair]
      rcases List.mem_cons.1 hmem with heq | hrest
      · cases heq
        exact if_pos rfl
      · rw [if_neg, ih hnodup.2 hrest]
        rintro rfl
        exact hnodup.1 (List.mem_map.2 ⟨_, hrest, rfl⟩)
  exact hlookup m.entries m.nodup_keys h

/-- The keys of some entries. -/
theorem filter_keys {m : StringMap α} {f : String → Bool} {g : String × α → Bool}
    (h : ∀ key value, (key, value) ∈ m.entries → f key = g (key, value)) :
    m.keys.filter f = (m.entries.filter g).map Prod.fst := by
  rw [keys, List.filter_map]
  exact congrArg _ (List.filter_congr fun e he => h e.1 e.2 he)

/-- A key behind all others goes to the end. -/
theorem insertEntry_of_lt {key : String} {value : α} {entries : List (String × α)}
    (h : ∀ k ∈ entries.map Prod.fst, k < key) :
    insertEntry key value entries = entries ++ [(key, value)] := by
  induction entries with
  | nil => rfl
  | cons e rest ih =>
    have hlt : e.1 < key := h e.1 (by simp)
    have hnot : ¬key < e.1 := fun h => String.lt_irrefl _ (String.lt_trans h hlt)
    have hne : key ≠ e.1 := fun h => String.lt_irrefl _ (h ▸ hlt)
    rw [insertEntry, if_neg hnot, if_neg hne, ih fun k hk => h k (List.mem_cons_of_mem _ hk)]
    rfl

theorem entries_foldl_insert {m : StringMap α} {entries : List (String × α)}
    (h : ((m.entries ++ entries).map Prod.fst).Pairwise (· < ·)) :
    (entries.foldl (fun m e => m.insert e.1 e.2) m).entries = m.entries ++ entries := by
  induction entries generalizing m with
  | nil => rw [List.foldl_nil, List.append_nil]
  | cons e rest ih =>
    have hinsert : (m.insert e.1 e.2).entries = m.entries ++ [e] := by
      refine insertEntry_of_lt fun k hk => ?_
      rw [List.map_append, List.pairwise_append] at h
      exact h.2.2 k hk e.1 (by simp)
    rw [List.foldl_cons, ih, hinsert, List.append_assoc]
    · rfl
    · rwa [hinsert, List.append_assoc]

/-- A map is put together again from its entries. -/
theorem ofList_entries (m : StringMap α) : ofList m.entries = m :=
  eq_of_entries (entries_foldl_insert m.sorted)

end WireSchema.StringMap
