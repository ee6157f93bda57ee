import WireSchema.Proofs.Json.Strings

/-!
# Objects

An object is a list of members between braces. A member is a name and a value with a colon between
them, members are separated by commas, and blanks may stand around all of these. `ObjectText V` is
this format for objects whose values have the format `V`.

If the reader of values reads what has the format `V`, with fuel enough, it reads objects of such
values (`value?_of_objectText`). The members need one unit of fuel each, which the text has room for
(`length_le_of_members`).
-/

namespace WireSchema.Json

/-! ## Format -/

/-- Blanks and line ends. -/
def Blank (cs : List Char) : Prop := ∀ c ∈ cs, c ∈ [' ', '\t', '\n', '\r']

/-- A string with its quotes. -/
inductive StringText : String → List Char → Prop
  | quoted {s : String} {cs : List Char} (h : Spelled s.toList cs) :
    StringText s ('"' :: (cs ++ ['"']))

section Format

variable {α : Type} (V : α → List Char → Prop)

/-- A member of an object, with the blanks around it. -/
inductive Member : String × α → List Char → Prop
  | pair {name : String} {v : α} {before key gap space value after : List Char}
    (hbefore : Blank before) (hkey : StringText name key) (hgap : Blank gap) (hspace : Blank space)
    (hvalue : V v value) (hafter : Blank after) :
    Member (name, v) (before ++ (key ++ (gap ++ ':' :: (space ++ (value ++ after)))))

/-- Members with commas between them. -/
inductive Members : List (String × α) → List Char → Prop
  | last {e : String × α} {cs : List Char} (h : Member V e cs) : Members [e] cs
  | comma {e : String × α} {es : List (String × α)} {cs ds : List Char} (h : Member V e cs)
    (hs : Members es ds) : Members (e :: es) (cs ++ ',' :: ds)

/-- An object with its braces. -/
inductive ObjectText : List (String × α) → List Char → Prop
  | empty {cs : List Char} (h : Blank cs) : ObjectText [] ('\x7b' :: (cs ++ ['\x7d']))
  | members {es : List (String × α)} {cs : List Char} (h : Members V es cs) :
    ObjectText es ('\x7b' :: (cs ++ ['\x7d']))

end Format

/-! ## Blanks -/

theorem blank_nil : Blank [] := by simp [Blank]

theorem skipBlanks_blank {c : Char} (h : c ∈ [' ', '\t', '\n', '\r']) (cs : List Char) :
    skipBlanks (c :: cs) = skipBlanks cs := by
  rw [skipBlanks, List.dropWhile_cons_of_pos]
  · rfl
  · simpa [or_assoc] using h

theorem skipBlanks_append {blanks : List Char} (h : Blank blanks) (cs : List Char) :
    skipBlanks (blanks ++ cs) = skipBlanks cs := by
  induction blanks with
  | nil => rfl
  | cons c blanks ih =>
    rw [List.cons_append, skipBlanks_blank (h c List.mem_cons_self)]
    exact ih fun c hc => h c (List.mem_cons_of_mem _ hc)

theorem skipBlanks_skipBlanks (cs : List Char) : skipBlanks (skipBlanks cs) = skipBlanks cs := by
  induction cs with
  | nil => rfl
  | cons c cs ih =>
    by_cases h : c ∈ [' ', '\t', '\n', '\r']
    · rw [skipBlanks_blank h, ih]
    · have hskip : skipBlanks (c :: cs) = c :: cs := by
        rw [skipBlanks, List.dropWhile_cons_of_neg]
        simpa [or_assoc] using h
      rw [hskip, hskip]

theorem members?_skipBlanks (fuel : Nat) (cs : List Char) :
    members? fuel (skipBlanks cs) = members? fuel cs := by
  cases fuel with
  | zero => rfl
  | succ fuel => rw [members?, members?, skipBlanks_skipBlanks]

theorem value?_append {blanks : List Char} (h : Blank blanks) (fuel : Nat) (cs : List Char) :
    value? fuel (blanks ++ cs) = value? fuel cs := by
  cases fuel with
  | zero => rfl
  | succ fuel => rw [value?, value?, skipBlanks_append h]

theorem skipBlanks_stringText {s : String} {key : List Char} (h : StringText s key)
    (rest : List Char) : skipBlanks (key ++ rest) = key ++ rest := by
  cases h
  rfl

/-! ## Reading -/

variable {α : Type} {V : α → List Char → Prop} {f : α → Value} {need : α → Nat}

/-- What has the format `V` is read by the reader of values as `f` says, with enough fuel. -/
def ReadAs (V : α → List Char → Prop) (f : α → Value) (need : α → Nat) : Prop :=
  ∀ v cs, V v cs → ∀ fuel rest, need v ≤ fuel → value? fuel (cs ++ rest) = some (f v, rest)

theorem readAs_stringText : ReadAs StringText (fun s => .text (some s)) (fun _ => 1) := by
  intro s cs h fuel rest hfuel
  obtain ⟨fuel, rfl⟩ : ∃ k, fuel = k + 1 := Nat.exists_eq_add_one.2 hfuel
  obtain ⟨hspelled⟩ := h
  rename_i cs
  rw [value?, List.cons_append, List.append_assoc, List.singleton_append]
  change Option.map _ (string? (cs ++ '"' :: rest)) = _
  rw [string?_of_spelled hspelled]
  rfl

/-- What is done with the rest behind a member. -/
def afterMember (fuel : Nat) (name : Option String) (v : Value) (rest : List Char) :
    Option (List (Option String × Value) × List Char) :=
  match skipBlanks rest with
  | ',' :: rest => (members? fuel rest).map fun found => ((name, v) :: found.1, found.2)
  | '\x7d' :: rest => some ([(name, v)], rest)
  | _ => none

/-- A member is read up to the blanks behind it. -/
theorem members?_of_member (hV : ReadAs V f need) {e : String × α} {cs : List Char}
    (h : Member V e cs) {fuel : Nat} (hfuel : need e.2 ≤ fuel) (rest : List Char) :
    ∃ after, Blank after ∧
      members? (fuel + 1) (cs ++ rest) = afterMember fuel (some e.1) (f e.2) (after ++ rest) := by
  obtain ⟨hbefore, hkey, hgap, hspace, hvalue, hafter⟩ := h
  rename_i name v before key gap space value after
  refine ⟨after, hafter, ?_⟩
  have hread : value? fuel (space ++ (value ++ (after ++ rest))) = some (f v, after ++ rest) := by
    rw [value?_append hspace]
    exact hV v value hvalue fuel (after ++ rest) hfuel
  have hcolon : skipBlanks (gap ++ ':' :: (space ++ (value ++ (after ++ rest)))) =
      ':' :: (space ++ (value ++ (after ++ rest))) := by
    rw [skipBlanks_append hgap]
    rfl
  simp only [List.append_assoc, List.cons_append]
  rw [members?, skipBlanks_append hbefore, skipBlanks_stringText hkey]
  obtain ⟨hspelled⟩ := hkey
  rename_i key
  simp only [List.cons_append, List.append_assoc, List.nil_append]
  change (string? (key ++ '"' :: (gap ++ ':' :: (space ++ (value ++ (after ++ rest))))) >>= _) = _
  rw [string?_of_spelled hspelled, Option.bind_eq_bind, Option.bind_some]
  dsimp only
  rw [hcolon]
  change (value? fuel (space ++ (value ++ (after ++ rest))) >>= _) = _
  rw [hread]
  rfl

theorem members?_of_members (hV : ReadAs V f need) {es : List (String × α)} {cs : List Char}
    (h : Members V es cs) {fuel : Nat} (hfuel : ∀ e ∈ es, es.length + need e.2 ≤ fuel)
    (rest : List Char) : members? fuel (cs ++ '\x7d' :: rest) =
      some (es.map fun e => (some e.1, f e.2), rest) := by
  induction h generalizing fuel with
  | @last e cs h =>
    have hneed := hfuel e List.mem_cons_self
    obtain ⟨fuel, rfl⟩ : ∃ k, fuel = k + 1 := ⟨fuel - 1, by simp at hneed; omega⟩
    obtain ⟨after, hafter, hread⟩ :=
      members?_of_member hV h (by simp at hneed; omega : need e.2 ≤ fuel) ('\x7d' :: rest)
    rw [hread, afterMember, skipBlanks_append hafter]
    rfl
  | @comma e es cs ds h hs ih =>
    have hneed := hfuel e List.mem_cons_self
    rw [List.length_cons] at hneed
    obtain ⟨fuel, rfl⟩ : ∃ k, fuel = k + 1 := ⟨fuel - 1, by omega⟩
    obtain ⟨after, hafter, hread⟩ :=
      members?_of_member hV h (by omega : need e.2 ≤ fuel) (',' :: (ds ++ '\x7d' :: rest))
    have hrest : members? fuel (ds ++ '\x7d' :: rest) =
        some (es.map fun e => (some e.1, f e.2), rest) := by
      refine ih fun e' he' => ?_
      have hneed' := hfuel e' (List.mem_cons_of_mem _ he')
      rw [List.length_cons] at hneed'
      omega
    rw [List.append_assoc, List.cons_append, hread, afterMember, skipBlanks_append hafter]
    change Option.map _ (members? fuel (ds ++ '\x7d' :: rest)) = _
    rw [hrest]
    rfl

/-- An object behind its opening brace. -/
def object? (fuel : Nat) (cs : List Char) : Option (Value × List Char) :=
  match skipBlanks cs with
  | '\x7d' :: rest => some (.object [], rest)
  | rest => (members? fuel rest).map fun found => (.object found.1, found.2)

theorem value?_brace (fuel : Nat) (cs : List Char) :
    value? (fuel + 1) ('\x7b' :: cs) = object? fuel cs := by
  rw [value?]
  rfl

/-- Members do not start with a brace. -/
theorem object?_of_members? {cs rest : List Char} {fuel : Nat}
    {members : List (Option String × Value)} (h : members? fuel cs = some (members, rest)) :
    object? fuel cs = some (.object members, rest) := by
  rw [object?]
  split
  · rename_i heq
    cases fuel with
    | zero => cases h
    | succ fuel =>
      rw [members?, heq] at h
      cases h
  · rw [members?_skipBlanks, h]
    rfl

/-- **Objects are read with all their members**, in order. -/
theorem value?_of_objectText (hV : ReadAs V f need) {es : List (String × α)} {cs : List Char}
    (h : ObjectText V es cs) {fuel : Nat} (hfuel : ∀ e ∈ es, es.length + need e.2 ≤ fuel)
    (rest : List Char) : value? (fuel + 1) (cs ++ rest) =
      some (.object (es.map fun e => (some e.1, f e.2)), rest) := by
  cases h with
  | empty h =>
    rw [List.cons_append, List.append_assoc, value?_brace, object?, skipBlanks_append h]
    rfl
  | members h =>
    rw [List.cons_append, List.append_assoc, value?_brace]
    exact object?_of_members? (members?_of_members hV h hfuel rest)

/-! ## Lengths -/

theorem length_le_of_member {e : String × α} {cs : List Char} (h : Member V e cs) :
    3 ≤ cs.length ∧ ∃ value, V e.2 value ∧ value.length ≤ cs.length := by
  obtain ⟨-, hkey, -, -, hvalue, -⟩ := h
  obtain ⟨-⟩ := hkey
  refine ⟨by simp only [List.length_append, List.length_cons]; omega, _, hvalue, ?_⟩
  simp only [List.length_append, List.length_cons]
  omega

/-- A text has room for the members of an object and for the value of each. -/
theorem length_le_of_members {es : List (String × α)} {cs : List Char} (h : Members V es cs) :
    3 * es.length ≤ cs.length ∧
      ∀ e ∈ es, ∃ value, V e.2 value ∧ value.length ≤ cs.length := by
  induction h with
  | last h =>
    obtain ⟨hlength, hvalue⟩ := length_le_of_member h
    simpa using ⟨hlength, hvalue⟩
  | comma h hs ih =>
    obtain ⟨hlength, value, hvalue, hle⟩ := length_le_of_member h
    simp only [List.length_append, List.length_cons]
    refine ⟨by omega, fun e he => ?_⟩
    rcases List.mem_cons.1 he with rfl | he
    · exact ⟨value, hvalue, by omega⟩
    · obtain ⟨value, hvalue, hle⟩ := ih.2 e he
      exact ⟨value, hvalue, by omega⟩

theorem length_le_of_objectText {es : List (String × α)} {cs : List Char}
    (h : ObjectText V es cs) : 3 * es.length ≤ cs.length ∧
      ∀ e ∈ es, ∃ value, V e.2 value ∧ value.length ≤ cs.length := by
  cases h with
  | empty h => simp
  | members h =>
    obtain ⟨hlength, hvalues⟩ := length_le_of_members h
    simp only [List.length_append, List.length_cons]
    refine ⟨by omega, fun e he => ?_⟩
    obtain ⟨value, hvalue, hle⟩ := hvalues e he
    exact ⟨value, hvalue, by omega⟩

end WireSchema.Json
