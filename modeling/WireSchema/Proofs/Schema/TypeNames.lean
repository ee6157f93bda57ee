import Mathlib.Data.List.Basic
import WireSchema.Proofs.Naming
import WireSchema.Schema.Build

/-!
# Types of fields

A declaration gives the type of a field as a word. The grammar of these words is small: the type of
texts, pointers to a text, to a scalar or to a foreign type, and scalars, which have a C name and
any number of aliases. A foreign type is a path of identifiers.

**Theorem (`of?_isSome_iff`).** A type is known exactly if it has one of these forms.

What a type stands for is decided in this order: a text, a pointer, a scalar
(`FieldKind.of?_textType`, `of?_pointerTo`, `of?_other`). In particular a pointer is never looked up
as an alias, and a pointer to the type of texts is a pointer to a text whatever the aliases are.
-/

namespace WireSchema

/-! ## Paths -/

namespace Text

theorem splitPair_ne_nil (a b : Char) (cs : List Char) : splitPair a b cs ≠ [] := by
  fun_induction splitPair a b cs with
  | case1 => exact List.cons_ne_nil _ _
  | case2 c => exact List.cons_ne_nil _ _
  | case3 c d cs h ih => exact List.cons_ne_nil _ _
  | case4 c d cs h ih =>
    unfold consFirst
    split <;> exact List.cons_ne_nil _ _

/-- Joining the pieces gives the text back. -/
theorem intercalate_splitPair (a b : Char) (cs : List Char) :
    [a, b].intercalate (splitPair a b cs) = cs := by
  fun_induction splitPair a b cs with
  | case1 => rfl
  | case2 c => rfl
  | case3 c d cs h ih =>
    rw [List.intercalate_cons_of_ne_nil (splitPair_ne_nil a b cs), ih, h.1, h.2]
    rfl
  | case4 c d cs h ih =>
    cases hsplit : splitPair a b (d :: cs) with
    | nil => exact absurd hsplit (splitPair_ne_nil a b _)
    | cons piece pieces =>
      rw [hsplit] at ih
      rw [consFirst, ← ih]
      cases pieces with
      | nil => rfl
      | cons next pieces => simp

theorem splitPair_of_not_mem {a : Char} (b : Char) {piece : List Char} (h : a ∉ piece) :
    splitPair a b piece = [piece] := by
  fun_induction splitPair a b piece with
  | case1 => rfl
  | case2 c => rfl
  | case3 c d cs hpair ih =>
    rw [hpair.1] at h
    exact absurd List.mem_cons_self h
  | case4 c d cs _ ih =>
    rw [ih (List.not_mem_of_not_mem_cons h), consFirst]

/-- Splitting stops at the first pair. -/
theorem splitPair_append {a : Char} (b : Char) {piece : List Char} (h : a ∉ piece)
    (rest : List Char) : splitPair a b (piece ++ a :: b :: rest) = piece :: splitPair a b rest := by
  induction piece with
  | nil => rw [List.nil_append, splitPair, if_pos ⟨rfl, rfl⟩]
  | cons c piece ih =>
    rw [List.mem_cons, not_or] at h
    have htail := ih h.2
    cases piece with
    | nil =>
      rw [List.nil_append] at htail
      rw [List.cons_append, List.nil_append, splitPair, if_neg (fun hpair => h.1 hpair.1.symm),
        htail, consFirst]
    | cons d piece =>
      rw [List.cons_append] at htail
      rw [List.cons_append, List.cons_append, splitPair, if_neg (fun hpair => h.1 hpair.1.symm),
        htail, consFirst]

/-- Splitting undoes joining if no piece has the first character of the pair in it. -/
theorem splitPair_intercalate {a : Char} (b : Char) {pieces : List (List Char)} (hne : pieces ≠ [])
    (h : ∀ piece ∈ pieces, a ∉ piece) : splitPair a b ([a, b].intercalate pieces) = pieces := by
  induction pieces with
  | nil => exact absurd rfl hne
  | cons piece pieces ih =>
    obtain ⟨hpiece, hpieces⟩ := List.forall_mem_cons.1 h
    cases pieces with
    | nil => rw [List.intercalate_singleton, splitPair_of_not_mem b hpiece]
    | cons next pieces =>
      rw [List.intercalate_cons_cons, List.append_assoc, List.cons_append, List.singleton_append,
        splitPair_append b hpiece, ih (List.cons_ne_nil _ _) hpieces]

end Text

/-- Identifiers joined by `::`. -/
def IsPath (s : String) : Prop :=
  ∃ parts : List String, parts ≠ [] ∧ (∀ part ∈ parts, Naming.IsIdentifier part) ∧
    s = "::".intercalate parts

theorem isTypePath_iff {s : String} : isTypePath s.toList = true ↔ IsPath s := by
  rw [isTypePath, List.all_eq_true]
  constructor
  · intro h
    refine ⟨(Text.splitPair ':' ':' s.toList).map String.ofList, ?_, ?_, ?_⟩
    · rw [ne_eq, List.map_eq_nil_iff]
      exact Text.splitPair_ne_nil _ _ _
    · rw [List.forall_mem_map]
      intro part hpart
      rw [← Naming.isIdentifier_iff, Naming.isIdentifier, String.toList_ofList]
      exact h part hpart
    · apply String.toList_inj.1
      rw [String.toList_intercalate, List.map_map]
      have hback : String.toList ∘ String.ofList = id := funext fun _ => String.toList_ofList
      rw [hback, List.map_id]
      exact (Text.intercalate_splitPair _ _ _).symm
  · rintro ⟨parts, hne, hparts, rfl⟩
    have hcolon : ∀ piece ∈ parts.map String.toList, ':' ∉ piece := by
      rw [List.forall_mem_map]
      intro part hpart
      exact (hparts part hpart).1.not_mem (by decide)
    have hsplit := Text.splitPair_intercalate ':' (mt List.map_eq_nil_iff.1 hne) hcolon
    rw [String.toList_intercalate]
    intro piece hpiece
    rw [show "::".toList = [':', ':'] from rfl, hsplit] at hpiece
    obtain ⟨part, hpart, rfl⟩ := List.mem_map.1 hpiece
    exact Naming.isIdentifier_iff.2 (hparts part hpart)

/-! ## Scalars -/

theorem Scalar.ofCName?_eq_some {name : String} {type : Scalar} :
    ofCName? name = some type ↔ name = type.cName := by
  constructor
  · intro h
    have hname := List.find?_some h
    exact (beq_iff_eq.1 hname).symm
  · rintro rfl
    cases type <;> rfl

/-- The C name of a scalar type, or an alias of one. -/
def Config.NamesScalar (config : Config) (name : String) : Prop :=
  ∃ type : Scalar, name = type.cName ∨ config.aliases.get? name = some type.cName

theorem Config.scalar?_isSome_iff {config : Config} {name : String} :
    (∃ type, config.scalar? name = some type) ↔ config.NamesScalar name := by
  unfold Config.scalar? Config.NamesScalar
  cases hname : Scalar.ofCName? name with
  | some type =>
    have hc := Scalar.ofCName?_eq_some.1 hname
    exact ⟨fun _ => ⟨type, .inl hc⟩, fun _ => ⟨type, rfl⟩⟩
  | none =>
    simp only [Option.bind_eq_some_iff, Scalar.ofCName?_eq_some]
    constructor
    · rintro ⟨type, target, halias, rfl⟩
      exact ⟨type, .inr halias⟩
    · rintro ⟨type, hc | halias⟩
      · rw [Scalar.ofCName?_eq_some.2 hc] at hname
        cases hname
      · exact ⟨type, _, halias, rfl⟩

/-! ## Pointers -/

/-- The type of a pointer that owns what it points to. -/
def pointerTo (inner : String) : String := ownedOpening ++ inner ++ ">"

theorem ownedInner?_eq_some {typeName inner : String} :
    ownedInner? typeName.toList = some inner.toList ↔ typeName = pointerTo inner := by
  rw [← String.toList_inj, pointerTo, String.toList_append, String.toList_append]
  unfold ownedInner?
  rw [← String.length_toList]
  generalize ownedOpening.toList = opening
  dsimp only
  constructor
  · intro h
    split at h
    · obtain ⟨rest, hrest⟩ := List.isPrefixOf_iff_prefix.1 ‹_›
      rw [← hrest, List.drop_left] at h
      split at h
      · rw [← hrest, List.append_assoc, ← Option.some.inj h]
        exact congrArg _ (List.dropLast_append_getLast? _ ‹_›).symm
      · cases h
    · cases h
  · intro h
    rw [h, List.append_assoc, if_pos (List.isPrefixOf_iff_prefix.2 (List.prefix_append _ _)),
      List.drop_left]
    simp

theorem textType_ne_pointerTo (inner : String) : textType ≠ pointerTo inner := by
  intro h
  have hlength := congrArg String.length h
  have htext : textType.length = 11 := rfl
  have hopening : ownedOpening.length = 16 := rfl
  rw [pointerTo, String.length_append, String.length_append, htext, hopening] at hlength
  omega

theorem pointerTo_inj {a b : String} : pointerTo a = pointerTo b ↔ a = b := by
  rw [pointerTo, pointerTo, String.append_left_inj, String.append_right_inj]

/-! ## What a pointer owns -/

namespace OwnedCore

variable {config : Config} {inner : String} {core : OwnedCore}

theorem of?_textType (config : Config) : of? config textType.toList = some .text := by
  rw [of?, String.ofList_toList]
  exact if_pos (beq_self_eq_true _)

theorem of?_of_ne (h : inner ≠ textType) :
    of? config inner.toList = match config.scalar? inner with
      | some type => some (.scalar type)
      | none => if isTypePath inner.toList then some (.foreign inner) else none := by
  rw [of?, String.ofList_toList]
  exact if_neg (by simpa using h)

/-- A pointer owns a text, a scalar or else an object of a foreign type. -/
theorem of?_cases (h : of? config inner.toList = some core) :
    inner = textType ∧ core = .text ∨
      inner ≠ textType ∧ config.NamesScalar inner ∧ (∃ type, core = .scalar type) ∨
      inner ≠ textType ∧ ¬config.NamesScalar inner ∧ IsPath inner ∧ core = .foreign inner := by
  by_cases htext : inner = textType
  · rw [htext, of?_textType] at h
    exact .inl ⟨htext, (Option.some.inj h).symm⟩
  · rw [of?_of_ne htext] at h
    rw [← Config.scalar?_isSome_iff]
    cases hscalar : config.scalar? inner with
    | some type =>
      rw [hscalar] at h
      exact .inr (.inl ⟨htext, ⟨type, rfl⟩, type, (Option.some.inj h).symm⟩)
    | none =>
      rw [hscalar] at h
      simp only at h
      split at h
      · refine .inr (.inr ⟨htext, ?_, isTypePath_iff.1 ‹_›, (Option.some.inj h).symm⟩)
        rintro ⟨type, ⟨⟩⟩
      · cases h

theorem of?_isSome_iff : (∃ core, of? config inner.toList = some core) ↔
    inner = textType ∨ config.NamesScalar inner ∨ IsPath inner := by
  constructor
  · rintro ⟨core, h⟩
    rcases of?_cases h with ⟨htext, -⟩ | ⟨-, hscalar, -⟩ | ⟨-, -, hpath, -⟩
    · exact .inl htext
    · exact .inr (.inl hscalar)
    · exact .inr (.inr hpath)
  · intro h
    by_cases htext : inner = textType
    · rw [htext, of?_textType]
      exact ⟨_, rfl⟩
    · rw [of?_of_ne htext]
      cases hscalar : config.scalar? inner with
      | some type => exact ⟨_, rfl⟩
      | none =>
        rcases h with h | h | h
        · exact absurd h htext
        · obtain ⟨type, htype⟩ := Config.scalar?_isSome_iff.2 h
          rw [hscalar] at htype
          cases htype
        · exact ⟨_, if_pos (isTypePath_iff.2 h)⟩

end OwnedCore

/-! ## What a type stands for -/

/-- The types that a field can have. -/
inductive Config.KnownType (config : Config) : String → Prop
  | text : KnownType config textType
  | owned {inner : String} : inner = textType ∨ config.NamesScalar inner ∨ IsPath inner →
      KnownType config (pointerTo inner)
  | scalar {name : String} :
      (∀ inner, name ≠ pointerTo inner) → config.NamesScalar name → KnownType config name

/-- The types that the host reads up to the end of the stream: texts, and pointers to texts and to
objects of foreign types. -/
def Config.ReadToEnd (config : Config) (typeName : String) : Prop :=
  typeName = textType ∨
    ∃ inner, typeName = pointerTo inner ∧ (inner = textType ∨ ¬config.NamesScalar inner)

namespace FieldKind

variable {config : Config} {typeName : String} {kind : FieldKind}

theorem of?_textType (config : Config) : of? config textType = some .text := by
  rw [of?]
  exact if_pos (beq_self_eq_true _)

theorem of?_pointerTo (config : Config) (inner : String) :
    of? config (pointerTo inner) = (OwnedCore.of? config inner.toList).map .owned := by
  rw [of?, if_neg (by simpa using (textType_ne_pointerTo inner).symm), ownedInner?_eq_some.2 rfl]

theorem of?_other (htext : typeName ≠ textType) (h : ∀ inner, typeName ≠ pointerTo inner) :
    of? config typeName = (config.scalar? typeName).map .scalar := by
  have hinner : ownedInner? typeName.toList = none := by
    rw [Option.eq_none_iff_forall_ne_some]
    intro inner hinner
    rw [← String.toList_ofList (l := inner)] at hinner
    exact h _ (ownedInner?_eq_some.1 hinner)
  rw [of?, if_neg (by simpa using htext), hinner]

/-- A type stands for a text, a pointer or else a scalar. -/
theorem of?_cases (h : of? config typeName = some kind) :
    typeName = textType ∧ kind = .text ∨
      (∃ inner core, typeName = pointerTo inner ∧ OwnedCore.of? config inner.toList = some core ∧
        kind = .owned core) ∨
      typeName ≠ textType ∧ (∀ inner, typeName ≠ pointerTo inner) ∧
        config.NamesScalar typeName ∧ ∃ type, kind = .scalar type := by
  by_cases htext : typeName = textType
  · rw [htext, of?_textType] at h
    exact .inl ⟨htext, (Option.some.inj h).symm⟩
  · by_cases hpointer : ∃ inner, typeName = pointerTo inner
    · obtain ⟨inner, rfl⟩ := hpointer
      rw [of?_pointerTo] at h
      obtain ⟨core, hcore, rfl⟩ := Option.map_eq_some_iff.1 h
      exact .inr (.inl ⟨inner, core, rfl, hcore, rfl⟩)
    · have hpointer := not_exists.1 hpointer
      rw [of?_other htext hpointer] at h
      obtain ⟨type, hscalar, rfl⟩ := Option.map_eq_some_iff.1 h
      exact .inr (.inr ⟨htext, hpointer, Config.scalar?_isSome_iff.1 ⟨type, hscalar⟩, type, rfl⟩)

theorem of?_isSome_iff : (∃ kind, of? config typeName = some kind) ↔ config.KnownType typeName := by
  constructor
  · rintro ⟨kind, h⟩
    rcases of?_cases h with ⟨rfl, -⟩ | ⟨inner, core, rfl, hcore, -⟩ | ⟨-, hpointer, hscalar, -⟩
    · exact .text
    · exact .owned (OwnedCore.of?_isSome_iff.1 ⟨core, hcore⟩)
    · exact .scalar hpointer hscalar
  · intro h
    cases h with
    | text => exact ⟨_, of?_textType config⟩
    | owned h =>
      obtain ⟨core, hcore⟩ := OwnedCore.of?_isSome_iff.2 h
      rw [of?_pointerTo, hcore]
      exact ⟨_, rfl⟩
    | scalar hpointer hscalar =>
      by_cases htext : typeName = textType
      · rw [htext]
        exact ⟨_, of?_textType config⟩
      · obtain ⟨type, htype⟩ := Config.scalar?_isSome_iff.2 hscalar
        rw [of?_other htext hpointer, htype]
        exact ⟨_, rfl⟩

section Kinds

variable (h : of? config typeName = some kind)
include h

theorem eq_text_iff : kind = .text ↔ typeName = textType := by
  rcases of?_cases h with ⟨rfl, rfl⟩ | ⟨inner, core, rfl, -, rfl⟩ | ⟨htext, -, -, type, rfl⟩
  · simp
  · simp [(textType_ne_pointerTo inner).symm]
  · simp [htext]

theorem isOwned_iff : kind.isOwned = true ↔ ∃ inner, typeName = pointerTo inner := by
  rcases of?_cases h with ⟨rfl, rfl⟩ | ⟨inner, core, rfl, -, rfl⟩ | ⟨-, hpointer, -, type, rfl⟩
  · simp [isOwned, textType_ne_pointerTo]
  · simp [isOwned, pointerTo_inj]
  · simp [isOwned, hpointer]

theorem streamDelimited_iff : kind.streamDelimited = true ↔ config.ReadToEnd typeName := by
  unfold Config.ReadToEnd
  rcases of?_cases h with
    ⟨rfl, rfl⟩ | ⟨inner, core, rfl, hcore, rfl⟩ | ⟨htext, hpointer, -, type, rfl⟩
  · simp [streamDelimited]
  · simp only [(textType_ne_pointerTo inner).symm, pointerTo_inj, false_or, exists_eq_left']
    rcases OwnedCore.of?_cases hcore with ⟨hinner, rfl⟩ | ⟨hinner, hscalar, type, rfl⟩ |
      ⟨hinner, hscalar, -, rfl⟩
    · simp [streamDelimited, hinner]
    · simp [streamDelimited, hinner, hscalar]
    · simp [streamDelimited, hscalar]
  · simp [streamDelimited, htext, hpointer]

end Kinds

end FieldKind

end WireSchema
