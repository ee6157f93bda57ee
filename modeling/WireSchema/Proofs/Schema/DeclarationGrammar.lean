import WireSchema.Proofs.Outcome
import WireSchema.Schema.Declaration

/-!
# The grammar of declarations

A declaration is read from left to right with options that wait for values. What it comes to can be
said without that: a declaration is a row of complete items in any order, and behind `--` there may
be further words, which are names whatever they look like.

**Theorem (`parse_iff_arranged`).** A text is read exactly if its words are such an arrangement with
one name in all and `--internal` at most once. Its members and headers are then those of the items,
in their order, so that it does not matter how items of different kinds are mixed.

Between two items the reader is in the state `draftOf`, which is made from the items before. An item
that fits leads from one such state to the next (`words_item`), and where the reader goes on to
succeed, the words that come next are an item that fits or start with `--` (`exists_item`).
-/

namespace WireSchema.Declaration

/-! ## Arrangements -/

/-- A word that cannot be taken for an option: it does not start with a dash, or it is one. -/
def IsPlain (word : String) : Prop := word.toList.head? ≠ some '-' ∨ word = "-"

instance (word : String) : Decidable (IsPlain word) := inferInstanceAs (Decidable (_ ∨ _))

/-- A part of a declaration. -/
inductive Item where
  /-- `--member TYPE NAME`. -/
  | member (type name : String)
  /-- `--include HEADER`. -/
  | header (name : String)
  /-- `--include=HEADER`. -/
  | joined (name : String)
  /-- `--internal`. -/
  | internal
  /-- The name of the message. -/
  | name (word : String)
deriving Repr, DecidableEq

namespace Item

def words : Item → List String
  | member type word => ["--member", type, word]
  | header word => ["--include", word]
  | joined word => ["--include=" ++ word]
  | internal => ["--internal"]
  | name word => [word]

/-- The values that stand as words of their own are plain. -/
def Complete : Item → Prop
  | member type word => IsPlain type ∧ IsPlain word
  | header word | name word => IsPlain word
  | joined _ | internal => True

instance : (i : Item) → Decidable i.Complete
  | member type word => inferInstanceAs (Decidable (IsPlain type ∧ IsPlain word))
  | header word | name word => inferInstanceAs (Decidable (IsPlain word))
  | joined _ | internal => inferInstanceAs (Decidable True)

/-- The type and the name of a field. -/
def member? : Item → Option (String × String)
  | member type word => some (type, word)
  | _ => none

/-- The header of an item, whichever way it is given. -/
def include? : Item → Option String
  | header word | joined word => some word
  | _ => none

/-- The name of the message. -/
def name? : Item → Option String
  | name word => some word
  | _ => none

end Item

/-- Items in some order, and the words behind `--` if it is there. -/
structure Arrangement where
  items : List Item
  behind : Option (List String) := none
deriving Repr, DecidableEq

namespace Arrangement

def words (a : Arrangement) : List String :=
  a.items.flatMap Item.words ++ a.behind.elim [] ("--" :: ·)

/-- All names, also those behind `--`. -/
def names (a : Arrangement) : List String := a.items.filterMap Item.name? ++ a.behind.getD []

def members (a : Arrangement) : List (String × String) := a.items.filterMap Item.member?

/-- The headers, whichever way they are given. -/
def includes (a : Arrangement) : List String := a.items.filterMap Item.include?

/-- Every item is complete, there is one name, and `--internal` is not repeated. -/
structure WellFormed (a : Arrangement) : Prop where
  complete : ∀ i ∈ a.items, i.Complete
  internal : a.items.count .internal ≤ 1
  name : a.names.length = 1

/-- What the arrangement declares is `d`. -/
structure Declares (a : Arrangement) (d : Declaration) : Prop where
  name : a.names = [d.name]
  members : a.members = d.members
  includes : a.includes = d.includes
  internal : .internal ∈ a.items ↔ d.internal = true

/-- Two arrangements whose items of each kind are in the same order. -/
structure SameParts (a b : Arrangement) : Prop where
  names : a.names = b.names
  members : a.members = b.members
  includes : a.includes = b.includes
  internal : .internal ∈ a.items ↔ .internal ∈ b.items

end Arrangement

/-! ## Words -/

namespace Word

theorem of_member : Word.of "--member" = .option "member" none := by decide

theorem of_include : Word.of "--include" = .option "include" none := by decide

theorem of_internal : Word.of "--internal" = .option "internal" none := by decide

theorem of_escape : Word.of "--" = .escape := by decide

theorem of_joined (word : String) :
    Word.of ("--include=" ++ word) = .option "include" (some word) := by
  have hchars : ("--include=" ++ word).toList =
      '-' :: '-' :: ("include".toList ++ '=' :: word.toList) := by
    rw [String.toList_append]
    rfl
  rw [Word.of, hchars]
  simp [ofOption]

theorem of_plain {word : String} (h : IsPlain word) : Word.of word = .plain word := by
  rcases h with h | rfl
  · unfold Word.of
    split
    · rename_i hchars
      simp [hchars] at h
    · rename_i hchars
      simp [hchars] at h
    · rename_i hchars
      simp [hchars] at h
    · rfl
  · decide

theorem of_eq_plain {word text : String} (h : Word.of word = .plain text) :
    IsPlain word ∧ text = word := by
  unfold Word.of at h
  split at h
  · cases h
  · unfold ofOption at h
    split at h <;> cases h
  · cases h
  · rename_i hescape hoption hshort
    cases h
    refine ⟨?_, rfl⟩
    cases hchars : word.toList with
    | nil => exact .inl (by simp [hchars])
    | cons c cs =>
      by_cases hc : c = '-'
      · subst hc
        cases cs with
        | nil => exact .inr (String.toList_inj.1 hchars)
        | cons d cs => exact absurd hchars (hshort d cs)
      · exact .inl (by simpa [hchars] using hc)

theorem of_eq_escape {word : String} (h : Word.of word = .escape) : word = "--" := by
  unfold Word.of at h
  split at h
  · rename_i hchars
    exact String.toList_inj.1 hchars
  · unfold ofOption at h
    split at h <;> cases h
  · cases h
  · cases h

theorem of_eq_option {word name : String} {value : Option String}
    (h : Word.of word = .option name value) :
    word = "--" ++ name ++ value.elim "" ("=" ++ ·) := by
  unfold Word.of at h
  split at h
  · cases h
  · rename_i cs hescape hchars
    have hcs := List.takeWhile_append_dropWhile (p := (· != '=')) (l := cs)
    apply String.toList_inj.1
    rw [hchars, ← hcs]
    unfold ofOption at h
    split at h
    · rename_i hdrop
      cases h
      rw [hdrop]
      simp
    · rename_i c rest hdrop
      cases h
      have hc : c = '=' := by
        have hhead := List.head?_dropWhile_not (· != '=') cs
        simpa [hdrop] using hhead
      rw [hdrop, hc]
      simp
  · cases h
  · cases h

end Word

/-! ## Between two items -/

/-- Complete items that may stand together: no two names, and `--internal` at most once. -/
structure Fits (items : List Item) : Prop where
  complete : ∀ i ∈ items, i.Complete
  internal : items.count .internal ≤ 1
  name : (items.filterMap Item.name?).length ≤ 1

/-- The state of the reader behind some items. -/
def draftOf (items : List Item) : Draft where
  name := (items.filterMap Item.name?).head?
  members := items.filterMap Item.member?
  includes := items.filterMap Item.include?
  internal := decide (.internal ∈ items)

variable {items more : List Item} {item : Item} {draft next : Draft} {words rest : List String}
  {word name : String} {value : Option String} {d : Declaration}

theorem fits_nil : Fits [] := ⟨by simp, Nat.zero_le _, Nat.zero_le _⟩

theorem Fits.left (h : Fits (items ++ more)) : Fits items where
  complete i hi := h.complete i (List.mem_append_left _ hi)
  internal := by
    have hinternal := h.internal
    rw [List.count_append] at hinternal
    omega
  name := by
    have hname := h.name
    rw [List.filterMap_append, List.length_append] at hname
    omega

theorem Fits.internal_eq_false (h : Fits (items ++ [.internal])) :
    (draftOf items).internal = false := by
  have hcount := h.internal
  rw [List.count_append, List.count_singleton_self] at hcount
  exact decide_eq_false (List.count_eq_zero.1 (by omega))

theorem Fits.name_eq_none (h : Fits (items ++ [.name word])) : (draftOf items).name = none := by
  have hname := h.name
  rw [List.filterMap_append, List.length_append] at hname
  have hnil : items.filterMap Item.name? = [] := List.eq_nil_of_length_eq_zero (by
    simp only [Item.name?, List.filterMap_cons, List.filterMap_nil, List.length_singleton] at hname
    omega)
  rw [draftOf, hnil]
  rfl

def Draft.add (draft : Draft) : Item → Draft
  | .member type word => { draft with members := draft.members ++ [(type, word)] }
  | .header word | .joined word => { draft with includes := draft.includes ++ [word] }
  | .internal => { draft with internal := true }
  | .name word => { draft with name := some word }

theorem draftOf_concat (h : Fits (items ++ [item])) :
    draftOf (items ++ [item]) = (draftOf items).add item := by
  cases item with
  | name word =>
    have hnone : (items.filterMap Item.name?).head? = none := h.name_eq_none
    simp [draftOf, Draft.add, Item.name?, Item.member?, Item.include?, List.head?_append, hnone]
  | member | header | joined | internal =>
    simp [draftOf, Draft.add, Item.name?, Item.member?, Item.include?]

/-- An item that fits leads from one state to the next. -/
theorem words_item (h : Fits (items ++ [item])) (rest : List String) :
    (draftOf items).words (item.words ++ rest) = (draftOf (items ++ [item])).words rest := by
  have hcomplete : item.Complete := h.complete item (by simp)
  rw [draftOf_concat h]
  cases item with
  | member type word =>
    simp only [Item.words, List.cons_append, List.nil_append, Draft.words, Word.of_member,
      Word.of_plain hcomplete.1, Word.of_plain hcomplete.2]
    rfl
  | header word =>
    have hplain : IsPlain word := hcomplete
    simp only [Item.words, List.cons_append, List.nil_append, Draft.words, Word.of_include,
      Word.of_plain hplain]
    rfl
  | joined word =>
    simp only [Item.words, List.cons_append, List.nil_append, Draft.words, Word.of_joined]
    rfl
  | internal =>
    have hoption : (draftOf items).option "internal" none =
        .ok ((draftOf items).add .internal) := by
      rw [Draft.option, h.internal_eq_false]
      rfl
    simp only [Item.words, List.cons_append, List.nil_append, Draft.words, Word.of_internal,
      hoption]
    rfl
  | name word =>
    have hplain : IsPlain word := hcomplete
    have htaken : (draftOf items).plain word = .ok ((draftOf items).add (.name word)) := by
      rw [Draft.plain, h.name_eq_none]
      rfl
    simp only [Item.words, List.cons_append, List.nil_append, Draft.words, Word.of_plain hplain,
      htaken]
    rfl

/-- All items of an arrangement lead to the state behind them. -/
theorem words_items (h : Fits (items ++ more)) (rest : List String) :
    (draftOf items).words (more.flatMap Item.words ++ rest) =
      (draftOf (items ++ more)).words rest := by
  induction more generalizing items with
  | nil => simp
  | cons item more ih =>
    rw [List.append_cons] at h ⊢
    rw [List.flatMap_cons, List.append_assoc, words_item h.left, ih h]

/-! ## The end of a declaration -/

theorem finish_eq_ok : draft.finish = .ok d ↔ draft.pending = none ∧ draft.name = some d.name ∧
    draft.members = d.members ∧ draft.includes = d.includes ∧ draft.internal = d.internal := by
  obtain ⟨name, members, includes, internal, pending⟩ := draft
  constructor
  · intro h
    cases pending with
    | some p => cases h
    | none =>
      cases name with
      | none => cases h
      | some name =>
        cases h
        exact ⟨rfl, rfl, rfl, rfl, rfl⟩
  · rintro ⟨hpending, hname, hmembers, hincludes, hinternal⟩
    dsimp only at hpending hname hmembers hincludes hinternal
    subst hpending hname hmembers hincludes hinternal
    rfl

theorem escaped_eq_ok {word : String} : draft.escaped word = .ok next ↔
    draft.name = none ∧ draft.pending = none ∧ next = { draft with name := some word } := by
  obtain ⟨name, members, includes, internal, pending⟩ := draft
  constructor
  · intro h
    cases name with
    | some name => cases h
    | none =>
      cases pending with
      | some p => cases h
      | none =>
        cases h
        exact ⟨rfl, rfl, rfl⟩
  · rintro ⟨hname, hpending, rfl⟩
    dsimp only at hname hpending
    subst hname hpending
    rfl

/-- Behind `--` there is the name or nothing. -/
theorem foldlM_escaped_eq_ok : words.foldlM Draft.escaped draft = .ok next ↔
    words = [] ∧ next = draft ∨
      ∃ word, words = [word] ∧ draft.escaped word = .ok next := by
  cases words with
  | nil =>
    constructor
    · intro h
      cases h
      exact .inl ⟨rfl, rfl⟩
    · rintro (⟨-, rfl⟩ | ⟨word, h, -⟩)
      · rfl
      · cases h
  | cons word rest =>
    rw [List.foldlM_cons, Outcome.bind_eq_ok]
    constructor
    · rintro ⟨named, hnamed, hrest⟩
      cases rest with
      | nil =>
        cases hrest
        exact .inr ⟨word, rfl, hnamed⟩
      | cons other rest =>
        -- The name is there, so that a further word is refused.
        rw [List.foldlM_cons, Outcome.bind_eq_ok] at hrest
        obtain ⟨_, hother, -⟩ := hrest
        rw [(escaped_eq_ok.1 hnamed).2.2] at hother
        cases hother
    · rintro (⟨h, -⟩ | ⟨word', h, hnamed⟩)
      · cases h
      · cases h
        exact ⟨next, hnamed, rfl⟩

theorem pending_of_foldlM_escaped (hpending : draft.pending ≠ none)
    (h : words.foldlM Draft.escaped draft = .ok next) : next.pending ≠ none := by
  rcases foldlM_escaped_eq_ok.1 h with ⟨-, rfl⟩ | ⟨word, -, h⟩
  · exact hpending
  · exact absurd (escaped_eq_ok.1 h).2.1 hpending

theorem words_behind (draft : Draft) (behind : Option (List String)) :
    draft.words (behind.elim [] ("--" :: ·)) = (behind.getD []).foldlM Draft.escaped draft := by
  cases behind with
  | none => rfl
  | some words => simp only [Option.elim_some, Option.getD_some, Draft.words, Word.of_escape]

theorem Fits.name_eq_some (h : Fits items) (hname : (draftOf items).name = some name) :
    items.filterMap Item.name? = [name] := by
  obtain ⟨rest, hrest⟩ := List.head?_eq_some_iff.1 hname
  have hlength := h.name
  rw [hrest, List.length_cons] at hlength
  have hnil : rest = [] := List.eq_nil_of_length_eq_zero (by omega)
  rw [hrest, hnil]

/-- What is declared when the items are followed by nothing but words behind `--`. -/
theorem ending_iff (h : Fits items) (behind : Option (List String)) :
    ((draftOf items).words (behind.elim [] ("--" :: ·)) >>= Draft.finish) = .ok d ↔
      Arrangement.Declares ⟨items, behind⟩ d := by
  rw [words_behind, Outcome.bind_eq_ok]
  constructor
  · rintro ⟨next, hnext, hfinish⟩
    obtain ⟨-, hname, hmembers, hincludes, hinternal⟩ := finish_eq_ok.1 hfinish
    rcases foldlM_escaped_eq_ok.1 hnext with ⟨hbehind, rfl⟩ | ⟨word, hbehind, hnamed⟩
    · refine ⟨?_, hmembers, hincludes, by rw [← hinternal]; exact decide_eq_true_iff.symm⟩
      rw [Arrangement.names, hbehind, h.name_eq_some hname, List.append_nil]
    · obtain ⟨hnone, -, rfl⟩ := escaped_eq_ok.1 hnamed
      refine ⟨?_, hmembers, hincludes, by rw [← hinternal]; exact decide_eq_true_iff.symm⟩
      rw [Arrangement.names, hbehind, List.head?_eq_none_iff.1 hnone, List.nil_append,
        Option.some.inj hname]
  · intro hd
    have hinternal : (draftOf items).internal = d.internal :=
      Bool.eq_iff_iff.2 (decide_eq_true_iff.trans hd.internal)
    rcases List.append_eq_singleton_iff.1 hd.name with ⟨hnone, hbehind⟩ | ⟨hname, hbehind⟩
    · have hnone : (draftOf items).name = none := List.head?_eq_none_iff.2 hnone
      exact ⟨_, foldlM_escaped_eq_ok.2 (.inr ⟨_, hbehind, escaped_eq_ok.2 ⟨hnone, rfl, rfl⟩⟩),
        finish_eq_ok.2 ⟨rfl, rfl, hd.members, hd.includes, hinternal⟩⟩
    · have hname : (draftOf items).name = some d.name := List.head?_eq_some_iff.2 ⟨[], hname⟩
      exact ⟨_, foldlM_escaped_eq_ok.2 (.inl ⟨hbehind, rfl⟩),
        finish_eq_ok.2 ⟨rfl, hname, hd.members, hd.includes, hinternal⟩⟩

/-! ## From words to items -/

theorem pending_of_settle {u : Unit} (h : draft.settle = .ok u) : draft.pending = none := by
  unfold Draft.settle at h
  split at h
  · cases h
  · assumption

/-- What an option does to a draft that takes it. -/
theorem option_eq_ok (h : draft.option name value = .ok next) : draft.pending = none ∧
    (name = "member" ∧ value = none ∧ next = { draft with pending := some (.member none) } ∨
      name = "include" ∧ value = none ∧ next = { draft with pending := some .header } ∨
      (∃ header, name = "include" ∧ value = some header ∧
        next = { draft with includes := draft.includes ++ [header] }) ∨
      name = "internal" ∧ value = none ∧ draft.internal = false ∧
        next = { draft with internal := true }) := by
  unfold Draft.option at h
  split at h
  · obtain ⟨_, hsettle, h⟩ := Outcome.bind_eq_ok.1 h
    cases h
    exact ⟨pending_of_settle hsettle, .inl ⟨rfl, rfl, rfl⟩⟩
  · obtain ⟨_, -, h⟩ := Outcome.bind_eq_ok.1 h
    cases h
  · obtain ⟨_, hsettle, h⟩ := Outcome.bind_eq_ok.1 h
    cases h
    exact ⟨pending_of_settle hsettle, .inr (.inl ⟨rfl, rfl, rfl⟩)⟩
  · obtain ⟨_, hsettle, h⟩ := Outcome.bind_eq_ok.1 h
    cases h
    exact ⟨pending_of_settle hsettle, .inr (.inr (.inl ⟨_, rfl, rfl, rfl⟩))⟩
  · obtain ⟨_, hsettle, h⟩ := Outcome.bind_eq_ok.1 h
    split at h
    · cases h
    · rename_i hnew
      cases h
      exact ⟨pending_of_settle hsettle,
        .inr (.inr (.inr ⟨rfl, rfl, Bool.eq_false_iff.2 hnew, rfl⟩))⟩
  · cases h
  · cases h

/-- A draft that waits for a value goes on with a plain word. -/
theorem plain_of_pending (hpending : draft.pending ≠ none)
    (h : (draft.words words >>= Draft.finish) = .ok d) :
    ∃ word rest next, words = word :: rest ∧ IsPlain word ∧ draft.plain word = .ok next ∧
      (next.words rest >>= Draft.finish) = .ok d := by
  obtain ⟨last, hlast, hfinish⟩ := Outcome.bind_eq_ok.1 h
  cases words with
  | nil =>
    cases hlast
    exact absurd (finish_eq_ok.1 hfinish).1 hpending
  | cons word rest =>
    rw [Draft.words] at hlast
    cases hword : Word.of word with
    | escape =>
      rw [hword] at hlast
      exact absurd (finish_eq_ok.1 hfinish).1 (pending_of_foldlM_escaped hpending hlast)
    | option name value =>
      rw [hword] at hlast
      obtain ⟨next, hnext, -⟩ := Outcome.bind_eq_ok.1 hlast
      exact absurd (option_eq_ok hnext).1 hpending
    | short c =>
      rw [hword] at hlast
      cases hlast
    | plain text =>
      obtain ⟨hplain, rfl⟩ := Word.of_eq_plain hword
      rw [hword] at hlast
      obtain ⟨next, hnext, hrest⟩ := Outcome.bind_eq_ok.1 hlast
      exact ⟨text, rest, next, rfl, hplain, hnext, Outcome.bind_eq_ok.2 ⟨last, hrest, hfinish⟩⟩

theorem Fits.concat (h : Fits items) (hcomplete : item.Complete)
    (hinternal : item = .internal → (draftOf items).internal = false)
    (hname : ∀ word, item = .name word → (draftOf items).name = none) :
    Fits (items ++ [item]) where
  complete i hi := by
    rcases List.mem_append.1 hi with hi | hi
    · exact h.complete i hi
    · rwa [List.mem_singleton.1 hi]
  internal := by
    rw [List.count_append]
    by_cases heq : item = .internal
    · have hnone : .internal ∉ items := of_decide_eq_false (hinternal heq)
      rw [List.count_eq_zero_of_not_mem hnone, heq]
      exact Nat.le_refl 1
    · rw [List.count_eq_zero_of_not_mem (mt List.mem_singleton.1 (Ne.symm heq))]
      exact h.internal
  name := by
    rw [List.filterMap_append]
    cases item with
    | name word =>
      rw [List.head?_eq_none_iff.1 (hname word rfl)]
      exact Nat.le_refl 1
    | member | header | joined | internal =>
      rw [List.length_append]
      exact h.name

/-- A reader that goes on to succeed finds an item that fits, unless `--` comes next. -/
theorem exists_item (hfits : Fits items) (hword : word ≠ "--")
    (h : ((draftOf items).words (word :: rest) >>= Draft.finish) = .ok d) :
    ∃ item more, word :: rest = item.words ++ more ∧ Fits (items ++ [item]) := by
  obtain ⟨last, hlast, hfinish⟩ := Outcome.bind_eq_ok.1 h
  rw [Draft.words] at hlast
  cases hof : Word.of word with
  | escape => exact absurd (Word.of_eq_escape hof) hword
  | short c =>
    rw [hof] at hlast
    cases hlast
  | plain text =>
    obtain ⟨hplain, rfl⟩ := Word.of_eq_plain hof
    rw [hof] at hlast
    obtain ⟨next, hnext, -⟩ := Outcome.bind_eq_ok.1 hlast
    refine ⟨.name text, rest, rfl, hfits.concat hplain (by simp) fun _ _ => ?_⟩
    cases hname : (draftOf items).name with
    | none => rfl
    | some name =>
      rw [Draft.plain, hname] at hnext
      cases hnext
  | option name value =>
    have hspelled := Word.of_eq_option hof
    rw [hof] at hlast
    obtain ⟨next, hnext, hrest⟩ := Outcome.bind_eq_ok.1 hlast
    have hgoes : (next.words rest >>= Draft.finish) = .ok d :=
      Outcome.bind_eq_ok.2 ⟨last, hrest, hfinish⟩
    obtain ⟨-, hcases⟩ := option_eq_ok hnext
    -- The option decides how many of the next words belong to the item: two, one or none.
    rcases hcases with ⟨rfl, rfl, rfl⟩ | ⟨rfl, rfl, rfl⟩ | ⟨header, rfl, rfl, rfl⟩ |
      ⟨rfl, rfl, hnew, rfl⟩
    · -- Two plain words come next.
      obtain ⟨type, rest, next, rfl, htype, hnext, hgoes⟩ := plain_of_pending (by simp) hgoes
      cases hnext
      obtain ⟨name, rest, next, rfl, hname, -, -⟩ := plain_of_pending (by simp) hgoes
      exact ⟨.member type name, rest, by rw [hspelled]; rfl,
        hfits.concat ⟨htype, hname⟩ (by simp) (by simp)⟩
    · obtain ⟨header, rest, next, rfl, hheader, -, -⟩ := plain_of_pending (by simp) hgoes
      exact ⟨.header header, rest, by rw [hspelled]; rfl, hfits.concat hheader (by simp) (by simp)⟩
    · refine ⟨.joined header, rest, ?_, hfits.concat trivial (by simp) (by simp)⟩
      rw [hspelled, Option.elim_some, ← String.append_assoc]
      rfl
    · exact ⟨.internal, rest, by rw [hspelled]; rfl, hfits.concat trivial (fun _ => hnew) (by simp)⟩

/-- Where the reader succeeds, the words are items that fit and what is behind `--`. -/
theorem exists_items (hfits : Fits items)
    (h : ((draftOf items).words words >>= Draft.finish) = .ok d) :
    ∃ more behind, words = Arrangement.words ⟨more, behind⟩ ∧ Fits (items ++ more) ∧
      Arrangement.Declares ⟨items ++ more, behind⟩ d := by
  -- An item takes at least one word away.
  induction hlength : words.length using Nat.strongRecOn generalizing items words with
  | ind length ih =>
    by_cases hend : ∃ behind : Option (List String), words = behind.elim [] ("--" :: ·)
    · obtain ⟨behind, rfl⟩ := hend
      refine ⟨[], behind, rfl, by rwa [List.append_nil], ?_⟩
      rw [List.append_nil]
      exact (ending_iff hfits behind).1 h
    · cases words with
      | nil => exact absurd ⟨none, rfl⟩ hend
      | cons word rest =>
        have hword : word ≠ "--" := by
          rintro rfl
          exact hend ⟨some rest, rfl⟩
        obtain ⟨item, left, hsplit, hitem⟩ := exists_item hfits hword h
        rw [hsplit, words_item hitem] at h
        have hshorter : left.length < length := by
          rw [← hlength, hsplit, List.length_append]
          cases item <;> simp [Item.words]
        obtain ⟨more, behind, hwords, hmore, hd⟩ := ih _ hshorter hitem h rfl
        rw [List.append_assoc] at hmore hd
        refine ⟨item :: more, behind, ?_, hmore, hd⟩
        rw [hsplit, hwords, Arrangement.words, Arrangement.words, List.flatMap_cons,
          List.append_assoc]

/-! ## Which declarations are read -/

variable {a b : Arrangement}

theorem Arrangement.WellFormed.fits (h : a.WellFormed) : Fits a.items where
  complete := h.complete
  internal := h.internal
  name := by
    have hname := h.name
    rw [Arrangement.names, List.length_append] at hname
    omega

theorem Fits.wellFormed (h : Fits a.items) (hd : a.Declares d) : a.WellFormed where
  complete := h.complete
  internal := h.internal
  name := by rw [hd.name, List.length_singleton]

theorem Arrangement.WellFormed.exists_declares (h : a.WellFormed) : ∃ d, a.Declares d := by
  obtain ⟨name, hname⟩ := List.length_eq_one_iff.1 h.name
  exact ⟨⟨name, a.members, a.includes, decide (.internal ∈ a.items)⟩, hname, rfl, rfl,
    decide_eq_true_iff.symm⟩

theorem Arrangement.SameParts.declares (h : a.SameParts b) (hd : a.Declares d) : b.Declares d where
  name := h.names.symm.trans hd.name
  members := h.members.symm.trans hd.members
  includes := h.includes.symm.trans hd.includes
  internal := h.internal.symm.trans hd.internal

theorem ofWords_words (h : a.WellFormed) : ofWords a.words = .ok d ↔ a.Declares d := by
  have hfits : Fits ([] ++ a.items) := h.fits
  have hofWords : ofWords a.words = ((draftOf []).words a.words >>= Draft.finish) := rfl
  rw [hofWords, Arrangement.words, words_items hfits]
  exact ending_iff h.fits a.behind

theorem exists_arrangement (h : ofWords words = .ok d) :
    ∃ a : Arrangement, a.words = words ∧ a.WellFormed := by
  obtain ⟨items, behind, hwords, hfits, hd⟩ := exists_items fits_nil h
  exact ⟨⟨items, behind⟩, hwords.symm, hfits.wellFormed hd⟩

theorem parse_eq_ok {location : Location} {text : String} :
    parse location text = .ok d ↔ ofWords (Text.words text) = .ok d := by
  unfold parse
  cases ofWords (Text.words text) with
  | ok declaration => simp
  | error fault => simp

theorem parse_of_words {location : Location} {text : String} (ha : a.words = Text.words text)
    (h : a.WellFormed) : parse location text = .ok d ↔ a.Declares d := by
  rw [parse_eq_ok, ← ha, ofWords_words h]

/-- **The grammar of declarations.** A text is read exactly if its words are a well-formed
arrangement, and then it says what the arrangement declares. Texts whose items of each kind are in
the same order say the same, however the kinds are mixed. -/
theorem parse_iff_arranged (location : Location) (text : String) :
    ((∃ d, parse location text = .ok d) ↔
      ∃ a : Arrangement, a.words = Text.words text ∧ a.WellFormed) ∧
    (∀ d (a : Arrangement), parse location text = .ok d → a.words = Text.words text →
      a.WellFormed → a.Declares d) ∧
    ∀ (other : String) (a b : Arrangement), a.words = Text.words text →
      b.words = Text.words other → a.WellFormed → b.WellFormed → a.SameParts b →
        parse location other = parse location text := by
  refine ⟨⟨?_, ?_⟩, ?_, ?_⟩
  · rintro ⟨d, h⟩
    exact exists_arrangement (parse_eq_ok.1 h)
  · rintro ⟨a, hwords, ha⟩
    obtain ⟨d, hd⟩ := ha.exists_declares
    exact ⟨d, (parse_of_words hwords ha).2 hd⟩
  · intro d a h hwords ha
    exact (parse_of_words hwords ha).1 h
  · intro other a b hwords hother ha hb hsame
    obtain ⟨d, hd⟩ := ha.exists_declares
    rw [(parse_of_words hwords ha).2 hd, (parse_of_words hother hb).2 (hsame.declares hd)]

/-- A dash for the name of a field, and a header and a name that look like options. -/
def dashed : Arrangement :=
  ⟨[.member "float" "-", .internal, .joined "-a=b", .header "F.h"], some ["--y"]⟩

/-- The same parts in another order. -/
def regrouped : Arrangement :=
  ⟨[.joined "-a=b", .header "F.h", .member "float" "-", .internal], some ["--y"]⟩

/-- Both orders are read and say the same. A member that lacks its name is not read. -/
theorem parse_iff_arranged_dashed :
    dashed.WellFormed ∧ regrouped.WellFormed ∧ dashed.SameParts regrouped ∧
      (∃ d, parse ⟨"m", 1⟩
        "--member float - --internal --include=-a=b --include F.h -- --y" = .ok d ∧
          dashed.Declares d) ∧
      parse ⟨"m", 1⟩ "--include=-a=b --include F.h --member float - --internal -- --y" =
        parse ⟨"m", 1⟩ "--member float - --internal --include=-a=b --include F.h -- --y" ∧
      ¬∃ a : Arrangement, a.words = Text.words "y --member float -- x" ∧ a.WellFormed := by
  have hdashed : dashed.WellFormed := ⟨by decide, by decide, by decide⟩
  have hregrouped : regrouped.WellFormed := ⟨by decide, by decide, by decide⟩
  have hsame : dashed.SameParts regrouped := ⟨by decide, by decide, by decide, by decide⟩
  have hwords : dashed.words =
      Text.words "--member float - --internal --include=-a=b --include F.h -- --y" := by
    decide +kernel
  obtain ⟨hread, hsays, hmixed⟩ := parse_iff_arranged ⟨"m", 1⟩
    "--member float - --internal --include=-a=b --include F.h -- --y"
  obtain ⟨d, hd⟩ := hread.2 ⟨dashed, hwords, hdashed⟩
  refine ⟨hdashed, hregrouped, hsame, ⟨d, hd, hsays d dashed hd hwords hdashed⟩, ?_, ?_⟩
  · exact hmixed _ dashed regrouped hwords (by decide +kernel) hdashed hregrouped hsame
  · rw [← (parse_iff_arranged ⟨"m", 1⟩ "y --member float -- x").1]
    rintro ⟨d, h⟩
    have hnone : (parse ⟨"m", 1⟩ "y --member float -- x").toOption = none := by decide +kernel
    rw [h] at hnone
    cases hnone

end WireSchema.Declaration
