import Mathlib.Data.List.TakeWhile
import WireSchema.Text.Space

/-!
# White space around and between words

Trimming is undone by putting white space back (`trimChars_eq_iff`), and a text is cut at the first
character that separates (`splitWhere_append`). From the two it follows when a text has no word at
all and when it is a single one.
-/

namespace WireSchema.Text

variable {cs before after word : List Char} {c : Char} {p : Char → Bool}

/-! ## Splitting -/

theorem splitWhere_append (hc : p c = true) (h : ∀ d ∈ cs, p d = false) (rest : List Char) :
    splitWhere p (cs ++ c :: rest) = cs :: splitWhere p rest := by
  induction cs with
  | nil => simp [splitWhere, hc]
  | cons d cs ih =>
    have hd := h d List.mem_cons_self
    rw [List.cons_append, splitWhere, hd, ih fun e he => h e (List.mem_cons_of_mem _ he)]
    rfl

theorem splitWhere_of_not (h : ∀ d ∈ cs, p d = false) : splitWhere p cs = [cs] := by
  induction cs with
  | nil => rfl
  | cons d cs ih =>
    have hd := h d List.mem_cons_self
    rw [splitWhere, hd, ih fun e he => h e (List.mem_cons_of_mem _ he)]
    rfl

theorem not_of_mem_splitWhere {piece : List Char} (h : piece ∈ splitWhere p cs) :
    ∀ c ∈ piece, p c = false := by
  induction cs generalizing piece with
  | nil =>
    rw [splitWhere, List.mem_singleton] at h
    rw [h]
    exact fun _ hc => absurd hc List.not_mem_nil
  | cons d cs ih =>
    rw [splitWhere] at h
    split at h
    · rcases List.mem_cons.1 h with rfl | h
      · exact fun _ hc => absurd hc List.not_mem_nil
      · exact ih h
    · rename_i hd
      cases hsplit : splitWhere p cs with
      | nil =>
        rw [hsplit, consFirst, List.mem_singleton] at h
        rw [h, List.forall_mem_singleton]
        exact Bool.eq_false_iff.2 hd
      | cons first others =>
        rw [hsplit] at h ih
        rcases List.mem_cons.1 h with rfl | h
        · exact List.forall_mem_cons.2 ⟨Bool.eq_false_iff.2 hd, ih List.mem_cons_self⟩
        · exact ih (List.mem_cons_of_mem _ h)

/-! ## Trimming -/

/-- A text of white space only. -/
def IsBlank (cs : List Char) : Prop := ∀ c ∈ cs, isSpace c = true

/-- A text without white space at its ends. -/
def IsTrimmed (cs : List Char) : Prop :=
  (∀ c ∈ cs.head?, isSpace c = false) ∧ ∀ c ∈ cs.getLast?, isSpace c = false

instance (cs : List Char) : Decidable (IsBlank cs) := List.decidableBAll (isSpace · = true) cs

theorem trimChars_append_space (hc : isSpace c = true) (cs : List Char) :
    trimChars (cs ++ [c]) = trimChars cs := by
  unfold trimChars trimStartChars
  rw [List.dropWhile_append]
  by_cases hall : (cs.dropWhile isSpace).isEmpty = true
  · rw [if_pos hall, List.isEmpty_iff.1 hall]
    simp [trimEndChars, hc]
  · rw [if_neg hall]
    simp [trimEndChars, hc]

theorem trimChars_append_blank (h : IsBlank after) (cs : List Char) :
    trimChars (cs ++ after) = trimChars cs := by
  induction after generalizing cs with
  | nil => rw [List.append_nil]
  | cons c after ih =>
    obtain ⟨hc, hafter⟩ := List.forall_mem_cons.1 h
    rw [List.append_cons, ih hafter, trimChars_append_space hc]

theorem trimChars_of_isBlank (h : IsBlank cs) : trimChars cs = [] :=
  trimChars_append_blank h []

theorem trimChars_blank_append (h : IsBlank before) (cs : List Char) :
    trimChars (before ++ cs) = trimChars cs := by
  rw [trimChars, trimStartChars, List.dropWhile_append_of_pos h]
  rfl

theorem head?_trimStartChars (h : c ∈ (trimStartChars cs).head?) : isSpace c = false := by
  have hhead := List.head?_dropWhile_not isSpace cs
  rw [trimStartChars, Option.mem_def] at h
  rwa [h] at hhead

theorem getLast?_trimEndChars (h : c ∈ (trimEndChars cs).getLast?) : isSpace c = false := by
  rw [trimEndChars, List.getLast?_reverse] at h
  exact head?_trimStartChars h

theorem exists_trimEndChars (cs : List Char) :
    ∃ after, IsBlank after ∧ cs = trimEndChars cs ++ after := by
  refine ⟨(cs.reverse.takeWhile isSpace).reverse, fun c hc => ?_, ?_⟩
  · exact List.mem_takeWhile_imp (List.mem_reverse.1 hc)
  · rw [trimEndChars, ← List.reverse_append, List.takeWhile_append_dropWhile, List.reverse_reverse]

theorem exists_trimChars (cs : List Char) : ∃ before after, IsBlank before ∧ IsBlank after ∧
    cs = before ++ trimChars cs ++ after := by
  obtain ⟨after, hafter, hcs⟩ := exists_trimEndChars (trimStartChars cs)
  refine ⟨cs.takeWhile isSpace, after, fun c hc => List.mem_takeWhile_imp hc, hafter, ?_⟩
  rw [List.append_assoc, trimChars, ← hcs]
  exact List.takeWhile_append_dropWhile.symm

theorem isTrimmed_trimChars (cs : List Char) : IsTrimmed (trimChars cs) := by
  refine ⟨fun c hc => ?_, fun c hc => getLast?_trimEndChars hc⟩
  obtain ⟨after, -, hcs⟩ := exists_trimEndChars (trimStartChars cs)
  have hhead : c ∈ (trimStartChars cs).head? := by
    rw [Option.mem_def, trimChars] at hc
    rw [hcs, List.head?_append, Option.mem_def, hc, Option.some_or]
  exact head?_trimStartChars hhead

theorem trimStartChars_eq_self (h : ∀ c ∈ cs.head?, isSpace c = false) :
    trimStartChars cs = cs := by
  cases cs with
  | nil => rfl
  | cons c cs => exact List.dropWhile_cons_of_neg (by simp [h c rfl])

theorem trimChars_of_isTrimmed (h : IsTrimmed cs) : trimChars cs = cs := by
  have hend : trimStartChars cs.reverse = cs.reverse := by
    apply trimStartChars_eq_self
    rw [List.head?_reverse]
    exact h.2
  rw [trimStartChars] at hend
  rw [trimChars, trimStartChars_eq_self h.1, trimEndChars, hend, List.reverse_reverse]

/-- Trimming takes away white space around a text that has none at its ends. -/
theorem trimChars_eq_iff {trimmed : List Char} : trimChars cs = trimmed ↔
    IsTrimmed trimmed ∧
      ∃ before after, IsBlank before ∧ IsBlank after ∧ cs = before ++ trimmed ++ after := by
  constructor
  · rintro rfl
    exact ⟨isTrimmed_trimChars cs, exists_trimChars cs⟩
  · rintro ⟨htrimmed, before, after, hbefore, hafter, rfl⟩
    rw [trimChars_append_blank hafter, trimChars_blank_append hbefore,
      trimChars_of_isTrimmed htrimmed]

/-- What does not start with white space keeps its start. -/
theorem trimChars_cons (hc : isSpace c = false) (cs : List Char) :
    ∃ rest, trimChars (c :: cs) = c :: rest := by
  obtain ⟨before, after, hbefore, hafter, hcs⟩ := exists_trimChars (c :: cs)
  have hnot {blank rest : List Char} (h : c :: cs = blank ++ rest) (hblank : IsBlank blank) :
      blank = [] := by
    cases blank with
    | nil => rfl
    | cons d blank =>
      cases h
      rw [hblank c List.mem_cons_self] at hc
      cases hc
  rw [List.append_assoc] at hcs
  rw [hnot hcs hbefore, List.nil_append] at hcs
  cases htrim : trimChars (c :: cs) with
  | nil =>
    rw [htrim, List.nil_append] at hcs
    rw [hnot (hcs.trans (List.append_nil after).symm) hafter] at hcs
    cases hcs
  | cons d rest =>
    rw [htrim, List.cons_append, List.cons.injEq] at hcs
    exact ⟨rest, by rw [hcs.1]⟩

/-! ## Words -/

/-- A word behind which there is white space is the first one. -/
theorem wordsChars_append (hne : word ≠ []) (hword : ∀ d ∈ word, isSpace d = false)
    (hc : isSpace c = true) (rest : List Char) :
    wordsChars (word ++ c :: rest) = word :: wordsChars rest := by
  rw [wordsChars, splitWhere_append hc hword, List.filter_cons, wordsChars]
  simp [hne]

theorem wordsChars_of_word (hne : word ≠ []) (hword : ∀ d ∈ word, isSpace d = false) :
    wordsChars word = [word] := by
  rw [wordsChars, splitWhere_of_not hword]
  simp [hne]

theorem wordsChars_cons_space (hc : isSpace c = true) (cs : List Char) :
    wordsChars (c :: cs) = wordsChars cs := by
  rw [wordsChars, splitWhere, if_pos hc]
  rfl

theorem wordsChars_ne_nil (hc : isSpace c = false) (cs : List Char) :
    wordsChars (c :: cs) ≠ [] := by
  rw [wordsChars, splitWhere, hc]
  cases splitWhere isSpace cs <;> simp [consFirst]

theorem wordsChars_eq_nil_iff : wordsChars cs = [] ↔ IsBlank cs := by
  induction cs with
  | nil => exact ⟨fun _ => by simp [IsBlank], fun _ => rfl⟩
  | cons c cs ih =>
    cases hc : isSpace c with
    | true => rw [wordsChars_cons_space hc, ih, IsBlank, IsBlank, List.forall_mem_cons, hc]; simp
    | false =>
      constructor
      · intro h
        exact absurd h (wordsChars_ne_nil hc cs)
      · intro h
        rw [h c List.mem_cons_self] at hc
        cases hc

/-- A text starts with a word, and what follows is nothing or starts with white space. -/
theorem exists_word (hc : isSpace c = false) (cs : List Char) :
    ∃ word rest, c :: cs = word ++ rest ∧ word ≠ [] ∧ (∀ d ∈ word, isSpace d = false) ∧
      ∀ d ∈ rest.head?, isSpace d = true := by
  refine ⟨(c :: cs).takeWhile (!isSpace ·), (c :: cs).dropWhile (!isSpace ·),
    List.takeWhile_append_dropWhile.symm, ?_, fun d hd => ?_, fun d hd => ?_⟩
  · rw [List.takeWhile_cons_of_pos (by rw [hc]; rfl)]
    exact List.cons_ne_nil _ _
  · simpa using List.mem_takeWhile_imp hd
  · have hhead := List.head?_dropWhile_not (!isSpace ·) (c :: cs)
    rw [Option.mem_def.1 hd] at hhead
    simpa using hhead

/-- A text without white space at its ends that has one word is that word. -/
theorem eq_of_wordsChars (h : IsTrimmed cs) (hwords : wordsChars cs = [word]) : cs = word := by
  cases cs with
  | nil => cases hwords
  | cons c cs =>
    obtain ⟨first, rest, hsplit, hne, hfirst, hrest⟩ := exists_word (h.1 c rfl) cs
    rw [hsplit] at h hwords ⊢
    cases rest with
    | nil =>
      rw [List.append_nil, wordsChars_of_word hne hfirst] at hwords
      rw [List.append_nil, List.singleton_inj.1 hwords]
    | cons d rest =>
      -- All behind the first word would be white space, up to the end of the text.
      rw [wordsChars_append hne hfirst (hrest d rfl), List.cons.injEq] at hwords
      have hblank : IsBlank (d :: rest) :=
        List.forall_mem_cons.2 ⟨hrest d rfl, wordsChars_eq_nil_iff.1 hwords.2⟩
      have hlast : (first ++ d :: rest).getLast? =
          some ((d :: rest).getLast (List.cons_ne_nil _ _)) := by
        rw [List.getLast?_append, List.getLast?_eq_some_getLast (List.cons_ne_nil _ _),
          Option.some_or]
      have hspace := hblank _ (List.getLast_mem (List.cons_ne_nil d rest))
      rw [h.2 _ hlast] at hspace
      cases hspace

end WireSchema.Text
