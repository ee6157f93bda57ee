import Mathlib.Data.List.Forall2
import WireSchema.Naming

/-!
# Words in generated code

Names in generated code are words: texts of ASCII letters, digits and underscores. Identifiers are
words, and what the emitters derive from words are words again, so none of them can be taken for
punctuation.

**Theorem (`titleCase_titleCase`).** A word in title case stays as it is when it is put in title
case once more.

**Theorem (`titleCase_eq_iff`).** Two words are the same in title case exactly if they are the same
but for the case of their letters.

Folding to upper case forgets the case of the letters of a word (`foldUpper_eq_iff`), and which
characters stand between the letters and digits of other names (`foldUpper_eq_iff_alike`).

An identifier is a word that does not start with a digit (`isIdentifier_iff`), and what is derived
from identifiers in title case are identifiers.
-/

namespace WireSchema.Naming

/-! ## Words -/

/-- Whether a character may stand in a word. -/
def isWordChar (c : Char) : Bool := isAsciiAlphanum c || c == '_'

/-- A text of ASCII letters, digits and underscores. -/
def IsWord (s : String) : Prop := ∀ c ∈ s.toList, isWordChar c = true

theorem isWord_ofList (cs : List Char) (h : cs.all isWordChar = true) :
    IsWord (String.ofList cs) := by
  rw [IsWord, String.toList_ofList]
  exact List.all_eq_true.1 h

theorem IsWord.append {a b : String} (ha : IsWord a) (hb : IsWord b) : IsWord (a ++ b) := by
  rw [IsWord, String.toList_append, List.forall_mem_append]
  exact ⟨ha, hb⟩

theorem isWord_of_isIdentifier {s : String} (h : isIdentifier s = true) : IsWord s := by
  unfold isIdentifier at h
  intro c hc
  cases hs : s.toList with
  | nil =>
    rw [hs] at hc
    cases hc
  | cons first rest =>
    rw [hs, isIdentifierChars, Bool.and_eq_true, List.all_eq_true] at h
    rw [hs] at hc
    rcases List.mem_cons.1 hc with rfl | hc
    · rw [isWordChar, isAsciiAlphanum]
      rcases Bool.or_eq_true_iff.1 h.1 with halpha | hscore
      · rw [halpha, Bool.true_or, Bool.true_or]
      · rw [hscore, Bool.or_true]
    · exact h.2 c hc

theorem IsWord.not_mem {s : String} (h : IsWord s) {c : Char} (hc : isWordChar c = false) :
    c ∉ s.toList := by
  intro hmem
  rw [h c hmem] at hc
  cases hc

theorem isWord_enumTag {name : String} (h : IsWord name) : IsWord (enumTag name) :=
  h.append (isWord_ofList _ (by decide))

theorem isWordChar_lt {c : Char} (h : isWordChar c = true) : c.toNat < 128 := by
  have hrange {last : UInt32} (hc : c.val ≤ last) (hlast : last.toNat < 128) : c.toNat < 128 :=
    Nat.lt_of_le_of_lt hc hlast
  rcases Bool.or_eq_true_iff.1 h with hletter | hunderscore
  · rcases Bool.or_eq_true_iff.1 hletter with halpha | hdigit
    · rcases Bool.or_eq_true_iff.1 halpha with hupper | hlower
      · exact hrange (of_decide_eq_true hupper).2 (by decide)
      · exact hrange (of_decide_eq_true (Bool.and_eq_true_iff.1 hlower).2) (by decide)
    · exact hrange (of_decide_eq_true (Bool.and_eq_true_iff.1 hdigit).2) (by decide)
  · rw [eq_of_beq hunderscore]
    decide

/-! ## Folding -/

theorem foldChar_of_lt : ∀ n < 128, isWordChar (Char.ofNat n) = true →
    isWordChar (foldChar (Char.ofNat n)) = true := by
  decide +kernel

/-- A folded name is a word. -/
theorem isWord_foldUpper (name : String) : IsWord (foldUpper name) := by
  apply isWord_ofList
  rw [List.all_eq_true]
  intro c hc
  obtain ⟨d, -, rfl⟩ := List.mem_map.1 hc
  by_cases hd : isWordChar d = true
  · have hn := foldChar_of_lt d.toNat (isWordChar_lt hd)
    rw [Char.ofNat_toNat] at hn
    exact hn hd
  · have hother : isAsciiAlphanum d = false := by
      rw [isWordChar, Bool.or_eq_true, not_or] at hd
      exact Bool.eq_false_iff.2 hd.1
    rw [foldChar, hother, if_neg Bool.false_ne_true]
    decide

theorem isWord_headerGuard (name : String) : IsWord (headerGuard name) :=
  (isWord_foldUpper name).append (isWord_ofList _ (by decide))

/-! ## Title case -/

/-- What the case mappings do to the letters of words, where they are those of ASCII. -/
structure PlainLetter (c : Char) : Prop where
  upperChars : Text.upperChars c = [c.toUpper]
  lowerChars : Text.lowerChars c = [c.toLower]
  upper : isWordChar c.toUpper = true ∧ Text.isAlphabetic c.toUpper = true ∧
    c.toUpper.toUpper = c.toUpper
  lower : isWordChar c.toLower = true ∧ Text.isAlphabetic c.toLower = true ∧
    c.toLower.toLower = c.toLower

instance {c : Char} : Decidable (PlainLetter c) :=
  decidable_of_iff (Text.upperChars c = [c.toUpper] ∧ Text.lowerChars c = [c.toLower] ∧
      (isWordChar c.toUpper = true ∧ Text.isAlphabetic c.toUpper = true ∧
        c.toUpper.toUpper = c.toUpper) ∧
      (isWordChar c.toLower = true ∧ Text.isAlphabetic c.toLower = true ∧
        c.toLower.toLower = c.toLower))
    ⟨fun h => ⟨h.1, h.2.1, h.2.2.1, h.2.2.2⟩,
      fun h => ⟨h.upperChars, h.lowerChars, h.upper, h.lower⟩⟩

theorem plainLetter_of_lt : ∀ n < 128, isWordChar (Char.ofNat n) = true →
    Text.isAlphabetic (Char.ofNat n) = true → PlainLetter (Char.ofNat n) := by
  decide +kernel

theorem plainLetter {c : Char} (h : isWordChar c = true) (halpha : Text.isAlphabetic c = true) :
    PlainLetter c := by
  have hn := plainLetter_of_lt c.toNat (isWordChar_lt h)
  rw [Char.ofNat_toNat] at hn
  exact hn h halpha

/-- A character of a word in title case. -/
def titleChar (inWord : Bool) (c : Char) : Char :=
  if Text.isAlphabetic c then (if inWord then c.toLower else c.toUpper) else c

theorem titleFrom_cons {c : Char} (h : isWordChar c = true) (inWord : Bool) (cs : List Char) :
    titleFrom inWord (c :: cs) = titleChar inWord c :: titleFrom (Text.isAlphabetic c) cs := by
  rw [titleFrom, titleChar]
  by_cases halpha : Text.isAlphabetic c = true
  · have hc := plainLetter h halpha
    rw [if_pos halpha, if_pos halpha, hc.upperChars, hc.lowerChars, halpha]
    cases inWord <;> rfl
  · rw [if_neg halpha, if_neg halpha, Bool.eq_false_iff.2 halpha]

/-- Title case keeps words and letters, and what it has done it does not do again. -/
theorem titleChar_spec {c : Char} (h : isWordChar c = true) (inWord : Bool) :
    isWordChar (titleChar inWord c) = true ∧
      Text.isAlphabetic (titleChar inWord c) = Text.isAlphabetic c ∧
      titleChar inWord (titleChar inWord c) = titleChar inWord c := by
  by_cases halpha : Text.isAlphabetic c = true
  · have hc := plainLetter h halpha
    cases inWord with
    | false =>
      obtain ⟨hword, hletter, htwice⟩ := hc.upper
      simp [titleChar, halpha, hword, hletter, htwice]
    | true =>
      obtain ⟨hword, hletter, htwice⟩ := hc.lower
      simp [titleChar, halpha, hword, hletter, htwice]
  · simp [titleChar, halpha, h]

theorem titleFrom_spec {cs : List Char} (h : ∀ c ∈ cs, isWordChar c = true) (inWord : Bool) :
    (∀ c ∈ titleFrom inWord cs, isWordChar c = true) ∧
      titleFrom inWord (titleFrom inWord cs) = titleFrom inWord cs := by
  induction cs generalizing inWord with
  | nil => exact ⟨fun _ hc => absurd hc List.not_mem_nil, rfl⟩
  | cons c cs ih =>
    obtain ⟨hc, hcs⟩ := List.forall_mem_cons.1 h
    obtain ⟨hword, hletter, htwice⟩ := titleChar_spec hc inWord
    obtain ⟨hwords, hrest⟩ := ih hcs (Text.isAlphabetic c)
    rw [titleFrom_cons hc, List.forall_mem_cons, titleFrom_cons hword, htwice, hletter, hrest]
    exact ⟨⟨hword, hwords⟩, rfl⟩

theorem isWord_titleCase {s : String} (h : IsWord s) : IsWord (titleCase s) :=
  isWord_ofList _ (List.all_eq_true.2 (titleFrom_spec h false).1)

theorem titleCase_titleCase {s : String} (h : IsWord s) : titleCase (titleCase s) = titleCase s := by
  rw [titleCase, titleCase, String.toList_ofList, (titleFrom_spec h false).2]

theorem isWord_memberName {s : String} (h : IsWord s) : IsWord (memberName s) :=
  (isWord_ofList _ (by decide)).append (isWord_titleCase h)

/-! ## Case -/

/-- What case and title case do to the characters of words. -/
structure PlainChar (c : Char) : Prop where
  lower : isWordChar c.toLower = true
  alphabetic : Text.isAlphabetic c.toLower = Text.isAlphabetic c
  lower_title : ∀ inWord, (titleChar inWord c).toLower = c.toLower
  title_lower : ∀ inWord, titleChar inWord c.toLower = titleChar inWord c
  digit_title : ∀ inWord, (titleChar inWord c).isDigit = c.isDigit
  /-- The characters that a word may have but an identifier may not start with are the digits. -/
  not_digit : (c.isAlpha || c == '_') = !c.isDigit

instance {c : Char} : Decidable (PlainChar c) :=
  decidable_of_iff (isWordChar c.toLower = true ∧
      Text.isAlphabetic c.toLower = Text.isAlphabetic c ∧
      (∀ inWord, (titleChar inWord c).toLower = c.toLower) ∧
      (∀ inWord, titleChar inWord c.toLower = titleChar inWord c) ∧
      (∀ inWord, (titleChar inWord c).isDigit = c.isDigit) ∧
      (c.isAlpha || c == '_') = !c.isDigit)
    ⟨fun h => ⟨h.1, h.2.1, h.2.2.1, h.2.2.2.1, h.2.2.2.2.1, h.2.2.2.2.2⟩,
      fun h => ⟨h.lower, h.alphabetic, h.lower_title, h.title_lower, h.digit_title, h.not_digit⟩⟩

theorem plainChar_of_lt : ∀ n < 128, isWordChar (Char.ofNat n) = true →
    PlainChar (Char.ofNat n) := by
  decide +kernel

theorem plainChar {c : Char} (h : isWordChar c = true) : PlainChar c := by
  have hn := plainChar_of_lt c.toNat (isWordChar_lt h)
  rw [Char.ofNat_toNat] at hn
  exact hn h

/-- Title case changes nothing but the case of letters. -/
theorem map_toLower_titleFrom {cs : List Char} (h : ∀ c ∈ cs, isWordChar c = true)
    (inWord : Bool) : (titleFrom inWord cs).map Char.toLower = cs.map Char.toLower := by
  induction cs generalizing inWord with
  | nil => rfl
  | cons c cs ih =>
    obtain ⟨hc, hcs⟩ := List.forall_mem_cons.1 h
    rw [titleFrom_cons hc, List.map_cons, (plainChar hc).lower_title, ih hcs, List.map_cons]

/-- Title case does not depend on the case of letters. -/
theorem titleFrom_map_toLower {cs : List Char} (h : ∀ c ∈ cs, isWordChar c = true)
    (inWord : Bool) : titleFrom inWord (cs.map Char.toLower) = titleFrom inWord cs := by
  induction cs generalizing inWord with
  | nil => rfl
  | cons c cs ih =>
    obtain ⟨hc, hcs⟩ := List.forall_mem_cons.1 h
    have hplain := plainChar hc
    rw [List.map_cons, titleFrom_cons hplain.lower, titleFrom_cons hc, hplain.title_lower,
      hplain.alphabetic, ih hcs]

theorem toLower_eq_iff {a b : String} :
    a.toLower = b.toLower ↔ a.toList.map Char.toLower = b.toList.map Char.toLower := by
  have hlower (s : String) : s.toLower.toList = s.toList.map Char.toLower := String.toList_map
  rw [← String.toList_inj, hlower, hlower]

theorem toLower_titleCase {s : String} (h : IsWord s) : (titleCase s).toLower = s.toLower := by
  rw [toLower_eq_iff, titleCase, String.toList_ofList, map_toLower_titleFrom h]

/-- Words are told apart by title case exactly if they differ in more than case. -/
theorem titleCase_eq_iff {a b : String} (ha : IsWord a) (hb : IsWord b) :
    titleCase a = titleCase b ↔ a.toLower = b.toLower := by
  constructor
  · intro h
    rw [← toLower_titleCase ha, h, toLower_titleCase hb]
  · intro h
    rw [titleCase, titleCase, ← titleFrom_map_toLower ha, toLower_eq_iff.1 h,
      titleFrom_map_toLower hb]

theorem memberName_eq_iff {a b : String} (ha : IsWord a) (hb : IsWord b) :
    memberName a = memberName b ↔ a.toLower = b.toLower := by
  rw [memberName, memberName, String.append_right_inj, titleCase_eq_iff ha hb]

theorem memberName_titleCase_append {a b : String} (ha : IsWord a) (hb : IsWord b) :
    memberName (titleCase a ++ b) = memberName (a ++ b) := by
  rw [memberName_eq_iff ((isWord_titleCase ha).append hb) (ha.append hb), toLower_eq_iff,
    String.toList_append, String.toList_append, List.map_append, List.map_append,
    toLower_eq_iff.1 (toLower_titleCase ha)]

/-- The names differ in more than the case of their letters. -/
def Apart (a b : String) : Prop := a.toLower ≠ b.toLower

instance {a b : String} : Decidable (Apart a b) :=
  decidable_of_iff _ (not_congr toLower_eq_iff).symm

/-- The members of words are different exactly if the words are, whatever their case. -/
theorem nodup_map_memberName {names : List String} (h : ∀ name ∈ names, IsWord name) :
    (names.map memberName).Nodup ↔ names.Pairwise Apart := by
  rw [List.Nodup, List.pairwise_map]
  exact List.Pairwise.iff_of_mem fun ha hb => not_congr (memberName_eq_iff (h _ ha) (h _ hb))

/-! ## Folded names -/

theorem foldChar_case : ∀ n < 128, isWordChar (Char.ofNat n) = true →
    (foldChar (Char.ofNat n)).toLower = (Char.ofNat n).toLower ∧
      foldChar (Char.ofNat n).toLower = foldChar (Char.ofNat n) := by
  decide +kernel

theorem map_foldChar {cs : List Char} (h : ∀ c ∈ cs, isWordChar c = true) :
    (cs.map foldChar).map Char.toLower = cs.map Char.toLower ∧
      (cs.map Char.toLower).map foldChar = cs.map foldChar := by
  have hcase : ∀ c ∈ cs, (foldChar c).toLower = c.toLower ∧ foldChar c.toLower = foldChar c := by
    intro c hc
    have hn := foldChar_case c.toNat (isWordChar_lt (h c hc))
    rw [Char.ofNat_toNat] at hn
    exact hn (h c hc)
  rw [List.map_map, List.map_map]
  exact ⟨List.map_congr_left fun c hc => (hcase c hc).1,
    List.map_congr_left fun c hc => (hcase c hc).2⟩

/-- Words fold to one name exactly if they differ at most in the case of letters. -/
theorem foldUpper_eq_iff {a b : String} (ha : IsWord a) (hb : IsWord b) :
    foldUpper a = foldUpper b ↔ a.toLower = b.toLower := by
  obtain ⟨hlower, hfold⟩ := map_foldChar ha
  obtain ⟨hlower', hfold'⟩ := map_foldChar hb
  rw [toLower_eq_iff, foldUpper, foldUpper, String.ofList_inj]
  constructor
  · intro h
    rw [← hlower, h, hlower']
  · intro h
    rw [← hfold, h, hfold']

theorem foldUpper_append (a b : String) : foldUpper (a ++ b) = foldUpper a ++ foldUpper b := by
  rw [foldUpper, String.toList_append, List.map_append, String.ofList_append]
  rfl

/-- Characters that fold to one: a letter in either case, the same digit, or two characters that
are neither letters nor digits. -/
def AlikeChar (c d : Char) : Prop :=
  isAsciiAlphanum c = isAsciiAlphanum d ∧ (isAsciiAlphanum c = true → c.toUpper = d.toUpper)

/-- Names of one length that have at each place characters that fold to one. -/
def Alike (a b : String) : Prop := List.Forall₂ AlikeChar a.toList b.toList

theorem toUpper_ne_underscore : ∀ n < 128, isAsciiAlphanum (Char.ofNat n) = true →
    (Char.ofNat n).toUpper ≠ '_' := by
  decide +kernel

theorem foldChar_eq_iff {c d : Char} : foldChar c = foldChar d ↔ AlikeChar c d := by
  have hletter : ∀ {c : Char}, isAsciiAlphanum c = true → c.toUpper ≠ '_' := by
    intro c hc
    have hn := toUpper_ne_underscore c.toNat (isWordChar_lt (by rw [isWordChar, hc, Bool.true_or]))
    rw [Char.ofNat_toNat] at hn
    exact hn hc
  unfold foldChar AlikeChar
  cases hc : isAsciiAlphanum c with
  | true =>
    cases hd : isAsciiAlphanum d with
    | true => simp
    | false => simp [hletter hc]
  | false =>
    cases hd : isAsciiAlphanum d with
    | true => simp [(hletter hd).symm]
    | false => simp

theorem foldUpper_eq_iff_alike {a b : String} : foldUpper a = foldUpper b ↔ Alike a b := by
  rw [foldUpper, foldUpper, String.ofList_inj, Alike, ← List.forall₂_eq_eq_eq,
    List.forall₂_map_left_iff, List.forall₂_map_right_iff]
  simp only [foldChar_eq_iff]

instance {a b : String} : Decidable (Alike a b) := decidable_of_iff _ foldUpper_eq_iff_alike

/-! ## Identifiers -/

/-- An identifier of C and C++: a word that starts with a character other than a digit. -/
def IsIdentifier (s : String) : Prop :=
  IsWord s ∧ ∃ c, s.toList.head? = some c ∧ c.isDigit = false

theorem isIdentifier_iff {s : String} : isIdentifier s = true ↔ IsIdentifier s := by
  constructor
  · intro h
    have hword := isWord_of_isIdentifier h
    refine ⟨hword, ?_⟩
    unfold isIdentifier at h
    cases hs : s.toList with
    | nil =>
      rw [hs] at h
      cases h
    | cons c cs =>
      have hc := plainChar (hword c (by simp [hs]))
      rw [hs, isIdentifierChars, hc.not_digit, Bool.and_eq_true, Bool.not_eq_true'] at h
      exact ⟨c, rfl, h.1⟩
  · rintro ⟨hword, c, hhead, hdigit⟩
    obtain ⟨cs, hs⟩ := List.head?_eq_some_iff.1 hhead
    rw [IsWord, hs, List.forall_mem_cons] at hword
    rw [isIdentifier, hs, isIdentifierChars, (plainChar hword.1).not_digit, hdigit]
    exact List.all_eq_true.2 hword.2

theorem IsIdentifier.append {a b : String} (ha : IsIdentifier a) (hb : IsWord b) :
    IsIdentifier (a ++ b) := by
  obtain ⟨hword, c, hhead, hdigit⟩ := ha
  refine ⟨hword.append hb, c, ?_, hdigit⟩
  rw [String.toList_append, List.head?_append, hhead, Option.some_or]

theorem IsIdentifier.titleCase {s : String} (h : IsIdentifier s) : IsIdentifier (titleCase s) := by
  obtain ⟨hword, c, hhead, hdigit⟩ := h
  obtain ⟨cs, hs⟩ := List.head?_eq_some_iff.1 hhead
  have hc : isWordChar c = true := hword c (by simp [hs])
  refine ⟨isWord_titleCase hword, titleChar false c, ?_, ?_⟩
  · rw [Naming.titleCase, String.toList_ofList, hs, titleFrom_cons hc]
    rfl
  · rw [(plainChar hc).digit_title, hdigit]

/-- The letter in front makes any word an identifier. -/
theorem isIdentifier_memberName {s : String} (h : IsWord s) : IsIdentifier (memberName s) := by
  refine ⟨isWord_memberName h, 'm', ?_, by decide⟩
  rw [memberName, String.toList_append]
  rfl

end WireSchema.Naming
