import Mathlib.Data.List.Forall2
import WireSchema.Proofs.Schema.Lines

/-!
# Writing a schema and reading it back

A schema is written one directive to a line, with margins of white space, with blank lines and
comments anywhere, and with either kind of line end. A directive can be written if its text is one
that a line can hold: a name is a single word, and a declaration has no white space at its ends, no
line feed in it, and does not start like another kind of line.

**Theorem (`readAll_rendered`).** Under a valid configuration, what is read from a written schema
are its directives with the numbers of their lines. Whatever is read from any text at all is a
directive that can be written, from a line on which it is written, or an error about a line that
starts with the marker and goes on with white space or with several words. The numbers of these
lines increase, and all other lines are blank or comments.

Where lines are cut and whether they end with a carriage return does not matter (`readAll_eq`). So
the theorem rests on single lines, of which each is either a row of a written schema or malformed
(`row_or_malformed`), and is read accordingly (`Row.WellFormed.ofLine?`, `Malformed.ofLine?`).
-/

namespace WireSchema

/-! ## Writing -/

namespace Directive

/-- How a directive is written. -/
def chars (markers : Markers) : Directive → List Char
  | .opened name => markers.marker :: name.toList
  | .closed => [markers.marker]
  | .declared text => text.toList

/-- The directive is one that a line can hold. -/
def Writable (markers : Markers) : Directive → Prop
  | .opened name => name ≠ "" ∧ ∀ c ∈ name.toList, Text.isSpace c = false
  | .closed => True
  | .declared text => text ≠ "" ∧ Text.trim text = text ∧ '\n' ∉ text.toList ∧
    text.toList.head? ≠ some markers.marker ∧ text.toList.head? ≠ some markers.comment

instance (markers : Markers) : (d : Directive) → Decidable (d.Writable markers)
  | .opened name =>
    haveI := List.decidableBAll (Text.isSpace · = false) name.toList
    inferInstanceAs (Decidable (_ ∧ _))
  | .closed => inferInstanceAs (Decidable True)
  | .declared _ => inferInstanceAs (Decidable (_ ∧ _))

end Directive

/-- White space at an end of a line. -/
def IsMargin (cs : List Char) : Prop := Text.IsBlank cs ∧ '\n' ∉ cs

instance (cs : List Char) : Decidable (IsMargin cs) := inferInstanceAs (Decidable (_ ∧ _))

/-- A line of a written schema, without its end. -/
inductive Row where
  | blank (space : List Char)
  | comment (before text : List Char)
  | directive (before : List Char) (directive : Directive) (after : List Char)
deriving Repr, DecidableEq

namespace Row

/-- The characters of a row. -/
def chars (markers : Markers) : Row → List Char
  | blank space => space
  | comment before text => before ++ markers.comment :: text
  | directive before d after => before ++ d.chars markers ++ after

/-- The row keeps to its line. -/
def WellFormed (markers : Markers) : Row → Prop
  | blank space => IsMargin space
  | comment before text => IsMargin before ∧ '\n' ∉ text
  | directive before d after => IsMargin before ∧ d.Writable markers ∧ IsMargin after

instance (markers : Markers) : (row : Row) → Decidable (row.WellFormed markers)
  | blank space => inferInstanceAs (Decidable (IsMargin space))
  | comment .. => inferInstanceAs (Decidable (_ ∧ _))
  | directive .. => inferInstanceAs (Decidable (_ ∧ _))

/-- What a row says. -/
def directive? : Row → Option Directive
  | directive _ d _ => some d
  | _ => none

end Row

inductive LineEnd where
  | lf | crlf
deriving Repr, DecidableEq

/-- What stands before the line feed. -/
def LineEnd.chars : LineEnd → List Char
  | lf => []
  | crlf => ['\r']

/-- A written schema. The last row has no end, and may be empty. -/
structure Sheet where
  rows : List (Row × LineEnd)
  last : Row := .blank []
deriving Repr, DecidableEq

namespace Sheet

def allRows (s : Sheet) : List Row := s.rows.map Prod.fst ++ [s.last]

def text (markers : Markers) (s : Sheet) : String :=
  String.ofList ((s.rows.flatMap fun r => r.1.chars markers ++ r.2.chars ++ ['\n']) ++
    s.last.chars markers)

/-- Every row keeps to its line. -/
def WellFormed (markers : Markers) (s : Sheet) : Prop := ∀ row ∈ s.allRows, row.WellFormed markers

instance (markers : Markers) (s : Sheet) : Decidable (s.WellFormed markers) :=
  List.decidableBAll (Row.WellFormed markers) s.allRows

def directives (s : Sheet) : List Directive := s.allRows.filterMap Row.directive?

/-- The directives of a sheet with the numbers of their rows. -/
def numbered (s : Sheet) : List (Nat × Directive) :=
  (s.allRows.zipIdx 1).filterMap fun p => p.1.directive?.map (p.2, ·)

end Sheet

/-! ## Lines -/

namespace Text

/-- The lines of a text as they stand between line feeds. -/
def pieces (text : List Char) : List (List Char) := splitWhere (· == '\n') text

/-- Pieces of a text and its lines: a line may lose a carriage return, and an empty last piece is no
line. -/
inductive Cut : List (List Char) → List (List Char) → Prop
  | nothing : Cut [[]] []
  | last (c : Char) (cs : List Char) : Cut [c :: cs] [c :: cs]
  | lf {pieces lines : List (List Char)} (line : List Char) :
    Cut pieces lines → Cut (line :: pieces) (line :: lines)
  | crlf {pieces lines : List (List Char)} (line : List Char) :
    Cut pieces lines → Cut ((line ++ ['\r']) :: pieces) (line :: lines)

theorem Cut.consFirst (c : Char) {pieces lines : List (List Char)} (h : Cut pieces lines) :
    Cut (Text.consFirst c pieces) (Text.consFirst c lines) := by
  cases h with
  | nothing => exact .last c []
  | last d cs => exact .last c (d :: cs)
  | lf line h => exact .lf (c :: line) h
  | crlf line h => exact .crlf (c :: line) h

theorem cut_linesChars (text : List Char) : Cut (pieces text) (linesChars text) := by
  fun_induction linesChars text with
  | case1 => exact .nothing
  | case2 cs ih => exact .crlf [] ih
  | case3 cs ih => exact .lf [] ih
  | case4 c cs _ hlf ih =>
    have hc : ¬(c == '\n') = true := by simpa using hlf
    rw [pieces, splitWhere, if_neg hc]
    exact ih.consFirst c

end Text

namespace Line

variable {markers : Markers} {file : String}

theorem readLines_cons (start : Nat) (line : List Char) (lines : List (List Char)) :
    readLines markers file start (line :: lines) =
      (ofLine? markers file start line).toList ++ readLines markers file (start + 1) lines := by
  rw [readLines, List.zipIdx_cons, List.filterMap_cons]
  cases ofLine? markers file start line <;> rfl

theorem readLines_of_cut {pieces lines : List (List Char)} (h : Text.Cut pieces lines)
    (start : Nat) : readLines markers file start lines = readLines markers file start pieces := by
  induction h generalizing start with
  | nothing => rfl
  | last => rfl
  | lf line _ ih => rw [readLines_cons, readLines_cons, ih]
  | crlf line _ ih =>
    have htrim := Text.trimChars_append_space (c := '\r') (by decide) line
    rw [readLines_cons, readLines_cons, ih, ofLine?_congr markers file htrim]

/-- It does not matter how lines end. -/
theorem readAll_eq (markers : Markers) (file text : String) :
    readAll markers file text = readLines markers file 1 (Text.pieces text.toList) :=
  readLines_of_cut (Text.cut_linesChars text.toList) 1

end Line

/-! ## Single lines -/

/-- The marker and the comment character are not white space, and not the same. -/
structure Markers.Apart (markers : Markers) : Prop where
  marker : Text.isSpace markers.marker = false
  comment : Text.isSpace markers.comment = false
  ne : markers.marker ≠ markers.comment

theorem Config.apart_of_fault? {config : Config} (h : config.fault? = none) :
    config.markers.Apart := by
  have hspace {c : Char} (hc : ¬couldStartName c = true) : Text.isSpace c = false := by
    cases hspace : Text.isSpace c with
    | false => rfl
    | true => simp [couldStartName, hspace] at hc
  unfold fault? at h
  dsimp only at h
  split at h
  · cases h
  · split at h
    · cases h
    · split at h
      · cases h
      · rename_i hmarker
        split at h
        · cases h
        · rename_i hcomment
          split at h
          · cases h
          · rename_i hne
            exact ⟨hspace hmarker, hspace hcomment, by simpa using hne⟩

/-- The line starts with the marker, and then comes white space or more than one word. -/
def Malformed (markers : Markers) (line : List Char) : Prop :=
  ∃ rest, Text.trimChars line = markers.marker :: rest ∧
    ((∃ c ∈ rest.head?, Text.isSpace c = true) ∨ 1 < (Text.wordsChars rest).length)

theorem Directive.ofLine?_of_trimChars {markers : Markers} {line rest : List Char} {c : Char}
    (h : Text.trimChars line = c :: rest) : ofLine? markers line =
      if c = markers.comment then none
      else if c = markers.marker then some (ofMarked rest)
      else some (.ok (.declared (String.ofList (c :: rest)))) := by
  unfold ofLine?
  rw [h]
  simp only [beq_iff_eq]

theorem Directive.ofMarked_word {word : List Char} (hne : word ≠ [])
    (hword : ∀ c ∈ word, Text.isSpace c = false) :
    ofMarked word = .ok (.opened (String.ofList word)) := by
  cases word with
  | nil => exact absurd rfl hne
  | cons c word =>
    have hc : ¬Text.isSpace c = true := by simp [hword c List.mem_cons_self]
    rw [ofMarked, if_neg hc, Text.wordsChars_of_word hne hword]

theorem Directive.ofMarked_of_space {rest : List Char}
    (h : ∃ c ∈ rest.head?, Text.isSpace c = true) : ∃ fault, ofMarked rest = .error fault := by
  obtain ⟨c, hc, hspace⟩ := h
  obtain ⟨more, rfl⟩ := List.head?_eq_some_iff.1 hc
  exact ⟨_, by rw [ofMarked, if_pos hspace]⟩

theorem Directive.ofMarked_of_words {rest : List Char} (h : 1 < (Text.wordsChars rest).length) :
    ∃ fault, ofMarked rest = .error fault := by
  cases rest with
  | nil => simp [Text.wordsChars, Text.splitWhere] at h
  | cons c rest =>
    by_cases hc : Text.isSpace c = true
    · exact ofMarked_of_space ⟨c, rfl, hc⟩
    · rw [ofMarked, if_neg hc]
      cases hwords : Text.wordsChars (c :: rest) with
      | nil => simp [hwords] at h
      | cons first others =>
        cases others with
        | nil => simp [hwords] at h
        | cons second others => exact ⟨_, rfl⟩

section Apart

variable {markers : Markers} (hm : markers.Apart) {d : Directive} {row : Row} {line : List Char}

include hm

theorem Directive.Writable.isTrimmed (h : d.Writable markers) :
    Text.IsTrimmed (d.chars markers) := by
  cases d with
  | opened name =>
    have hall : ∀ c ∈ markers.marker :: name.toList, Text.isSpace c = false :=
      List.forall_mem_cons.2 ⟨hm.marker, h.2⟩
    exact ⟨fun c hc => hall c (List.mem_of_mem_head? hc),
      fun c hc => hall c (List.mem_of_mem_getLast? hc)⟩
  | closed =>
    refine ⟨fun c hc => ?_, fun c hc => ?_⟩
    · cases hc
      exact hm.marker
    · cases hc
      exact hm.marker
  | declared text =>
    have htrim : Text.trimChars text.toList = text.toList := by
      rw [← String.toList_ofList (l := Text.trimChars text.toList)]
      exact congrArg String.toList h.2.1
    rw [chars, ← htrim]
    exact Text.isTrimmed_trimChars _

/-- A line on which a directive is written is read as this directive. -/
theorem Directive.Writable.ofLine? (h : d.Writable markers)
    (hline : Text.trimChars line = d.chars markers) :
    Directive.ofLine? markers line = some (.ok d) := by
  cases d with
  | opened name =>
    have hne : name.toList ≠ [] := fun hnil => h.1 (String.toList_inj.1 hnil)
    rw [ofLine?_of_trimChars hline, if_neg hm.ne, if_pos rfl, ofMarked_word hne h.2,
      String.ofList_toList]
  | closed =>
    rw [ofLine?_of_trimChars hline, if_neg hm.ne, if_pos rfl]
    rfl
  | declared text =>
    obtain ⟨hne, -, -, hmarker, hcomment⟩ := h
    cases htext : text.toList with
    | nil => exact absurd (String.toList_inj.1 htext) hne
    | cons c rest =>
      rw [htext, List.head?_cons, ne_eq, Option.some.injEq] at hmarker hcomment
      rw [ofLine?_of_trimChars (hline.trans htext), if_neg hcomment, if_neg hmarker, ← htext,
        String.ofList_toList]

/-- A row is read as what it says. -/
theorem Row.WellFormed.ofLine? (h : row.WellFormed markers)
    (hline : Text.trimChars line = Text.trimChars (row.chars markers)) :
    Directive.ofLine? markers line = row.directive?.map .ok := by
  cases row with
  | blank space =>
    rw [Directive.ofLine?, hline, chars, Text.trimChars_of_isBlank h.1]
    rfl
  | comment before text =>
    obtain ⟨rest, hrest⟩ := Text.trimChars_cons hm.comment text
    rw [chars, Text.trimChars_blank_append h.1.1, hrest] at hline
    rw [Directive.ofLine?_of_trimChars hline, if_pos rfl]
    rfl
  | directive before d after =>
    obtain ⟨hbefore, hd, hafter⟩ := h
    refine hd.ofLine? hm (hline.trans ?_)
    exact Text.trimChars_eq_iff.2 ⟨hd.isTrimmed hm, before, after, hbefore.1, hafter.1, rfl⟩

theorem Malformed.ofLine? (h : Malformed markers line) :
    ∃ fault, Directive.ofLine? markers line = some (.error fault) := by
  obtain ⟨rest, hline, hrest⟩ := h
  have hfault : ∃ fault, Directive.ofMarked rest = .error fault :=
    hrest.elim Directive.ofMarked_of_space Directive.ofMarked_of_words
  obtain ⟨fault, hfault⟩ := hfault
  exact ⟨fault, by rw [Directive.ofLine?_of_trimChars hline, if_neg hm.ne, if_pos rfl, hfault]⟩

end Apart

/-! ### What lines there are -/

section Lines

variable {markers : Markers} {line rest name : List Char} {c : Char}

theorem Text.IsTrimmed.of_cons (h : IsTrimmed (c :: rest))
    (hrest : ∀ d ∈ rest.head?, isSpace d = false) : IsTrimmed rest := by
  refine ⟨hrest, fun d hd => h.2 d ?_⟩
  rw [Option.mem_def] at hd ⊢
  rw [List.getLast?_cons, hd]
  rfl

/-- What follows the marker is nothing, one word, or wrong. -/
theorem marked_cases (h : Text.IsTrimmed (c :: rest)) :
    rest = [] ∨ (rest ≠ [] ∧ ∀ d ∈ rest, Text.isSpace d = false) ∨
      (∃ d ∈ rest.head?, Text.isSpace d = true) ∨ 1 < (Text.wordsChars rest).length := by
  cases rest with
  | nil => exact .inl rfl
  | cons d rest =>
    cases hd : Text.isSpace d with
    | true => exact .inr (.inr (.inl ⟨d, rfl, hd⟩))
    | false =>
      have htrimmed : Text.IsTrimmed (d :: rest) := h.of_cons fun e he => by
        cases he
        exact hd
      cases hwords : Text.wordsChars (d :: rest) with
      | nil => exact absurd hwords (Text.wordsChars_ne_nil hd rest)
      | cons word others =>
        cases others with
        | nil =>
          have hword : word ∈ Text.splitWhere Text.isSpace (d :: rest) :=
            List.mem_of_mem_filter (hwords ▸ List.mem_cons_self)
          refine .inr (.inl ⟨List.cons_ne_nil _ _, ?_⟩)
          rw [Text.eq_of_wordsChars htrimmed hwords]
          exact Text.not_of_mem_splitWhere hword
        | cons next others => exact .inr (.inr (.inr (by simp)))

/-- A line is a row of a written schema, or else it is malformed. -/
theorem row_or_malformed (markers : Markers) (hline : '\n' ∉ line) :
    (∃ row : Row, row.WellFormed markers ∧ row.chars markers = line) ∨ Malformed markers line := by
  obtain ⟨before, after, hbefore, hafter, hsplit⟩ := Text.exists_trimChars line
  have htrimmed := Text.isTrimmed_trimChars line
  have hself := Text.trimChars_of_isTrimmed htrimmed
  rw [hsplit, List.mem_append, List.mem_append, not_or, not_or] at hline
  obtain ⟨⟨hfront, hmiddle⟩, hback⟩ := hline
  have hdirective {d : Directive} (hd : d.Writable markers)
      (hchars : d.chars markers = Text.trimChars line) :
      ∃ row : Row, row.WellFormed markers ∧ row.chars markers = line :=
    ⟨.directive before d after, ⟨⟨hbefore, hfront⟩, hd, hafter, hback⟩, by
      rw [Row.chars, hchars, ← hsplit]⟩
  -- The first character that is not blank tells what kind of row the line is.
  cases htrim : Text.trimChars line with
  | nil =>
    rw [htrim, List.append_nil] at hsplit
    refine .inl ⟨.blank line, ⟨?_, ?_⟩, rfl⟩
    · rw [hsplit]
      exact List.forall_mem_append.2 ⟨hbefore, hafter⟩
    · rw [hsplit, List.mem_append, not_or]
      exact ⟨hfront, hback⟩
  | cons c rest =>
    rw [htrim] at htrimmed hmiddle hself
    by_cases hcomment : c = markers.comment
    · refine .inl ⟨.comment before (rest ++ after), ⟨⟨hbefore, hfront⟩, ?_⟩, ?_⟩
      · rw [List.mem_append, not_or]
        exact ⟨List.not_mem_of_not_mem_cons hmiddle, hback⟩
      · rw [hsplit, htrim, Row.chars, hcomment, List.append_assoc, List.cons_append]
    · by_cases hmarker : c = markers.marker
      · subst hmarker
        rcases marked_cases htrimmed with rfl | ⟨hne, hword⟩ | hwrong
        · exact .inl (hdirective (d := .closed) trivial htrim.symm)
        · refine .inl (hdirective (d := .opened (String.ofList rest)) ⟨?_, ?_⟩ ?_)
          · intro hempty
            exact hne (String.ofList_eq_empty_iff.1 hempty)
          · rwa [String.toList_ofList]
          · rw [Directive.chars, String.toList_ofList, htrim]
        · exact .inr ⟨rest, htrim, hwrong⟩
      · refine .inl (hdirective (d := .declared (String.ofList (c :: rest)))
          ⟨?_, ?_, ?_, ?_, ?_⟩ ?_)
        · intro hempty
          exact List.cons_ne_nil _ _ (String.ofList_eq_empty_iff.1 hempty)
        · rw [Text.trim, String.toList_ofList, hself]
        · rwa [String.toList_ofList]
        · simpa using hmarker
        · simpa using hcomment
        · rw [Directive.chars, String.toList_ofList, htrim]

end Lines

/-! ## Whole texts -/

section Sheets

variable {markers : Markers} {file : String} {row : Row} {sheet : Sheet}

theorem Row.WellFormed.newline_not_mem (hm : markers.Apart) (h : row.WellFormed markers) :
    '\n' ∉ row.chars markers := by
  have hnewline {c : Char} (hc : Text.isSpace c = false) : '\n' ≠ c := by
    rintro rfl
    exact absurd hc (by decide)
  cases row with
  | blank space => exact h.2
  | comment before text =>
    rw [chars, List.mem_append, List.mem_cons, not_or, not_or]
    exact ⟨h.1.2, hnewline hm.comment, h.2⟩
  | directive before d after =>
    obtain ⟨hbefore, hd, hafter⟩ := h
    rw [chars, List.mem_append, List.mem_append, not_or, not_or]
    refine ⟨⟨hbefore.2, ?_⟩, hafter.2⟩
    cases d with
    | opened name =>
      rw [Directive.chars, List.mem_cons, not_or]
      exact ⟨hnewline hm.marker, fun hmem => hnewline (hd.2 _ hmem) rfl⟩
    | closed =>
      rw [Directive.chars, List.mem_singleton]
      exact hnewline hm.marker
    | declared text => exact hd.2.2.1

theorem LineEnd.isBlank_chars (ending : LineEnd) : Text.IsBlank ending.chars := by
  cases ending <;> decide

/-- All rows, the last one as if a line feed came behind it. -/
def Sheet.ended (s : Sheet) : List (Row × LineEnd) := s.rows ++ [(s.last, .lf)]

theorem Sheet.map_fst_ended (s : Sheet) : s.ended.map Prod.fst = s.allRows := by
  simp [ended, allRows]

theorem Row.WellFormed.line_not_newline (hm : markers.Apart) (h : row.WellFormed markers)
    (ending : LineEnd) : ∀ c ∈ row.chars markers ++ ending.chars, (c == '\n') = false := by
  intro c hc
  apply beq_false_of_ne
  rintro rfl
  rcases List.mem_append.1 hc with hc | hc
  · exact h.newline_not_mem hm hc
  · cases ending <;> exact absurd hc (by decide)

/-- The lines of a sheet are its rows. -/
theorem Sheet.pieces_text (hm : markers.Apart) (h : sheet.WellFormed markers) :
    Text.pieces (sheet.text markers).toList =
      sheet.ended.map fun r => r.1.chars markers ++ r.2.chars := by
  obtain ⟨rows, last⟩ := sheet
  rw [text, String.toList_ofList, ended, List.map_append, List.map_singleton]
  dsimp only
  induction rows with
  | nil =>
    have hlast := (h last (by simp [allRows])).line_not_newline hm .lf
    rw [LineEnd.chars, List.append_nil] at hlast ⊢
    exact Text.splitWhere_of_not hlast
  | cons r rows ih =>
    have hrest : WellFormed markers ⟨rows, last⟩ := fun row hrow =>
      h row (List.mem_cons_of_mem _ hrow)
    have hline := (h r.1 List.mem_cons_self).line_not_newline hm r.2
    rw [List.flatMap_cons, List.append_assoc, List.append_assoc, List.singleton_append, Text.pieces,
      Text.splitWhere_append (p := (· == '\n')) (beq_self_eq_true _) hline, List.map_cons,
      List.cons_append]
    exact congrArg _ (ih hrest)

/-- What is read from a sheet. -/
theorem Sheet.readAll_text (hm : markers.Apart) (h : sheet.WellFormed markers) (file : String) :
    Line.readAll markers file (sheet.text markers) =
      sheet.numbered.map fun p => .ok ⟨⟨file, p.1⟩, p.2⟩ := by
  rw [Line.readAll_eq, sheet.pieces_text hm h, Line.readLines, List.zipIdx_map, numbered,
    ← sheet.map_fst_ended, List.zipIdx_map, List.filterMap_map, List.filterMap_map,
    List.map_filterMap]
  refine List.filterMap_congr fun p hp => ?_
  have hrow : p.1.1.WellFormed markers := by
    refine h p.1.1 ?_
    rw [← sheet.map_fst_ended]
    exact List.mem_map_of_mem (List.fst_mem_of_mem_zipIdx hp)
  have htrim := Text.trimChars_append_blank p.1.2.isBlank_chars (p.1.1.chars markers)
  simp only [Function.comp_apply, Prod.map_fst, Prod.map_snd, id_eq, Line.ofLine?,
    hrow.ofLine? hm htrim, Option.map_map]
  rfl

theorem Sheet.map_snd_numbered (s : Sheet) : s.numbered.map Prod.snd = s.directives := by
  have hfst : (s.allRows.zipIdx 1).map Prod.fst = s.allRows := List.zipIdx_map_fst 1 s.allRows
  rw [numbered, List.map_filterMap, directives]
  nth_rewrite 2 [← hfst]
  rw [List.filterMap_map]
  refine List.filterMap_congr fun p _ => ?_
  rw [Option.map_map]
  exact Option.map_id'

end Sheets

section Texts

variable {markers : Markers} {file : String} {line : List Char} {number : Nat}
  {item : Except SchemaError Line}

/-- What a line comes to when it is read: the directive that is written on it, or an error when it
is malformed. -/
inductive Reported (markers : Markers) (file : String) (line : List Char) (number : Nat) :
    Except SchemaError Line → Prop
  | directive {before after : List Char} {d : Directive} :
    Row.WellFormed markers (.directive before d after) →
    Row.chars markers (.directive before d after) = line →
    Reported markers file line number (.ok ⟨⟨file, number⟩, d⟩)
  | malformed (fault : LineFault) : Malformed markers line →
    Reported markers file line number (.error (.malformed ⟨file, number⟩ fault))

/-- The line is blank or a comment. -/
def Silent (markers : Markers) (line : List Char) : Prop :=
  ∃ row : Row, row.WellFormed markers ∧ row.chars markers = line ∧ row.directive? = none

/-- A line is reported as what it is, and only blank lines and comments are passed over. -/
theorem reported_or_silent (hm : markers.Apart) (hline : '\n' ∉ line) :
    (∃ item, Line.ofLine? markers file number line = some item ∧
      Reported markers file line number item) ∨
    Line.ofLine? markers file number line = none ∧ Silent markers line := by
  rcases row_or_malformed markers hline with ⟨row, hrow, rfl⟩ | hwrong
  · have hread := hrow.ofLine? hm rfl
    cases row with
    | blank | comment => exact .inr ⟨by rw [Line.ofLine?, hread]; rfl, _, hrow, rfl, rfl⟩
    | directive before d after =>
      exact .inl ⟨_, by rw [Line.ofLine?, hread]; rfl, .directive hrow rfl⟩
  · obtain ⟨fault, hread⟩ := hwrong.ofLine? hm
    exact .inl ⟨_, by rw [Line.ofLine?, hread]; rfl, .malformed fault hwrong⟩

/-- Items that are mapped, each of which is related to its result, and items that are left out. -/
theorem exists_sublist_filterMap {α β : Type} {f : α → Option β} {R : α → β → Prop} {S : α → Prop}
    {items : List α} (h : ∀ a ∈ items, (∃ b, f a = some b ∧ R a b) ∨ f a = none ∧ S a) :
    ∃ mapped, mapped.Sublist items ∧ List.Forall₂ R mapped (items.filterMap f) ∧
      ∀ a ∈ items, a ∈ mapped ∨ S a := by
  induction items with
  | nil => exact ⟨[], .slnil, .nil, by simp⟩
  | cons a items ih =>
    obtain ⟨ha, hitems⟩ := List.forall_mem_cons.1 h
    obtain ⟨mapped, hsub, hrel, hleft⟩ := ih hitems
    rcases ha with ⟨b, hb, hab⟩ | ⟨hnone, hs⟩
    · refine ⟨a :: mapped, hsub.cons_cons a, ?_, List.forall_mem_cons.2 ⟨?_, fun x hx => ?_⟩⟩
      · rw [List.filterMap_cons_some hb]
        exact .cons hab hrel
      · exact .inl List.mem_cons_self
      · exact (hleft x hx).imp_left (List.mem_cons_of_mem a)
    · refine ⟨mapped, hsub.cons a, ?_, List.forall_mem_cons.2 ⟨.inr hs, hleft⟩⟩
      rwa [List.filterMap_cons_none hnone]

/-- Whatever is read is reported of lines of the text, in their order. -/
theorem exists_reported (hm : markers.Apart) (file text : String) :
    ∃ lines, lines.Sublist ((Text.pieces text.toList).zipIdx 1) ∧
      List.Forall₂ (fun p item => Reported markers file p.1 p.2 item) lines
        (Line.readAll markers file text) ∧
      ∀ p ∈ (Text.pieces text.toList).zipIdx 1, p ∈ lines ∨ Silent markers p.1 := by
  rw [Line.readAll_eq]
  refine exists_sublist_filterMap fun p hp => reported_or_silent hm fun hnewline => ?_
  have hpiece := Text.not_of_mem_splitWhere (List.fst_mem_of_mem_zipIdx hp)
  exact absurd (hpiece _ hnewline) (by simp)

theorem increasing_of_sublist {lines : List (List Char × Nat)} {pieces : List (List Char)}
    (h : lines.Sublist (pieces.zipIdx 1)) : (lines.map Prod.snd).Pairwise (· < ·) := by
  have hsub := h.map Prod.snd
  rw [List.zipIdx_map_snd] at hsub
  exact List.Pairwise.sublist hsub (List.pairwise_lt_range' ..)

/-- **Writing a schema and reading it back.** What is read from a written schema are its directives,
with the numbers of their lines. What is read from any text are the directives that are written on
its lines and errors about its malformed lines, in the order of the lines, and nothing is passed
over but blank lines and comments. -/
theorem readAll_rendered (config : Config) (hvalid : config.fault? = none) (file : String) :
    (∀ sheet : Sheet, sheet.WellFormed config.markers →
      Line.readAll config.markers file (sheet.text config.markers) =
        sheet.numbered.map (fun p => .ok ⟨⟨file, p.1⟩, p.2⟩) ∧
      sheet.numbered.map Prod.snd = sheet.directives) ∧
    ∀ text : String, ∃ lines : List (List Char × Nat),
      lines.Sublist ((Text.pieces text.toList).zipIdx 1) ∧
      (lines.map Prod.snd).Pairwise (· < ·) ∧
      List.Forall₂ (fun p item => Reported config.markers file p.1 p.2 item) lines
        (Line.readAll config.markers file text) ∧
      ∀ p ∈ (Text.pieces text.toList).zipIdx 1, p ∈ lines ∨ Silent config.markers p.1 := by
  have hm := Config.apart_of_fault? hvalid
  refine ⟨fun sheet hsheet => ?_, fun text => ?_⟩
  · exact ⟨sheet.readAll_text hm hsheet file, sheet.map_snd_numbered⟩
  · obtain ⟨lines, hsub, hreported, hsilent⟩ := exists_reported hm file text
    exact ⟨lines, hsub, increasing_of_sublist hsub, hreported, hsilent⟩

/-- A comment that starts like a marked line, margins of several kinds, both line ends, and a last
line without an end. -/
def Sheet.mixed : Sheet where
  rows := [(.comment [' '] ['*'], .lf), (.directive ['\t'] (.opened "A") ['\u3000'], .crlf),
    (.blank ['\r'], .lf), (.directive [] (.declared "M --internal") [' '], .crlf)]
  last := .directive [] .closed []

/-- A written schema is read back, and of four other lines two are malformed and one is passed
over. -/
theorem readAll_rendered_mixed :
    ({} : Config).fault? = none ∧ Sheet.mixed.WellFormed {} ∧
      Line.readAll {} "m" " #*\n\t*A\u3000\r\n\r\nM --internal \r\n*" =
        [.ok ⟨⟨"m", 2⟩, .opened "A"⟩, .ok ⟨⟨"m", 4⟩, .declared "M --internal"⟩,
          .ok ⟨⟨"m", 5⟩, .closed⟩] ∧
      ∃ lines : List (List Char × Nat), lines.Sublist
          ((Text.pieces "* x\n*A b\r\n #\n*A".toList).zipIdx 1) ∧
        (lines.map Prod.snd).Pairwise (· < ·) ∧
        List.Forall₂ (fun p item => Reported {} "m" p.1 p.2 item) lines
          (Line.readAll {} "m" "* x\n*A b\r\n #\n*A") ∧
        ∀ p ∈ (Text.pieces "* x\n*A b\r\n #\n*A".toList).zipIdx 1, p ∈ lines ∨ Silent {} p.1 := by
  have hvalid : ({} : Config).fault? = none := by decide +kernel
  have hmixed : Sheet.mixed.WellFormed {} := by decide +kernel
  obtain ⟨hsheets, htexts⟩ := readAll_rendered {} hvalid "m"
  exact ⟨hvalid, hmixed, (hsheets .mixed hmixed).1, htexts _⟩

end Texts

end WireSchema
