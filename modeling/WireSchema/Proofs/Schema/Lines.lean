import WireSchema.Proofs.Outcome
import WireSchema.Proofs.Text
import WireSchema.Schema.Directive

/-!
# Reading a text that goes on

A text is continued by a line feed and more text. Then its last line, which may have been
unfinished, is finished: it may lose a carriage return at its end, or it may turn out to be an empty
line. None of this changes what the line says.

**Theorem (`readAll_append_newline`).** The directives and errors of a text come first, with the
same locations, in what is read from any continuation of it.
-/

namespace WireSchema

namespace Text

/-! ## Lines -/

/-- The lines of a text, and the same lines when a line feed comes behind the text. -/
inductive Finishes : List (List Char) → List (List Char) → Prop
  /-- No line was unfinished, and the line feed ends an empty one. -/
  | blank (lines : List (List Char)) : Finishes lines (lines ++ [[]])
  | kept (front : List (List Char)) (last : List Char) :
      Finishes (front ++ [last]) (front ++ [last])
  /-- The line feed completes a line end. -/
  | cut (front : List (List Char)) (last : List Char) :
      Finishes (front ++ [last ++ ['\r']]) (front ++ [last])

namespace Finishes

variable {lines full : List (List Char)}

theorem ne_nil (h : Finishes lines full) : full ≠ [] := by
  cases h <;> simp

theorem cons (line : List Char) (h : Finishes lines full) :
    Finishes (line :: lines) (line :: full) := by
  cases h with
  | blank => exact .blank (line :: lines)
  | kept front last => exact .kept (line :: front) last
  | cut front last => exact .cut (line :: front) last

theorem consFirst (c : Char) (h : Finishes lines full) :
    Finishes (Text.consFirst c lines) (Text.consFirst c full) := by
  cases h with
  | blank =>
    cases lines with
    | nil => exact .kept [] [c]
    | cons line lines => exact .blank ((c :: line) :: lines)
  | kept front last =>
    cases front with
    | nil => exact .kept [] (c :: last)
    | cons line front => exact .kept ((c :: line) :: front) last
  | cut front last =>
    cases front with
    | nil => exact .cut [] (c :: last)
    | cons line front => exact .cut ((c :: line) :: front) last

end Finishes

theorem consFirst_append (c : Char) {lines : List (List Char)} (h : lines ≠ [])
    (rest : List (List Char)) : consFirst c (lines ++ rest) = consFirst c lines ++ rest := by
  cases lines with
  | nil => exact absurd rfl h
  | cons line lines => rfl

/-- The lines of a continued text are its own lines, finished, and those of the continuation. -/
theorem linesChars_append_newline (text more : List Char) :
    ∃ full, Finishes (linesChars text) full ∧
      linesChars (text ++ '\n' :: more) = full ++ linesChars more := by
  fun_induction linesChars text with
  | case1 => exact ⟨[[]], .blank [], by simp [linesChars]⟩
  | case2 cs ih =>
    obtain ⟨full, hfull, hlines⟩ := ih
    exact ⟨[] :: full, hfull.cons [], by simp [linesChars, hlines]⟩
  | case3 cs ih =>
    obtain ⟨full, hfull, hlines⟩ := ih
    exact ⟨[] :: full, hfull.cons [], by simp [linesChars, hlines]⟩
  | case4 c cs hcr hlf ih =>
    obtain ⟨full, hfull, hlines⟩ := ih
    by_cases hend : c = '\r' ∧ cs = []
    · -- The line feed ends the line together with the carriage return before it.
      obtain ⟨rfl, rfl⟩ := hend
      exact ⟨[[]], .cut [] [], by simp [linesChars]⟩
    · refine ⟨consFirst c full, hfull.consFirst c, ?_⟩
      rw [List.cons_append, linesChars, hlines, consFirst_append c hfull.ne_nil]
      · rintro cs' rfl h
        cases cs with
        | nil => exact hend ⟨rfl, rfl⟩
        | cons d cs =>
          cases h
          exact hcr cs rfl rfl
      · exact hlf

end Text

/-! ## What lines say -/

namespace Line

variable (markers : Markers) (file : String)

/-- The directives of lines numbered from `start`. -/
def readLines (start : Nat) (lines : List (List Char)) : List (Except SchemaError Line) :=
  (lines.zipIdx start).filterMap fun p => Line.ofLine? markers file p.2 p.1

theorem readLines_append (start : Nat) (lines more : List (List Char)) :
    readLines markers file start (lines ++ more) =
      readLines markers file start lines ++ readLines markers file (start + lines.length) more := by
  rw [readLines, List.zipIdx_append, List.filterMap_append]
  rfl

theorem ofLine?_congr {line line' : List Char} (h : Text.trimChars line = Text.trimChars line')
    (number : Nat) : ofLine? markers file number line = ofLine? markers file number line' := by
  rw [ofLine?, ofLine?, Directive.ofLine?, Directive.ofLine?, h]

theorem readLines_of_finishes {lines full : List (List Char)} (h : Text.Finishes lines full)
    (start : Nat) : readLines markers file start full = readLines markers file start lines := by
  cases h with
  | blank =>
    rw [readLines_append]
    exact List.append_nil _
  | kept => rfl
  | cut front last =>
    have hspace : Text.isSpace '\r' = true := by decide
    have htrim := Text.trimChars_append_space hspace last
    rw [readLines_append, readLines_append]
    simp only [readLines, List.zipIdx_singleton, List.filterMap_cons,
      ofLine?_congr markers file htrim]

/-- What is read from a text is read first from any continuation of it. -/
theorem readAll_append_newline (text more : String) :
    readAll markers file text <+: readAll markers file (text ++ "\n" ++ more) := by
  obtain ⟨full, hfull, hlines⟩ := Text.linesChars_append_newline text.toList more.toList
  have hread : readAll markers file (text ++ "\n" ++ more) =
      readLines markers file 1 (full ++ Text.linesChars more.toList) := by
    rw [← hlines, readAll, readLines]
    simp
  rw [hread, readLines_append, readLines_of_finishes markers file hfull]
  exact List.prefix_append _ _

end Line

end WireSchema
