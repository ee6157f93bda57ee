import Mathlib.Data.List.Basic
import WireSchema.Emit.Lines
import WireSchema.Proofs.Naming
import WireSchema.Proofs.Text

/-!
# Reading generated text

Generated files are laid out line by line, and what other proofs say about them they say of what is
read back from the text: the lines, what stands on a line between two fixed parts, the lines under a
heading, the functions of a source. None of the readers knows what the emitters meant to write.

**Theorem (`linesOf_render`).** The lines of a rendered text are the lines it was made from, when
none of them has a line feed in it.
-/

namespace WireSchema

/-! ## Lines -/

namespace Text

theorem newline_not_mem_linesChars {text line : List Char} (h : line ∈ linesChars text) :
    '\n' ∉ line := by
  induction text using linesChars.induct generalizing line with
  | case1 => cases h
  | case2 cs ih =>
    rw [linesChars] at h
    rcases List.mem_cons.1 h with rfl | h
    · exact List.not_mem_nil
    · exact ih h
  | case3 cs ih =>
    rw [linesChars] at h
    rcases List.mem_cons.1 h with rfl | h
    · exact List.not_mem_nil
    · exact ih h
  | case4 c cs hcr hlf ih =>
    have hc : '\n' ≠ c := fun heq => hlf heq.symm
    rw [linesChars] at h
    · cases hlines : linesChars cs with
      | nil =>
        rw [hlines, consFirst] at h
        rw [List.mem_singleton.1 h, List.mem_singleton]
        exact hc
      | cons first others =>
        rw [hlines] at h ih
        rcases List.mem_cons.1 h with rfl | h
        · rw [List.mem_cons, not_or]
          exact ⟨hc, ih List.mem_cons_self⟩
        · exact ih (List.mem_cons_of_mem _ h)
    · exact hcr
    · exact hlf

end Text

namespace Emit

/-- A line has no line feed in it. -/
structure OneLine (line : String) : Prop where
  newline_not_mem : '\n' ∉ line.toList

/-- The lines of a text, each of which ends with a line feed. -/
def linesOf (text : String) : Lines := (Text.split '\n' text).dropLast

theorem render_cons (line : String) (lines : Lines) :
    render (line :: lines) = line ++ "\n" ++ render lines := by
  rw [render, List.map_cons, String.join_cons, render]

theorem split_render_append {front : Lines} (h : ∀ line ∈ front, OneLine line) (back : Lines) :
    Text.split '\n' (render (front ++ back)) = front ++ Text.split '\n' (render back) := by
  induction front with
  | nil => rfl
  | cons line front ih =>
    have hline : ∀ c ∈ line.toList, (c == '\n') = false := by
      intro c hc
      apply beq_false_of_ne
      rintro rfl
      exact (h line List.mem_cons_self).newline_not_mem hc
    have hfeed : ("\n" : String).toList = ['\n'] := rfl
    rw [Text.split, List.cons_append, render_cons, String.toList_append, String.toList_append, hfeed,
      List.append_assoc, List.singleton_append,
      Text.splitWhere_append (p := (· == '\n')) (beq_self_eq_true _) hline, List.map_cons,
      String.ofList_toList, List.cons_append]
    exact congrArg (line :: ·) (ih fun other hother => h other (List.mem_cons_of_mem _ hother))

theorem linesOf_render {lines : Lines} (h : ∀ line ∈ lines, OneLine line) :
    linesOf (render lines) = lines := by
  have hsplit : Text.split '\n' (render lines) = lines ++ Text.split '\n' (render []) := by
    rw [← split_render_append h [], List.append_nil]
  rw [linesOf, hsplit]
  exact List.dropLast_concat

/-! ### Lines without line feeds -/

theorem oneLine_ofList (cs : List Char) (h : '\n' ∉ cs) : OneLine (String.ofList cs) := by
  constructor
  rwa [String.toList_ofList]

theorem OneLine.append {a b : String} (ha : OneLine a) (hb : OneLine b) : OneLine (a ++ b) := by
  constructor
  rw [String.toList_append, List.mem_append, not_or]
  exact ⟨ha.newline_not_mem, hb.newline_not_mem⟩

/-- Something between two fixed parts. -/
theorem OneLine.between {a c : List Char} {b : String} (h : OneLine b) (ha : '\n' ∉ a)
    (hc : '\n' ∉ c) : OneLine (String.ofList a ++ b ++ String.ofList c) :=
  ((oneLine_ofList a ha).append h).append (oneLine_ofList c hc)

theorem oneLine_of_isWord {word : String} (h : Naming.IsWord word) : OneLine word :=
  ⟨h.not_mem (by decide)⟩

theorem oneLine_empty : OneLine "" := oneLine_ofList [] List.not_mem_nil

theorem oneLine_indent {margin : String} {lines : Lines} (hm : OneLine margin)
    (h : ∀ line ∈ lines, OneLine line) : ∀ line ∈ indent margin lines, OneLine line := by
  intro line hline
  obtain ⟨inner, hinner, rfl⟩ := List.mem_map.1 hline
  split
  · exact h inner hinner
  · exact hm.append (h inner hinner)

theorem oneLine_blockThen {after : String} {lines : Lines} (ha : OneLine after)
    (h : ∀ line ∈ lines, OneLine line) : ∀ line ∈ blockThen after lines, OneLine line := by
  rw [blockThen]
  simp only [List.forall_mem_append, List.forall_mem_singleton]
  exact ⟨⟨oneLine_ofList _ (by decide), h⟩, (oneLine_ofList _ (by decide)).append ha⟩

theorem oneLine_block {lines : Lines} (h : ∀ line ∈ lines, OneLine line) :
    ∀ line ∈ block lines, OneLine line := oneLine_blockThen oneLine_empty h

theorem oneLine_includeLine {path : String} (h : OneLine path) : OneLine (includeLine path) :=
  ((oneLine_ofList _ (by decide)).append h).append (oneLine_ofList _ (by decide))

theorem oneLine_commentLine {lead line : String} (hl : OneLine lead) (h : OneLine line) :
    OneLine (commentLine lead line) := by
  rw [commentLine]
  split
  · exact hl
  · exact (hl.append (oneLine_ofList _ (by decide))).append h

theorem oneLine_lines (text : String) : ∀ line ∈ Text.lines text, OneLine line := by
  intro line hline
  obtain ⟨cs, hcs, rfl⟩ := List.mem_map.1 hline
  exact oneLine_ofList _ (Text.newline_not_mem_linesChars hcs)

/-- The configured part of the comment on top of a file. -/
def banner (names : OutputNames) : Lines :=
  match names.banner with
  | none => []
  | some text => "" :: Text.lines text

/-- What the comment on top of a file says. -/
def topic (names : OutputNames) (file : String) : Lines := [file, "", notice] ++ banner names

theorem preamble_block (names : OutputNames) (file : String) :
    preamble names file .block =
      "/*" :: ((topic names file).map (commentLine " *") ++ [" */", ""]) := rfl

theorem preamble_hash (names : OutputNames) (file : String) :
    preamble names file .hash = (topic names file).map (commentLine "#") ++ [""] := rfl

theorem oneLine_topic (names : OutputNames) {file : String} (h : OneLine file) :
    ∀ line ∈ topic names file, OneLine line := by
  have hbanner : ∀ line ∈ banner names, OneLine line := by
    unfold banner
    split
    · exact List.forall_mem_nil _
    · exact List.forall_mem_cons.2 ⟨oneLine_empty, oneLine_lines _⟩
  refine List.forall_mem_append.2 ⟨?_, hbanner⟩
  simp only [List.forall_mem_cons]
  exact ⟨h, oneLine_empty, oneLine_ofList _ (by decide), List.forall_mem_nil _⟩

theorem oneLine_preamble (names : OutputNames) {file : String} (h : OneLine file)
    (style : CommentStyle) : ∀ line ∈ preamble names file style, OneLine line := by
  have htopic := oneLine_topic names h
  cases style with
  | block =>
    rw [preamble_block]
    simp only [List.forall_mem_cons, List.forall_mem_append, List.forall_mem_map]
    refine ⟨oneLine_ofList _ (by decide), fun line hline => ?_, oneLine_ofList _ (by decide),
      oneLine_empty, List.forall_mem_nil _⟩
    exact oneLine_commentLine (oneLine_ofList _ (by decide)) (htopic line hline)
  | hash =>
    rw [preamble_hash]
    simp only [List.forall_mem_append, List.forall_mem_map, List.forall_mem_singleton]
    refine ⟨fun line hline => ?_, oneLine_empty⟩
    exact oneLine_commentLine (oneLine_ofList _ (by decide)) (htopic line hline)

/-! ## Parts of a line -/

def first? (text : String) : Option Char := text.toList.head?

def last? (text : String) : Option Char := text.toList.getLast?

theorem first?_ofList (c : Char) (cs : List Char) : first? (String.ofList (c :: cs)) = some c := by
  rw [first?, String.toList_ofList, List.head?_cons]

theorem first?_append {a : String} {c : Char} (h : first? a = some c) (b : String) :
    first? (a ++ b) = some c := by
  rw [first?] at h
  rw [first?, String.toList_append, List.head?_append, h, Option.some_or]

theorem last?_ofList {cs : List Char} {c : Char} (h : cs.getLast? = some c) :
    last? (String.ofList cs) = some c := by
  rwa [last?, String.toList_ofList]

theorem last?_append (a : String) {b : String} {c : Char} (h : last? b = some c) :
    last? (a ++ b) = some c := by
  rw [last?] at h
  rw [last?, String.toList_append, List.getLast?_append, h, Option.some_or]

/-- What stands on a line between its opening and its closing. -/
def between? (opening closing line : String) : Option String := do
  let rest ← line.toList.dropPrefix? opening.toList
  let middle ← rest.dropSuffix? closing.toList
  return String.ofList middle

theorem between?_eq_some_iff {opening closing line middle : String} :
    between? opening closing line = some middle ↔ line = opening ++ middle ++ closing := by
  simp only [between?, Option.bind_eq_bind, Option.bind_eq_some_iff,
    List.dropPrefix?_eq_some_iff, List.dropSuffix?_eq_some_iff]
  constructor
  · rintro ⟨rest, ⟨front, hline, hfront⟩, inner, ⟨back, hrest, hback⟩, hmiddle⟩
    cases hmiddle
    rw [← String.toList_inj, hline, hrest, eq_of_beq hfront, eq_of_beq hback]
    simp only [String.toList_append, String.toList_ofList, List.append_assoc]
  · rintro rfl
    refine ⟨middle.toList ++ closing.toList, ⟨opening.toList, ?_, beq_self_eq_true _⟩,
      middle.toList, ⟨closing.toList, rfl, beq_self_eq_true _⟩, ?_⟩
    · rw [String.toList_append, String.toList_append, List.append_assoc]
    · rw [String.ofList_toList]
      rfl

/-- A line that does not start as the opening does. -/
theorem between?_eq_none {opening line : String} {x : Option Char} {c : Char}
    (ho : first? opening = some c) (hl : first? line = x) (h : x ≠ some c) (closing : String) :
    between? opening closing line = none := by
  rw [Option.eq_none_iff_forall_ne_some]
  intro middle hmiddle
  rw [between?_eq_some_iff.1 hmiddle, first?_append (first?_append ho _)] at hl
  exact h hl.symm

/-- A line that starts otherwise than the opening does, though perhaps with the same character. -/
theorem between?_eq_none_of_clash {o l : List Char} {opening line : String}
    (ho : o <+: opening.toList) (hl : l <+: line.toList) (h : ¬o <+: l ∧ ¬l <+: o)
    (closing : String) : between? opening closing line = none := by
  rw [Option.eq_none_iff_forall_ne_some]
  intro middle hmiddle
  have hopening : opening.toList <+: line.toList := by
    rw [between?_eq_some_iff.1 hmiddle, String.toList_append, String.toList_append,
      List.append_assoc]
    exact List.prefix_append ..
  rcases List.prefix_or_prefix_of_prefix (ho.trans hopening) hl with hol | hlo
  · exact h.1 hol
  · exact h.2 hlo

theorem suffix_of_between? {opening closing line middle : String}
    (h : between? opening closing line = some middle) : closing.toList <:+ line.toList := by
  rw [between?_eq_some_iff.1 h, String.toList_append]
  exact List.suffix_append ..

/-- A line that ends otherwise than the closing does, though perhaps with the same character. -/
theorem between?_eq_none_of_ending {c l : List Char} {closing line : String}
    (hc : c <:+ closing.toList) (hl : l <:+ line.toList) (h : ¬c <:+ l ∧ ¬l <:+ c)
    (opening : String) : between? opening closing line = none := by
  rw [Option.eq_none_iff_forall_ne_some]
  intro middle hmiddle
  rcases List.suffix_or_suffix_of_suffix (hc.trans (suffix_of_between? hmiddle)) hl with hcl | hlc
  · exact h.1 hcl
  · exact h.2 hlc

theorem suffix_ofList (cs : List Char) : cs <:+ (String.ofList cs).toList :=
  ⟨[], by rw [List.nil_append, String.toList_ofList]⟩

theorem suffix_append {cs : List Char} (a : String) {b : String} (h : cs <:+ b.toList) :
    cs <:+ (a ++ b).toList := by
  rw [String.toList_append]
  exact h.trans (List.suffix_append ..)

theorem prefix_ofList (cs : List Char) : cs <+: (String.ofList cs).toList :=
  ⟨[], by rw [List.append_nil, String.toList_ofList]⟩

theorem prefix_append {cs : List Char} {a : String} (h : cs <+: a.toList) (b : String) :
    cs <+: (a ++ b).toList := by
  rw [String.toList_append]
  exact h.trans (List.prefix_append ..)

/-- Lines of a comment start with its lead. -/
theorem first?_commentLine {lead : String} {c : Char} (h : first? lead = some c) (line : String) :
    first? (commentLine lead line) = some c := by
  rw [commentLine]
  split
  · exact h
  · exact first?_append (first?_append h _) _

theorem first?_of_mem_hash {names : OutputNames} {file line : String}
    (h : line ∈ preamble names file .hash) : first? line = some '#' ∨ first? line = none := by
  rw [preamble_hash] at h
  rcases List.mem_append.1 h with h | h
  · obtain ⟨text, -, rfl⟩ := List.mem_map.1 h
    exact .inl (first?_commentLine (first?_ofList _ _) text)
  · rw [List.mem_singleton.1 h]
    exact .inr rfl

theorem first?_of_mem_block {names : OutputNames} {file line : String}
    (h : line ∈ preamble names file .block) :
    first? line = some '/' ∨ first? line = some ' ' ∨ first? line = none := by
  rw [preamble_block, List.mem_cons, List.mem_append] at h
  rcases h with rfl | h | h
  · exact .inl (first?_ofList _ _)
  · obtain ⟨text, -, rfl⟩ := List.mem_map.1 h
    exact .inr (.inl (first?_commentLine (first?_ofList _ _) text))
  · rcases List.mem_cons.1 h with rfl | h
    · exact .inr (.inl (first?_ofList _ _))
    · rw [List.mem_singleton.1 h]
      exact .inr (.inr rfl)

/-- A blank, as margins have them. -/
def isBlank (c : Char) : Bool := c == ' ' || c == '\t'

/-- A line without its margin. -/
def unindent (line : String) : String := String.ofList (line.toList.dropWhile isBlank)

theorem unindent_of_first? {line : String} (h : (first? line).any isBlank = false) :
    unindent line = line := by
  rw [first?] at h
  rw [unindent]
  cases hline : line.toList with
  | nil =>
    rw [← String.ofList_toList (s := line), hline]
    rfl
  | cons c cs =>
    rw [hline, List.head?_cons, Option.any_some] at h
    rw [List.dropWhile_cons_of_neg (by rw [h]; decide), ← hline, String.ofList_toList]

/-- What a statement says between its opening and its closing, whatever its margin. -/
def statement? (opening closing line : String) : Option String :=
  between? opening closing (unindent line)

theorem statement?_eq_some {opening middle closing : String} {c : Char}
    (ho : first? opening = some c) (hc : isBlank c = false) :
    statement? opening closing (opening ++ middle ++ closing) = some middle := by
  have hfirst : first? (opening ++ middle ++ closing) = some c :=
    first?_append (first?_append ho _) _
  rw [statement?, unindent_of_first? (by rwa [hfirst, Option.any_some]), between?_eq_some_iff]

theorem statement?_eq_none {opening line : String} {x : Option Char} {c : Char}
    (ho : first? opening = some c) (hl : first? line = x) (h : x ≠ some c ∧ x.any isBlank = false)
    (closing : String) : statement? opening closing line = none := by
  rw [statement?, unindent_of_first? (by rw [hl]; exact h.2)]
  exact between?_eq_none ho hl h.1 closing

theorem unindent_suffix (line : String) : (unindent line).toList <:+ line.toList := by
  rw [unindent, String.toList_ofList]
  exact List.dropWhile_suffix _

/-- A line that ends otherwise than the closing does, whatever its margin. -/
theorem statement?_eq_none_of_ending {c l : List Char} {closing line : String}
    (hc : c <:+ closing.toList) (hl : l <:+ line.toList) (h : ¬c <:+ l ∧ ¬l <:+ c)
    (opening : String) : statement? opening closing line = none := by
  rw [Option.eq_none_iff_forall_ne_some]
  intro middle hmiddle
  have hclosing := (suffix_of_between? hmiddle).trans (unindent_suffix line)
  rcases List.suffix_or_suffix_of_suffix (hc.trans hclosing) hl with hcl | hlc
  · exact h.1 hcl
  · exact h.2 hlc

/-- The first character of a text that cannot stand in a word. -/
def stop? (text : String) : Option Char := text.toList.find? (!Naming.isWordChar ·)

theorem stop?_append {word : String} (h : Naming.IsWord word) (text : String) :
    stop? (word ++ text) = stop? text := by
  have hnone : word.toList.find? (!Naming.isWordChar ·) = none := by
    rw [List.find?_eq_none]
    intro c hc
    rw [h c hc]
    decide
  rw [stop?, String.toList_append, List.find?_append, hnone, Option.none_or, stop?]

theorem stop?_append_of_some {a : String} {c : Char} (h : stop? a = some c) (b : String) :
    stop? (a ++ b) = some c := by
  rw [stop?] at h
  rw [stop?, String.toList_append, List.find?_append, h, Option.some_or]

/-- A line that starts with another word than the opening does, or goes on otherwise behind it. -/
theorem between?_eq_none_of_stop? {opening line : String} {c x : Char}
    (ho : stop? opening = some c) (hl : stop? line = some x) (h : x ≠ c) (closing : String) :
    between? opening closing line = none := by
  rw [Option.eq_none_iff_forall_ne_some]
  intro middle hmiddle
  rw [between?_eq_some_iff.1 hmiddle, stop?_append_of_some (stop?_append_of_some ho _)] at hl
  exact h (Option.some.inj hl).symm

/-- A blank in front would be the first character that cannot stand in a word. -/
theorem first?_of_stop? {line : String} {x : Char} (hl : stop? line = some x)
    (hx : isBlank x = false) : (first? line).any isBlank = false := by
  rw [Bool.eq_false_iff]
  intro hany
  rw [stop?] at hl
  rw [first?] at hany
  cases hline : line.toList with
  | nil =>
    rw [hline] at hany
    cases hany
  | cons b bs =>
    rw [hline, List.head?_cons, Option.any_some] at hany
    have hword : (!Naming.isWordChar b) = true := by
      rw [isBlank, Bool.or_eq_true, beq_iff_eq, beq_iff_eq] at hany
      rcases hany with rfl | rfl
      · decide
      · decide
    rw [hline, List.find?_cons_of_pos (p := fun c => !Naming.isWordChar c) hword] at hl
    cases hl
    exact absurd hany (Bool.eq_false_iff.1 hx)

theorem statement?_eq_none_of_stop? {opening line : String} {c x : Char}
    (ho : stop? opening = some c) (hl : stop? line = some x) (h : x ≠ c ∧ isBlank x = false)
    (closing : String) : statement? opening closing line = none := by
  rw [statement?, unindent_of_first? (first?_of_stop? hl h.2)]
  exact between?_eq_none_of_stop? ho hl h.1 closing

/-! ## Margins -/

def IsMargin (margin : String) : Prop := margin.toList ≠ [] ∧ margin.toList.all isBlank = true

theorem isMargin_ofList (cs : List Char) (h : cs ≠ [] ∧ cs.all isBlank = true) :
    IsMargin (String.ofList cs) := by
  rwa [IsMargin, String.toList_ofList]

theorem isMargin_tab : IsMargin "\t" := isMargin_ofList _ (by decide)

/-- A line behind a margin. An empty line stays empty. -/
def behind (margin line : String) : String := if line.isEmpty then line else margin ++ line

theorem indent_eq (margin : String) (lines : Lines) :
    indent margin lines = lines.map (behind margin) := rfl

theorem IsMargin.unindent_append {margin : String} (h : IsMargin margin) (line : String) :
    unindent (margin ++ line) = unindent line := by
  rw [unindent, String.toList_append, List.dropWhile_append_of_pos, unindent]
  exact fun c hc => List.all_eq_true.1 h.2 c hc

theorem IsMargin.unindent_behind {margin : String} (h : IsMargin margin) (line : String) :
    unindent (behind margin line) = unindent line := by
  rw [behind]
  split
  · rfl
  · exact h.unindent_append line

theorem IsMargin.statement?_behind {margin : String} (h : IsMargin margin)
    (opening closing line : String) :
    statement? opening closing (behind margin line) = statement? opening closing line := by
  rw [statement?, h.unindent_behind, statement?]

/-- What does not depend on the margin of a line is read through it. -/
theorem filterMap_indent {α : Type} {read : String → Option α} {margin : String}
    (h : ∀ line, read (behind margin line) = read line) (lines : Lines) :
    (indent margin lines).filterMap read = lines.filterMap read := by
  have hcomp : read ∘ behind margin = read := funext h
  rw [indent_eq, List.filterMap_map, hcomp]

/-- Statements are read through a margin. -/
theorem IsMargin.filterMap_statement? {margin : String} (h : IsMargin margin)
    (opening closing : String) (lines : Lines) :
    (indent margin lines).filterMap (statement? opening closing) =
      lines.filterMap (statement? opening closing) :=
  filterMap_indent (h.statement?_behind opening closing) lines

/-! ## Sections -/

/-- Every line that is a title, with the lines under it up to one that ends the section. -/
def sections (title? : String → Option String) (ends : String → Bool) :
    Lines → List (String × Lines)
  | [] => []
  | line :: rest =>
    match title? line with
    | some title => (title, rest.takeWhile fun l => !ends l) :: sections title? ends rest
    | none => sections title? ends rest

section Sections

variable {title? : String → Option String} {ends : String → Bool}

theorem sections_cons_of_none {line : String} (h : title? line = none) (rest : Lines) :
    sections title? ends (line :: rest) = sections title? ends rest := by
  rw [sections, h]

theorem sections_append {lines : Lines} (h : ∀ line ∈ lines, title? line = none) (rest : Lines) :
    sections title? ends (lines ++ rest) = sections title? ends rest := by
  induction lines with
  | nil => rfl
  | cons line lines ih =>
    rw [List.cons_append, sections_cons_of_none (h line List.mem_cons_self),
      ih fun other hother => h other (List.mem_cons_of_mem _ hother)]

theorem sections_of_untitled {lines : Lines} (h : ∀ line ∈ lines, title? line = none) :
    sections title? ends lines = [] := by
  rw [← List.append_nil lines, sections_append h]
  rfl

/-- A section ends where the rest starts. -/
theorem sections_titled {head title : String} {body rest : Lines} (hh : title? head = some title)
    (hb : ∀ line ∈ body, title? line = none ∧ ends line = false)
    (hr : ∀ line ∈ rest.head?, ends line = true) :
    sections title? ends (head :: (body ++ rest)) = (title, body) :: sections title? ends rest := by
  have htake : (body ++ rest).takeWhile (fun l => !ends l) = body := by
    rw [List.takeWhile_append_of_pos fun line hline => by rw [(hb line hline).2]; rfl]
    cases rest with
    | nil => exact List.append_nil body
    | cons line rest =>
      have hline : ¬(!ends line) = true := by
        rw [hr line rfl]
        decide
      rw [List.takeWhile_cons_of_neg (p := fun l => !ends l) hline, List.append_nil]
  rw [sections, hh, htake, sections_append fun line hline => (hb line hline).1]

end Sections

/-! ## Functions -/

/-- The name of the function whose signature stands on the line: the word in front of the
parameters. Only definitions start at the margin and end with the parameters. -/
def functionName? (line : String) : Option String :=
  if (first? line).any isBlank || last? line != some ')' then none
  else
    some (String.ofList
      ((line.toList.takeWhile (· != '(')).reverse.takeWhile (· != ' ')).reverse)

theorem functionName?_of_blank {line : String} (h : (first? line).any isBlank = true) :
    functionName? line = none := by
  rw [functionName?, h, Bool.true_or, if_pos rfl]

theorem functionName?_of_last? {line : String} {x : Option Char} (hl : last? line = x)
    (h : x ≠ some ')') : functionName? line = none := by
  rw [functionName?, hl, bne_iff_ne.2 h, Bool.or_true, if_pos rfl]

/-- The comment on top of a source has no signature in it. -/
theorem functionName?_of_mem_block {names : OutputNames} {file line : String}
    (h : line ∈ preamble names file .block) : functionName? line = none := by
  rw [preamble_block, List.mem_cons, List.mem_append] at h
  rcases h with rfl | h | h
  · exact functionName?_of_last? (last?_ofList rfl) (by decide)
  · obtain ⟨text, -, rfl⟩ := List.mem_map.1 h
    apply functionName?_of_blank
    rw [first?_commentLine (first?_ofList _ _)]
    decide
  · rcases List.mem_cons.1 h with rfl | h
    · exact functionName?_of_last? (last?_ofList rfl) (by decide)
    · rw [List.mem_singleton.1 h]
      exact functionName?_of_last? rfl (by decide)

/-- The signature of a function: a type, a name and parameters. -/
theorem functionName?_signature {line name : String} {type parameters : List Char}
    (h : line.toList = type ++ ' ' :: (name.toList ++ '(' :: (parameters ++ [')'])))
    (hfirst : (type.head?).any isBlank = false) (htype : type ≠ [] ∧ '(' ∉ type)
    (hname : '(' ∉ name.toList ∧ ' ' ∉ name.toList) : functionName? line = some name := by
  have hhead : (first? line).any isBlank = false := by
    rw [first?, h, List.head?_append]
    cases type with
    | nil => exact absurd rfl htype.1
    | cons c type => exact hfirst
  have hlast : last? line = some ')' := by
    have hshape : line.toList = (type ++ ' ' :: (name.toList ++ '(' :: parameters)) ++ [')'] := by
      rw [h]
      simp only [List.append_assoc, List.cons_append]
    rw [last?, hshape, List.getLast?_concat]
  -- The name is the last word before the first parenthesis.
  have htake : line.toList.takeWhile (· != '(') = type ++ ' ' :: name.toList := by
    have hnone : ∀ c ∈ type ++ ' ' :: name.toList, (c != '(') = true := by
      intro c hc
      rw [bne_iff_ne]
      rintro rfl
      rcases List.mem_append.1 hc with hc | hc
      · exact htype.2 hc
      · rcases List.mem_cons.1 hc with hc | hc
        · exact absurd hc (by decide)
        · exact hname.1 hc
    rw [h, ← List.cons_append, ← List.append_assoc, List.takeWhile_append_of_pos hnone,
      List.takeWhile_cons_of_neg (by decide), List.append_nil]
  have hword : ∀ c ∈ name.toList.reverse, (c != ' ') = true := by
    intro c hc
    rw [bne_iff_ne]
    rintro rfl
    exact hname.2 (List.mem_reverse.1 hc)
  rw [functionName?, hhead, hlast, bne_self_eq_false, Bool.or_false, if_neg Bool.false_ne_true, htake,
    List.reverse_append, List.reverse_cons, List.append_assoc, List.takeWhile_append_of_pos hword,
    List.singleton_append, List.takeWhile_cons_of_neg (by decide), List.append_nil,
    List.reverse_reverse, String.ofList_toList]

/-- A type that a signature can start with. -/
def IsType (type : String) : Prop :=
  type.toList ≠ [] ∧ (first? type).any isBlank = false ∧ '(' ∉ type.toList

theorem isType_ofList (cs : List Char)
    (h : cs ≠ [] ∧ cs.head?.any isBlank = false ∧ '(' ∉ cs) : IsType (String.ofList cs) := by
  rwa [IsType, first?, String.toList_ofList]

theorem functionName?_typed {type name : String} (ht : IsType type) (hn : Naming.IsWord name)
    (parameters : String) :
    functionName? (type ++ " " ++ name ++ "(" ++ parameters ++ ")") = some name := by
  have hlist : (type ++ " " ++ name ++ "(" ++ parameters ++ ")").toList =
      type.toList ++ ' ' :: (name.toList ++ '(' :: (parameters.toList ++ [')'])) := by
    simp
  exact functionName?_signature hlist ht.2.1 ⟨ht.1, ht.2.2⟩
    ⟨hn.not_mem (by decide), hn.not_mem (by decide)⟩

/-- The functions of a source with the lines of their bodies. -/
def functions : Lines → List (String × Lines) := sections functionName? (· == "\x7d")

theorem functions_append {lines : Lines} (h : ∀ line ∈ lines, functionName? line = none)
    (rest : Lines) : functions (lines ++ rest) = functions rest := sections_append h rest

def bodiesOf (name : String) (lines : Lines) : List Lines :=
  ((functions lines).filter (·.1 == name)).map Prod.snd

/-- A name that no other function has. -/
theorem bodiesOf_eq {name : String} {body lines : Lines} (front back : List (String × Lines))
    (h : functions lines = front ++ (name, body) :: back) (hf : ∀ f ∈ front, f.1 ≠ name)
    (hb : ∀ f ∈ back, f.1 ≠ name) : bodiesOf name lines = [body] := by
  have hother : ∀ fs : List (String × Lines), (∀ f ∈ fs, f.1 ≠ name) →
      fs.filter (·.1 == name) = [] := by
    intro fs hfs
    rw [List.filter_eq_nil_iff]
    intro f hmem heq
    exact hfs f hmem (eq_of_beq heq)
  have hself : ((name, body).1 == name) = true := beq_self_eq_true name
  rw [bodiesOf, h, List.filter_append, hother front hf,
    List.filter_cons_of_pos (p := fun f : String × Lines => f.1 == name) hself, hother back hb]
  rfl

theorem IsMargin.functionName?_indent {margin : String} (h : IsMargin margin) {lines : Lines} :
    ∀ line ∈ indent margin lines,
      functionName? line = none ∧ (line == "\x7d") = false := by
  intro line hline
  rw [indent_eq] at hline
  obtain ⟨inner, -, rfl⟩ := List.mem_map.1 hline
  rw [behind]
  split
  · rename_i hempty
    rw [String.isEmpty_iff.1 hempty]
    exact ⟨functionName?_of_last? rfl (by decide), by decide⟩
  · obtain ⟨c, cs, hmargin⟩ := List.exists_cons_of_ne_nil h.1
    have hfirst : first? (margin ++ inner) = some c := by
      rw [first?, String.toList_append, hmargin]
      rfl
    have hblank : isBlank c = true := by
      apply List.all_eq_true.1 h.2
      rw [hmargin]
      exact List.mem_cons_self
    refine ⟨functionName?_of_blank (by rw [hfirst, Option.any_some, hblank]), ?_⟩
    apply beq_false_of_ne
    intro heq
    rw [heq] at hfirst
    cases hfirst
    exact absurd hblank (by decide)

/-- A function with its body behind a margin. -/
theorem functions_block {signature name margin : String} (hs : functionName? signature = some name)
    (hm : IsMargin margin) (body rest : Lines) :
    functions (signature :: (block (indent margin body) ++ rest)) =
      (name, "\x7b" :: indent margin body) :: functions rest := by
  have hclose : functionName? "\x7d" = none := functionName?_of_last? (x := some '\x7d') rfl (by decide)
  have hopen : functionName? "\x7b" = none := functionName?_of_last? (x := some '\x7b') rfl (by decide)
  have hshape : block (indent margin body) ++ rest =
      ("\x7b" :: indent margin body) ++ "\x7d" :: rest := by
    rw [block, blockThen, List.append_assoc]
    rfl
  rw [functions, hshape, sections_titled hs, sections_cons_of_none hclose]
  · rw [List.forall_mem_cons]
    exact ⟨⟨hopen, by decide⟩, hm.functionName?_indent⟩
  · intro line hline
    cases hline
    decide

end Emit

end WireSchema
