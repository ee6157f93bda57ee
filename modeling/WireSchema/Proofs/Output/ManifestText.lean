import WireSchema.Output.Manifest
import WireSchema.Proofs.Json.Objects
import WireSchema.Proofs.StringMap

/-!
# The text of a manifest

A manifest is an object with four members, of which the last is a table of digests (`IsText`). It
is written as such a text (`isText_render`) and read from any such text, however its strings are
spelled and its parts are spaced (`parse?_of_isText`). So it is read again as it was written
(`parse?_render`), whatever its keys and digests are.
-/

namespace WireSchema

namespace Output.Manifest

open Json

/-! ## Format -/

/-- A part of a manifest. -/
inductive Part where
  | text (s : String)
  | table (entries : List (String × String))

namespace Part

/-- The format of a part: a string, or an object of strings. -/
def Text : Part → List Char → Prop
  | text s => StringText s
  | table entries => ObjectText StringText entries

/-- The value as which a part is read. -/
def value : Part → Value
  | text s => .text (some s)
  | table entries => .object (entries.map fun e => (some e.1, .text (some e.2)))

/-- The fuel that it takes to read a part. -/
def need : Part → Nat
  | text _ => 1
  | table entries => entries.length + 2

end Part

/-- The parts of a manifest, by their names. -/
def parts (m : Manifest) : List (String × Part) :=
  [("generator", .text m.generator), ("version", .text m.version),
    ("representation", .text m.representation), ("files", .table m.files.entries)]

/-- The text of an object with the parts of a manifest. -/
inductive IsText (m : Manifest) : List Char → Prop
  | object {before cs after : List Char} (hbefore : Blank before)
    (h : ObjectText Part.Text m.parts cs) (hafter : Blank after) :
    IsText m (before ++ (cs ++ after))

/-! ## Reading -/

theorem readAs_part : ReadAs Part.Text Part.value Part.need := by
  intro part cs h fuel rest hfuel
  cases part with
  | text s => exact readAs_stringText s cs h fuel rest hfuel
  | table entries =>
    obtain ⟨fuel, rfl⟩ : ∃ k, fuel = k + 1 := ⟨fuel - 1, by rw [Part.need] at hfuel; omega⟩
    refine value?_of_objectText readAs_stringText h (fun e he => ?_) rest
    rw [Part.need] at hfuel
    omega

theorem need_le_of_text {part : Part} {cs : List Char} (h : part.Text cs) :
    part.need ≤ cs.length + 2 := by
  cases part with
  | text s =>
    rw [Part.need]
    omega
  | table entries =>
    have hlength := (length_le_of_objectText h).1
    rw [Part.need]
    omega

/-- The length of a text is fuel enough to read all of it. -/
theorem json_parse?_of_isText {m : Manifest} {s : String} (h : m.IsText s.toList) :
    Json.parse? s = some (.object (m.parts.map fun e => (some e.1, e.2.value))) := by
  rw [Json.parse?]
  generalize s.toList = text at h
  obtain ⟨hbefore, hobject, hafter⟩ := h
  rename_i before cs after
  obtain ⟨hlength, hvalues⟩ := length_le_of_objectText hobject
  have hfour : m.parts.length = 4 := rfl
  have hvalue : value? (2 * (before ++ (cs ++ after)).length + 2) (before ++ (cs ++ after)) =
      some (.object (m.parts.map fun e => (some e.1, e.2.value)), after) := by
    rw [value?_append hbefore]
    refine value?_of_objectText readAs_part hobject (fun e he => ?_) after
    obtain ⟨value, hvalue, hle⟩ := hvalues e he
    have hneed := need_le_of_text hvalue
    simp only [List.length_append]
    omega
  have hend : skipBlanks after = [] := by
    have hskip := skipBlanks_append hafter []
    rwa [List.append_nil] at hskip
  dsimp only
  rw [hvalue, Option.bind_eq_bind, Option.bind_some]
  dsimp only
  rw [hend]
  rfl

theorem mapM_table {f : Option String × Value → Option (String × String)}
    (hf : ∀ e : String × String, f (some e.1, .text (some e.2)) = some e)
    (entries : List (String × String)) :
    (entries.map fun e => (some e.1, Value.text (some e.2))).mapM f = some entries := by
  induction entries with
  | nil => rfl
  | cons e entries ih =>
    rw [List.map_cons, List.mapM_cons, hf, ih]
    rfl

theorem files?_table (files : StringMap String) :
    files? (Part.table files.entries).value = some files := by
  rw [Part.value, files?, mapM_table fun _ => rfl, Option.bind_eq_bind, Option.bind_some,
    StringMap.ofList_entries]

/-- **A manifest is read from every text that has its format.** -/
theorem parse?_of_isText {m : Manifest} {s : String} (h : m.IsText s.toList) :
    parse? s = some m := by
  have hparts : ofParts? (.text (some m.generator)) (.text (some m.version))
      (.text (some m.representation)) (Part.table m.files.entries).value = some m := by
    rw [ofParts?, files?_table]
    rfl
  rw [parse?, json_parse?_of_isText h, parts]
  simpa [single?, Part.value] using hparts

/-! ## Lines -/

/-- Lines with line ends between them. -/
def textOf (lines : List String) : List Char := ("\n".intercalate lines).toList

theorem textOf_singleton (line : String) : textOf [line] = line.toList := by
  simp [textOf]

theorem textOf_cons (line : String) {lines : List String} (h : lines ≠ []) :
    textOf (line :: lines) = line.toList ++ '\n' :: textOf lines := by
  obtain ⟨next, rest, rfl⟩ := List.exists_cons_of_ne_nil h
  rw [textOf, textOf, String.toList_intercalate, String.toList_intercalate, List.map_cons,
    List.map_cons, List.intercalate_cons_cons]
  simp

theorem textOf_append {lines more : List String} (h : lines ≠ []) (hmore : more ≠ []) :
    textOf (lines ++ more) = textOf lines ++ '\n' :: textOf more := by
  induction lines with
  | nil => exact absurd rfl h
  | cons line lines ih =>
    by_cases hlines : lines = []
    · rw [hlines, List.singleton_append, textOf_cons line hmore, textOf_singleton]
    · rw [List.cons_append, textOf_cons line (by simp [hlines]), ih hlines, textOf_cons line hlines,
        List.append_assoc, List.cons_append]

/-! ## Writing -/

theorem stringText_quote (s : String) : StringText s (quote s).toList := by
  rw [quote, String.toList_ofList]
  exact .quoted (spelled_escape s.toList)

theorem member_line {α : Type} {V : α → List Char → Prop} {v : α} {before value after : List Char}
    (hbefore : Blank before) (name : String) (hvalue : V v value) (hafter : Blank after) :
    Member V (name, v) (before ++ ((quote name).toList ++ ':' :: ' ' :: (value ++ after))) := by
  have hspace : Blank [' '] := by simp [Blank]
  have hpair := Member.pair hbefore (stringText_quote name) blank_nil hspace hvalue hafter
  rwa [List.nil_append, List.singleton_append] at hpair

theorem toList_member (name value : String) :
    (member name value).toList = (quote name).toList ++ ':' :: ' ' :: (quote value).toList := by
  have hcolon : ": ".toList = [':', ' '] := by decide
  rw [member, String.toList_append, String.toList_append, hcolon, List.append_assoc]
  rfl

/-- The lines of the files are the members of a table. -/
theorem members_fileLines {entries : List (String × String)} (hne : entries ≠ [])
    {after : List Char} (hafter : Blank after) :
    Members StringText entries ('\n' :: (textOf (fileLines entries) ++ after)) := by
  have hindent : "    ".toList = [' ', ' ', ' ', ' '] := by decide
  have hcomma : ",".toList = [','] := by decide
  have hbefore : Blank ['\n', ' ', ' ', ' ', ' '] := by simp [Blank]
  induction entries with
  | nil => exact absurd rfl hne
  | cons e entries ih =>
    cases entries with
    | nil =>
      have hmember := member_line hbefore e.1 (stringText_quote e.2) hafter
      rw [fileLines, textOf_singleton, String.toList_append, toList_member, hindent]
      simpa using Members.last hmember
    | cons e' entries =>
      have hmember := member_line hbefore e.1 (stringText_quote e.2) blank_nil
      have hmembers := Members.comma hmember (ih (by simp))
      have hlines : fileLines (e' :: entries) ≠ [] := by
        cases entries <;> simp [fileLines]
      rw [fileLines, textOf_cons _ hlines, String.toList_append, String.toList_append,
        toList_member, hindent, hcomma]
      · simpa using hmembers
      · simp

def tableText (entries : List (String × String)) : List Char :=
  if entries.isEmpty then ['\x7b', '\x7d']
  else '\x7b' :: (('\n' :: (textOf (fileLines entries) ++ ['\n', ' ', ' '])) ++ ['\x7d'])

theorem text_table (entries : List (String × String)) :
    (Part.table entries).Text (tableText entries) := by
  rw [tableText]
  cases entries with
  | nil => exact .empty blank_nil
  | cons e entries =>
    rw [if_neg (by simp)]
    exact .members (members_fileLines (by simp) (by simp [Blank]))

/-- The text of a part of a manifest between the braces. -/
def partText (name : String) (value after : List Char) : List Char :=
  ['\n', ' ', ' '] ++ ((quote name).toList ++ ':' :: ' ' :: (value ++ after))

theorem member_part {part : Part} {value after : List Char} (name : String)
    (h : part.Text value) (hafter : Blank after) :
    Member Part.Text (name, part) (partText name value after) :=
  member_line (by simp [Blank]) name h hafter

def filesLines (entries : List (String × String)) : List String :=
  (if entries.isEmpty then ["  " ++ quote "files" ++ ": \x7b\x7d"]
   else ["  " ++ quote "files" ++ ": \x7b"] ++ fileLines entries ++ ["  \x7d"]) ++ ["\x7d"]

theorem textOf_filesLines (entries : List (String × String)) :
    '\n' :: textOf (filesLines entries) =
      partText "files" (tableText entries) ['\n'] ++ ['\x7d'] := by
  have hindent : "  ".toList = [' ', ' '] := by decide
  have hclose : "\x7d".toList = ['\x7d'] := by decide
  cases entries with
  | nil =>
    have hvalue : ": \x7b\x7d".toList = [':', ' ', '\x7b', '\x7d'] := by decide
    rw [filesLines, if_pos (by simp), List.singleton_append, textOf_cons _ (by simp),
      textOf_singleton, String.toList_append, String.toList_append, hindent, hvalue, hclose]
    simp [partText, tableText]
  | cons e entries =>
    have hvalue : ": \x7b".toList = [':', ' ', '\x7b'] := by decide
    have hend : "  \x7d".toList = [' ', ' ', '\x7d'] := by decide
    have hlines : fileLines (e :: entries) ≠ [] := by cases entries <;> simp [fileLines]
    rw [filesLines, if_neg (by simp), List.append_assoc, List.singleton_append, List.cons_append,
      textOf_cons _ (by simp [hlines]), textOf_append hlines (by simp), List.singleton_append,
      textOf_cons _ (by simp), textOf_singleton, String.toList_append, String.toList_append, hindent,
      hvalue, hend, hclose]
    simp [partText, tableText]

theorem toList_render (m : Manifest) : m.render.toList =
    '\x7b' :: ((partText "generator" (quote m.generator).toList [] ++
      ',' :: (partText "version" (quote m.version).toList [] ++
      ',' :: (partText "representation" (quote m.representation).toList [] ++
      ',' :: partText "files" (tableText m.files.entries) ['\n']))) ++ ['\x7d']) := by
  have hopen : "\x7b".toList = ['\x7b'] := by decide
  have hindent : "  ".toList = [' ', ' '] := by decide
  have hcomma : ",".toList = [','] := by decide
  have hpart (name value : String) {lines : List String} (hlines : lines ≠ []) :
      '\n' :: textOf (("  " ++ member name value ++ ",") :: lines) =
        partText name (quote value).toList [] ++ ',' :: '\n' :: textOf lines := by
    rw [textOf_cons _ hlines, String.toList_append, String.toList_append, toList_member, hindent,
      hcomma]
    simp [partText]
  have hlines : m.lines = "\x7b" :: ("  " ++ member "generator" m.generator ++ ",") ::
      ("  " ++ member "version" m.version ++ ",") ::
      ("  " ++ member "representation" m.representation ++ ",") :: filesLines m.files.entries := by
    simp [lines, filesLines]
  have hfiles : filesLines m.files.entries ≠ [] := by simp [filesLines]
  have hrender : m.render.toList = textOf m.lines := rfl
  rw [hrender, hlines, textOf_cons _ (by simp), hopen, hpart _ _ (by simp), hpart _ _ (by simp),
    hpart _ _ hfiles, textOf_filesLines]
  simp

/-- **A manifest is written in its format.** -/
theorem isText_render (m : Manifest) : m.IsText m.render.toList := by
  have hpart (name text : String) :
      Member Part.Text (name, .text text) (partText name (quote text).toList []) :=
    member_part name (stringText_quote text) blank_nil
  have hfiles := member_part "files" (text_table m.files.entries) (by simp [Blank] : Blank ['\n'])
  have hmembers : Members Part.Text m.parts _ :=
    .comma (hpart _ _) (.comma (hpart _ _) (.comma (hpart _ _) (.last hfiles)))
  have htext := IsText.object blank_nil (.members hmembers) blank_nil
  rw [toList_render]
  simpa using htext

/-- **Manifests are read as they were written.** -/
theorem parse?_render (m : Manifest) : parse? m.render = some m :=
  parse?_of_isText m.isText_render

end Output.Manifest

end WireSchema
