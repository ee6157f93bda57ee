import Mathlib.Data.List.Basic
import Mathlib.Data.List.Induction
import WireSchema.Disk.FileTree

/-!
# Paths as lists of moves

The text of a path matters only through a few things: whether it starts with a slash or a dot, and
the parts that lead somewhere, here called its moves. Joining paths appends moves, and the parent of
a path is the path without its last move.

**Theorem (`parent?_of_moves`).** A path with moves has a parent, which has all moves but the last
and starts in the same way; its text is a beginning of the text of the path.
-/

namespace WireSchema.Path

/-! ## Parts -/

theorem parts_slash (cs : List Char) : parts ('/' :: cs) = [] :: parts cs := by
  simp [parts, Text.splitWhere]

theorem parts_cons {c : Char} (h : c ≠ '/') (cs : List Char) :
    parts (c :: cs) = Text.consFirst c (parts cs) := by
  simp [parts, Text.splitWhere, h]

theorem parts_ne_nil (cs : List Char) : parts cs ≠ [] := by
  cases cs with
  | nil => simp [parts, Text.splitWhere]
  | cons c cs =>
    by_cases h : c = '/'
    · simp [h, parts_slash]
    · rw [parts_cons h]
      cases parts cs <;> simp [Text.consFirst]

theorem slash_not_mem_of_mem_parts {cs part : List Char} (h : part ∈ parts cs) : '/' ∉ part := by
  induction cs generalizing part with
  | nil => simp_all [parts, Text.splitWhere]
  | cons c cs ih =>
    by_cases hc : c = '/'
    · rw [hc, parts_slash, List.mem_cons] at h
      rcases h with rfl | h
      · simp
      · exact ih h
    · rw [parts_cons hc] at h
      cases hparts : parts cs with
      | nil => exact absurd hparts (parts_ne_nil cs)
      | cons first rest =>
        rw [hparts, Text.consFirst, List.mem_cons] at h
        rcases h with rfl | h
        · rw [List.mem_cons, not_or]
          exact ⟨Ne.symm hc, ih (hparts ▸ List.mem_cons_self)⟩
        · exact ih (hparts ▸ List.mem_cons_of_mem _ h)

theorem parts_append_slash (cs ds : List Char) :
    parts (cs ++ '/' :: ds) = parts cs ++ parts ds := by
  induction cs with
  | nil => rw [List.nil_append, parts_slash]; rfl
  | cons c cs ih =>
    by_cases hc : c = '/'
    · rw [hc, List.cons_append, parts_slash, parts_slash, ih, List.cons_append]
    · rw [List.cons_append, parts_cons hc, parts_cons hc, ih]
      cases hparts : parts cs with
      | nil => exact absurd hparts (parts_ne_nil cs)
      | cons first rest => rfl

theorem parts_of_slash_not_mem {cs : List Char} (h : '/' ∉ cs) : parts cs = [cs] := by
  induction cs with
  | nil => rfl
  | cons c cs ih =>
    rw [List.mem_cons, not_or] at h
    rw [parts_cons (Ne.symm h.1), ih h.2]
    rfl

theorem joinParts_cons {part : List Char} {ps : List (List Char)} (h : ps ≠ []) :
    joinParts (part :: ps) = part ++ '/' :: joinParts ps := by
  cases ps with
  | nil => exact absurd rfl h
  | cons next ps => rfl

theorem joinParts_parts (cs : List Char) : joinParts (parts cs) = cs := by
  induction cs with
  | nil => rfl
  | cons c cs ih =>
    by_cases hc : c = '/'
    · rw [hc, parts_slash, joinParts_cons (parts_ne_nil cs), ih]
      rfl
    · rw [parts_cons hc]
      cases hparts : parts cs with
      | nil => exact absurd hparts (parts_ne_nil cs)
      | cons first rest =>
        rw [hparts] at ih
        rw [Text.consFirst]
        cases rest with
        | nil => rw [joinParts] at ih ⊢; rw [ih]
        | cons next rest =>
          rw [joinParts_cons (by simp)] at ih ⊢
          rw [List.cons_append, ih]

theorem parts_joinParts {ps : List (List Char)} (hne : ps ≠ []) (h : ∀ part ∈ ps, '/' ∉ part) :
    parts (joinParts ps) = ps := by
  induction ps with
  | nil => exact absurd rfl hne
  | cons part ps ih =>
    cases ps with
    | nil => exact parts_of_slash_not_mem (h part List.mem_cons_self)
    | cons next ps =>
      rw [joinParts_cons (by simp), parts_append_slash,
        parts_of_slash_not_mem (h part List.mem_cons_self),
        ih (by simp) fun q hq => h q (List.mem_cons_of_mem _ hq)]
      rfl

theorem joinParts_append {ps qs : List (List Char)} (hp : ps ≠ []) (hq : qs ≠ []) :
    joinParts (ps ++ qs) = joinParts ps ++ '/' :: joinParts qs := by
  induction ps with
  | nil => exact absurd rfl hp
  | cons part ps ih =>
    cases ps with
    | nil => rw [List.singleton_append, joinParts_cons hq]; rfl
    | cons next ps =>
      have hne : next :: ps ++ qs ≠ [] := by simp
      rw [List.cons_append, joinParts_cons hne, ih (by simp), joinParts_cons (List.cons_ne_nil _ _)]
      simp

theorem joinParts_isPrefix (ps qs : List (List Char)) : joinParts ps <+: joinParts (ps ++ qs) := by
  by_cases hp : ps = []
  · simp [hp, joinParts]
  · by_cases hq : qs = []
    · simp [hq]
    · rw [joinParts_append hp hq]
      exact List.prefix_append _ _

/-! ## Moves -/

/-- The parts of a text that lead somewhere. -/
def movesIn (cs : List Char) : List String := ((parts cs).filter (!isIdle ·)).map String.ofList

/-- The parts of a path that lead somewhere: names, and two dots to the directory above. -/
def moves (p : Path) : List String := movesIn p.text.toList

/-- The slash or the dot that a path starts with. -/
def start? (p : Path) : Option Component := (splitHead p.text.toList).1

theorem movesIn_nil : movesIn [] = [] := rfl

theorem movesIn_append_slash (cs ds : List Char) :
    movesIn (cs ++ '/' :: ds) = movesIn cs ++ movesIn ds := by
  rw [movesIn, parts_append_slash, List.filter_append, List.map_append]
  rfl

theorem movesIn_slash (cs : List Char) : movesIn ('/' :: cs) = movesIn cs :=
  movesIn_append_slash [] cs

theorem movesIn_dot_slash (cs : List Char) : movesIn ('.' :: '/' :: cs) = movesIn cs :=
  movesIn_append_slash ['.'] cs

theorem mem_movesIn {cs : List Char} {move : String} (h : move ∈ movesIn cs) :
    move ≠ "" ∧ move ≠ "." ∧ '/' ∉ move.toList := by
  obtain ⟨part, hpart, rfl⟩ := List.mem_map.1 h
  obtain ⟨hmem, hidle⟩ := List.mem_filter.1 hpart
  simp only [isIdle, Bool.not_eq_true', Bool.or_eq_false_iff, List.isEmpty_eq_false_iff,
    beq_eq_false_iff_ne] at hidle
  refine ⟨fun h => hidle.1 ?_, fun h => hidle.2 ?_, ?_⟩
  · simpa using congrArg String.toList h
  · simpa using congrArg String.toList h
  · rw [String.toList_ofList]
    exact slash_not_mem_of_mem_parts hmem

/-- What a path starts with, and the text behind it. -/
inductive Splits : List Char → Option Component → List Char → Prop
  | root (cs : List Char) : Splits ('/' :: cs) (some .root) cs
  | dot : Splits ['.'] (some .current) []
  | dotSlash (cs : List Char) : Splits ('.' :: '/' :: cs) (some .current) ('/' :: cs)
  | plain {cs : List Char} (h : ∀ first rest, parts cs = first :: rest → first = [] → rest = [])
      (hdot : ∀ rest, parts cs ≠ ['.'] :: rest) : Splits cs none cs

theorem splits_splitHead (cs : List Char) : Splits cs (splitHead cs).1 (splitHead cs).2 := by
  fun_cases splitHead cs with
  | case1 cs => exact .root cs
  | case2 => exact .dot
  | case3 cs => exact .dotSlash cs
  | case4 cs hroot hdot hdotSlash =>
    have hcs := joinParts_parts cs
    refine .plain (fun first rest hparts hfirst => ?_) fun rest hparts => ?_
    · by_contra hne
      rw [hparts, hfirst, joinParts_cons hne] at hcs
      exact hroot _ hcs.symm
    · rw [hparts] at hcs
      cases rest with
      | nil => exact hdot hcs.symm
      | cons next rest => exact hdotSlash _ hcs.symm

theorem Splits.splitHead {cs body : List Char} {head : Option Component}
    (h : Splits cs head body) : splitHead cs = (head, body) := by
  cases h with
  | root | dot | dotSlash => rfl
  | plain h hdot =>
    have hsplits := splits_splitHead cs
    generalize Path.splitHead cs = split at hsplits
    obtain ⟨head, body⟩ := split
    cases hsplits with
    | root => exact absurd (h _ _ (parts_slash body) rfl) (parts_ne_nil body)
    | dot => exact absurd rfl (hdot [])
    | dotSlash cs => exact absurd (parts_append_slash ['.'] cs) (hdot _)
    | plain => rfl

theorem Splits.movesIn_eq {cs body : List Char} {head : Option Component}
    (h : Splits cs head body) : movesIn body = movesIn cs := by
  cases h with
  | root => exact (movesIn_slash body).symm
  | dot => rfl
  | dotSlash cs => rw [movesIn_slash, movesIn_dot_slash]
  | plain => rfl

def ofMove (move : String) : Component := if move = ".." then .parent else .normal move

theorem step_eq_ofMove (part : List Char) : step part = ofMove (String.ofList part) := by
  have hdots : String.ofList part = ".." ↔ part = ['.', '.'] :=
    ⟨fun h => by simpa using congrArg String.toList h, fun h => by rw [h]⟩
  by_cases h : part = ['.', '.']
  · simp [step, ofMove, h]
  · simp [step, ofMove, h, hdots]

theorem ofMove_injective : Function.Injective ofMove := by
  intro a b h
  unfold ofMove at h
  split_ifs at h with ha hb
  · rw [ha, hb]
  · exact Component.normal.inj h

theorem components_eq (p : Path) : p.components = p.start?.toList ++ p.moves.map ofMove := by
  have hsplits := splits_splitHead p.text.toList
  have hsteps (body : List Char) : steps body = (movesIn body).map ofMove := by
    simp only [steps, movesIn, List.map_map]
    exact List.map_congr_left fun part _ => step_eq_ofMove part
  rw [moves, ← hsplits.movesIn_eq, ← hsteps]
  rfl

theorem same_iff {p q : Path} (h : p.start? = q.start?) :
    p.same q = true ↔ p.moves = q.moves := by
  rw [same, beq_iff_eq, components_eq, components_eq, h, List.append_cancel_left_eq]
  exact ⟨fun h => List.map_injective_iff.2 ofMove_injective h, fun h => by rw [h]⟩

theorem Splits.text_eq {cs body : List Char} {head : Option Component} (h : Splits cs head body) :
    cs = headText head ++ body := by
  cases h <;> rfl

theorem isAbsolute_iff {p : Path} : p.isAbsolute = true ↔ p.start? = some .root := by
  have hsplits := splits_splitHead p.text.toList
  rw [isAbsolute, beq_iff_eq, start?]
  generalize p.text.toList = cs at hsplits
  generalize splitHead cs = split at hsplits
  obtain ⟨head, body⟩ := split
  cases hsplits with
  | root | dot | dotSlash => simp
  | plain h hdot =>
    cases body with
    | nil => simp
    | cons c cs =>
      have hc : c ≠ '/' := by
        rintro rfl
        exact parts_ne_nil cs (h _ _ (parts_slash cs) rfl)
      simp [hc]

/-! ## Parents -/

theorem trimParts_concat_of_idle {part : List Char} (h : isIdle part = true)
    (ps : List (List Char)) : trimParts (ps ++ [part]) = trimParts ps := by
  simp [trimParts, h]

theorem trimParts_concat {part : List Char} (h : isIdle part = false) (ps : List (List Char)) :
    trimParts (ps ++ [part]) = ps ++ [part] := by
  simp [trimParts, h]

/-- What is left of some parts ends with a part that leads somewhere. -/
theorem trimParts_eq (ps : List (List Char)) :
    (trimParts ps = [] ∧ ps.filter (!isIdle ·) = []) ∨
      ∃ front last idle, ps = front ++ last :: idle ∧ isIdle last = false ∧
        trimParts ps = front ++ [last] ∧
        ps.filter (!isIdle ·) = front.filter (!isIdle ·) ++ [last] := by
  induction ps using List.reverseRecOn with
  | nil => exact .inl ⟨rfl, rfl⟩
  | append_singleton ps part ih =>
    by_cases hidle : isIdle part = true
    · rw [trimParts_concat_of_idle hidle, List.filter_append]
      have hnone : [part].filter (!isIdle ·) = [] := by simp [hidle]
      rw [hnone, List.append_nil]
      rcases ih with ih | ⟨front, last, idle, rfl, hlast, htrim, hfilter⟩
      · exact .inl ih
      · exact .inr ⟨front, last, idle ++ [part], by simp, hlast, htrim, hfilter⟩
    · rw [Bool.not_eq_true] at hidle
      refine .inr ⟨ps, part, [], rfl, hidle, trimParts_concat hidle ps, ?_⟩
      rw [List.filter_append]
      simp [hidle]

theorem trimParts_isPrefix (ps : List (List Char)) : trimParts ps <+: ps := by
  rcases trimParts_eq ps with ⟨h, -⟩ | ⟨front, last, idle, hps, -, h, -⟩
  · rw [h]
    exact List.nil_prefix
  · rw [h, hps]
    exact ⟨idle, by simp⟩

theorem filter_trimParts (ps : List (List Char)) :
    (trimParts ps).filter (!isIdle ·) = ps.filter (!isIdle ·) := by
  rcases trimParts_eq ps with ⟨h, hfilter⟩ | ⟨front, last, idle, -, hlast, h, hfilter⟩
  · rw [h, hfilter]
    rfl
  · rw [h, hfilter, List.filter_append]
    simp [hlast]

theorem movesIn_joinParts {ps : List (List Char)} (h : ∀ part ∈ ps, '/' ∉ part) :
    movesIn (joinParts ps) = (ps.filter (!isIdle ·)).map String.ofList := by
  by_cases hne : ps = []
  · rw [hne]
    rfl
  · rw [movesIn, parts_joinParts hne h]

/-- Cutting a path behind some of its parts, idle parts left out, keeps how it starts. -/
theorem Splits.cut {cs body last : List Char} {head : Option Component}
    {front idle : List (List Char)} (h : Splits cs head body)
    (hparts : parts body = front ++ last :: idle) (hlast : isIdle last = false) :
    Splits (headText head ++ joinParts (trimParts front)) head (joinParts (trimParts front)) := by
  have hslash : ∀ part ∈ trimParts front, '/' ∉ part := fun part hpart =>
    slash_not_mem_of_mem_parts (hparts ▸ List.mem_append_left _ ((trimParts_isPrefix front).mem hpart))
  -- The head of a path must not change with its body, so there is one case for each head.
  cases h with
  | root => exact .root _
  | dot =>
    have hidle : isIdle last = true := by
      have hmem : last ∈ parts [] := hparts ▸ List.mem_append_right _ List.mem_cons_self
      rw [List.mem_singleton.1 hmem]
      rfl
    rw [hlast] at hidle
    cases hidle
  | dotSlash cs =>
    rw [parts_slash] at hparts
    -- Behind the dot comes a slash, so the first part of the body is empty and stays in front.
    rcases trimParts_eq front with ⟨htrim, -⟩ | ⟨pre, final, rest, rfl, hfinal, htrim, -⟩
    · rw [htrim]
      exact .dot
    · rw [htrim]
      cases pre with
      | nil =>
        rw [List.nil_append, List.cons_append, List.cons.injEq] at hparts
        rw [← hparts.1] at hfinal
        cases hfinal
      | cons first pre =>
        rw [List.cons_append, List.cons_append, List.cons.injEq] at hparts
        rw [← hparts.1, List.cons_append, joinParts_cons (by simp)]
        exact .dotSlash _
  | plain hfirst hdot =>
    cases htrim : trimParts front with
    | nil =>
      refine .plain (fun first rest h _ => ?_) fun rest h => ?_
      · cases h
        rfl
      · cases h
    | cons first rest =>
      obtain ⟨more, hmore⟩ := trimParts_isPrefix front
      rw [htrim] at hslash hmore
      have hjoin := parts_joinParts (List.cons_ne_nil first rest) hslash
      rw [← hmore, List.cons_append, List.cons_append] at hparts
      have htext : headText none ++ joinParts (first :: rest) = joinParts (first :: rest) := rfl
      rw [htext]
      refine .plain (fun first' rest' h hnil => ?_) fun rest' h => ?_
      · rw [hjoin, List.cons.injEq] at h
        have hempty := hfirst _ _ hparts (h.1.trans hnil)
        simp at hempty
      · rw [hjoin, List.cons.injEq] at h
        exact hdot _ (h.1 ▸ hparts)

/-- No dot stands behind the moves of a path. -/
def Tidy (p : Path) : Prop :=
  p.moves = [] ∨ (Disk.FileTree.partsOf p).getLast? ≠ some "."

theorem Splits.getLast?_parts {cs body : List Char} {head : Option Component}
    (h : Splits cs head body) : body = [] ∨ (parts cs).getLast? = (parts body).getLast? := by
  have hcons (first : List Char) (cs : List Char) :
      (first :: parts cs).getLast? = (parts cs).getLast? := by
    cases hparts : parts cs with
    | nil => exact absurd hparts (parts_ne_nil cs)
    | cons next rest => exact List.getLast?_cons_cons
  cases h with
  | root =>
    rw [parts_slash, hcons]
    exact .inr rfl
  | dot => exact .inl rfl
  | dotSlash cs =>
    have hparts : parts ('.' :: '/' :: cs) = ['.'] :: parts cs := parts_append_slash ['.'] cs
    rw [hparts, parts_slash, hcons, hcons]
    exact .inr rfl
  | plain => exact .inr rfl

/-- A path with moves has a parent, which has all of them but the last. -/
theorem parent?_of_moves {p : Path} {ms : List String} {last : String}
    (h : p.moves = ms ++ [last]) :
    ∃ q, p.parent? = some q ∧ q.moves = ms ∧ q.start? = p.start? ∧
      q.text.toList <+: p.text.toList ∧ q.Tidy := by
  have hsplits := splits_splitHead p.text.toList
  rw [moves, ← hsplits.movesIn_eq] at h
  rw [parent?, start?]
  dsimp only
  generalize (splitHead p.text.toList).1 = head at hsplits ⊢
  generalize (splitHead p.text.toList).2 = body at hsplits h ⊢
  -- The last part that moves is cut off, with what is idle behind it and in front of it.
  rcases trimParts_eq (parts body) with ⟨-, hfilter⟩ | ⟨front, final, idle, hparts, hfinal, htrim, hfilter⟩
  · rw [movesIn, hfilter] at h
    simp at h
  · rw [htrim, List.reverse_append]
    have hms : (front.filter (!isIdle ·)).map String.ofList = ms := by
      rw [movesIn, hfilter, List.map_append] at h
      exact (List.append_inj' h rfl).1
    have hslash : ∀ part ∈ trimParts front, '/' ∉ part := fun part hpart =>
      slash_not_mem_of_mem_parts
        (hparts ▸ List.mem_append_left _ ((trimParts_isPrefix front).mem hpart))
    have hcut := hsplits.cut hparts hfinal
    simp only [List.reverse_cons, List.reverse_nil, List.nil_append, List.singleton_append,
      List.reverse_reverse]
    refine ⟨_, rfl, ?_, ?_, ?_, ?_⟩
    · rw [moves, String.toList_ofList, ← hcut.movesIn_eq, movesIn_joinParts hslash,
        filter_trimParts, hms]
    · rw [start?, String.toList_ofList, hcut.splitHead]
    · rw [String.toList_ofList, hsplits.text_eq]
      refine (List.prefix_append_right_inj _).2 ?_
      obtain ⟨more, hmore⟩ := trimParts_isPrefix front
      have hbody : body = joinParts (trimParts front ++ (more ++ final :: idle)) := by
        rw [← List.append_assoc, hmore, ← hparts, joinParts_parts]
      rw [hbody]
      exact joinParts_isPrefix _ _
    · -- The last part of what is left is a move.
      rcases trimParts_eq front with ⟨hnil, hnone⟩ | ⟨pre, move, rest, -, hmove, htrim', -⟩
      · refine .inl ?_
        rw [moves, String.toList_ofList, ← hcut.movesIn_eq, movesIn_joinParts hslash,
          filter_trimParts, hnone]
        rfl
      · refine .inr ?_
        have hlast : (parts (joinParts (trimParts front))).getLast? = some move := by
          rw [parts_joinParts (by simp [htrim']) hslash, htrim']
          simp
        have hbody : joinParts (trimParts front) ≠ [] := by
          intro hnil
          rw [hnil] at hlast
          cases hlast
          cases hmove
        have hwhole := hcut.getLast?_parts.resolve_left hbody
        rw [hlast] at hwhole
        obtain ⟨others, hothers⟩ := List.getLast?_eq_some_iff.1 hwhole
        rw [isIdle, Bool.or_eq_false_iff, beq_eq_false_iff_ne] at hmove
        rw [Disk.FileTree.partsOf, String.toList_ofList, hothers, List.filter_append]
        simp only [hmove.1, Bool.not_false, List.filter_cons_of_pos, List.filter_nil,
          List.map_append, List.map_cons, List.map_nil, List.getLast?_append, List.getLast?_singleton,
          Option.some_or, ne_eq, Option.some.injEq]
        intro hdot
        exact hmove.2 (by simpa using congrArg String.toList hdot)

theorem parent?_of_moves_nil {p : Path} (h : p.moves = []) :
    p.parent? = if p.start? = some .current then some ⟨""⟩ else none := by
  have hsplits := splits_splitHead p.text.toList
  have htrim : trimParts (parts (splitHead p.text.toList).2) = [] := by
    rw [moves, ← hsplits.movesIn_eq, movesIn, List.map_eq_nil_iff] at h
    rcases trimParts_eq (parts (splitHead p.text.toList).2) with ⟨hnil, -⟩ | ⟨_, _, _, -, -, -, hfilter⟩
    · exact hnil
    · rw [h] at hfilter
      simp at hfilter
  unfold parent? start?
  dsimp only
  rw [htrim, List.reverse_nil]
  generalize (splitHead p.text.toList).1 = head
  match head with
  | some .current => rfl
  | none | some .root | some .parent | some (.normal _) => rfl

/-! ## Ancestors -/

theorem length_components (p : Path) :
    p.components.length = p.start?.toList.length + p.moves.length := by
  rw [components_eq, List.length_append, List.length_map]

theorem length_components_parent {p q : Path} (h : p.parent? = some q) :
    q.components.length + 1 = p.components.length := by
  rw [length_components, length_components]
  rcases List.eq_nil_or_concat' p.moves with hmoves | ⟨ms, last, hmoves⟩
  · rw [parent?_of_moves_nil hmoves] at h
    split_ifs at h with hstart
    cases h
    rw [hmoves, hstart]
    rfl
  · obtain ⟨q', hparent, hms, hstart, -⟩ := parent?_of_moves hmoves
    rw [hparent] at h
    cases h
    rw [hmoves, hms, hstart, List.length_append]
    rfl

theorem ancestors_eq (p : Path) :
    p.ancestors = p :: match p.parent? with
      | none => []
      | some q => q.ancestors := by
  unfold ancestors
  cases hlength : p.components.length with
  | zero =>
    cases hparent : p.parent? with
    | none => rfl
    | some q =>
      have hlt := length_components_parent hparent
      omega
  | succ count =>
    rw [ancestorsFrom]
    cases hparent : p.parent? with
    | none => rfl
    | some q =>
      have hlt := length_components_parent hparent
      have hcount : count = q.components.length := by omega
      rw [hcount]

theorem mem_ancestors {p a : Path} :
    a ∈ p.ancestors ↔ a = p ∨ ∃ q, p.parent? = some q ∧ a ∈ q.ancestors := by
  rw [ancestors_eq, List.mem_cons]
  cases p.parent? <;> simp

/-- A path that does not start with a slash or a dot and does not move has no text. -/
theorem text_eq_empty {p : Path} (hstart : p.start? = none) (hmoves : p.moves = []) :
    p.text = "" := by
  have hsplits := splits_splitHead p.text.toList
  rw [start?] at hstart
  rw [hstart] at hsplits
  rw [← String.toList_inj, ← joinParts_parts p.text.toList]
  rw [moves, movesIn, List.map_eq_nil_iff, List.filter_eq_nil_iff] at hmoves
  generalize p.text.toList = cs at hsplits hmoves ⊢
  generalize (splitHead cs).2 = body at hsplits
  cases hsplits with
  | plain hempty hdot =>
    cases hparts : parts cs with
    | nil => exact absurd hparts (parts_ne_nil cs)
    | cons first rest =>
      have hidle := hmoves first (by rw [hparts]; exact List.mem_cons_self)
      simp only [isIdle, Bool.not_eq_true', Bool.not_eq_false, Bool.or_eq_true, List.isEmpty_iff,
        beq_iff_eq] at hidle
      rcases hidle with hfirst | hfirst
      · rw [hempty first rest hparts hfirst, hfirst]
        rfl
      · exact absurd (hfirst ▸ hparts) (hdot rest)

/-! ## Joining -/

/-- What a path is joined to ends with a slash, or gets one. -/
theorem toList_join {p q : Path} (h : q.isAbsolute = false) (hp : p.text ≠ "") :
    ∃ cs, (p.join q).text.toList = cs ++ '/' :: q.text.toList ∧
      (p.text.toList = cs ∨ p.text.toList = cs ++ ['/']) := by
  unfold join
  rw [if_neg (by simp [h])]
  split
  · rename_i hnil
    rw [List.getLast?_eq_none_iff] at hnil
    exact absurd (String.toList_inj.1 hnil) hp
  · rename_i hslash
    obtain ⟨cs, hcs⟩ := List.getLast?_eq_some_iff.1 hslash
    exact ⟨cs, by simp [hcs], .inr hcs⟩
  · exact ⟨p.text.toList, by simp, .inl rfl⟩

theorem join_empty {p q : Path} (h : q.isAbsolute = false) (hp : p.text = "") : p.join q = q := by
  unfold join
  rw [if_neg (by simp [h]), hp]
  simp

theorem moves_join {p q : Path} (h : q.isAbsolute = false) :
    (p.join q).moves = p.moves ++ q.moves := by
  by_cases hp : p.text = ""
  · rw [join_empty h hp, moves, moves, hp]
    rfl
  · obtain ⟨cs, hjoin, hcs⟩ := toList_join h hp
    rw [moves, hjoin, movesIn_append_slash, moves, moves]
    rcases hcs with hcs | hcs
    · rw [hcs]
    · rw [hcs, movesIn_append_slash, movesIn_nil, List.append_nil]

theorem splitHead_cons_cons (c d : Char) (cs ds : List Char) :
    (splitHead (c :: d :: cs)).1 = (splitHead (c :: d :: ds)).1 := by
  unfold splitHead
  split <;> split <;> simp_all

theorem start?_join {p q : Path} (h : q.start? = none) : (p.join q).start? = p.start? := by
  have habsolute : q.isAbsolute = false := by
    rw [← Bool.not_eq_true, isAbsolute_iff, h]
    simp
  unfold join start?
  rw [if_neg (by simp [habsolute])]
  unfold start? at h
  split
  · rename_i hnil
    rw [List.getLast?_eq_none_iff] at hnil
    rw [String.toList_append, hnil, List.nil_append, h]
    rfl
  · rename_i hslash
    rw [String.toList_append]
    match p.text.toList, hslash with
    | [_], rfl => rfl
    | c :: d :: cs, _ => exact splitHead_cons_cons c d _ _
  · rename_i last hslash hlast
    rw [String.toList_append, String.toList_append]
    match p.text.toList, hlast with
    | [c], _ =>
      unfold splitHead
      split <;> simp_all
    | c :: d :: cs, _ => exact splitHead_cons_cons c d _ _

theorem isAbsolute_join {p q : Path} (h : q.start? = none) :
    (p.join q).isAbsolute = p.isAbsolute := by
  rw [Bool.eq_iff_iff, isAbsolute_iff, isAbsolute_iff, start?_join h]

end WireSchema.Path
