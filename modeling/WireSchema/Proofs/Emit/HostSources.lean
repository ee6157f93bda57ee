import WireSchema.Emit.HostClass
import WireSchema.Proofs.Emit.RecordSources
import WireSchema.Proofs.Schema.DeclarationGrammar

/-!
# Sources of host classes

The class of a host message is defined in a source: constructors, accessors for every field and,
unless the message is internal, a stream operator for either direction.

**Theorem (`definedStreams_source`, `definedStreams_internal`).** The operator of each direction is
defined once. The source of an internal message defines neither.

The types of a declaration are arbitrary words, and one may well be spelled like the result of a
stream operator. What tells a getter from an operator is how its line ends.
-/

namespace WireSchema

open Emit

/-! ## Words of a declaration -/

theorem Emit.OneLine.of_append_left {a b : String} (h : OneLine (a ++ b)) : OneLine a := by
  have hline := h.newline_not_mem
  rw [String.toList_append, List.mem_append, not_or] at hline
  exact ⟨hline.1⟩

theorem Emit.OneLine.of_append_right {a b : String} (h : OneLine (a ++ b)) : OneLine b := by
  have hline := h.newline_not_mem
  rw [String.toList_append, List.mem_append, not_or] at hline
  exact ⟨hline.2⟩

theorem Text.oneLine_of_mem_words {text word : String} (h : word ∈ words text) : OneLine word := by
  obtain ⟨cs, hcs, rfl⟩ := List.mem_map.1 h
  refine oneLine_ofList cs fun hmem => ?_
  have hspace := not_of_mem_splitWhere (List.mem_of_mem_filter hcs) '\n' hmem
  exact absurd hspace (by decide)

/-- Types and headers are words, or stand at the end of one. -/
theorem Declaration.oneLine_of_parse {location : Location} {text : String}
    {declaration : Declaration} (h : parse location text = .ok declaration) :
    (∀ m ∈ declaration.members, OneLine m.1) ∧ ∀ path ∈ declaration.includes, OneLine path := by
  obtain ⟨a, hwords, ha⟩ := exists_arrangement (parse_eq_ok.1 h)
  have hdeclares := (parse_of_words hwords ha).1 h
  have hitem : ∀ i ∈ a.items, ∀ word ∈ i.words, OneLine word := by
    intro i hi word hword
    have hmem : word ∈ a.words := List.mem_append_left _ (List.mem_flatMap.2 ⟨i, hi, hword⟩)
    rw [hwords] at hmem
    exact Text.oneLine_of_mem_words hmem
  rw [← hdeclares.members, ← hdeclares.includes]
  constructor
  · intro m hm
    obtain ⟨i, hi, hread⟩ := List.mem_filterMap.1 hm
    cases i with
    | member type word =>
      cases hread
      exact hitem _ hi type (List.mem_cons_of_mem _ List.mem_cons_self)
    | _ => cases hread
  · intro path hpath
    obtain ⟨i, hi, hread⟩ := List.mem_filterMap.1 hpath
    cases i with
    | header word =>
      cases hread
      exact hitem _ hi path (List.mem_cons_of_mem _ List.mem_cons_self)
    | joined word =>
      cases hread
      exact (hitem _ hi ("--include=" ++ path) List.mem_cons_self).of_append_right
    | _ => cases hread

/-! ## Pointees -/

/-- The type in generated code for what a pointer to `inner` owns. -/
def Config.coreName (config : Config) (inner : String) : String :=
  if inner = textType then "std::string"
  else
    match config.scalar? inner with
    | some type => type.cName
    | none => inner

def Emit.StartsWord (text : String) : Prop :=
  ∃ c, first? text = some c ∧ Naming.isWordChar c = true

theorem IsPath.startsWord {path : String} (h : IsPath path) : StartsWord path := by
  obtain ⟨parts, hne, hparts, rfl⟩ := h
  obtain ⟨part, rest, rfl⟩ := List.exists_cons_of_ne_nil hne
  obtain ⟨hword, c, hhead, -⟩ := hparts part List.mem_cons_self
  refine ⟨c, ?_, hword c (List.mem_of_mem_head? hhead)⟩
  cases rest with
  | nil => exact hhead
  | cons next rest =>
    rw [String.intercalate_cons_cons]
    exact first?_append (first?_append hhead _) _

theorem Scalar.startsWord_cName (type : Scalar) : StartsWord type.cName := by
  cases type <;> exact ⟨_, first?_ofList _ _, by decide⟩

section Pointees

variable {config : Config} {inner : String} {core : OwnedCore}
  (h : OwnedCore.of? config inner.toList = some core)
include h

theorem pointeeName_eq : pointeeName core = config.coreName inner := by
  rw [Config.coreName]
  by_cases htext : inner = textType
  · rw [htext, OwnedCore.of?_textType] at h
    rw [if_pos htext, ← Option.some.inj h]
    rfl
  · rw [OwnedCore.of?_of_ne htext] at h
    rw [if_neg htext]
    cases hscalar : config.scalar? inner with
    | some type =>
      rw [hscalar] at h
      rw [← Option.some.inj h]
      rfl
    | none =>
      rw [hscalar] at h
      simp only at h
      split at h
      · rw [← Option.some.inj h]
        rfl
      · cases h

theorem startsWord_pointeeName : StartsWord (pointeeName core) := by
  rcases OwnedCore.of?_cases h with ⟨-, rfl⟩ | ⟨-, -, type, rfl⟩ | ⟨-, -, hpath, rfl⟩
  · exact ⟨_, first?_ofList _ _, by decide⟩
  · exact type.startsWord_cName
  · exact hpath.startsWord

end Pointees

/-- The type of an owned field is a pointer to what it owns. -/
theorem Field.BuiltBy.pointer {config : Config} {f : Field} (h : f.BuiltBy config)
    {core : OwnedCore} (hkind : f.kind = .owned core) :
    ∃ inner, f.typeName = pointerTo inner ∧ OwnedCore.of? config inner.toList = some core := by
  have hof := h.2
  rw [hkind] at hof
  rcases FieldKind.of?_cases hof with ⟨-, ⟨⟩⟩ | ⟨inner, core', htype, hcore, hkind'⟩ |
    ⟨-, -, -, type, ⟨⟩⟩
  cases hkind'
  exact ⟨inner, htype, hcore⟩

theorem pointee?_eq_some {f : Field} {name : String} :
    pointee? f = some name ↔ ∃ core, f.kind = .owned core ∧ name = pointeeName core := by
  rw [pointee?]
  cases f.kind with
  | scalar type => simp
  | text => simp
  | owned core => simp [eq_comm]

/-- What a message is declared with can be written into a line of generated code. -/
structure Descriptor.Worded (d : Descriptor) : Prop where
  spelled : d.Spelled
  type : ∀ f ∈ d.fields, OneLine f.typeName
  /-- A pointee is not spelled like something that is itself pointed to. -/
  pointee : ∀ f ∈ d.fields, ∀ name, pointee? f = some name →
    OneLine name ∧ StartsWord name
  header : ∀ path ∈ d.includes, OneLine path

theorem Descriptor.worded_of_build {config : Config} {interface : Interface} {location : Location}
    {text : String} {d : Descriptor} (h : build config interface location text = .ok d) :
    d.Worded := by
  obtain ⟨declaration, hparse, hdeclaration⟩ := Outcome.bind_eq_ok.1 h
  obtain ⟨declaration', hparse', -, hmembers, hbuilt⟩ := declared_of_build h
  cases hparse.symm.trans hparse'
  obtain ⟨htypes, hincludes⟩ := Declaration.oneLine_of_parse hparse
  rw [hmembers, List.forall_mem_map] at htypes
  refine ⟨spelled_of_build h, htypes, ?_, ?_⟩
  · intro f hf name hname
    obtain ⟨core, hkind, rfl⟩ := pointee?_eq_some.1 hname
    obtain ⟨inner, htype, hcore⟩ := (hbuilt f hf).pointer hkind
    have hline := htypes f hf
    rw [Field.declared, htype, pointerTo] at hline
    refine ⟨?_, startsWord_pointeeName hcore⟩
    rw [pointeeName_eq hcore, Config.coreName]
    split
    · exact oneLine_ofList _ (by decide)
    · split
      · exact RecordModule.oneLine_cName _
      · exact hline.of_append_left.of_append_right
  · obtain ⟨fields, -, rfl, -⟩ := ofDeclaration_eq_ok hdeclaration
    exact hincludes

namespace Emit

/-! ## Stream operators -/

/-- The two directions of a host stream. -/
inductive Flow where
  | output
  | input
deriving Repr, DecidableEq

namespace Flow

/-- How the definition of an operator starts in front of the name of its class. -/
def opening : Flow → String
  | output => "BinaryOStream& "
  | input => "BinaryIStream& "

/-- How the definition of an operator goes on behind the name of its class. -/
def closing : Flow → String
  | output => "::stream(BinaryOStream& os) const"
  | input => "::stream(BinaryIStream& is)"

end Flow

/-- The classes that a source defines the operator of a direction for, with the bodies. -/
def definedStreams (flow : Flow) (lines : Lines) : List (String × Lines) :=
  sections (between? flow.opening flow.closing) (· == "\x7d") lines

/-! ## Definitions -/

/-- A line that does not start the definition of a stream operator. -/
def Unstreamed (line : String) : Prop :=
  ∀ flow : Flow, between? flow.opening flow.closing line = none

theorem Flow.first?_opening (flow : Flow) : first? flow.opening = some 'B' := by
  cases flow <;> exact first?_ofList _ _

theorem unstreamed_of_first? {line : String} {x : Option Char} (hl : first? line = x)
    (h : x ≠ some 'B') : Unstreamed line :=
  fun flow => between?_eq_none flow.first?_opening hl h _

theorem unstreamed_of_stop? {line : String} {x : Char} (hl : stop? line = some x) (h : x ≠ '&') :
    Unstreamed line := by
  intro flow
  have hstop : stop? flow.opening = some '&' := by cases flow <;> decide
  exact between?_eq_none_of_stop? hstop hl h _

/-- No getter has a parameter. -/
theorem unstreamed_of_getter {line : String} {l : List Char}
    (h : l = ['(', ')'] ∨ l = "() const".toList) (hl : l <:+ line.toList) : Unstreamed line := by
  intro flow
  cases flow with
  | output =>
    refine between?_eq_none_of_ending (suffix_ofList _) hl ?_ _
    rcases h with rfl | rfl <;> decide
  | input =>
    refine between?_eq_none_of_ending (suffix_ofList _) hl ?_ _
    rcases h with rfl | rfl <;> decide

theorem unstreamed_empty : Unstreamed "" := unstreamed_of_first? rfl (by decide)

theorem first?_of_mem_indent {margin line : String} {c : Char} {lines : Lines}
    (hm : first? margin = some c) (h : line ∈ indent margin lines) :
    first? line = some c ∨ line = "" := by
  rw [indent_eq] at h
  obtain ⟨inner, -, rfl⟩ := List.mem_map.1 h
  rw [behind]
  split
  · exact .inr (String.isEmpty_iff.1 ‹_›)
  · exact .inl (first?_append hm _)

theorem unstreamed_indent (lines : Lines) : ∀ line ∈ indent "\t" lines, Unstreamed line := by
  intro line hline
  rcases first?_of_mem_indent (first?_ofList _ _) hline with hfirst | rfl
  · exact unstreamed_of_first? hfirst (by decide)
  · exact unstreamed_empty

theorem unstreamed_block {lines : Lines} (h : ∀ line ∈ lines, Unstreamed line) :
    ∀ line ∈ block lines, Unstreamed line := by
  simp only [block, blockThen, List.forall_mem_append, List.forall_mem_singleton]
  exact ⟨⟨unstreamed_of_first? (first?_ofList _ _) (by decide), h⟩,
    unstreamed_of_first? (first?_append (first?_ofList _ _) _) (by decide)⟩

namespace HostClass

variable {d : Descriptor}

theorem unstreamed_function {signature : String} (h : Unstreamed signature) (body : Lines) :
    ∀ line ∈ function signature body, Unstreamed line :=
  List.forall_mem_cons.2 ⟨h, unstreamed_block (unstreamed_indent body)⟩

theorem unstreamed_constructor {signature : String} (h : Unstreamed signature) (base : String)
    (members : List (String × String)) :
    ∀ line ∈ constructor signature base members, Unstreamed line := by
  simp only [constructor, List.forall_mem_append, List.forall_mem_cons, List.forall_mem_map]
  refine ⟨⟨⟨⟨h, ?_, List.forall_mem_nil _⟩, fun m _ => ?_⟩,
    unstreamed_block (List.forall_mem_nil _)⟩, unstreamed_empty, List.forall_mem_nil _⟩
  · exact unstreamed_of_first? (first?_append (first?_ofList _ _) _) (by decide)
  · exact unstreamed_of_first? (first?_append (first?_append (first?_append (first?_append
      (first?_ofList _ _) _) _) _) _) (by decide)

/-- What stands in front of the stream operators. -/
def sourceFront (names : OutputNames) (d : Descriptor) : Lines :=
  preamble names s!"{d.name}.cpp" .block ++
    [includeLine s!"../{d.name}.h", "", openNamespace names, ""] ++
    constructors names d ++ d.fields.flatMap fun f => "" :: accessors d.name f

/-- What stands behind the stream operators. -/
def sourceBack (names : OutputNames) : Lines := ["", closeNamespace names]

theorem source_eq (names : OutputNames) (d : Descriptor) :
    source names d = sourceFront names d ++ (streamOperators d ++ sourceBack names) := by
  rw [source, sourceFront, sourceBack, List.append_assoc _ (streamOperators d)]

theorem unstreamed_constructors (h : Naming.IsWord d.name) (names : OutputNames) :
    ∀ line ∈ constructors names d, Unstreamed line := by
  have hscope {text : String} (ht : stop? text = some ':') : Unstreamed (d.name ++ text) :=
    unstreamed_of_stop? ((stop?_append h text).trans ht) (by decide)
  simp only [constructors, List.forall_mem_append, List.forall_mem_singleton, String.append_assoc]
  refine ⟨⟨⟨⟨unstreamed_constructor ?_ _ _, unstreamed_constructor ?_ _ _⟩,
    unstreamed_constructor ?_ _ _⟩, ?_⟩, unstreamed_block (List.forall_mem_nil _)⟩
  · exact hscope (stop?_append_of_some (by decide) _)
  · exact hscope (stop?_append_of_some (by decide) _)
  · exact hscope (stop?_append_of_some (by decide) _)
  · exact hscope (stop?_append_of_some (by decide) _)

theorem unstreamed_accessors (name : String) (f : Field) :
    ∀ line ∈ accessors name f, Unstreamed line := by
  have hvoid (text : String) : Unstreamed ("void " ++ text) :=
    unstreamed_of_first? (first?_append (first?_ofList _ _) _) (by decide)
  -- A getter starts with an arbitrary type, so it is told by its end and the others by their start.
  rw [accessors]
  split
  · rename_i core _
    have hclone (text : String) : Unstreamed ("std::unique_ptr<" ++ text) :=
      unstreamed_of_first? (first?_append (first?_ofList _ _) _) (by decide)
    simp only [List.forall_mem_append, List.forall_mem_singleton]
    refine ⟨⟨⟨⟨unstreamed_function ?_ _, unstreamed_empty⟩, unstreamed_function ?_ _⟩,
      unstreamed_empty⟩, unstreamed_function ?_ _⟩
    · exact unstreamed_of_getter (.inl rfl) (suffix_append _ (suffix_ofList _))
    · simp only [String.append_assoc]
      exact hclone _
    · simp only [String.append_assoc]
      exact hvoid _
  · simp only [List.forall_mem_append, List.forall_mem_singleton]
    refine ⟨⟨unstreamed_function ?_ _, unstreamed_empty⟩, unstreamed_function ?_ _⟩
    · exact unstreamed_of_getter (.inr rfl) (suffix_append _ (suffix_ofList _))
    · simp only [String.append_assoc]
      exact hvoid _

theorem unstreamed_sourceFront (h : Naming.IsWord d.name) (names : OutputNames) :
    ∀ line ∈ sourceFront names d, Unstreamed line := by
  simp only [sourceFront, List.forall_mem_append, List.forall_mem_cons, List.forall_mem_flatMap]
  refine ⟨⟨⟨fun line hline => ?_, ?_, unstreamed_empty, ?_, unstreamed_empty,
    List.forall_mem_nil _⟩, unstreamed_constructors h names⟩,
    fun f _ => ⟨unstreamed_empty, unstreamed_accessors d.name f⟩⟩
  · rcases first?_of_mem_block hline with hfirst | hfirst | hfirst
    · exact unstreamed_of_first? hfirst (by decide)
    · exact unstreamed_of_first? hfirst (by decide)
    · exact unstreamed_of_first? hfirst (by decide)
  · exact unstreamed_of_first? (first?_append (first?_append (first?_ofList _ _) _) _) (by decide)
  · exact unstreamed_of_first? (first?_append (first?_append (first?_ofList _ _) _) _) (by decide)

theorem unstreamed_sourceBack (names : OutputNames) :
    ∀ line ∈ sourceBack names, Unstreamed line := by
  simp only [sourceBack, List.forall_mem_cons]
  exact ⟨unstreamed_empty,
    unstreamed_of_first? (first?_append (first?_append (first?_ofList _ _) _) _) (by decide),
    List.forall_mem_nil _⟩

/-- The statements of a stream operator. -/
def operatorBody (d : Descriptor) : Flow → Lines
  | .output => [s!"{hostBase}::stream(os);"] ++ d.fields.flatMap writeField ++ ["return os;"]
  | .input => [s!"{hostBase}::stream(is);"] ++ d.fields.flatMap readField ++ ["return is;"]

def operatorHeading (d : Descriptor) (flow : Flow) : String :=
  flow.opening ++ d.name ++ flow.closing

theorem streamOperators_eq (hi : d.internal = false) : streamOperators d =
    [""] ++ (function (operatorHeading d .output) (operatorBody d .output) ++
      ([""] ++ function (operatorHeading d .input) (operatorBody d .input))) := by
  rw [streamOperators, hi, if_neg Bool.false_ne_true, List.append_assoc, List.append_assoc]
  rfl

/-- The operator of a direction as it is read. -/
theorem definedStreams_function (flow : Flow) (d : Descriptor) (body rest : Lines) :
    definedStreams flow (function (operatorHeading d flow) body ++ rest) =
      (d.name, "\x7b" :: indent "\t" body) :: definedStreams flow rest := by
  have hheading : between? flow.opening flow.closing (operatorHeading d flow) = some d.name :=
    between?_eq_some_iff.2 rfl
  have hopen : Unstreamed "\x7b" := unstreamed_of_first? (first?_ofList _ _) (by decide)
  have hclose : Unstreamed "\x7d" := unstreamed_of_first? (first?_ofList _ _) (by decide)
  have hshape : function (operatorHeading d flow) body ++ rest =
      operatorHeading d flow :: (("\x7b" :: indent "\t" body) ++ "\x7d" :: rest) := by
    rw [function, block, blockThen, List.append_assoc, List.append_assoc]
    rfl
  rw [definedStreams, hshape, sections_titled hheading, sections_cons_of_none (hclose flow)]
  · rfl
  · rw [List.forall_mem_cons]
    refine ⟨⟨hopen flow, by decide⟩, fun line hline => ⟨unstreamed_indent body line hline flow, ?_⟩⟩
    exact (isMargin_tab.functionName?_indent line hline).2
  · intro line hline
    cases hline
    decide

/-- The operator of the other direction is not read. -/
theorem definedStreams_other {flow other : Flow} (h : flow ≠ other) (d : Descriptor)
    (body rest : Lines) :
    definedStreams flow (function (operatorHeading d other) body ++ rest) =
      definedStreams flow rest := by
  have hheading : between? flow.opening flow.closing (operatorHeading d other) = none := by
    have hprefix : other.opening.toList <+: (operatorHeading d other).toList :=
      prefix_append (prefix_append List.prefix_rfl _) _
    refine between?_eq_none_of_clash List.prefix_rfl hprefix ?_ _
    cases flow <;> cases other <;> first | exact absurd rfl h | decide
  apply sections_append
  refine List.forall_mem_cons.2 ⟨hheading, fun line hline => ?_⟩
  exact unstreamed_block (unstreamed_indent body) line hline flow

theorem definedStreams_of_unstreamed {lines : Lines} (h : ∀ line ∈ lines, Unstreamed line)
    (flow : Flow) (rest : Lines) :
    definedStreams flow (lines ++ rest) = definedStreams flow rest :=
  sections_append (fun line hline => h line hline flow) rest

/-- The source of a message on the wire defines the operator of each direction for its class. -/
theorem definedStreams_source (h : Naming.IsWord d.name) (hi : d.internal = false)
    (names : OutputNames) (flow : Flow) : definedStreams flow (source names d) =
      [(d.name, "\x7b" :: indent "\t" (operatorBody d flow))] := by
  have hgap : ∀ line ∈ [""], Unstreamed line := List.forall_mem_singleton.2 unstreamed_empty
  have hback : definedStreams flow (sourceBack names) = [] :=
    sections_of_untitled fun line hline => unstreamed_sourceBack names line hline flow
  rw [source_eq, definedStreams_of_unstreamed (unstreamed_sourceFront h names),
    streamOperators_eq hi, List.append_assoc, List.append_assoc, List.append_assoc,
    definedStreams_of_unstreamed hgap]
  -- One of the two operators is read, the other one is passed over.
  cases flow with
  | output =>
    rw [definedStreams_function, definedStreams_of_unstreamed hgap,
      definedStreams_other (by decide), hback]
  | input =>
    rw [definedStreams_other (by decide), definedStreams_of_unstreamed hgap,
      definedStreams_function, hback]

/-- The source of an internal message defines no operator. -/
theorem definedStreams_internal (h : Naming.IsWord d.name) (hi : d.internal = true)
    (names : OutputNames) (flow : Flow) : definedStreams flow (source names d) = [] := by
  rw [source_eq, definedStreams_of_unstreamed (unstreamed_sourceFront h names), streamOperators, hi,
    if_pos rfl]
  exact sections_of_untitled fun line hline => unstreamed_sourceBack names line hline flow

/-! ## Lines of the source -/

theorem oneLine_function {signature : String} {body : Lines} (hs : OneLine signature)
    (hb : ∀ line ∈ body, OneLine line) : ∀ line ∈ function signature body, OneLine line :=
  List.forall_mem_cons.2 ⟨hs, oneLine_block (oneLine_indent (oneLine_ofList _ (by decide)) hb)⟩

theorem oneLine_constructor {signature base : String} {members : List (String × String)}
    (hs : OneLine signature) (hb : OneLine base)
    (hm : ∀ m ∈ members, OneLine m.1 ∧ OneLine m.2) :
    ∀ line ∈ constructor signature base members, OneLine line := by
  simp only [constructor, List.forall_mem_append, List.forall_mem_cons, List.forall_mem_map]
  refine ⟨⟨⟨⟨hs, (oneLine_ofList _ (by decide)).append hb, List.forall_mem_nil _⟩,
    fun m hmem => ?_⟩, oneLine_block (List.forall_mem_nil _)⟩, oneLine_empty, List.forall_mem_nil _⟩
  exact (((hm m hmem).1.between (by decide) (by decide)).append (hm m hmem).2).append
    (oneLine_ofList _ (by decide))

section Lines

variable (h : d.Worded)
include h

theorem oneLine_name : OneLine d.name := oneLine_of_isWord h.spelled.name

/-- What generated code spells of a field. -/
theorem oneLine_field {f : Field} (hf : f ∈ d.fields) :
    OneLine f.typeName ∧ OneLine f.name ∧ OneLine f.member ∧ OneLine f.accessor :=
  have hname := h.spelled.field f hf
  ⟨h.type f hf, oneLine_of_isWord hname, oneLine_of_isWord (Naming.isWord_memberName hname),
    oneLine_of_isWord (Naming.isWord_titleCase hname)⟩

theorem oneLine_parameters : OneLine (parameters d) := by
  apply RecordModule.oneLine_intercalate (oneLine_ofList _ (by decide))
  rw [List.forall_mem_map]
  intro f hf
  obtain ⟨htype, hname, -, -⟩ := oneLine_field h hf
  exact (htype.append (oneLine_ofList _ (by decide))).append hname

theorem oneLine_constructors {names : OutputNames} (htype : OneLine names.typeEnum) :
    ∀ line ∈ constructors names d, OneLine line := by
  have hd := oneLine_name h
  have hbase : OneLine hostBase := oneLine_ofList _ (by decide)
  have hscope : OneLine s!"{d.name}::{d.name}" :=
    (hd.append (oneLine_ofList _ (by decide))).append hd
  have htag : OneLine (Naming.enumTag d.name) :=
    oneLine_of_isWord (Naming.isWord_enumTag h.spelled.name)
  have hmembers {value : Field → String} (hv : ∀ f ∈ d.fields, OneLine (value f)) :
      ∀ m ∈ d.fields.map (fun f => (f.member, value f)), OneLine m.1 ∧ OneLine m.2 := by
    rw [List.forall_mem_map]
    exact fun f hf => ⟨(oneLine_field h hf).2.2.1, hv f hf⟩
  simp only [constructors, List.forall_mem_append, List.forall_mem_singleton]
  refine ⟨⟨⟨⟨oneLine_constructor ?_ ?_ (hmembers fun f hf => ?_),
    oneLine_constructor ?_ ?_ (hmembers fun f _ => oneLine_empty)⟩,
    oneLine_constructor ?_ ?_ (hmembers fun f hf => ?_)⟩, ?_⟩,
    oneLine_block (List.forall_mem_nil _)⟩
  · exact ((hscope.append (oneLine_ofList _ (by decide))).append (oneLine_parameters h)).append
      (oneLine_ofList _ (by decide))
  · exact ((((hbase.append (oneLine_ofList _ (by decide))).append htype).append
      (oneLine_ofList _ (by decide))).append htag).append (oneLine_ofList _ (by decide))
  · obtain ⟨-, hname, -, -⟩ := oneLine_field h hf
    split
    · exact hname.between (by decide) (by decide)
    · exact hname
  · exact ((hscope.append (oneLine_ofList _ (by decide))).append hbase).append
      (oneLine_ofList _ (by decide))
  · exact hbase.append (oneLine_ofList _ (by decide))
  · exact ((hscope.append (oneLine_ofList _ (by decide))).append hd).append
      (oneLine_ofList _ (by decide))
  · exact hbase.append (oneLine_ofList _ (by decide))
  · obtain ⟨-, -, hmember, haccessor⟩ := oneLine_field h hf
    split
    · exact haccessor.between (by decide) (by decide)
    · exact (oneLine_ofList _ (by decide)).append hmember
  · exact ((hd.append (oneLine_ofList _ (by decide))).append hd).append
      (oneLine_ofList _ (by decide))

theorem oneLine_accessors {f : Field} (hf : f ∈ d.fields) :
    ∀ line ∈ accessors d.name f, OneLine line := by
  have hd := oneLine_name h
  obtain ⟨htype, hname, hmember, haccessor⟩ := oneLine_field h hf
  have hget : OneLine s!"{f.typeName} {d.name}::get{f.accessor}" :=
    (((htype.append (oneLine_ofList _ (by decide))).append hd).append
      (oneLine_ofList _ (by decide))).append haccessor
  have hset {opening : String} (ho : OneLine opening) :
      OneLine
        (s!"void {d.name}::set{f.accessor}" ++ opening ++ f.typeName ++ " " ++ f.name ++ ")") :=
    ((((((hd.between (by decide) (by decide)).append haccessor).append ho).append htype).append
      (oneLine_ofList _ (by decide))).append hname).append (oneLine_ofList _ (by decide))
  have hassign {opening closing : String} (ho : OneLine opening) (hc : OneLine closing) :
      OneLine (f.member ++ opening ++ f.name ++ closing) :=
    ((hmember.append ho).append hname).append hc
  rw [accessors]
  split
  · rename_i core hcore
    obtain ⟨hcore, -⟩ := h.pointee f hf core hcore
    simp only [List.forall_mem_append, List.forall_mem_singleton]
    refine ⟨⟨⟨⟨oneLine_function ?_ ?_, oneLine_empty⟩, oneLine_function ?_ ?_⟩, oneLine_empty⟩,
      oneLine_function ?_ ?_⟩
    · exact hget.append (oneLine_ofList _ (by decide))
    · exact List.forall_mem_singleton.2 (hmember.between (by decide) (by decide))
    · exact ((((hcore.between (by decide) (by decide)).append hd).append
        (oneLine_ofList _ (by decide))).append haccessor).append (oneLine_ofList _ (by decide))
    · simp only [List.forall_mem_append, List.forall_mem_singleton]
      exact ⟨⟨hmember.between (by decide) (by decide),
        oneLine_block (List.forall_mem_singleton.2 (oneLine_ofList _ (by decide)))⟩,
        ((hcore.between (by decide) (by decide)).append hmember).append
          (oneLine_ofList _ (by decide))⟩
    · exact hset (oneLine_ofList _ (by decide))
    · exact List.forall_mem_singleton.2
        (hassign (oneLine_ofList _ (by decide)) (oneLine_ofList _ (by decide)))
  · simp only [List.forall_mem_append, List.forall_mem_singleton]
    refine ⟨⟨oneLine_function ?_ ?_, oneLine_empty⟩, oneLine_function ?_ ?_⟩
    · exact hget.append (oneLine_ofList _ (by decide))
    · exact List.forall_mem_singleton.2 (hmember.between (by decide) (by decide))
    · exact hset (oneLine_ofList _ (by decide))
    · exact List.forall_mem_singleton.2
        (hassign (oneLine_ofList _ (by decide)) (oneLine_ofList _ (by decide)))

theorem oneLine_writeField {f : Field} (hf : f ∈ d.fields) :
    ∀ line ∈ writeField f, OneLine line := by
  obtain ⟨-, -, hmember, -⟩ := oneLine_field h hf
  rw [writeField]
  split
  · rename_i core hcore
    obtain ⟨hcore, -⟩ := h.pointee f hf core hcore
    simp only [List.forall_mem_append, List.forall_mem_singleton]
    exact ⟨⟨⟨hmember.between (by decide) (by decide),
      oneLine_block (List.forall_mem_singleton.2 (hmember.between (by decide) (by decide)))⟩,
      oneLine_ofList _ (by decide)⟩,
      oneLine_block (List.forall_mem_singleton.2 (hcore.between (by decide) (by decide)))⟩
  · exact List.forall_mem_singleton.2 (hmember.between (by decide) (by decide))

theorem oneLine_readField {f : Field} (hf : f ∈ d.fields) :
    ∀ line ∈ readField f, OneLine line := by
  obtain ⟨-, -, hmember, -⟩ := oneLine_field h hf
  rw [readField]
  split
  · rename_i core hcore
    obtain ⟨hcore, -⟩ := h.pointee f hf core hcore
    simp only [List.forall_mem_append, List.forall_mem_singleton]
    have hfresh : OneLine s!"\t{f.member} = std::make_unique<{core}>();" :=
      ((hmember.between (by decide) (by decide)).append hcore).append (oneLine_ofList _ (by decide))
    exact ⟨⟨hmember.between (by decide) (by decide),
      oneLine_block (List.forall_mem_singleton.2 hfresh)⟩, hmember.between (by decide) (by decide)⟩
  · refine List.forall_mem_append.2
      ⟨?_, List.forall_mem_singleton.2 (hmember.between (by decide) (by decide))⟩
    split
    · exact List.forall_mem_singleton.2 (hmember.append (oneLine_ofList _ (by decide)))
    · exact List.forall_mem_nil _

theorem oneLine_operator (flow : Flow) :
    ∀ line ∈ function (operatorHeading d flow) (operatorBody d flow), OneLine line := by
  have hd := oneLine_name h
  have hbase : OneLine hostBase := oneLine_ofList _ (by decide)
  cases flow with
  | output =>
    refine oneLine_function (hd.between (by decide) (by decide)) ?_
    simp only [operatorBody, List.forall_mem_append, List.forall_mem_singleton,
      List.forall_mem_flatMap]
    exact ⟨⟨hbase.append (oneLine_ofList _ (by decide)), fun f hf => oneLine_writeField h hf⟩,
      oneLine_ofList _ (by decide)⟩
  | input =>
    refine oneLine_function (hd.between (by decide) (by decide)) ?_
    simp only [operatorBody, List.forall_mem_append, List.forall_mem_singleton,
      List.forall_mem_flatMap]
    exact ⟨⟨hbase.append (oneLine_ofList _ (by decide)), fun f hf => oneLine_readField h hf⟩,
      oneLine_ofList _ (by decide)⟩

theorem oneLine_streamOperators : ∀ line ∈ streamOperators d, OneLine line := by
  cases hi : d.internal with
  | true =>
    rw [streamOperators, hi, if_pos rfl]
    exact List.forall_mem_nil _
  | false =>
    rw [streamOperators_eq hi]
    simp only [List.forall_mem_append, List.forall_mem_singleton]
    exact ⟨oneLine_empty, oneLine_operator h .output, oneLine_empty, oneLine_operator h .input⟩

/-- The words of a message and the names of the output decide the lines of the source. -/
theorem oneLine_source {names : OutputNames} (hspace : OneLine names.spaceName)
    (htype : OneLine names.typeEnum) : ∀ line ∈ source names d, OneLine line := by
  have hd := oneLine_name h
  rw [source_eq]
  simp only [sourceFront, sourceBack, List.forall_mem_append, List.forall_mem_cons,
    List.forall_mem_flatMap]
  exact ⟨⟨⟨⟨oneLine_preamble names (hd.append (oneLine_ofList _ (by decide))) _,
    oneLine_includeLine (hd.between (by decide) (by decide)), oneLine_empty,
    hspace.between (by decide) (by decide), oneLine_empty, List.forall_mem_nil _⟩,
    oneLine_constructors h htype⟩, fun f hf => ⟨oneLine_empty, oneLine_accessors h hf⟩⟩,
    oneLine_streamOperators h, oneLine_empty, hspace.between (by decide) (by decide),
    List.forall_mem_nil _⟩

end Lines

end HostClass

end Emit

end WireSchema
