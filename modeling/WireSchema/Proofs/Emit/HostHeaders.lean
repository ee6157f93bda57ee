import WireSchema.Proofs.Emit.HostSources

/-!
# Headers of host classes

The header of a host message declares its class with the members that the source defines.

**Theorem (`declaredStreams_header`).** The header declares the stream operator of each direction
once, and that of an internal message declares neither.
-/

namespace WireSchema.Emit

/-! ## Declared operators -/

namespace Flow

/-- What an operator gives back. -/
def result : Flow → String
  | output => "BinaryOStream&"
  | input => "BinaryIStream&"

/-- How the declaration of an operator goes on behind what it gives back. -/
def declared : Flow → String
  | output => " stream(BinaryOStream& os) const;"
  | input => " stream(BinaryIStream& is);"

end Flow

/-- What the operators of a direction give back that a header declares. -/
def declaredStreams (flow : Flow) (lines : Lines) : List String :=
  lines.filterMap (statement? "virtual " flow.declared)

/-- A line that does not declare a stream operator, whatever its margin. -/
def Undeclared (line : String) : Prop :=
  ∀ flow : Flow, statement? "virtual " flow.declared line = none

theorem undeclared_of_first? {line : String} {x : Option Char} (hl : first? line = x)
    (h : x ≠ some 'v' ∧ x.any isBlank = false) : Undeclared line :=
  fun _ => statement?_eq_none (first?_ofList _ _) hl h _

theorem undeclared_empty : Undeclared "" := undeclared_of_first? rfl (by decide)

/-- A line that ends otherwise than with a parameter of that name. -/
theorem undeclared_of_ending {line : String} {l : List Char} (hl : l <:+ line.toList)
    (ho : ¬ "os) const;".toList <:+ l ∧ ¬l <:+ "os) const;".toList)
    (hi : ¬ "is);".toList <:+ l ∧ ¬l <:+ "is);".toList) : Undeclared line := by
  intro flow
  cases flow with
  | output =>
    have hclosing : "os) const;".toList <:+ Flow.output.declared.toList := by decide
    exact statement?_eq_none_of_ending hclosing hl ho _
  | input =>
    have hclosing : "is);".toList <:+ Flow.input.declared.toList := by decide
    exact statement?_eq_none_of_ending hclosing hl hi _

theorem not_suffix_of_blank {v w : List Char} (hw : ' ' ∉ w) (h : v ≠ w) :
    ¬ ' ' :: v <:+ ' ' :: w := by
  intro hsuffix
  rcases List.suffix_cons_iff.1 hsuffix with heq | hsuffix
  · exact h (List.cons.inj heq).2
  · exact hw (hsuffix.mem List.mem_cons_self)

/-- A line whose last word is another one. -/
theorem undeclared_of_lastWord {line : String} {w : List Char} (hl : ' ' :: w <:+ line.toList)
    (hw : ' ' ∉ w) (ho : w ≠ "const;".toList) (hi : w ≠ "is);".toList) : Undeclared line := by
  intro flow
  cases flow with
  | output =>
    have hclosing : ' ' :: "const;".toList <:+ Flow.output.declared.toList := by decide
    exact statement?_eq_none_of_ending hclosing hl
      ⟨not_suffix_of_blank hw ho.symm, not_suffix_of_blank (by decide) ho⟩ _
  | input =>
    have hclosing : ' ' :: "is);".toList <:+ Flow.input.declared.toList := by decide
    exact statement?_eq_none_of_ending hclosing hl
      ⟨not_suffix_of_blank hw hi.symm, not_suffix_of_blank (by decide) hi⟩ _

theorem undeclared_append {margin line : String} (hm : IsMargin margin) (h : Undeclared line) :
    Undeclared (margin ++ line) := by
  intro flow
  rw [statement?, hm.unindent_append]
  exact h flow

theorem undeclared_indent {margin : String} (hm : IsMargin margin) {lines : Lines}
    (h : ∀ line ∈ lines, Undeclared line) : ∀ line ∈ indent margin lines, Undeclared line := by
  rw [indent_eq, List.forall_mem_map]
  exact fun line hline flow => (hm.statement?_behind _ _ line).trans (h line hline flow)

theorem undeclared_preamble (names : OutputNames) (file : String) :
    ∀ line ∈ preamble names file .block, Undeclared line := by
  have hmargin : IsMargin " " := isMargin_ofList _ (by decide)
  have hlead (line : String) : commentLine " *" line = " " ++ commentLine "*" line := by
    rw [commentLine, commentLine]
    split
    · rfl
    · apply String.toList_inj.1
      simp [toString]
  have hclose : " */" = " " ++ "*/" := rfl
  rw [preamble_block, hclose]
  simp only [List.forall_mem_cons, List.forall_mem_append, List.forall_mem_map, hlead]
  exact ⟨undeclared_of_first? (first?_ofList _ _) (by decide),
    fun line _ => undeclared_append hmargin
      (undeclared_of_first? (first?_commentLine (first?_ofList _ _) line) (by decide)),
    undeclared_append hmargin (undeclared_of_first? (first?_ofList _ _) (by decide)),
    undeclared_empty, List.forall_mem_nil _⟩

theorem declaredStreams_append (flow : Flow) (lines rest : Lines) :
    declaredStreams flow (lines ++ rest) =
      declaredStreams flow lines ++ declaredStreams flow rest := List.filterMap_append

theorem declaredStreams_indent (flow : Flow) (lines : Lines) :
    declaredStreams flow (indent "\t" lines) = declaredStreams flow lines :=
  isMargin_tab.filterMap_statement? _ _ lines

theorem declaredStreams_of_undeclared {lines : Lines} (h : ∀ line ∈ lines, Undeclared line)
    (flow : Flow) : declaredStreams flow lines = [] :=
  List.filterMap_eq_nil_iff.2 fun line hline => h line hline flow

namespace HostClass

variable {d : Descriptor}

/-- A type in front of a declaration without parameters is arbitrary. -/
theorem undeclared_accessorDeclarations (f : Field) :
    ∀ line ∈ accessorDeclarations f, Undeclared line := by
  have hvoid (text : String) : Undeclared ("void set" ++ text) := by
    intro flow
    have hfirst : first? ("void set" ++ text) = some 'v' := first?_append (first?_ofList _ _) _
    rw [statement?, unindent_of_first? (by rw [hfirst]; decide)]
    exact between?_eq_none_of_clash (prefix_ofList _) (prefix_append (prefix_ofList _) _)
      (by decide) _
  have hgetter {line : String} (h : "();".toList <:+ line.toList) : Undeclared line :=
    undeclared_of_ending h (by decide) (by decide)
  have hconst {line : String} (h : "() const;".toList <:+ line.toList) : Undeclared line :=
    undeclared_of_ending h (by decide) (by decide)
  rw [accessorDeclarations]
  split
  · simp only [List.forall_mem_cons]
    refine ⟨hgetter (suffix_append _ (suffix_ofList _)), hconst (suffix_append _ (suffix_ofList _)),
      ?_, List.forall_mem_nil _⟩
    simp only [String.append_assoc]
    exact hvoid _
  · simp only [List.forall_mem_cons]
    refine ⟨hconst (suffix_append _ (suffix_ofList _)), ?_, List.forall_mem_nil _⟩
    simp only [String.append_assoc]
    exact hvoid _

/-- The declarations in front of those of the accessors. -/
def memberDeclarations (d : Descriptor) : Lines :=
  [s!"typedef std::unique_ptr<{d.name}> ptr;",
    "",
    s!"{d.name}({parameters d});",
    s!"{d.name}(const {hostBase}& base);",
    s!"{d.name}(const {d.name}& msg);",
    s!"virtual ~{d.name}();"]

theorem undeclared_memberDeclarations (h : Naming.IsWord d.name) :
    ∀ line ∈ memberDeclarations d, Undeclared line := by
  have hconstructor {text : String} (ht : stop? text = some '(') : Undeclared (d.name ++ text) := by
    intro flow
    have hstop : stop? (d.name ++ text) = some '(' := (stop?_append h text).trans ht
    have hopening : stop? "virtual " = some ' ' := by decide
    exact statement?_eq_none_of_stop? hopening hstop (by decide) _
  simp only [memberDeclarations, List.forall_mem_cons]
  refine ⟨undeclared_of_first? (first?_append (first?_append (first?_ofList _ _) _) _) (by decide),
    undeclared_empty, ?_, ?_, ?_, ?_, List.forall_mem_nil _⟩
  · simp only [String.append_assoc]
    exact hconstructor (stop?_append_of_some (by decide) _)
  · simp only [String.append_assoc]
    exact hconstructor (stop?_append_of_some (by decide) _)
  · simp only [String.append_assoc]
    exact hconstructor (stop?_append_of_some (by decide) _)
  · exact undeclared_of_ending (l := "();".toList) (suffix_append _ (suffix_ofList _)) (by decide)
      (by decide)

/-- A data member is the last word of its declaration. -/
theorem undeclared_dataMember {f : Field} (h : Naming.IsWord f.name) :
    Undeclared s!"{f.typeName} {f.member};" := by
  have hword := Naming.isWord_memberName h
  have hline : ' ' :: (f.member.toList ++ [';']) <:+ (s!"{f.typeName} {f.member};").toList :=
    ⟨f.typeName.toList, by simp [toString]⟩
  have hfirst : (f.member.toList ++ [';']).head? = some 'm' := by
    rw [Field.member, Naming.memberName, String.toList_append]
    rfl
  have hne {w : List Char} (hw : w.head? ≠ some 'm') : f.member.toList ++ [';'] ≠ w := by
    rintro rfl
    exact hw hfirst
  refine undeclared_of_lastWord hline ?_ (hne (by decide)) (hne (by decide))
  rw [List.mem_append, not_or]
  exact ⟨hword.not_mem (by decide), by decide⟩

theorem undeclared_dataMembers (h : d.Spelled) : ∀ line ∈ dataMembers d, Undeclared line := by
  rw [dataMembers]
  split
  · exact List.forall_mem_nil _
  · have hmembers : ∀ line ∈ d.fields.map (fun f => s!"{f.typeName} {f.member};"),
        Undeclared line := by
      rw [List.forall_mem_map]
      exact fun f hf => undeclared_dataMember (h.field f hf)
    simp only [List.forall_mem_append, List.forall_mem_cons]
    exact ⟨⟨undeclared_empty, undeclared_of_first? (first?_ofList _ _) (by decide),
      List.forall_mem_nil _⟩, undeclared_indent isMargin_tab hmembers⟩

/-- The declaration of the operator of a direction. -/
def streamDeclaration (flow : Flow) : String := "virtual " ++ flow.result ++ flow.declared

theorem streamDeclarations_eq (hi : d.internal = false) : streamDeclarations d =
    ["", streamDeclaration .output, streamDeclaration .input] := by
  rw [streamDeclarations, hi, if_neg Bool.false_ne_true]
  rfl

theorem statement?_streamDeclaration (flow : Flow) :
    statement? "virtual " flow.declared (streamDeclaration flow) = some flow.result :=
  statement?_eq_some (first?_ofList _ _) (by decide)

/-- The operators of the two directions do not end alike. -/
theorem statement?_streamDeclaration_other {flow other : Flow} (h : flow ≠ other) :
    statement? "virtual " flow.declared (streamDeclaration other) = none := by
  have hending : other.declared.toList <:+ (streamDeclaration other).toList :=
    suffix_append _ List.suffix_rfl
  refine statement?_eq_none_of_ending List.suffix_rfl hending ?_ _
  cases flow <;> cases other <;> first | exact absurd rfl h | decide

theorem declaredStreams_streamDeclarations (d : Descriptor) (flow : Flow) :
    declaredStreams flow (streamDeclarations d) = if d.internal then [] else [flow.result] := by
  cases hi : d.internal with
  | true =>
    rw [streamDeclarations, hi]
    rfl
  | false =>
    rw [streamDeclarations_eq hi, declaredStreams, List.filterMap_cons_none (undeclared_empty flow)]
    cases flow with
    | output =>
      rw [List.filterMap_cons_some (statement?_streamDeclaration .output),
        List.filterMap_cons_none (statement?_streamDeclaration_other (by decide))]
      rfl
    | input =>
      rw [List.filterMap_cons_none (statement?_streamDeclaration_other (by decide)),
        List.filterMap_cons_some (statement?_streamDeclaration .input)]
      rfl

theorem declaration_eq (d : Descriptor) : declaration d =
    [s!"class {d.name}: public {hostBase}", "\x7b", "public:"] ++
      (indent "\t" (memberDeclarations d ++
        d.fields.flatMap (fun f => "" :: accessorDeclarations f) ++ streamDeclarations d) ++
        (dataMembers d ++ ["\x7d" ++ ";"])) := by
  rw [declaration, blockThen]
  simp only [List.append_assoc]
  rfl

theorem declaredStreams_declaration (h : d.Spelled) (flow : Flow) :
    declaredStreams flow (declaration d) = if d.internal then [] else [flow.result] := by
  have hfront : ∀ line ∈ [s!"class {d.name}: public {hostBase}", "\x7b", "public:"],
      Undeclared line := by
    simp only [List.forall_mem_cons]
    exact ⟨undeclared_of_first? (first?_append (first?_append (first?_append (first?_ofList _ _) _)
      _) _) (by decide), undeclared_of_first? (first?_ofList _ _) (by decide),
      undeclared_of_first? (first?_ofList _ _) (by decide), List.forall_mem_nil _⟩
  have haccessors : ∀ line ∈ d.fields.flatMap (fun f => "" :: accessorDeclarations f),
      Undeclared line := by
    simp only [List.forall_mem_flatMap, List.forall_mem_cons]
    exact fun f _ => ⟨undeclared_empty, undeclared_accessorDeclarations f⟩
  have hback : ∀ line ∈ dataMembers d ++ ["\x7d" ++ ";"], Undeclared line :=
    List.forall_mem_append.2 ⟨undeclared_dataMembers h, List.forall_mem_singleton.2
      (undeclared_of_first? (first?_append (first?_ofList _ _) _) (by decide))⟩
  have hmembers := List.forall_mem_append.2 ⟨undeclared_memberDeclarations h.name, haccessors⟩
  rw [declaration_eq, declaredStreams_append, declaredStreams_append,
    declaredStreams_of_undeclared hfront, declaredStreams_of_undeclared hback, List.nil_append,
    List.append_nil, declaredStreams_indent, declaredStreams_append,
    declaredStreams_of_undeclared hmembers, List.nil_append, declaredStreams_streamDeclarations]

/-- What stands in front of the class. -/
def headerFront (names : OutputNames) (d : Descriptor) : Lines :=
  preamble names s!"{d.name}.h" .block ++
    [s!"#ifndef {guard names d}", s!"#define {guard names d}", "", "#include <memory>",
      "#include <string>", includeLine hostBaseHeader, includeLine s!"{names.typeEnum}.h"] ++
    d.includes.map includeLine ++ ["", openNamespace names, ""]

/-- What stands behind the class. -/
def headerBack (names : OutputNames) (d : Descriptor) : Lines :=
  ["", closeNamespace names, "", s!"#endif /* {guard names d} */"]

theorem header_eq (names : OutputNames) (d : Descriptor) :
    header names d = headerFront names d ++ (declaration d ++ headerBack names d) := by
  rw [header, guarded, headerFront, headerBack]
  simp only [List.append_assoc]
  rfl

theorem undeclared_headerFront (names : OutputNames) (d : Descriptor) :
    ∀ line ∈ headerFront names d, Undeclared line := by
  have hinclude (path : String) : Undeclared (includeLine path) :=
    undeclared_of_first? (first?_append (first?_append (first?_ofList _ _) _) _) (by decide)
  have hdirective {line : String} (h : first? line = some '#') : Undeclared line :=
    undeclared_of_first? h (by decide)
  simp only [headerFront, List.forall_mem_append, List.forall_mem_cons, List.forall_mem_map]
  exact ⟨⟨⟨undeclared_preamble names _, hdirective (first?_append (first?_ofList _ _) _),
    hdirective (first?_append (first?_ofList _ _) _), undeclared_empty,
    hdirective (first?_ofList _ _), hdirective (first?_ofList _ _), hinclude _, hinclude _,
    List.forall_mem_nil _⟩, fun path _ => hinclude path⟩, undeclared_empty,
    undeclared_of_first? (first?_append (first?_append (first?_ofList _ _) _) _) (by decide),
    undeclared_empty, List.forall_mem_nil _⟩

theorem undeclared_headerBack (names : OutputNames) (d : Descriptor) :
    ∀ line ∈ headerBack names d, Undeclared line := by
  simp only [headerBack, List.forall_mem_cons]
  exact ⟨undeclared_empty,
    undeclared_of_first? (first?_append (first?_append (first?_ofList _ _) _) _) (by decide),
    undeclared_empty,
    undeclared_of_first? (first?_append (first?_append (first?_ofList _ _) _) _) (by decide),
    List.forall_mem_nil _⟩

/-- The header of a message declares the operator of each direction, unless it is internal. -/
theorem declaredStreams_header (h : d.Spelled) (names : OutputNames) (flow : Flow) :
    declaredStreams flow (header names d) = if d.internal then [] else [flow.result] := by
  rw [header_eq, declaredStreams_append, declaredStreams_append,
    declaredStreams_of_undeclared (undeclared_headerFront names d),
    declaredStreams_of_undeclared (undeclared_headerBack names d), List.nil_append, List.append_nil,
    declaredStreams_declaration h]

/-! ## Lines of the header -/

section Lines

variable (h : d.Worded)
include h

theorem oneLine_memberDeclarations : ∀ line ∈ memberDeclarations d, OneLine line := by
  have hd := oneLine_name h
  simp only [memberDeclarations, List.forall_mem_cons]
  exact ⟨hd.between (by decide) (by decide), oneLine_empty,
    (((hd.append (oneLine_ofList _ (by decide))).append (oneLine_parameters h)).append
      (oneLine_ofList _ (by decide))),
    (((hd.append (oneLine_ofList _ (by decide))).append (oneLine_ofList _ (by decide))).append
      (oneLine_ofList _ (by decide))),
    (((hd.append (oneLine_ofList _ (by decide))).append hd).append (oneLine_ofList _ (by decide))),
    hd.between (by decide) (by decide), List.forall_mem_nil _⟩

theorem oneLine_accessorDeclarations {f : Field} (hf : f ∈ d.fields) :
    ∀ line ∈ accessorDeclarations f, OneLine line := by
  obtain ⟨htype, hname, -, haccessor⟩ := oneLine_field h hf
  have hget {closing : String} (hc : OneLine closing) :
      OneLine (f.typeName ++ " get" ++ f.accessor ++ closing) :=
    ((htype.append (oneLine_ofList _ (by decide))).append haccessor).append hc
  have hset {opening : String} (ho : OneLine opening) :
      OneLine ("void set" ++ f.accessor ++ opening ++ f.typeName ++ " " ++ f.name ++ ");") :=
    ((((((oneLine_ofList _ (by decide)).append haccessor).append ho).append htype).append
      (oneLine_ofList _ (by decide))).append hname).append (oneLine_ofList _ (by decide))
  rw [accessorDeclarations]
  split
  · rename_i core hcore
    obtain ⟨hcore, -⟩ := h.pointee f hf core hcore
    simp only [List.forall_mem_cons]
    exact ⟨hget (oneLine_ofList _ (by decide)),
      ((hcore.between (by decide) (by decide)).append haccessor).append
        (oneLine_ofList _ (by decide)),
      hset (oneLine_ofList _ (by decide)), List.forall_mem_nil _⟩
  · simp only [List.forall_mem_cons]
    exact ⟨hget (oneLine_ofList _ (by decide)), hset (oneLine_ofList _ (by decide)),
      List.forall_mem_nil _⟩

theorem oneLine_dataMembers : ∀ line ∈ dataMembers d, OneLine line := by
  rw [dataMembers]
  split
  · exact List.forall_mem_nil _
  · have hmembers : ∀ line ∈ d.fields.map (fun f => s!"{f.typeName} {f.member};"),
        OneLine line := by
      rw [List.forall_mem_map]
      intro f hf
      obtain ⟨htype, -, hmember, -⟩ := oneLine_field h hf
      exact ((htype.append (oneLine_ofList _ (by decide))).append hmember).append
        (oneLine_ofList _ (by decide))
    simp only [List.forall_mem_append, List.forall_mem_cons]
    exact ⟨⟨oneLine_empty, oneLine_ofList _ (by decide), List.forall_mem_nil _⟩,
      oneLine_indent (oneLine_ofList _ (by decide)) hmembers⟩

theorem oneLine_declaration : ∀ line ∈ declaration d, OneLine line := by
  have hstreams : ∀ line ∈ streamDeclarations d, OneLine line := by
    rw [streamDeclarations]
    split
    · exact List.forall_mem_nil _
    · simp only [List.forall_mem_cons]
      exact ⟨oneLine_empty, oneLine_ofList _ (by decide), oneLine_ofList _ (by decide),
        List.forall_mem_nil _⟩
  have haccessors : ∀ line ∈ d.fields.flatMap (fun f => "" :: accessorDeclarations f),
      OneLine line := by
    simp only [List.forall_mem_flatMap, List.forall_mem_cons]
    exact fun f hf => ⟨oneLine_empty, oneLine_accessorDeclarations h hf⟩
  have hclass : OneLine s!"class {d.name}: public {hostBase}" :=
    ((oneLine_name h).between (by decide) (by decide)).append (oneLine_ofList _ (by decide))
  have hmembers := oneLine_indent (oneLine_ofList _ (by decide) : OneLine "\t")
    (List.forall_mem_append.2
      ⟨List.forall_mem_append.2 ⟨oneLine_memberDeclarations h, haccessors⟩, hstreams⟩)
  rw [declaration_eq]
  simp only [List.forall_mem_append, List.forall_mem_cons]
  exact ⟨⟨hclass, oneLine_ofList _ (by decide), oneLine_ofList _ (by decide),
    List.forall_mem_nil _⟩, hmembers, oneLine_dataMembers h,
    (oneLine_ofList _ (by decide)).append (oneLine_ofList _ (by decide)), List.forall_mem_nil _⟩

/-- The words of a message and the names of the output decide the lines of the header. -/
theorem oneLine_header {names : OutputNames} (hspace : OneLine names.spaceName)
    (htype : OneLine names.typeEnum) : ∀ line ∈ header names d, OneLine line := by
  have hguard : OneLine (guard names d) := oneLine_of_isWord (Naming.isWord_headerGuard _)
  rw [header_eq]
  simp only [headerFront, headerBack, List.forall_mem_append, List.forall_mem_cons,
    List.forall_mem_map]
  exact ⟨⟨⟨⟨oneLine_preamble names ((oneLine_name h).append (oneLine_ofList _ (by decide))) _,
    (oneLine_ofList _ (by decide)).append hguard, (oneLine_ofList _ (by decide)).append hguard,
    oneLine_empty, oneLine_ofList _ (by decide), oneLine_ofList _ (by decide),
    oneLine_includeLine (oneLine_ofList _ (by decide)),
    oneLine_includeLine (htype.append (oneLine_ofList _ (by decide))), List.forall_mem_nil _⟩,
    fun path hpath => oneLine_includeLine (h.header path hpath)⟩, oneLine_empty,
    hspace.between (by decide) (by decide), oneLine_empty, List.forall_mem_nil _⟩,
    oneLine_declaration h, oneLine_empty, hspace.between (by decide) (by decide), oneLine_empty,
    hguard.between (by decide) (by decide), List.forall_mem_nil _⟩

end Lines

end HostClass

end WireSchema.Emit
