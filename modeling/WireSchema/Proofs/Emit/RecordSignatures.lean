import WireSchema.Proofs.Emit.Dispatchers
import WireSchema.Proofs.Emit.HostSources
import WireSchema.Proofs.Emit.RecordSources
import WireSchema.Proofs.Wire.RecordAccess

/-!
# Parameters of record functions

The functions of an embedded message are declared in its header and defined in its source. Their
parameters are called like the fields of the message, with some fixed names in front and behind.

**Theorem (`parameters_distinct_iff`).** The parameters of creation have different names exactly if
no scalar is called `destination` or `msgNr`, and those of all setters exactly if no field is called
`msg` and no text is called `length`.

The names of the slots differ anyway, and so do those of counters from the fixed names, which end
otherwise (`Field.counterName_ne`).
-/

namespace WireSchema

/-! ## Reading signatures -/

namespace Emit

/-- A function with the names of its parameters. -/
structure Signature where
  name : String
  parameters : List String
deriving Repr, DecidableEq

/-- What stands behind the last blank. -/
def lastWord (text : List Char) : String :=
  String.ofList (text.reverse.takeWhile (· != ' ')).reverse

/-- The names of parameters, each of them behind its type. -/
def parameterNames (text : List Char) : List String := (text.splitOn ',').map lastWord

/-- The signature on a line. A prototype has a semicolon behind it, a definition does not. -/
def signature? (line : String) : Option Signature :=
  let text := (between? "" ";" line).getD line
  (functionName? text).map fun name =>
    ⟨name, parameterNames (text.toList.dropWhile (· != '(')).tail.dropLast⟩

/-- All signatures of a file. -/
def signatures (lines : Lines) : List Signature := lines.filterMap signature?

theorem lastWord_append (front : List Char) {word : String} (h : ' ' ∉ word.toList) :
    lastWord (front ++ ' ' :: word.toList) = word := by
  have hword : ∀ c ∈ word.toList.reverse, (c != ' ') = true := by
    intro c hc
    rw [bne_iff_ne]
    rintro rfl
    exact h (List.mem_reverse.1 hc)
  rw [lastWord, List.reverse_append, List.reverse_cons, List.append_assoc,
    List.takeWhile_append_of_pos hword, List.singleton_append,
    List.takeWhile_cons_of_neg (by decide), List.append_nil, List.reverse_reverse,
    String.ofList_toList]

theorem parameterNames_append (front back : List Char) :
    parameterNames (front ++ ',' :: back) = parameterNames front ++ parameterNames back := by
  have hcomma : ((',' : Char) == ',') = true := beq_self_eq_true ','
  rw [parameterNames, List.splitOn, List.splitOnP_append_cons (p := (· == ',')) _ _ hcomma,
    List.map_append]
  rfl

theorem parameterNames_single {front : List Char} (hf : ',' ∉ front) {name : String}
    (hn : Naming.IsWord name) : parameterNames (front ++ ' ' :: name.toList) = [name] := by
  have hcomma : ∀ c ∈ front ++ ' ' :: name.toList, (c == ',') = false := by
    intro c hc
    rw [beq_eq_false_iff_ne]
    rintro rfl
    rcases List.mem_append.1 hc with hc | hc
    · exact hf hc
    · exact hn.not_mem (by decide) (List.mem_of_ne_of_mem (by decide) hc)
  rw [parameterNames, List.splitOn, List.splitOnP_eq_singleton hcomma, List.map_singleton,
    lastWord_append front (hn.not_mem (by decide))]

open RecordModule

/-- The parameters that can be read: their types have no comma. -/
def Readable (ps : List Parameter) : Prop :=
  ps ≠ [] ∧ ∀ p ∈ ps, ',' ∉ p.type.toList ∧ Naming.IsWord p.name

/-- The names are read behind whatever stands in front of the first type. -/
theorem parameterNames_parameterList {ps : List Parameter} (h : Readable ps) {front : List Char}
    (hf : ',' ∉ front) :
    parameterNames (front ++ (parameterList ps).toList) = ps.map Parameter.name := by
  obtain ⟨hne, hps⟩ := h
  induction ps generalizing front with
  | nil => exact absurd rfl hne
  | cons p ps ih =>
    obtain ⟨⟨htype, hname⟩, htail⟩ := List.forall_mem_cons.1 hps
    have hfront : ',' ∉ front ++ p.type.toList := by
      rw [List.mem_append, not_or]
      exact ⟨hf, htype⟩
    have hhead : parameterNames (front ++ (p.type.toList ++ ' ' :: p.name.toList)) = [p.name] := by
      rw [← List.append_assoc]
      exact parameterNames_single hfront hname
    cases ps with
    | nil =>
      have hlist : (parameterList [p]).toList = p.type.toList ++ ' ' :: p.name.toList := by
        simp [parameterList, toString]
      rw [hlist, hhead]
      rfl
    | cons q ps =>
      have hlist : (parameterList (p :: q :: ps)).toList =
          (p.type.toList ++ ' ' :: p.name.toList) ++
            ',' :: ([' '] ++ (parameterList (q :: ps)).toList) := by
        simp [parameterList, toString]
      rw [hlist, ← List.append_assoc, parameterNames_append, hhead,
        ih (by decide) (List.cons_ne_nil _ _) htail]
      rfl

section Lines

variable {line : String}

theorem signature?_of_blank (h : (first? line).any isBlank = true) : signature? line = none := by
  have hname : functionName? ((between? "" ";" line).getD line) = none := by
    apply functionName?_of_blank
    cases hbetween : between? "" ";" line with
    | none => exact h
    | some text =>
      rw [between?_eq_some_iff, String.empty_append] at hbetween
      rw [Option.getD_some]
      rw [hbetween, first?, String.toList_append] at h
      rw [first?]
      cases htext : text.toList with
      | nil =>
        rw [htext] at h
        revert h
        decide
      | cons c cs =>
        rwa [htext] at h
  rw [signature?, hname]
  rfl

/-- A line that ends neither as a definition nor as a prototype does. -/
theorem signature?_of_last? {x : Option Char} (hl : last? line = x)
    (h : x ≠ some ')' ∧ x ≠ some ';') : signature? line = none := by
  have hbetween : between? "" ";" line = none := by
    rw [Option.eq_none_iff_forall_ne_some]
    intro text htext
    obtain ⟨front, hline⟩ := suffix_of_between? htext
    rw [last?, ← hline, List.getLast?_append] at hl
    exact h.2 hl.symm
  have hname : functionName? line = none := functionName?_of_last? hl h.1
  rw [signature?, hbetween, Option.getD_none, hname]
  rfl

theorem signature?_of_semicolon {text : String} {x : Option Char} (hl : last? text = x)
    (h : x ≠ some ')') : signature? (text ++ ";") = none := by
  have hbetween : between? "" ";" (text ++ ";") = some text := by
    rw [between?_eq_some_iff, String.empty_append]
  rw [signature?, hbetween, Option.getD_some, functionName?_of_last? hl h]
  rfl

theorem signature?_of_mem_block {names : OutputNames} {file : String}
    (h : line ∈ preamble names file .block) : signature? line = none := by
  rw [preamble_block, List.mem_cons, List.mem_append] at h
  rcases h with rfl | h | h
  · exact signature?_of_last? (last?_ofList rfl) (by decide)
  · obtain ⟨text, -, rfl⟩ := List.mem_map.1 h
    apply signature?_of_blank
    rw [first?_commentLine (first?_ofList _ _)]
    decide
  · rcases List.mem_cons.1 h with rfl | h
    · exact signature?_of_last? (last?_ofList rfl) (by decide)
    · rw [List.mem_singleton.1 h]
      exact signature?_of_last? rfl (by decide)

theorem signature?_includeLine (path : String) : signature? (includeLine path) = none :=
  signature?_of_last? (last?_append _ (last?_ofList rfl)) (by decide)

end Lines

/-- The text of a signature, read from a definition and from a prototype. -/
def Reads (text : String) (g : Signature) : Prop :=
  signature? text = some g ∧ signature? (text ++ ";") = some g

section Typed

variable {type name : String} (ht : IsType type) (hn : Naming.IsWord name)
include ht hn

theorem parameters_typed (parameters : String) :
    ((type ++ " " ++ name ++ "(" ++ parameters ++ ")").toList.dropWhile (· != '(')).tail.dropLast =
      [] ++ parameters.toList := by
  have hlist : (type ++ " " ++ name ++ "(" ++ parameters ++ ")").toList =
      (type.toList ++ ' ' :: name.toList) ++ '(' :: (parameters.toList ++ [')']) := by
    simp
  have hfront : ∀ c ∈ type.toList ++ ' ' :: name.toList, (c != '(') = true := by
    intro c hc
    rw [bne_iff_ne]
    rintro rfl
    rcases List.mem_append.1 hc with hc | hc
    · exact ht.2.2 hc
    · exact hn.not_mem (by decide) (List.mem_of_ne_of_mem (by decide) hc)
  rw [hlist, List.dropWhile_append_of_pos hfront, List.dropWhile_cons_of_neg (by decide),
    List.tail_cons, List.dropLast_concat, List.nil_append]

variable {ps : List Parameter} (hps : Readable ps)
include hps

/-- A signature is read alike where it is defined and where it is declared. -/
theorem reads_typed : Reads (type ++ " " ++ name ++ "(" ++ parameterList ps ++ ")")
    ⟨name, ps.map Parameter.name⟩ := by
  have hdefinition :
      between? "" ";" (type ++ " " ++ name ++ "(" ++ parameterList ps ++ ")") = none :=
    between?_eq_none_of_ending (suffix_ofList [';'])
      (suffix_append _ (suffix_ofList [')'])) (by decide) ""
  have hprototype :
      between? "" ";" (type ++ " " ++ name ++ "(" ++ parameterList ps ++ ")" ++ ";") =
        some (type ++ " " ++ name ++ "(" ++ parameterList ps ++ ")") := by
    rw [between?_eq_some_iff, String.empty_append]
  constructor
  · rw [signature?, hdefinition, Option.getD_none, functionName?_typed ht hn, Option.map_some,
      parameters_typed ht hn, parameterNames_parameterList hps List.not_mem_nil]
  · rw [signature?, hprototype, Option.getD_some, functionName?_typed ht hn, Option.map_some,
      parameters_typed ht hn, parameterNames_parameterList hps List.not_mem_nil]

end Typed

/-! ## Signatures of a record -/

namespace RecordModule

variable {d : Descriptor}

theorem comma_not_mem_cType (s : Slot) : ',' ∉ s.cType.toList := by
  rw [Slot.cType]
  split
  · rename_i type _
    cases type <;> decide
  · decide

theorem readable_message : Readable [messageParameter] :=
  ⟨List.cons_ne_nil _ _, List.forall_mem_singleton.2
    ⟨by decide, Naming.isWord_ofList _ (by decide)⟩⟩

theorem readable_createParameters (h : d.Spelled) : Readable (createParameters d) := by
  refine ⟨List.cons_ne_nil _ _, ?_⟩
  simp only [createParameters, List.forall_mem_append, List.forall_mem_cons, List.forall_mem_map]
  exact ⟨⟨⟨by decide, Naming.isWord_ofList _ (by decide)⟩,
    ⟨by decide, Naming.isWord_ofList _ (by decide)⟩, List.forall_mem_nil _⟩,
    fun s hs => ⟨comma_not_mem_cType s, h.slot (List.mem_of_mem_filter hs)⟩⟩

theorem readable_setterParameters {s : Slot} (hs : Naming.IsWord s.name) :
    Readable (setterParameters s) := by
  obtain ⟨-, hmessage⟩ := readable_message
  have hbytes : ',' ∉ "const uint8_t*".toList := by decide
  unfold setterParameters
  split
  · refine ⟨List.cons_ne_nil _ _, List.forall_mem_cons.2 ⟨hmessage _ List.mem_cons_self, ?_⟩⟩
    exact List.forall_mem_cons.2 ⟨⟨hbytes, hs⟩, List.forall_mem_singleton.2
      ⟨by decide, Naming.isWord_ofList _ (by decide)⟩⟩
  · exact ⟨List.cons_ne_nil _ _, List.forall_mem_cons.2 ⟨hmessage _ List.mem_cons_self,
      List.forall_mem_singleton.2 ⟨comma_not_mem_cType s, hs⟩⟩⟩

variable (d)

def createRead : Signature := ⟨d.name ++ "Create", (createParameters d).map Parameter.name⟩

/-- The signatures of the accessors of a slot as they are read. -/
def accessorSignatures (s : Slot) : List Signature :=
  [⟨d.name ++ "Get" ++ s.accessor, ["msg"]⟩,
    ⟨d.name ++ "Set" ++ s.accessor, (setterParameters s).map Parameter.name⟩]

/-- The other signatures of a message on the wire as they are read. -/
def codecSignatures : List Signature :=
  if d.internal then []
  else [⟨d.name ++ "Serialize", ["msg", "buffer", "buffer_size"]⟩,
    ⟨d.name ++ "Deserialize", ["buffer", "buffer_size"]⟩, ⟨d.name ++ "GetMessageSize", ["msg"]⟩]

/-- All signatures of a record as they are read. -/
def allSignatures : List Signature :=
  createRead d :: (d.slots.flatMap (accessorSignatures d) ++ codecSignatures d)

variable {d} (h : d.Spelled)

section Reads

include h

theorem reads_create : Reads (createSignature d) (createRead d) := by
  rw [createSignature_eq]
  exact reads_typed isType_messageType (h.name.append (Naming.isWord_ofList _ (by decide)))
    (readable_createParameters h)

theorem reads_getter {s : Slot} (hs : s ∈ d.slots) :
    Reads (getterSignature d s) ⟨d.name ++ "Get" ++ s.accessor, ["msg"]⟩ := by
  rw [getterSignature_eq]
  exact reads_typed (isType_cType s) ((h.name.append (Naming.isWord_ofList _ (by decide))).append
    (Naming.isWord_titleCase (h.slot hs))) readable_message

theorem reads_setter {s : Slot} (hs : s ∈ d.slots) :
    Reads (setterSignature d s)
      ⟨d.name ++ "Set" ++ s.accessor, (setterParameters s).map Parameter.name⟩ := by
  rw [setterSignature_eq]
  exact reads_typed (isType_ofList _ (by decide))
    ((h.name.append (Naming.isWord_ofList _ (by decide))).append
      (Naming.isWord_titleCase (h.slot hs))) (readable_setterParameters (h.slot hs))

theorem reads_serialize :
    Reads (serializeSignature d) ⟨d.name ++ "Serialize", ["msg", "buffer", "buffer_size"]⟩ := by
  have hparameters : "moduleMsg_t* msg, uint8_t* buffer, uint32_t buffer_size" = parameterList
      [⟨"moduleMsg_t*", "msg"⟩, ⟨"uint8_t*", "buffer"⟩, ⟨"uint32_t", "buffer_size"⟩] := by decide
  rw [serializeSignature_eq, hparameters]
  refine reads_typed (isType_ofList _ (by decide))
    (h.name.append (Naming.isWord_ofList _ (by decide))) ⟨List.cons_ne_nil _ _, ?_⟩
  simp only [List.forall_mem_cons]
  exact ⟨⟨by decide, Naming.isWord_ofList _ (by decide)⟩,
    ⟨by decide, Naming.isWord_ofList _ (by decide)⟩,
    ⟨by decide, Naming.isWord_ofList _ (by decide)⟩, List.forall_mem_nil _⟩

theorem reads_deserialize :
    Reads (deserializeSignature d) ⟨d.name ++ "Deserialize", ["buffer", "buffer_size"]⟩ := by
  have hparameters : "uint8_t* buffer, uint32_t buffer_size" = parameterList
      [⟨"uint8_t*", "buffer"⟩, ⟨"uint32_t", "buffer_size"⟩] := by decide
  rw [deserializeSignature_eq, hparameters]
  refine reads_typed isType_messageType
    (h.name.append (Naming.isWord_ofList _ (by decide))) ⟨List.cons_ne_nil _ _, ?_⟩
  simp only [List.forall_mem_cons]
  exact ⟨⟨by decide, Naming.isWord_ofList _ (by decide)⟩,
    ⟨by decide, Naming.isWord_ofList _ (by decide)⟩, List.forall_mem_nil _⟩

theorem reads_size : Reads (sizeSignature d) ⟨d.name ++ "GetMessageSize", ["msg"]⟩ := by
  have hparameters : "moduleMsg_t* msg" = parameterList [messageParameter] := by decide
  rw [sizeSignature_eq, hparameters]
  exact reads_typed (isType_ofList _ (by decide))
    (h.name.append (Naming.isWord_ofList _ (by decide))) readable_message

end Reads

/-! ## Signatures of the files -/

theorem signatures_append (front back : Lines) :
    signatures (front ++ back) = signatures front ++ signatures back := List.filterMap_append

theorem signatures_eq_nil {lines : Lines} (h : ∀ line ∈ lines, signature? line = none) :
    signatures lines = [] := List.filterMap_eq_nil_iff.2 h

theorem signatures_prototype {text : String} {g : Signature} (h : Reads text g) :
    signatures (prototype text) = [g] := by
  rw [signatures, prototype, List.filterMap_cons_some h.2]
  rfl

theorem signature?_of_mem_indent {body : Lines} {line : String} (h : line ∈ indent margin body) :
    signature? line = none := by
  rcases first?_of_mem_indent (first?_ofList _ _) h with hfirst | rfl
  · apply signature?_of_blank
    rw [hfirst]
    decide
  · exact signature?_of_last? rfl (by decide)

theorem signatures_function {text : String} {g : Signature} (h : Reads text g) (body : Lines) :
    signatures (function text body) = [g] := by
  have hblock : ∀ line ∈ block (indent margin body), signature? line = none := by
    simp only [block, blockThen, List.forall_mem_append, List.forall_mem_singleton]
    exact ⟨⟨signature?_of_last? (last?_ofList rfl) (by decide),
      fun line hline => signature?_of_mem_indent hline⟩,
      signature?_of_last? rfl (x := some '\x7d') (by decide)⟩
  rw [signatures, function, List.singleton_append, List.filterMap_cons_some h.1, ← signatures,
    signatures_eq_nil hblock]

theorem signatures_gap (lines : Lines) : signatures ([""] ++ lines) = signatures lines := by
  rw [signatures_append, signatures_eq_nil (List.forall_mem_singleton.2
    (signature?_of_last? rfl (by decide)))]
  rfl

/-- What the source of a message on the wire has behind the accessors. -/
def codecLines (d : Descriptor) : Lines :=
  if d.internal then []
  else [""] ++ function (serializeSignature d) (serializeBody d) ++
    ([""] ++ function (deserializeSignature d) (deserializeBody d) ++
      ([""] ++ function (sizeSignature d) (sizeBody d)))

theorem source_parts (names : OutputNames) (d : Descriptor) :
    source names d = sourceFront d names ++ (function (createSignature d) (createBody d) ++
      (d.slots.flatMap (slotAccessors d) ++ codecLines d)) := by
  cases hi : d.internal with
  | false =>
    rw [source_eq d names hi, codecLines, hi]
    rfl
  | true =>
    rw [source, codecLines, hi, if_pos rfl, if_pos rfl, sourceFront]
    simp only [List.append_assoc]
    rfl

theorem signature?_sourceFront (names : OutputNames) :
    ∀ line ∈ sourceFront d names, signature? line = none := by
  have hdeclaration : ∀ line ∈ recordDeclaration d, signature? line = none := by
    rw [recordDeclaration]
    split
    · exact List.forall_mem_nil _
    · have hclose : signature? ("\x7d" ++ (recordType d ++ ";")) = none := by
        rw [← String.append_assoc]
        exact signature?_of_semicolon (last?_append _ (last?_append _ (last?_ofList rfl)))
          (by decide)
      simp only [blockThen, List.forall_mem_append, List.forall_mem_singleton]
      exact ⟨⟨signature?_of_last? (last?_ofList rfl) (by decide),
        ⟨signature?_of_last? (last?_ofList rfl) (by decide),
          fun line hline => signature?_of_mem_indent hline⟩, hclose⟩,
        signature?_of_last? rfl (by decide)⟩
  simp only [sourceFront, List.forall_mem_append, List.forall_mem_cons]
  exact ⟨⟨fun line hline => signature?_of_mem_block hline, signature?_includeLine _,
    signature?_of_last? (last?_ofList rfl) (by decide), signature?_of_last? rfl (by decide),
    List.forall_mem_nil _⟩, hdeclaration⟩

include h in
theorem signatures_source (names : OutputNames) :
    signatures (source names d) = allSignatures d := by
  have haccessors : signatures (d.slots.flatMap (slotAccessors d)) =
      d.slots.flatMap (accessorSignatures d) := by
    rw [signatures, List.filterMap_flatMap]
    refine List.flatMap_congr fun s hs => ?_
    rw [← signatures, slotAccessors, List.append_assoc, signatures_gap, signatures_append,
      signatures_function (reads_getter h hs), signatures_gap,
      signatures_function (reads_setter h hs)]
    rfl
  have hcodec : signatures (codecLines d) = codecSignatures d := by
    rw [codecLines, codecSignatures]
    split
    · rfl
    · rw [List.append_assoc, signatures_gap, signatures_append,
        signatures_function (reads_serialize h), List.append_assoc, signatures_gap,
        signatures_append, signatures_function (reads_deserialize h), signatures_gap,
        signatures_function (reads_size h)]
      rfl
  rw [source_parts, signatures_append, signatures_eq_nil (signature?_sourceFront names),
    signatures_append, signatures_function (reads_create h), signatures_append, haccessors, hcodec]
  rfl

/-- What the header has in front of the prototypes. -/
def headerFront (names : OutputNames) (d : Descriptor) : Lines :=
  preamble names s!"{d.name}.h" .block ++
    [s!"#ifndef {guard d}", s!"#define {guard d}", "", "#include <stdint.h>",
      includeLine recordBaseHeader, includeLine s!"{names.addressEnum}.h"] ++
    (if names.sharedEnums.isSome then [includeLine "msg_enums.h"] else []) ++
    d.includes.map includeLine ++ [""]

/-- The prototypes of a message on the wire behind those of the accessors. -/
def codecPrototypes (d : Descriptor) : Lines :=
  if d.internal then []
  else prototype (serializeSignature d) ++ (prototype (deserializeSignature d) ++
    prototype (sizeSignature d))

theorem header_parts (names : OutputNames) (d : Descriptor) :
    header names d = headerFront names d ++ (prototype (createSignature d) ++
      (d.slots.flatMap (fun s => prototype (getterSignature d s) ++ prototype (setterSignature d s)) ++
        (codecPrototypes d ++ [s!"#endif /* {guard d} */"]))) := by
  rw [header, headerFront, codecPrototypes, guarded]
  simp only [List.append_assoc]
  rfl

theorem signature?_headerFront (names : OutputNames) :
    ∀ line ∈ headerFront names d, signature? line = none := by
  have hguard : ∀ directive : String, signature? (directive ++ guard d) = none := fun directive =>
    signature?_of_last? (last?_append _ (last?_append _ (last?_ofList rfl))) (by decide)
  have henums : ∀ line ∈ (if names.sharedEnums.isSome then [includeLine "msg_enums.h"] else []),
      signature? line = none := by
    split
    · exact List.forall_mem_singleton.2 (signature?_includeLine _)
    · exact List.forall_mem_nil _
  simp only [headerFront, List.forall_mem_append, List.forall_mem_cons, List.forall_mem_map]
  exact ⟨⟨⟨⟨fun line hline => signature?_of_mem_block hline, hguard _, hguard _,
    signature?_of_last? rfl (by decide), signature?_of_last? (last?_ofList rfl) (by decide),
    signature?_includeLine _, signature?_includeLine _, List.forall_mem_nil _⟩, henums⟩,
    fun path _ => signature?_includeLine path⟩, signature?_of_last? rfl (by decide),
    List.forall_mem_nil _⟩

include h in
theorem signatures_header (names : OutputNames) :
    signatures (header names d) = allSignatures d := by
  have haccessors : signatures (d.slots.flatMap fun s =>
      prototype (getterSignature d s) ++ prototype (setterSignature d s)) =
      d.slots.flatMap (accessorSignatures d) := by
    rw [signatures, List.filterMap_flatMap]
    refine List.flatMap_congr fun s hs => ?_
    rw [← signatures, signatures_append, signatures_prototype (reads_getter h hs),
      signatures_prototype (reads_setter h hs)]
    rfl
  have hcodec : signatures (codecPrototypes d) = codecSignatures d := by
    rw [codecPrototypes, codecSignatures]
    split
    · rfl
    · rw [signatures_append, signatures_prototype (reads_serialize h), signatures_append,
        signatures_prototype (reads_deserialize h), signatures_prototype (reads_size h)]
      rfl
  have hend : signatures [s!"#endif /* {guard d} */"] = [] :=
    signatures_eq_nil (List.forall_mem_singleton.2
      (signature?_of_last? (last?_append _ (last?_ofList rfl)) (by decide)))
  rw [header_parts, signatures_append, signatures_eq_nil (signature?_headerFront names),
    signatures_append, signatures_prototype (reads_create h), signatures_append, haccessors,
    signatures_append, hcodec, hend, List.append_nil]
  rfl

/-! ## Lines of the files -/

theorem oneLine_of_spelled (h : d.Spelled) (names : OutputNames) :
    ∀ line ∈ source names d, OneLine line := by
  cases hi : d.internal with
  | false => exact oneLine_source h hi names
  | true =>
    rw [source_parts, codecLines, hi, if_pos rfl]
    simp only [List.forall_mem_append, List.forall_mem_flatMap]
    exact ⟨oneLine_sourceFront h names,
      oneLine_function (oneLine_createSignature h) (oneLine_createBody h),
      fun s hs => oneLine_slotAccessors h hs, List.forall_mem_nil _⟩

theorem oneLine_prototype {text : String} (h : OneLine text) :
    ∀ line ∈ prototype text, OneLine line :=
  List.forall_mem_cons.2 ⟨h.append (oneLine_ofList _ (by decide)),
    List.forall_mem_singleton.2 oneLine_empty⟩

/-- The signatures of the header are lines of the source. -/
theorem oneLine_header (h : d.Worded) {names : OutputNames} (ha : OneLine names.addressEnum) :
    ∀ line ∈ header names d, OneLine line := by
  have hguard : OneLine (guard d) := oneLine_of_isWord (Naming.isWord_headerGuard _)
  have hname : OneLine d.name := oneLine_of_isWord h.spelled.name
  have hfront : ∀ line ∈ headerFront names d, OneLine line := by
    have henums : ∀ line ∈ (if names.sharedEnums.isSome then [includeLine "msg_enums.h"] else []),
        OneLine line := by
      split
      · exact List.forall_mem_singleton.2 (oneLine_includeLine (oneLine_ofList _ (by decide)))
      · exact List.forall_mem_nil _
    simp only [headerFront, List.forall_mem_append, List.forall_mem_cons, List.forall_mem_map]
    exact ⟨⟨⟨⟨oneLine_preamble names (hname.append (oneLine_ofList _ (by decide))) _,
      (oneLine_ofList _ (by decide)).append hguard, (oneLine_ofList _ (by decide)).append hguard,
      oneLine_empty, oneLine_ofList _ (by decide),
      oneLine_includeLine (oneLine_ofList _ (by decide)),
      oneLine_includeLine (ha.append (oneLine_ofList _ (by decide))), List.forall_mem_nil _⟩,
      henums⟩, fun path hpath => oneLine_includeLine (h.header path hpath)⟩, oneLine_empty,
      List.forall_mem_nil _⟩
  have haccessors : ∀ s ∈ d.slots,
      ∀ line ∈ prototype (getterSignature d s) ++ prototype (setterSignature d s), OneLine line := by
    intro s hs
    have hlines := oneLine_slotAccessors h.spelled hs
    exact List.forall_mem_append.2
      ⟨oneLine_prototype (hlines _ (by simp [slotAccessors, function])),
        oneLine_prototype (hlines _ (by simp [slotAccessors, function]))⟩
  have hcodec : ∀ line ∈ codecPrototypes d, OneLine line := by
    have hlines : ∀ line ∈ codecLines d, OneLine line := by
      intro line hline
      apply oneLine_of_spelled h.spelled names
      simp [source_parts, hline]
    rw [codecLines] at hlines
    rw [codecPrototypes]
    split
    · exact List.forall_mem_nil _
    · rename_i hi
      rw [if_neg hi] at hlines
      simp only [List.forall_mem_append]
      exact ⟨oneLine_prototype (hlines _ (by simp [function])),
        oneLine_prototype (hlines _ (by simp [function])),
        oneLine_prototype (hlines _ (by simp [function]))⟩
  rw [header_parts]
  simp only [List.forall_mem_append, List.forall_mem_flatMap, List.forall_mem_singleton]
  exact ⟨hfront, oneLine_prototype (oneLine_createSignature h.spelled),
    fun s hs => List.forall_mem_append.1 (haccessors s hs), hcodec,
    hguard.between (by decide) (by decide)⟩

end RecordModule

end Emit

open Emit RecordModule

/-! ## Names of parameters -/

theorem Emit.first?_ne {a b : String} {x y : Char} (ha : first? a = some x) (hb : first? b = some y)
    (h : x ≠ y) (c e : String) : a ++ c ≠ b ++ e := by
  intro heq
  have hfirst := first?_append ha c
  rw [heq, first?_append hb e] at hfirst
  exact h (Option.some.inj hfirst).symm

/-- The counters of a text end otherwise than the fixed names of parameters do. -/
theorem Field.counterName_ne (f : Field) {name : String} (h : last? name ≠ some 'h') :
    f.lengthName ≠ name ∧ f.capacityName ≠ name := by
  constructor
  · rintro rfl
    exact h (last?_append _ (last?_ofList rfl))
  · rintro rfl
    exact h (last?_append _ (last?_ofList rfl))

namespace Descriptor

variable {d : Descriptor}

/-- The parameters of creation that are called otherwise than counters are the scalars. -/
theorem mem_createNames_iff {name : String} (hn : last? name ≠ some 'h') :
    name ∈ (d.slots.filter Slot.isCreateArg).map Slot.name ↔
      ∃ f ∈ d.fields, f.kind.isScalar = true ∧ f.name = name := by
  constructor
  · intro h
    obtain ⟨s, hs, rfl⟩ := List.mem_map.1 h
    obtain ⟨hs, harg⟩ := List.mem_filter.1 hs
    obtain ⟨i, f, hf, hs⟩ := mem_slotsFrom.1 hs
    refine ⟨f, List.mem_of_getElem? hf, ?_⟩
    unfold Field.slots at hs
    split at hs
    · rename_i hkind
      rw [List.mem_singleton.1 hs]
      exact ⟨by rw [hkind]; rfl, rfl⟩
    · simp only [List.mem_cons, List.not_mem_nil, or_false] at hs
      rcases hs with rfl | rfl | rfl
      · cases harg
      · cases harg
      · exact absurd rfl (f.counterName_ne hn).2
    · cases hs
  · rintro ⟨f, hf, hscalar, rfl⟩
    obtain ⟨i, hi⟩ := List.mem_iff_getElem?.1 hf
    cases hkind : f.kind with
    | scalar type =>
      exact List.mem_map.2 ⟨_, List.mem_filter.2 ⟨value_mem_slots hi hkind, rfl⟩, rfl⟩
    | text =>
      rw [hkind] at hscalar
      cases hscalar
    | owned core =>
      rw [hkind] at hscalar
      cases hscalar

theorem nodup_createNames_iff (hc : d.Consistent) (he : d.targets.embedded = true) :
    ((createParameters d).map Parameter.name).Nodup ↔
      ∀ f ∈ d.fields, f.kind.isScalar = true → f.name ≠ "destination" ∧ f.name ≠ "msgNr" := by
  have hnames : (createParameters d).map Parameter.name =
      "destination" :: "msgNr" :: (d.slots.filter Slot.isCreateArg).map Slot.name := by
    rw [createParameters, List.map_append, List.map_map]
    rfl
  have hslots : ((d.slots.filter Slot.isCreateArg).map Slot.name).Nodup :=
    (hc.slot_names_nodup he).sublist (List.filter_sublist.map _)
  rw [hnames, List.nodup_cons, List.nodup_cons, List.mem_cons, not_or,
    mem_createNames_iff (by decide), mem_createNames_iff (by decide)]
  constructor
  · rintro ⟨⟨-, hdestination⟩, hnumber, -⟩ f hf hscalar
    exact ⟨fun hname => hdestination ⟨f, hf, hscalar, hname⟩,
      fun hname => hnumber ⟨f, hf, hscalar, hname⟩⟩
  · intro h
    refine ⟨⟨by decide, ?_⟩, ?_, hslots⟩
    · rintro ⟨f, hf, hscalar, hname⟩
      exact (h f hf hscalar).1 hname
    · rintro ⟨f, hf, hscalar, hname⟩
      exact (h f hf hscalar).2 hname

theorem nodup_setterNames_iff {s : Slot} : ((setterParameters s).map Parameter.name).Nodup ↔
    s.name ≠ "msg" ∧ (s.role = .payload → s.name ≠ "length") := by
  unfold setterParameters
  split
  · rename_i hrole
    have hnames : ([messageParameter, ⟨"const uint8_t*", s.name⟩, ⟨"uint32_t", "length"⟩].map
        Parameter.name).Nodup ↔ s.name ≠ "msg" ∧ s.name ≠ "length" := by
      simp [messageParameter, eq_comm]
    rw [hnames, hrole]
    simp
  · rename_i hrole
    have hnames : ([messageParameter, ⟨s.cType, s.name⟩].map Parameter.name).Nodup ↔
        s.name ≠ "msg" := by
      simp [messageParameter, eq_comm]
    rw [hnames]
    exact ⟨fun h => ⟨h, fun hpayload => absurd hpayload hrole⟩, And.left⟩

/-- Only the slot that is called like its field can be called like a fixed parameter. -/
theorem nodup_setters_iff (hc : d.Consistent) (he : d.targets.embedded = true) :
    (∀ s ∈ d.slots, ((setterParameters s).map Parameter.name).Nodup) ↔
      ∀ f ∈ d.fields, f.name ≠ "msg" ∧ (f.kind = .text → f.name ≠ "length") := by
  simp only [nodup_setterNames_iff]
  constructor
  · intro h f hf
    obtain ⟨i, hi⟩ := List.mem_iff_getElem?.1 hf
    have howned := hc.embedded he f hf
    cases hkind : f.kind with
    | scalar type => exact ⟨(h _ (value_mem_slots hi hkind)).1, FieldKind.noConfusion⟩
    | text =>
      obtain ⟨hmsg, hlength⟩ := h _ (payload_mem_slots hi hkind)
      exact ⟨hmsg, fun _ => hlength rfl⟩
    | owned core =>
      rw [hkind] at howned
      cases howned
  · intro h s hs
    obtain ⟨i, f, hf, hs⟩ := mem_slotsFrom.1 hs
    obtain ⟨hmsg, hlength⟩ := h f (List.mem_of_getElem? hf)
    -- The name of a counter ends with an `h`, so it is not `msg`.
    have hcounter : f.lengthName ≠ "msg" ∧ f.capacityName ≠ "msg" := f.counterName_ne (by decide)
    unfold Field.slots at hs
    split at hs
    · rw [List.mem_singleton.1 hs]
      exact ⟨hmsg, SlotRole.noConfusion⟩
    · rename_i hkind
      simp only [List.mem_cons, List.not_mem_nil, or_false] at hs
      rcases hs with rfl | rfl | rfl
      · exact ⟨hmsg, fun _ => hlength hkind⟩
      · exact ⟨hcounter.1, SlotRole.noConfusion⟩
      · exact ⟨hcounter.2, SlotRole.noConfusion⟩
    · cases hs

/-! ## Signatures of a message -/

/-- A header or a source that declares the functions of a record, with what decides whether their
parameters have different names. -/
structure Signed (d : Descriptor) (lines : Lines) : Prop where
  create : ∃ ps, ⟨d.name ++ "Create", ps⟩ ∈ signatures lines
  setter : ∀ s ∈ d.slots, ∃ ps, ⟨d.name ++ "Set" ++ s.accessor, ps⟩ ∈ signatures lines
  create_distinct : (∀ g ∈ signatures lines, g.name = d.name ++ "Create" → g.parameters.Nodup) ↔
    ∀ f ∈ d.fields, f.kind.isScalar = true → f.name ≠ "destination" ∧ f.name ≠ "msgNr"
  setters_distinct : (∀ g ∈ signatures lines, ∀ stem, g.name = d.name ++ "Set" ++ stem →
    g.parameters.Nodup) ↔ ∀ f ∈ d.fields, f.name ≠ "msg" ∧ (f.kind = .text → f.name ≠ "length")

theorem mem_allSignatures {g : Signature} (h : g ∈ allSignatures d) : g = createRead d ∨
    (∃ s ∈ d.slots, g = ⟨d.name ++ ("Get" ++ s.accessor), ["msg"]⟩) ∨
    (∃ s ∈ d.slots, g =
      ⟨d.name ++ ("Set" ++ s.accessor), (setterParameters s).map Parameter.name⟩) ∨
    g.name = d.name ++ "Serialize" ∨ g.name = d.name ++ "Deserialize" ∨
      g.name = d.name ++ "GetMessageSize" := by
  rcases List.mem_cons.1 h with rfl | h
  · exact .inl rfl
  refine .inr ?_
  rcases List.mem_append.1 h with h | h
  · obtain ⟨s, hs, hg⟩ := List.mem_flatMap.1 h
    rw [accessorSignatures, String.append_assoc, String.append_assoc] at hg
    simp only [List.mem_cons, List.not_mem_nil, or_false] at hg
    rcases hg with rfl | rfl
    · exact .inl ⟨s, hs, rfl⟩
    · exact .inr (.inl ⟨s, hs, rfl⟩)
  · refine .inr (.inr ?_)
    rw [codecSignatures] at h
    split at h
    · cases h
    · simp only [List.mem_cons, List.not_mem_nil, or_false] at h
      rcases h with rfl | rfl | rfl
      · exact .inl rfl
      · exact .inr (.inl rfl)
      · exact .inr (.inr rfl)

theorem eq_createRead {g : Signature} (h : g ∈ allSignatures d)
    (hname : g.name = d.name ++ "Create") : g = createRead d := by
  rcases mem_allSignatures h with rfl | ⟨s, -, rfl⟩ | ⟨s, -, rfl⟩ | hg | hg | hg
  · rfl
  · exact absurd hname (append_ne (ofList_append_ne (by decide) _))
  · exact absurd hname (append_ne (ofList_append_ne (by decide) _))
  · exact absurd (hname.symm.trans hg) (append_ne (by decide))
  · exact absurd (hname.symm.trans hg) (append_ne (by decide))
  · exact absurd (hname.symm.trans hg) (append_ne (by decide))

theorem eq_setterRead {g : Signature} (h : g ∈ allSignatures d) {stem : String}
    (hname : g.name = d.name ++ "Set" ++ stem) :
    ∃ s ∈ d.slots, g =
      ⟨d.name ++ ("Set" ++ s.accessor), (setterParameters s).map Parameter.name⟩ := by
  rw [String.append_assoc] at hname
  rcases mem_allSignatures h with rfl | ⟨s, -, rfl⟩ | hset | hg | hg | hg
  · exact absurd hname.symm (append_ne (ofList_append_ne (by decide) _))
  · exact absurd hname (append_ne (first?_ne (first?_ofList _ _) (first?_ofList _ _) (by decide) _ _))
  · exact hset
  · exact absurd (hname.symm.trans hg) (append_ne (ofList_append_ne (by decide) _))
  · exact absurd (hname.symm.trans hg) (append_ne (ofList_append_ne (by decide) _))
  · exact absurd (hname.symm.trans hg) (append_ne (ofList_append_ne (by decide) _))

theorem signed_of_signatures (hc : d.Consistent) (he : d.targets.embedded = true) {lines : Lines}
    (h : signatures lines = allSignatures d) : d.Signed lines := by
  have hsetter : ∀ s ∈ d.slots,
      ⟨d.name ++ "Set" ++ s.accessor, (setterParameters s).map Parameter.name⟩ ∈
        signatures lines := by
    intro s hs
    rw [h]
    exact List.mem_cons_of_mem _ (List.mem_append_left _ (List.mem_flatMap.2
      ⟨s, hs, List.mem_cons_of_mem _ List.mem_cons_self⟩))
  have hcreate : createRead d ∈ signatures lines := by
    rw [h]
    exact List.mem_cons_self
  refine ⟨⟨_, hcreate⟩, fun s hs => ⟨_, hsetter s hs⟩, ?_, ?_⟩
  · rw [← nodup_createNames_iff hc he]
    constructor
    · exact fun hall => hall _ hcreate rfl
    · intro hnodup g hg hname
      rw [h] at hg
      rw [eq_createRead hg hname]
      exact hnodup
  · rw [← nodup_setters_iff hc he]
    constructor
    · exact fun hall s hs => hall _ (hsetter s hs) s.accessor rfl
    · intro hnodup g hg stem hname
      rw [h] at hg
      obtain ⟨s, hs, rfl⟩ := eq_setterRead hg hname
      exact hnodup s hs

end Descriptor

/-- **Parameters of record functions.** The header and the source of an embedded message declare its
creation and its setters. The parameters of creation have different names exactly if no scalar is
called `destination` or `msgNr`, and the parameters of every setter exactly if no field is called
`msg` and no text is called `length`. -/
theorem parameters_distinct_iff {config : Config} {interface : Interface} {location : Location}
    {declaration : String} {d : Descriptor}
    (hbuild : Descriptor.build config interface location declaration = .ok d)
    (htarget : interface.targets.embedded = true) :
    ∃ header source, header = RecordModule.header config.output d ∧
      source = RecordModule.source config.output d ∧
      config.Prints (messageArtifacts config.output d) .embedded ⟨s!"inc/{d.name}.h"⟩ header ∧
      config.Prints (messageArtifacts config.output d) .embedded ⟨s!"src/{d.name}.c"⟩ source ∧
      d.Signed header ∧ d.Signed source := by
  obtain ⟨hc, htargets⟩ := Descriptor.consistent_of_build hbuild
  have hw := Descriptor.worded_of_build hbuild
  have he : d.targets.embedded = true := by rw [htargets, htarget]
  have hfiles : artifacts config.output d ⊆ messageArtifacts config.output d := by
    rw [messageArtifacts, if_pos he]
    exact List.subset_append_right _ _
  refine ⟨_, _, rfl, rfl, ?_, ?_, ?_, ?_⟩
  · refine Config.prints_of_artifact (hfiles List.mem_cons_self) fun hvalid => ?_
    obtain ⟨-, -, haddress⟩ := Config.isIdentifier_of_fault? hvalid
    exact oneLine_header hw (oneLine_of_isWord (Naming.isWord_of_isIdentifier haddress))
  · have hmem := hfiles (List.mem_cons_of_mem _ List.mem_cons_self)
    exact Config.prints_of_artifact hmem fun _ => oneLine_of_spelled hw.spelled config.output
  · exact Descriptor.signed_of_signatures hc he (signatures_header hw.spelled config.output)
  · exact Descriptor.signed_of_signatures hc he (signatures_source hw.spelled config.output)

theorem parameters_distinct_mixed : ∃ header source,
    Config.Prints {} (messageArtifacts {} .mixed) .embedded ⟨"inc/M.h"⟩ header ∧
    Config.Prints {} (messageArtifacts {} .mixed) .embedded ⟨"src/M.c"⟩ source ∧
    (∀ lines ∈ [header, source], ∀ g ∈ signatures lines,
      g.name = "MCreate" ∨ (∃ stem, g.name = "MSet" ++ stem) → g.parameters.Nodup) ∧
    ∃ ps, ⟨"MCreate", ps⟩ ∈ signatures header := by
  obtain ⟨header, source, -, -, hheader, hsource, hdeclared, hdefined⟩ :=
    parameters_distinct_iff Descriptor.build_mixed rfl
  have hsigned : ∀ lines ∈ [header, source], Descriptor.mixed.Signed lines :=
    List.forall_mem_cons.2 ⟨hdeclared, List.forall_mem_singleton.2 hdefined⟩
  refine ⟨header, source, hheader, hsource, fun lines hlines g hg hname => ?_, hdeclared.create⟩
  rcases hname with hname | ⟨stem, hname⟩
  · exact (hsigned lines hlines).create_distinct.2 (by decide) g hg hname
  · exact (hsigned lines hlines).setters_distinct.2 (by decide) g hg stem hname

/-- A message with a field that is called like the first parameter of every setter. -/
def Descriptor.selfNamed : Descriptor :=
  { name := "Msg_P"
    interface := "FC_A"
    targets := ⟨false, true⟩
    fields := [⟨"msg", "uint8_t", .scalar .u8⟩]
    includes := []
    internal := false
    location := ⟨"m", 2⟩ }

/-- The setter of the field has two parameters of one name, in the header and in the source. -/
theorem parameters_of_self_named :
    Descriptor.build {} (.empty "FC_A" ⟨false, true⟩ ⟨"m", 1⟩) ⟨"m", 2⟩
      "Msg_P --member uint8_t msg" = .ok .selfNamed ∧
    ⟨"Msg_PSetMsg", ["msg", "msg"]⟩ ∈ signatures (header {} .selfNamed) ∧
    ⟨"Msg_PSetMsg", ["msg", "msg"]⟩ ∈ signatures (source {} .selfNamed) := by
  have hbuild : Descriptor.build {} (.empty "FC_A" ⟨false, true⟩ ⟨"m", 1⟩) ⟨"m", 2⟩
      "Msg_P --member uint8_t msg" = .ok .selfNamed := Outcome.of_toOption (by decide +kernel)
  have hspelled := (Descriptor.worded_of_build hbuild).spelled
  rw [signatures_header hspelled, signatures_source hspelled]
  exact ⟨hbuild, by decide, by decide⟩

end WireSchema
