import WireSchema.Generate
import WireSchema.Proofs.Emit.Dispatchers
import WireSchema.Proofs.Emit.HostHeaders
import WireSchema.Proofs.Emit.RecordCodec
import WireSchema.Proofs.Wire.MessageRoundTrip

/-!
# Generated stream operators

The class of a host message writes itself with one generated operator and reads itself with another,
and a message is encoded and decoded field by field. The operators are generated by separate
functions with different statements for each kind of field.

**Theorem (`streams_follow_message`).** For every message of a host interface that is on the wire,
both operators move the members of the fields in the order of declaration, each once. This is the
order in which a message is encoded and decoded. A text is erased before it is read, and an owned
value is moved through its pointer, with a default value where there is none. The class of an
internal message has no operator.
-/

namespace WireSchema

open Emit Wire

/-! ## Reading an operator -/

/-- What a statement of a stream operator does. -/
inductive StreamStep where
  /-- The member is moved. -/
  | member (name : String)
  /-- What the member points to is moved. -/
  | pointee (name : String)
  /-- A default value of the type is moved. -/
  | default (type : String)
  /-- The member is emptied. -/
  | erase (name : String)
  /-- The member gets a default value of the type to point to. -/
  | fresh (name type : String)
deriving Repr, DecidableEq

namespace StreamStep

/-- The member that is moved, itself or what it points to. -/
def moved? : StreamStep → Option String
  | member name | pointee name => some name
  | default _ | erase _ | fresh _ _ => none

/-- What is moved: `*member`, `type()` or `member`. -/
def ofOperand (text : String) : StreamStep :=
  match between? "*" "" text with
  | some name => pointee name
  | none =>
    match between? "" "()" text with
    | some type => default type
    | none => member text

theorem ofOperand_pointee (name : String) : ofOperand ("*" ++ name) = pointee name := by
  have hread : between? "*" "" ("*" ++ name) = some name :=
    between?_eq_some_iff.2 String.append_empty.symm
  rw [ofOperand, hread]

theorem ofOperand_default {type : String} (h : StartsWord type) :
    ofOperand (type ++ "()") = default type := by
  obtain ⟨c, hc, hword⟩ := h
  have hstar : c ≠ '*' := by
    rintro rfl
    exact absurd hword (by decide)
  have hread : between? "*" "" (type ++ "()") = none :=
    between?_eq_none (first?_ofList _ _) (first?_append hc _) (mt Option.some.inj hstar) _
  have htype : between? "" "()" (type ++ "()") = some type := by
    rw [between?_eq_some_iff, String.empty_append]
  rw [ofOperand, hread]
  simp only [htype]

theorem ofOperand_member {name : String} (h : Naming.IsWord name) :
    ofOperand name = member name := by
  have hstar : between? "*" "" name = none := by
    rw [Option.eq_none_iff_forall_ne_some]
    intro rest hrest
    refine h.not_mem (c := '*') (by decide) ?_
    rw [between?_eq_some_iff.1 hrest]
    simp
  have hcall : between? "" "()" name = none := by
    rw [Option.eq_none_iff_forall_ne_some]
    intro type htype
    exact h.not_mem (c := '(') (by decide) ((suffix_of_between? htype).mem List.mem_cons_self)
  rw [ofOperand, hstar]
  simp only [hcall]

end StreamStep

namespace Emit

/-- How a statement starts that moves something. -/
def Flow.operator : Flow → String
  | output => "os << "
  | input => "is >> "

/-- The word in front of a statement and what the statement says behind it between its opening and
its closing, whatever its margin. -/
def onMember? (opening closing line : String) : Option (String × String) :=
  let text := (unindent line).toList
  (between? opening closing (String.ofList (text.dropWhile Naming.isWordChar))).map
    (String.ofList (text.takeWhile Naming.isWordChar), ·)

/-- What a line of a stream operator does. -/
def streamStep? (flow : Flow) (line : String) : Option StreamStep :=
  (statement? flow.operator ";" line).map .ofOperand <|>
    (onMember? ".erase(" ");" line).map (fun p => .erase p.1) <|>
    (onMember? " = std::make_unique<" ">();" line).map (fun p => .fresh p.1 p.2)

/-- What the body of a stream operator does in the order of the text. -/
def streamSteps (flow : Flow) (body : Lines) : List StreamStep := body.filterMap (streamStep? flow)

theorem IsMargin.streamStep?_append {margin : String} (h : IsMargin margin) (flow : Flow)
    (line : String) : streamStep? flow (margin ++ line) = streamStep? flow line := by
  simp only [streamStep?, statement?, onMember?, h.unindent_append]

theorem streamSteps_indent (flow : Flow) (lines : Lines) :
    streamSteps flow (indent "\t" lines) = streamSteps flow lines := by
  refine filterMap_indent (fun line => ?_) lines
  rw [behind]
  split
  · rfl
  · exact isMargin_tab.streamStep?_append flow line

theorem Flow.stop?_operator (flow : Flow) : stop? flow.operator = some ' ' := by
  cases flow <;> decide

/-- What is moved is read behind the operator. -/
theorem streamStep?_operator (flow : Flow) (operand : String) :
    streamStep? flow (flow.operator ++ operand ++ ";") = some (.ofOperand operand) := by
  have hread : statement? flow.operator ";" (flow.operator ++ operand ++ ";") = some operand := by
    cases flow <;> exact statement?_eq_some (first?_ofList _ _) (by decide)
  rw [streamStep?, hread]
  rfl

/-- A line whose first word is followed neither by a blank nor by a call on it. -/
theorem streamStep?_eq_none {line : String} {x : Char} (hx : stop? line = some x)
    (h : isBlank x = false ∧ x ≠ '.') (flow : Flow) : streamStep? flow line = none := by
  have hblank : x ≠ ' ' := by
    rintro rfl
    exact absurd h.1 (by decide)
  have hmoved : statement? flow.operator ";" line = none :=
    statement?_eq_none_of_stop? flow.stop?_operator hx ⟨hblank, h.1⟩ _
  have hrest : first? (String.ofList (line.toList.dropWhile Naming.isWordChar)) = some x := by
    rw [first?, String.toList_ofList, ← List.find?_not_eq_head?_dropWhile]
    exact hx
  have hother {opening : String} {c : Char} (ho : first? opening = some c) (hc : x ≠ c)
      (closing : String) : onMember? opening closing line = none := by
    rw [onMember?, unindent_of_first? (first?_of_stop? hx h.1)]
    simp only [between?_eq_none ho hrest (mt Option.some.inj hc), Option.map_none]
  rw [streamStep?, hmoved, hother (first?_ofList _ _) h.2, hother (first?_ofList _ _) hblank]
  rfl

section Members

variable {f : Field} (hf : Naming.IsWord f.name)

theorem first?_member (f : Field) (text : String) : first? (f.member ++ text) = some 'm' :=
  first?_append (first?_append (first?_ofList _ _) _) _

include hf

theorem onMember?_member {text : String} (ht : (first? text).all (!Naming.isWordChar ·) = true)
    (opening closing : String) : onMember? opening closing (f.member ++ text) =
      (between? opening closing text).map (f.member, ·) := by
  have hfirst : (first? (f.member ++ text)).any isBlank = false := by
    rw [first?_member]
    rfl
  have htake : (f.member ++ text).toList.takeWhile Naming.isWordChar = f.member.toList := by
    rw [String.toList_append]
    exact takeWhile_append_of_stop (Naming.isWord_memberName hf) ht
  have hdrop : (f.member ++ text).toList.dropWhile Naming.isWordChar = text.toList := by
    have hsplit := List.takeWhile_append_dropWhile (p := Naming.isWordChar)
      (l := (f.member ++ text).toList)
    rw [htake] at hsplit
    nth_rewrite 2 [String.toList_append] at hsplit
    exact List.append_cancel_left hsplit
  rw [onMember?, unindent_of_first? hfirst]
  simp only [htake, hdrop, String.ofList_toList]

omit hf in
theorem statement?_operator_member (flow : Flow) (text : String) :
    statement? flow.operator ";" (f.member ++ text) = none := by
  cases flow <;> exact statement?_eq_none (first?_ofList _ _) (first?_member f text) (by decide) _

theorem streamStep?_erase (flow : Flow) :
    streamStep? flow (f.member ++ ".erase();") = some (.erase f.member) := by
  have herase : onMember? ".erase(" ");" (f.member ++ ".erase();") = some (f.member, "") := by
    have hread : between? ".erase(" ");" ".erase();" = some "" := between?_eq_some_iff.2 rfl
    rw [onMember?_member hf (by decide), hread]
    rfl
  rw [streamStep?, statement?_operator_member, herase]
  rfl

theorem streamStep?_fresh (flow : Flow) (type : String) :
    streamStep? flow (f.member ++ (" = std::make_unique<" ++ type ++ ">();")) =
      some (.fresh f.member type) := by
  have hfirst : first? (" = std::make_unique<" ++ type ++ ">();") = some ' ' :=
    first?_append (first?_append (first?_ofList _ _) _) _
  have herase : onMember? ".erase(" ");"
      (f.member ++ (" = std::make_unique<" ++ type ++ ">();")) = none := by
    rw [onMember?_member hf (by rw [hfirst]; decide),
      between?_eq_none (first?_ofList _ _) hfirst (by decide)]
    rfl
  have hfresh : onMember? " = std::make_unique<" ">();"
      (f.member ++ (" = std::make_unique<" ++ type ++ ">();")) = some (f.member, type) := by
    rw [onMember?_member hf (by rw [hfirst]; decide), between?_eq_some_iff.2 rfl]
    rfl
  rw [streamStep?, statement?_operator_member, herase, hfresh]
  rfl

end Members

end Emit

/-! ## Steps of a field -/

/-- The steps that move a field. A text is emptied before it is read. An owned value is moved
through its pointer: a default value is written if there is none, and one is made to read into. -/
def Field.streamSteps (f : Field) : Flow → List StreamStep
  | .output =>
    match f.kind with
    | .scalar _ | .text => [.member f.member]
    | .owned core => [.pointee f.member, .default (pointeeName core)]
  | .input =>
    match f.kind with
    | .scalar _ => [.member f.member]
    | .text => [.erase f.member, .member f.member]
    | .owned core => [.fresh f.member (pointeeName core), .pointee f.member]

/-- Each step of a field moves its member, once. -/
theorem Field.moved_streamSteps (f : Field) (flow : Flow) :
    (f.streamSteps flow).filterMap StreamStep.moved? = [f.member] := by
  cases flow with
  | output =>
    rw [streamSteps]
    cases f.kind <;> rfl
  | input =>
    rw [streamSteps]
    cases f.kind <;> rfl

theorem Descriptor.moved_streamSteps (d : Descriptor) (flow : Flow) :
    (d.fields.flatMap (·.streamSteps flow)).filterMap StreamStep.moved? =
      d.fields.map Field.member := by
  rw [List.filterMap_flatMap]
  simp only [Field.moved_streamSteps]
  exact List.map_eq_flatMap.symm

namespace Emit.HostClass

variable {d : Descriptor} {f : Field}

theorem streamStep?_brace (flow : Flow) :
    streamStep? flow "\x7b" = none ∧ streamStep? flow ("\x7d" ++ "") = none :=
  ⟨streamStep?_eq_none (x := '\x7b') (by decide) (by decide) flow,
    streamStep?_eq_none (x := '\x7d') (by decide) (by decide) flow⟩

/-- Braces do nothing by themselves. -/
theorem streamSteps_block (flow : Flow) (lines : Lines) :
    streamSteps flow (block lines) = streamSteps flow lines := by
  obtain ⟨hopen, hclose⟩ := streamStep?_brace flow
  rw [block, blockThen, streamSteps, List.filterMap_append, List.filterMap_append,
    List.filterMap_cons_none hopen, List.filterMap_cons_none hclose, List.filterMap_nil,
    List.nil_append, List.append_nil]
  rfl

theorem streamSteps_append (flow : Flow) (lines rest : Lines) :
    streamSteps flow (lines ++ rest) = streamSteps flow lines ++ streamSteps flow rest :=
  List.filterMap_append

/-- What a member points to. -/
theorem streamStep?_pointee (flow : Flow) (name : String) :
    streamStep? flow (flow.operator ++ ("*" ++ name) ++ ";") = some (.pointee name) := by
  rw [streamStep?_operator, StreamStep.ofOperand_pointee]

/-- A condition that starts so does nothing by itself. -/
theorem streamStep?_if {opening : String} (h : stop? opening = some '(') (flow : Flow)
    (rest closing : String) : streamStep? flow (opening ++ rest ++ closing) = none :=
  streamStep?_eq_none (stop?_append_of_some (stop?_append_of_some h _) _) (by decide) flow

section Fields

variable (hf : Naming.IsWord f.name)
include hf

/-- A member that is moved without a pointer. -/
theorem streamStep?_moved (flow : Flow) :
    streamStep? flow (flow.operator ++ f.member ++ ";") = some (.member f.member) := by
  have hword : Naming.IsWord f.member := Naming.isWord_memberName hf
  rw [streamStep?_operator, StreamStep.ofOperand_member hword]

theorem streamSteps_writeField (hp : ∀ name, pointee? f = some name → StartsWord name) :
    streamSteps .output (writeField f) = f.streamSteps .output := by
  rw [writeField, Field.streamSteps]
  cases hkind : f.kind with
  | scalar type =>
    rw [pointee?, hkind]
    exact List.filterMap_cons_some (streamStep?_moved hf .output)
  | text =>
    rw [pointee?, hkind]
    exact List.filterMap_cons_some (streamStep?_moved hf .output)
  | owned core =>
    have hcore := hp (pointeeName core) (pointee?_eq_some.2 ⟨core, hkind, rfl⟩)
    have hif : streamSteps .output [s!"if({f.member})"] = [] :=
      List.filterMap_cons_none (streamStep?_if (by decide) _ _ _)
    have helse : streamSteps .output ["else"] = [] := List.filterMap_cons_none (by decide)
    have hpointee : streamSteps .output [s!"\tos << *{f.member};"] = [.pointee f.member] := by
      have hline : s!"\tos << *{f.member};" =
          "\t" ++ (Flow.output.operator ++ ("*" ++ f.member) ++ ";") := by
        apply String.toList_inj.1
        simp [Flow.operator, toString]
      rw [hline]
      exact List.filterMap_cons_some
        ((isMargin_tab.streamStep?_append _ _).trans (streamStep?_pointee .output f.member))
    have hdefault : streamSteps .output [s!"\tos << {pointeeName core}();"] =
        [.default (pointeeName core)] := by
      have hline : s!"\tos << {pointeeName core}();" =
          "\t" ++ (Flow.output.operator ++ (pointeeName core ++ "()") ++ ";") := by
        apply String.toList_inj.1
        simp [Flow.operator, toString]
      rw [hline]
      refine List.filterMap_cons_some ((isMargin_tab.streamStep?_append _ _).trans ?_)
      rw [streamStep?_operator, StreamStep.ofOperand_default hcore]
    rw [pointee?, hkind]
    simp only [streamSteps_append, streamSteps_block, hif, hpointee, helse, hdefault]
    rfl

theorem streamSteps_readField : streamSteps .input (readField f) = f.streamSteps .input := by
  rw [readField, Field.streamSteps]
  cases hkind : f.kind with
  | scalar type =>
    rw [pointee?, hkind]
    exact List.filterMap_cons_some (streamStep?_moved hf .input)
  | text =>
    have herase : streamSteps .input [s!"{f.member}.erase();"] = [.erase f.member] :=
      List.filterMap_cons_some (streamStep?_erase hf .input)
    have hread : streamSteps .input [s!"is >> {f.member};"] = [.member f.member] :=
      List.filterMap_cons_some (streamStep?_moved hf .input)
    rw [pointee?, hkind]
    simp only [if_true, streamSteps_append, herase, hread]
    rfl
  | owned core =>
    have hif : streamSteps .input [s!"if(!{f.member})"] = [] :=
      List.filterMap_cons_none (streamStep?_if (by decide) _ _ _)
    have hfresh : streamSteps .input [s!"\t{f.member} = std::make_unique<{pointeeName core}>();"] =
        [.fresh f.member (pointeeName core)] := by
      have hline : s!"\t{f.member} = std::make_unique<{pointeeName core}>();" =
          "\t" ++ (f.member ++ (" = std::make_unique<" ++ pointeeName core ++ ">();")) := by
        apply String.toList_inj.1
        simp [toString]
      rw [hline]
      exact List.filterMap_cons_some
        ((isMargin_tab.streamStep?_append _ _).trans (streamStep?_fresh hf .input _))
    have hpointee : streamSteps .input [s!"is >> *{f.member};"] = [.pointee f.member] := by
      have hline : s!"is >> *{f.member};" = Flow.input.operator ++ ("*" ++ f.member) ++ ";" := by
        apply String.toList_inj.1
        simp [Flow.operator, toString]
      rw [hline]
      exact List.filterMap_cons_some (streamStep?_pointee .input f.member)
    rw [pointee?, hkind]
    simp only [streamSteps_append, streamSteps_block, hif, hfresh, hpointee]
    rfl

end Fields

/-- The body of an operator moves the fields in the order of declaration. -/
theorem streamSteps_operatorBody (h : d.Worded) (flow : Flow) :
    streamSteps flow (operatorBody d flow) = d.fields.flatMap (·.streamSteps flow) := by
  have hbase (text : String) (ht : stop? text = some ':') : streamSteps flow [text] = [] :=
    List.filterMap_cons_none (streamStep?_eq_none ht (by decide) flow)
  have hfields {lines : Field → Lines}
      (hl : ∀ f ∈ d.fields, streamSteps flow (lines f) = f.streamSteps flow) :
      streamSteps flow (d.fields.flatMap lines) = d.fields.flatMap (·.streamSteps flow) := by
    rw [streamSteps, List.filterMap_flatMap]
    exact List.flatMap_congr hl
  cases flow with
  | output =>
    have hreturn : streamSteps .output ["return os;"] = [] := List.filterMap_cons_none (by decide)
    rw [operatorBody, streamSteps_append, streamSteps_append, hbase _ (by decide), hreturn,
      hfields fun f hf => streamSteps_writeField (h.spelled.field f hf) fun name hname =>
        (h.pointee f hf name hname).2]
    rw [List.nil_append, List.append_nil]
  | input =>
    have hreturn : streamSteps .input ["return is;"] = [] := List.filterMap_cons_none (by decide)
    rw [operatorBody, streamSteps_append, streamSteps_append, hbase _ (by decide), hreturn,
      hfields fun f hf => streamSteps_readField (h.spelled.field f hf)]
    rw [List.nil_append, List.append_nil]

end Emit.HostClass

/-! ## Members of a message -/

namespace Message

/-- The value of the first field with a member. -/
def memberValue? (name : String) : List Field → List Value → Option Value
  | f :: fields, v :: values =>
    if f.member = name then some v else memberValue? name fields values
  | _, _ => none

def member? (m : Message) (name : String) : Option Value :=
  memberValue? name m.descriptor.fields m.values

/-- What is written for a member. -/
def written? (m : Message) (name : String) : Option (List UInt8) :=
  (m.member? name).map Value.streamed

/-- The members find the values in the order of the fields. -/
theorem Fitting.map_memberValue? {fields : List Field} {values : List Value}
    (h : Fitting fields values) (hn : (fields.map Field.member).Nodup) :
    (fields.map Field.member).map (memberValue? · fields values) = values.map some := by
  induction h with
  | nil => rfl
  | @cons f v fields values _ _ ih =>
    rw [List.map_cons, List.nodup_cons] at hn
    have htail : (fields.map Field.member).map (memberValue? · (f :: fields) (v :: values)) =
        (fields.map Field.member).map (memberValue? · fields values) := by
      refine List.map_congr_left fun name hname => ?_
      rw [memberValue?, if_neg]
      rintro rfl
      exact hn.1 hname
    rw [List.map_cons, List.map_cons, htail, ih hn.2, memberValue?, if_pos rfl, List.map_cons]

/-- The values are read one after the other. -/
theorem readValues_eq (fields : List Field) :
    readValues fields = fields.mapM fun f => readValue f.kind := by
  induction fields with
  | nil => rfl
  | cons f fields ih => rw [readValues, List.mapM_cons, ih]

end Message

/-- Reads a header and then a value for each field in the order of declaration. -/
def Descriptor.readFields (d : Descriptor) (typeId : UInt32) : Reader (Header × List Value) := do
  let header ← d.readHeader typeId
  let values ← d.fields.mapM fun f => Message.readValue f.kind
  return (header, values)

namespace Message

section Codec

variable {d : Descriptor} (hc : d.Consistent)
include hc

theorem map_member? {m : Message} (hd : m.descriptor = d) (hm : Fitting d.fields m.values) :
    (d.fields.map Field.member).map m.member? = m.values.map some := by
  have hnodup : (d.fields.map Field.member).Nodup := (List.nodup_append.1 hc.members_nodup).1
  subst hd
  exact hm.map_memberValue? hnodup

/-- The bytes of a message are its header and what is written for the members. -/
theorem encode_members {m : Message} (hm : Reachable d m) (hi : d.internal = false) :
    ∃ parts : List (List UInt8), (d.fields.map Field.member).map m.written? = parts.map some ∧
      m.encode = .ok (m.header.encode ++ parts.flatten) := by
  obtain ⟨hd, hfitting⟩ := hm.fitting
  refine ⟨m.values.map Value.streamed, ?_, ?_⟩
  · calc (d.fields.map Field.member).map m.written?
        = ((d.fields.map Field.member).map m.member?).map (Option.map Value.streamed) :=
          List.map_map.symm
      _ = (m.values.map some).map (Option.map Value.streamed) := by
          rw [map_member? hc hd hfitting]
      _ = (m.values.map Value.streamed).map some := by
          rw [List.map_map, List.map_map]
          rfl
  · rw [encode, hd, hi, ← List.flatMap_def]
    rfl

/-- Decoding is reading a header and the fields into their members. -/
theorem decode_members (typeId : UInt32) (bytes : List UInt8) :
    (decode d typeId bytes).map
        (fun m => (m.header, (d.fields.map Field.member).map m.member?)) =
      ((d.readFields typeId).parse bytes).map fun p => (p.1, p.2.map some) := by
  rw [decode, Descriptor.readFields, ← readValues_eq, read, Reader.parse, Reader.parse]
  simp only [bind, EStateM.bind]
  -- Both sides fail where one of the two reads does.
  cases d.readHeader typeId (Input.ofBytes bytes) with
  | error e j => rfl
  | ok header i =>
    dsimp only
    cases hvalues : readValues d.fields i with
    | error e j => rfl
    | ok values j =>
      have hmembers := map_member? hc (m := ⟨d, header, values⟩) rfl (fitting_readValues hvalues)
      simp only [pure, EStateM.pure, Except.map, hmembers]

end Codec

end Message

/-! ## Operators and messages -/

/-- A class whose stream operators move the fields in the order of declaration. -/
structure Descriptor.StreamedBy (d : Descriptor) (header source : Lines) : Prop where
  declared : ∀ flow, declaredStreams flow header = [flow.result]
  defined : ∀ flow, ∃ body, definedStreams flow source = [(d.name, body)] ∧
    streamSteps flow body = d.fields.flatMap (·.streamSteps flow) ∧
    (streamSteps flow body).filterMap StreamStep.moved? = d.fields.map Field.member

theorem Descriptor.streamedBy {d : Descriptor} (h : d.Worded) (hi : d.internal = false)
    (names : OutputNames) :
    d.StreamedBy (HostClass.header names d) (HostClass.source names d) where
  declared flow := by
    rw [HostClass.declaredStreams_header h.spelled, hi]
    rfl
  defined flow := by
    have hbody : streamSteps flow ("\x7b" :: indent "\t" (HostClass.operatorBody d flow)) =
        d.fields.flatMap (·.streamSteps flow) := by
      rw [streamSteps, List.filterMap_cons_none (HostClass.streamStep?_brace flow).1, ← streamSteps,
        streamSteps_indent, HostClass.streamSteps_operatorBody h]
    exact ⟨_, HostClass.definedStreams_source h.spelled.name hi names flow, hbody,
      (congrArg _ hbody).trans (d.moved_streamSteps flow)⟩

/-- **Generated stream operators follow the message.** Both operators of a host class move the
members of the fields in the order of declaration, each once. The bytes of a message are what is
written for these members behind the header, and decoding reads the fields into these members. The
type that an owned field points to follows from its declared type. The class of an internal message
has no operator. -/
theorem streams_follow_message {config : Config} {interface : Interface} {location : Location}
    {declaration : String} {d : Descriptor}
    (hbuild : Descriptor.build config interface location declaration = .ok d)
    (htarget : interface.targets.host = true) :
    ∃ header source, header = HostClass.header config.output d ∧
      source = HostClass.source config.output d ∧
      config.Prints (messageArtifacts config.output d) .host (HostClass.headerPath d) header ∧
      config.Prints (messageArtifacts config.output d) .host (HostClass.sourcePath d) source ∧
      (d.internal = false →
        d.StreamedBy header source ∧
        (∀ f ∈ d.fields, ∀ core, f.kind = .owned core →
          ∃ inner, f.typeName = pointerTo inner ∧ pointeeName core = config.coreName inner) ∧
        (∀ m, Message.Reachable d m → ∃ parts : List (List UInt8),
          (d.fields.map Field.member).map m.written? = parts.map some ∧
            m.encode = .ok (m.header.encode ++ parts.flatten)) ∧
        ∀ typeId bytes, (Message.decode d typeId bytes).map
            (fun m => (m.header, (d.fields.map Field.member).map m.member?)) =
          ((d.readFields typeId).parse bytes).map fun p => (p.1, p.2.map some)) ∧
      (d.internal = true → ∀ flow,
        declaredStreams flow header = [] ∧ definedStreams flow source = []) := by
  obtain ⟨hc, htargets⟩ := Descriptor.consistent_of_build hbuild
  obtain ⟨-, -, -, -, hbuilt⟩ := Descriptor.declared_of_build hbuild
  have hw := Descriptor.worded_of_build hbuild
  have hfiles : HostClass.artifacts config.output d ⊆ messageArtifacts config.output d := by
    rw [messageArtifacts, htargets, htarget, if_pos rfl]
    exact List.subset_append_left _ _
  refine ⟨_, _, rfl, rfl, ?_, ?_, ?_, ?_⟩
  · refine Config.prints_of_artifact (hfiles List.mem_cons_self) fun hvalid => ?_
    obtain ⟨hspace, htype⟩ := oneLine_outputNames hvalid
    exact HostClass.oneLine_header hw hspace htype
  · have hmem := hfiles (List.mem_cons_of_mem _ List.mem_cons_self)
    refine Config.prints_of_artifact hmem fun hvalid => ?_
    obtain ⟨hspace, htype⟩ := oneLine_outputNames hvalid
    exact HostClass.oneLine_source hw hspace htype
  · intro hi
    refine ⟨Descriptor.streamedBy hw hi config.output, fun f hf core hkind => ?_,
      fun m hm => Message.encode_members hc hm hi, Message.decode_members hc⟩
    obtain ⟨inner, htype, hcore⟩ := (hbuilt f hf).pointer hkind
    exact ⟨inner, htype, pointeeName_eq hcore⟩
  · intro hi flow
    rw [HostClass.declaredStreams_header hw.spelled, hi, if_pos rfl]
    exact ⟨rfl, HostClass.definedStreams_internal hw.spelled.name hi config.output flow⟩

/-- Numbers go by another name. -/
def Config.counting : Config := { aliases := .ofList [("Count", "uint16_t")] }

/-- A host message with a float, an owned number by its other name and a text behind them. -/
def Descriptor.counted : Descriptor :=
  { name := "H"
    interface := "G"
    targets := ⟨true, false⟩
    fields :=
      [⟨"a", "float", .scalar .f32⟩, ⟨"b", "std::unique_ptr<Count>", .owned (.scalar .u16)⟩,
       ⟨"c", "std::string", .text⟩]
    includes := []
    internal := false
    location := ⟨"m", 2⟩ }

theorem Descriptor.build_counted : build .counting (.empty "G" ⟨true, false⟩ ⟨"m", 1⟩) ⟨"m", 2⟩
    "H --member float a --member std::unique_ptr<Count> b --member std::string c" = .ok counted :=
  Outcome.of_toOption (by decide +kernel)

/-- An internal message without fields. -/
def Descriptor.hidden : Descriptor := { counted with fields := [], internal := true }

theorem Descriptor.build_hidden : build .counting (.empty "G" ⟨true, false⟩ ⟨"m", 1⟩) ⟨"m", 2⟩
    "H --internal" = .ok hidden :=
  Outcome.of_toOption (by decide +kernel)

theorem streams_follow_message_counted :
    Config.counting.fault? = none ∧
    (∃ header source,
      Config.counting.Prints (messageArtifacts {} .counted) .host ⟨"G/H.h"⟩ header ∧
      Config.counting.Prints (messageArtifacts {} .counted) .host ⟨"G/src/H.cpp"⟩ source ∧
      Descriptor.counted.StreamedBy header source) ∧
    Descriptor.counted.fields.flatMap (·.streamSteps .output) =
      [.member "mA", .pointee "mB", .default "uint16_t", .member "mC"] ∧
    Descriptor.counted.fields.flatMap (·.streamSteps .input) =
      [.member "mA", .fresh "mB" "uint16_t", .pointee "mB", .erase "mC", .member "mC"] ∧
    ∃ header source,
      Config.counting.Prints (messageArtifacts {} .hidden) .host ⟨"G/H.h"⟩ header ∧
      Config.counting.Prints (messageArtifacts {} .hidden) .host ⟨"G/src/H.cpp"⟩ source ∧
      ∀ flow, declaredStreams flow header = [] ∧ definedStreams flow source = [] := by
  obtain ⟨header, source, -, -, hheader, hsource, hwire, -⟩ :=
    streams_follow_message Descriptor.build_counted rfl
  obtain ⟨header', source', -, -, hheader', hsource', -, hhidden⟩ :=
    streams_follow_message Descriptor.build_hidden rfl
  exact ⟨by decide +kernel, ⟨header, source, hheader, hsource, (hwire rfl).1⟩, by decide, by decide,
    header', source', hheader', hsource', hhidden rfl⟩

end WireSchema
