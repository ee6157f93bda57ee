import Mathlib.Algebra.Ring.Nat
import WireSchema.Generate
import WireSchema.Proofs.Emit.RecordSources
import WireSchema.Proofs.Emit.SourceLists
import WireSchema.Proofs.Wire.CodecSteps
import WireSchema.Proofs.Wire.RecordSize

/-!
# Generated codecs of records

The encoder, the decoder and the size function of an embedded message are generated from its fields
and slots, and a record of the message is encoded and decoded field by field. Each of the generated
functions lists members, and the lists have to agree with one another and with the record.

**Theorem (`codec_follows_record`).** For every message on the wire of an embedded interface, the
generated encoder and the generated decoder move the same members by the same primitives, the
scalars in the order of declaration and then the texts. A record is encoded and decoded by just these
steps. What the generated size function adds up is the most bytes that the record can take.
-/

namespace WireSchema

open Emit Wire

/-! ## Reading a codec -/

namespace Emit

/-- How the arguments of a call of a codec start. -/
def codecBuffer : String := "(buffer, &buffer_size, "

/-- How a member of the record is named. -/
def codecRecord : String := "data->"

/-- The type and the member of a call of a codec: `buffer = <verb>_<type>(buffer, &buffer_size,
data-><member>` and what else follows. The member may be passed by its address. -/
def codecCall? (verb line : String) : Option (String × String) := do
  let call ← statement? ("buffer = " ++ verb ++ "_") ");" line
  let type := call.toList.takeWhile (· != '(')
  let arguments ← (call.toList.drop type.length).dropPrefix? codecBuffer.toList
  let target ← (arguments.dropWhile (· == '&')).dropPrefix? codecRecord.toList
  return (String.ofList type, String.ofList (target.takeWhile Naming.isWordChar))

/-- The calls of a codec in the order of the text. -/
def codecCalls (verb : String) (body : Lines) : List (String × String) :=
  body.filterMap (codecCall? verb)

/-- What is added to the size of the header. -/
def sizeConstants (body : Lines) : List String :=
  body.filterMap (statement? "uint32_t size = MSG_HEADER_SIZE + " ";")

/-- The members that are added with the width of a count. -/
def sizeTerms (body : Lines) : List String :=
  body.filterMap (statement? "size += 4 + data->" ";")

/-- What is read does not depend on the margin of the line, and nothing is read from a line that
does not start with `c`. -/
structure ReadsFrom {α : Type} (read : String → Option α) (c : Char) : Prop where
  behind {margin : String} (h : IsMargin margin) (line : String) :
    read (behind margin line) = read line
  eq_none {line : String} {x : Option Char} (hl : first? line = x)
    (h : x ≠ some c ∧ x.any isBlank = false) : read line = none

theorem readsFrom_statement? {opening : String} {c : Char} (h : first? opening = some c)
    (closing : String) : ReadsFrom (statement? opening closing) c where
  behind hm line := hm.statement?_behind opening closing line
  eq_none hl hx := statement?_eq_none h hl hx closing

namespace ReadsFrom

variable {α : Type} {read : String → Option α} {c : Char} (hr : ReadsFrom read c)
include hr

/-- A line that starts with another character. -/
theorem filterMap_cons {line : String} {x : Option Char} (hl : first? line = x)
    (h : x ≠ some c ∧ x.any isBlank = false) (lines : Lines) :
    (line :: lines).filterMap read = lines.filterMap read :=
  List.filterMap_cons_none (hr.eq_none hl h)

/-- A body as it stands in a function. -/
theorem filterMap_readBody (hc : some '\x7b' ≠ some c) (body : Lines) :
    (RecordModule.readBody body).filterMap read = body.filterMap read := by
  rw [RecordModule.readBody, hr.filterMap_cons (first?_ofList _ _) ⟨hc, by decide⟩,
    filterMap_indent (hr.behind isMargin_margin)]

theorem filterMap_ifBlock (hi : some 'i' ≠ some c) (ho : some '\x7b' ≠ some c)
    (hc : some '\x7d' ≠ some c) (condition : String) (body : Lines) :
    (RecordModule.ifBlock condition body).filterMap read = body.filterMap read := by
  have hif : first? (toString "if(" ++ toString condition ++ toString ")") = some 'i' :=
    first?_append (first?_append (first?_ofList _ _) _) _
  have hclose : first? ("\x7d" ++ "") = some '\x7d' := first?_append (first?_ofList _ _) _
  rw [RecordModule.ifBlock, block, blockThen, List.singleton_append,
    hr.filterMap_cons hif ⟨hi, by decide⟩, List.singleton_append, List.cons_append,
    hr.filterMap_cons (first?_ofList _ _) ⟨ho, by decide⟩, List.filterMap_append,
    filterMap_indent (hr.behind isMargin_margin), hr.filterMap_cons hclose ⟨hc, by decide⟩,
    List.filterMap_nil, List.append_nil]

end ReadsFrom

theorem first?_opening (verb : String) : first? ("buffer = " ++ verb ++ "_") = some 'b' :=
  first?_append (first?_append (first?_ofList _ _) _) _

theorem codecCall?_of_statement {verb line : String}
    (h : statement? ("buffer = " ++ verb ++ "_") ");" line = none) : codecCall? verb line = none := by
  rw [codecCall?, h]
  rfl

theorem readsFrom_codecCall? (verb : String) : ReadsFrom (codecCall? verb) 'b' where
  behind hm line := by rw [codecCall?, hm.statement?_behind, codecCall?]
  eq_none hl hx := codecCall?_of_statement (statement?_eq_none (first?_opening verb) hl hx _)

theorem dropPrefix?_append (front back : List Char) :
    (front ++ back).dropPrefix? front = some back :=
  List.dropPrefix?_eq_some_iff.2 ⟨front, rfl, beq_self_eq_true front⟩

theorem takeWhile_append_of_stop {p : Char → Bool} {front back : List Char}
    (hf : ∀ c ∈ front, p c = true) (hb : back.head?.all (!p ·) = true) :
    (front ++ back).takeWhile p = front := by
  rw [List.takeWhile_append_of_pos hf]
  cases back with
  | nil => exact List.append_nil _
  | cons c back =>
    rw [List.head?_cons, Option.all_some, Bool.not_eq_true'] at hb
    rw [List.takeWhile_cons_of_neg (Bool.eq_false_iff.1 hb), List.append_nil]

theorem first?_codecBuffer : first? codecBuffer = some '(' := first?_ofList _ _

theorem first?_codecRecord : first? codecRecord = some 'd' := first?_ofList _ _

/-- A call as the codecs have it. The member has a mark if it is passed by its address. -/
def codecCall (verb type : String) (mark : List Char) (member : String) (rest : List Char) :
    String :=
  "buffer = " ++ verb ++ "_" ++ String.ofList (type.toList ++ (codecBuffer.toList ++
    (mark ++ (codecRecord.toList ++ (member.toList ++ rest))))) ++ ");"

theorem dropWhile_mark {mark : List Char} (h : mark = [] ∨ mark = ['&']) (rest : List Char) :
    (mark ++ (codecRecord.toList ++ rest)).dropWhile (· == '&') = codecRecord.toList ++ rest := by
  obtain ⟨tail, hrecord⟩ := List.head?_eq_some_iff.1 first?_codecRecord
  rw [hrecord, List.cons_append]
  rcases h with rfl | rfl
  · rw [List.nil_append, List.dropWhile_cons_of_neg (by decide)]
  · rw [List.singleton_append, List.dropWhile_cons_of_pos (by decide),
      List.dropWhile_cons_of_neg (by decide)]

theorem codecCall?_codecCall {verb type member : String} {mark rest : List Char}
    (ht : '(' ∉ type.toList) (hmark : mark = [] ∨ mark = ['&']) (hm : Naming.IsWord member)
    (hrest : rest.head?.all (!Naming.isWordChar ·) = true) :
    codecCall? verb (codecCall verb type mark member rest) = some (type, member) := by
  have htype (arguments : List Char) :
      (type.toList ++ (codecBuffer.toList ++ arguments)).takeWhile (· != '(') = type.toList := by
    apply takeWhile_append_of_stop
    · intro c hc
      rw [bne_iff_ne]
      rintro rfl
      exact ht hc
    · obtain ⟨tail, hbuffer⟩ := List.head?_eq_some_iff.1 first?_codecBuffer
      rw [hbuffer]
      rfl
  rw [codecCall?, codecCall, statement?_eq_some (first?_opening verb) (by decide)]
  simp only [Option.bind_eq_bind, Option.bind_some, String.toList_ofList, htype, List.drop_left,
    dropPrefix?_append, dropWhile_mark hmark, takeWhile_append_of_stop hm hrest,
    String.ofList_toList]
  rfl

end Emit

/-! ## Statements of fields -/

/-- How a primitive is called in generated code. -/
def Primitive.cName : Primitive → String
  | .scalar type => type.cName
  | .text => "string"

/-- A step as it is read from generated code. -/
def CodecStep.spelled (step : CodecStep) : String × String := (step.primitive.cName, step.member)

namespace Emit.RecordModule

variable {d : Descriptor}

theorem writeScalar_eq (s : Slot) :
    writeScalar s = [codecCall "serialize" s.cType ['&'] s.member []] := by
  rw [writeScalar, List.singleton_inj]
  apply String.toList_inj.1
  simp [codecCall, codecBuffer, codecRecord, toString]

theorem readScalar_eq (s : Slot) :
    readScalar s = [codecCall "deserialize" s.cType ['&'] s.member []] := by
  rw [readScalar, List.singleton_inj]
  apply String.toList_inj.1
  simp [codecCall, codecBuffer, codecRecord, toString]

theorem writeText_eq (t : TextSlots) :
    writeText t = [codecCall "serialize" "string" [] t.payload.member
      (',' :: (" MSG_MIN(data->" ++ t.length.member ++ ", data->" ++ t.capacity.member ++
        ")").toList)] := by
  rw [writeText, List.singleton_inj]
  apply String.toList_inj.1
  simp [codecCall, codecBuffer, codecRecord, toString]

theorem readText_eq (t : TextSlots) :
    readText t = ["data->" ++ t.payload.member ++ " = trailing;",
      codecCall "deserialize" "string" [] t.payload.member
        (',' :: (" &data->" ++ t.length.member ++ ", trailing_size").toList),
      "data->" ++ t.capacity.member ++ " = data->" ++ t.length.member ++ ";",
      "trailing += data->" ++ t.length.member ++ ";",
      "trailing_size -= data->" ++ t.length.member ++ ";"] := by
  rw [readText, List.cons.injEq, List.cons.injEq]
  refine ⟨rfl, ?_, rfl⟩
  apply String.toList_inj.1
  simp [codecCall, codecBuffer, codecRecord, toString]

theorem not_mem_string : '(' ∉ "string".toList := by decide

/-- A call for the member of a slot. -/
theorem codecCalls_cons {s : Slot} (hs : Naming.IsWord s.name) {verb type : String}
    {mark rest : List Char} (ht : '(' ∉ type.toList) (hmark : mark = [] ∨ mark = ['&'])
    (hrest : rest.head?.all (!Naming.isWordChar ·) = true) (lines : Lines) :
    codecCalls verb (codecCall verb type mark s.member rest :: lines) =
      (type, s.member) :: codecCalls verb lines :=
  List.filterMap_cons_some (codecCall?_codecCall ht hmark (Naming.isWord_memberName hs) hrest)

section Scalars

variable {s : Slot} (hs : Naming.IsWord s.name)
include hs

theorem codecCalls_writeScalar :
    codecCalls "serialize" (writeScalar s) = [(s.cType, s.member)] := by
  rw [writeScalar_eq, codecCalls_cons hs (isType_cType s).2.2 (.inr rfl) rfl]
  rfl

theorem codecCalls_readScalar :
    codecCalls "deserialize" (readScalar s) = [(s.cType, s.member)] := by
  rw [readScalar_eq, codecCalls_cons hs (isType_cType s).2.2 (.inr rfl) rfl]
  rfl

end Scalars

section Texts

variable {t : TextSlots} (ht : Naming.IsWord t.payload.name)
include ht

theorem codecCalls_writeText :
    codecCalls "serialize" (writeText t) = [("string", t.payload.member)] := by
  rw [writeText_eq, codecCalls_cons ht not_mem_string (.inl rfl) rfl]
  rfl

theorem codecCalls_readText :
    codecCalls "deserialize" (readText t) = [("string", t.payload.member)] := by
  have hr := readsFrom_codecCall? "deserialize"
  have hdata (text : String) : first? ("data->" ++ text) = some 'd' :=
    first?_append (first?_ofList _ _) _
  rw [readText_eq, codecCalls, hr.filterMap_cons (first?_append (hdata _) _) (by decide),
    ← codecCalls, codecCalls_cons ht not_mem_string (.inl rfl) rfl, codecCalls,
    hr.filterMap_cons (first?_append (first?_append (first?_append (hdata _) _) _) _) (by decide),
    hr.filterMap_cons (first?_append (first?_append (first?_ofList _ _) _) _) (by decide),
    hr.filterMap_cons (first?_append (first?_append (first?_ofList _ _) _) _) (by decide),
    List.filterMap_nil]

end Texts

/-! ## Slots of fields -/

section Slots

variable {source : Nat} {f : Field} (hf : d.fields[source]? = some f)
include hf

theorem slotOf?_scalar {type : Scalar} (hkind : f.kind = .scalar type) :
    d.slotOf? source .value = some ⟨.value, source, f.name, some type⟩ := by
  rw [Descriptor.slotOf?_of_field hf, Field.slots, hkind]
  rfl

theorem textSlots?_text (hkind : f.kind = .text) : textSlots? d source =
    some ⟨⟨.payload, source, f.name, none⟩, ⟨.length, source, f.lengthName, some .u32⟩,
      ⟨.capacity, source, f.capacityName, some .u32⟩⟩ := by
  rw [textSlots?, Descriptor.slotOf?_of_field hf, Descriptor.slotOf?_of_field hf,
    Descriptor.slotOf?_of_field hf, Field.slots, hkind]
  rfl

end Slots

/-- Reading the statements of some of the fields. -/
theorem codecCalls_flatMap {verb : String} {fields : List (Nat × Field)}
    {lines : Nat × Field → Lines} (h : ∀ p ∈ fields, ∃ step, p.2.step? = some step ∧
      codecCalls verb (lines p) = [step.spelled]) :
    codecCalls verb (fields.flatMap lines) =
      (fields.filterMap fun p => p.2.step?).map CodecStep.spelled := by
  induction fields with
  | nil => rfl
  | cons p fields ih =>
    obtain ⟨step, hstep, hcalls⟩ := h p List.mem_cons_self
    have htail : (fields.flatMap lines).filterMap (codecCall? verb) = _ :=
      ih fun q hq => h q (List.mem_cons_of_mem _ hq)
    rw [codecCalls] at hcalls
    rw [codecCalls, List.flatMap_cons, List.filterMap_append, hcalls, htail, List.filterMap_cons,
      hstep]
    rfl

/-- The statements of all fields are the steps, if the statements for the slots of a field are its
step. -/
theorem codecCalls_fixedThenTexts (h : d.Spelled) {verb : String} {onScalar : Slot → Lines}
    {onText : TextSlots → Lines}
    (hs : ∀ {s : Slot}, Naming.IsWord s.name →
      codecCalls verb (onScalar s) = [(s.cType, s.member)])
    (ht : ∀ {t : TextSlots}, Naming.IsWord t.payload.name →
      codecCalls verb (onText t) = [("string", t.payload.member)]) :
    codecCalls verb (fixedThenTexts d onScalar onText) = d.codecSteps.map CodecStep.spelled := by
  rw [fixedThenTexts, Descriptor.codecSteps_eq, List.filterMap_append, List.map_append, codecCalls,
    List.filterMap_append]
  congr 1
  · apply codecCalls_flatMap
    intro p hp
    obtain ⟨hf, type, hkind⟩ := Descriptor.of_mem_fixedFields hp
    refine ⟨_, Record.step?_scalar hkind, ?_⟩
    rw [slotOf?_scalar hf hkind, Option.toList_some, List.flatMap_singleton]
    exact hs (h.field p.2 (List.mem_of_getElem? hf))
  · apply codecCalls_flatMap
    intro p hp
    obtain ⟨hf, hkind⟩ := Descriptor.mem_textFields.1 hp
    refine ⟨_, Record.step?_text hkind, ?_⟩
    rw [textSlots?_text hf hkind, Option.toList_some, List.flatMap_singleton]
    exact ht (h.field p.2 (List.mem_of_getElem? hf))

/-! ## Bodies of the codec -/

theorem codecSteps_of_isEmpty (h : d.slots.isEmpty = true) : d.codecSteps = [] := by
  have hnone : ∀ f ∈ d.fields, f.step? = none := by
    intro f hf
    obtain ⟨source, hsource⟩ := List.mem_iff_getElem?.1 hf
    have hslots : f.slots source = [] := by
      rw [List.eq_nil_iff_forall_not_mem]
      intro s hs
      have hmem := Descriptor.mem_slots_of_mem hsource hs
      rw [List.isEmpty_iff.1 h] at hmem
      cases hmem
    rw [Field.slots] at hslots
    rw [Field.step?]
    cases hkind : f.kind with
    | scalar type => simp [hkind] at hslots
    | text => simp [hkind] at hslots
    | owned core => rfl
  rw [Descriptor.codecSteps, List.filterMap_eq_nil_iff]
  intro f hf
  rcases List.mem_append.1 hf with hf | hf
  · exact hnone f (List.mem_of_mem_filter hf)
  · exact hnone f (List.mem_of_mem_filter hf)

section Bodies

variable (h : d.Spelled)
include h

theorem statement?_recordPointer {opening : String} (ho : stop? opening = some ' ')
    (closing name : String) : statement? opening closing (recordPointer d name) = none := by
  -- The name of the message is arbitrary, but a star follows it where the opening has a blank.
  have hword : Naming.IsWord (recordType d) := h.name.append (Naming.isWord_ofList _ (by decide))
  have hstar : stop? (recordType d ++ "* ") = some '*' :=
    (stop?_append hword _).trans (by decide)
  have hstop : stop? (recordPointer d name) = some '*' :=
    stop?_append_of_some (stop?_append_of_some (stop?_append_of_some (stop?_append_of_some
      hstar _) _) _) _
  exact statement?_eq_none_of_stop? ho hstop (by decide) closing

theorem codecCall?_recordPointer (verb name : String) :
    codecCall? verb (recordPointer d name) = none :=
  codecCall?_of_statement (statement?_recordPointer h
    (stop?_append_of_some (stop?_append_of_some (by decide) _) _) _ name)

theorem codecCalls_serializeBody :
    codecCalls "serialize" (serializeBody d) = d.codecSteps.map CodecStep.spelled := by
  have hr := readsFrom_codecCall? "serialize"
  have hnull : ["return NULL;"].filterMap (codecCall? "serialize") = [] :=
    hr.filterMap_cons (first?_ofList _ _) (by decide) []
  have hheader : ["buffer = Msg_Serialize(msg, buffer, &buffer_size);"].filterMap
      (codecCall? "serialize") = [] :=
    List.filterMap_cons_none (codecCall?_of_statement (by decide))
  have hreturn : ["return buffer;"].filterMap (codecCall? "serialize") = [] :=
    hr.filterMap_cons (first?_ofList _ _) (by decide) []
  have hfields : (fixedThenTexts d writeScalar writeText).filterMap (codecCall? "serialize") =
      d.codecSteps.map CodecStep.spelled :=
    codecCalls_fixedThenTexts h codecCalls_writeScalar codecCalls_writeText
  rw [codecCalls, serializeBody, List.filterMap_append, List.filterMap_append,
    List.filterMap_append, hr.filterMap_ifBlock (by decide) (by decide) (by decide), hnull, hheader,
    hreturn, List.nil_append, List.nil_append, List.append_nil]
  -- A message without slots has no record, and then it has no steps either.
  split
  · rename_i hempty
    rw [codecSteps_of_isEmpty hempty]
    rfl
  · rw [List.filterMap_cons_none (codecCall?_recordPointer h _ _), hfields]

theorem codecCalls_deserializeBody :
    codecCalls "deserialize" (deserializeBody d) = d.codecSteps.map CodecStep.spelled := by
  have hr := readsFrom_codecCall? "deserialize"
  have hfields : (fixedThenTexts d readScalar readText).filterMap (codecCall? "deserialize") =
      d.codecSteps.map CodecStep.spelled :=
    codecCalls_fixedThenTexts h codecCalls_readScalar codecCalls_readText
  have hsize (record : String) : [s!"size_t size = sizeof({messageType}){record};",
      s!"{messageType}* msg = MSG_MALLOC(size);"].filterMap (codecCall? "deserialize") = [] :=
    (hr.filterMap_cons (first?_append (first?_append (first?_append (first?_append
      (first?_ofList _ _) _) _) _) _) (by decide) _).trans
      (hr.filterMap_cons (first?_append (first?_ofList _ _) _) (by decide) [])
  have hnull : ["return NULL;"].filterMap (codecCall? "deserialize") = [] :=
    hr.filterMap_cons (first?_ofList _ _) (by decide) []
  have hfree : ["MSG_FREE(msg);", "return NULL;"].filterMap (codecCall? "deserialize") = [] :=
    (hr.filterMap_cons (first?_ofList _ _) (by decide) _).trans hnull
  have hreturn : ["return msg;"].filterMap (codecCall? "deserialize") = [] :=
    hr.filterMap_cons (first?_ofList _ _) (by decide) []
  have hheader : ["msg->mAllocatedSize = size;",
      "buffer = Msg_DeSerialize(msg, buffer, &buffer_size);"].filterMap
        (codecCall? "deserialize") = [] :=
    (hr.filterMap_cons (first?_ofList _ _) (by decide) _).trans
      (List.filterMap_cons_none (codecCall?_of_statement (by decide)))
  have hplaces : (if d.textFields.isEmpty then [] else
      ["uint8_t* trailing = (uint8_t*)(data + 1);",
        "uint32_t trailing_size = buffer_size;"]).filterMap (codecCall? "deserialize") = [] := by
    split
    · rfl
    · rw [hr.filterMap_cons (first?_ofList _ _) (by decide),
        hr.filterMap_cons (first?_ofList _ _) (by decide), List.filterMap_nil]
  unfold codecCalls deserializeBody
  simp only [List.filterMap_append]
  rw [hr.filterMap_ifBlock (by decide) (by decide) (by decide), hnull, hheader,
    hr.filterMap_ifBlock (by decide) (by decide) (by decide), hfree, hreturn, hsize]
  simp only [List.nil_append, List.append_nil]
  split
  · rename_i hempty
    rw [codecSteps_of_isEmpty hempty]
    rfl
  · rw [List.filterMap_append, List.filterMap_append, hplaces, hfields,
      List.filterMap_cons_none (codecCall?_recordPointer h _ _)]
    rfl

/-! ## Body of the size function -/

/-- The two kinds of lines that the size function is read by. -/
theorem filterMap_sizeBody {opening : String} {c : Char} (hs : stop? opening = some ' ')
    (ho : first? opening = some c) (hc : c = 'u' ∨ c = 's') :
    (sizeBody d).filterMap (statement? opening ";") =
      [s!"uint32_t size = MSG_HEADER_SIZE + {fixedWidth d};"].filterMap (statement? opening ";") ++
        ((capacitySlots d).map fun s => s!"size += 4 + data->{s.member};").filterMap
          (statement? opening ";") := by
  have hr := readsFrom_statement? ho ";"
  have hother {x : Char} (hx : x ≠ 'u' ∧ x ≠ 's') : some x ≠ some c := by
    intro heq
    cases heq
    rcases hc with rfl | rfl
    · exact hx.1 rfl
    · exact hx.2 rfl
  have hunused : ["(void)msg;"].filterMap (statement? opening ";") = [] :=
    hr.filterMap_cons (first?_ofList _ _) ⟨hother (by decide), by decide⟩ []
  have hreturn : ["return size;"].filterMap (statement? opening ";") = [] :=
    hr.filterMap_cons (first?_ofList _ _) ⟨hother (by decide), by decide⟩ []
  rw [sizeBody, List.filterMap_append, List.filterMap_append, hreturn, List.append_nil]
  congr 1
  split
  · rename_i hempty
    rw [hunused, List.isEmpty_iff.1 hempty]
    rfl
  · rw [hr.filterMap_ifBlock (hother (by decide)) (hother (by decide)) (hother (by decide)),
      List.filterMap_cons_none (statement?_recordPointer h hs _ _)]

theorem sizeConstants_sizeBody : sizeConstants (sizeBody d) = [toString (fixedWidth d)] := by
  have hopening : first? "uint32_t size = MSG_HEADER_SIZE + " = some 'u' := first?_ofList _ _
  have hterms : ((capacitySlots d).map fun s => s!"size += 4 + data->{s.member};").filterMap
      (statement? "uint32_t size = MSG_HEADER_SIZE + " ";") = [] := by
    rw [List.filterMap_eq_nil_iff, List.forall_mem_map]
    intro s _
    exact (readsFrom_statement? hopening ";").eq_none
      (first?_append (first?_append (first?_ofList _ _) _) _) (by decide)
  rw [sizeConstants, filterMap_sizeBody h (by decide) hopening (.inl rfl), hterms, List.append_nil]
  exact List.filterMap_cons_some (statement?_eq_some hopening (by decide))

theorem sizeTerms_sizeBody : sizeTerms (sizeBody d) = (capacitySlots d).map Slot.member := by
  have hopening : first? "size += 4 + data->" = some 's' := first?_ofList _ _
  have hconstant : [s!"uint32_t size = MSG_HEADER_SIZE + {fixedWidth d};"].filterMap
      (statement? "size += 4 + data->" ";") = [] :=
    (readsFrom_statement? hopening ";").filterMap_cons
      (first?_append (first?_append (first?_ofList _ _) _) _) (by decide) []
  rw [sizeTerms, filterMap_sizeBody h (by decide) hopening (.inr rfl), hconstant, List.nil_append,
    List.filterMap_map, ← List.filterMap_eq_map]
  apply List.filterMap_congr
  intro s _
  exact statement?_eq_some hopening (by decide)

end Bodies

end Emit.RecordModule

/-! ## Sizes -/

/-- The bytes that a slot adds to the constant of the size function. -/
def Slot.fixedWidth (s : Slot) : Nat :=
  match s.role, s.scalar with
  | .value, some type => type.width
  | _, _ => 0

theorem Field.sum_slots (source : Nat) (f : Field) :
    ((f.slots source).map Slot.fixedWidth).sum = f.fixedWidth := by
  rw [Field.slots, Field.fixedWidth]
  cases f.kind with
  | scalar type => exact Nat.add_zero type.width
  | text => rfl
  | owned core => rfl

theorem Field.sum_slotsFrom (start : Nat) (fields : List Field) :
    ((slotsFrom start fields).map Slot.fixedWidth).sum = (fields.map fixedWidth).sum := by
  induction fields generalizing start with
  | nil => rfl
  | cons f fields ih =>
    rw [slotsFrom, List.map_append, List.sum_append, sum_slots, ih, List.map_cons, List.sum_cons]

/-- Only a text has a capacity. -/
theorem Field.capacities_slots (source : Nat) (f : Field) :
    ((f.slots source).filter (·.role == .capacity)).map Slot.member =
      if f.kind == .text then [Naming.memberName f.capacityName] else [] := by
  rw [Field.slots]
  cases f.kind with
  | scalar type => rfl
  | text => rfl
  | owned core => rfl

theorem Field.capacities_slotsFrom (start : Nat) (fields : List Field) :
    ((slotsFrom start fields).filter (·.role == .capacity)).map Slot.member =
      (fields.filter (·.kind == .text)).map fun f => Naming.memberName f.capacityName := by
  induction fields generalizing start with
  | nil => rfl
  | cons f fields ih =>
    rw [slotsFrom, List.filter_append, List.map_append, capacities_slots, ih, List.filter_cons]
    split
    · rfl
    · rfl

namespace Emit.RecordModule

theorem fixedWidth_eq (d : Descriptor) : fixedWidth d = (d.fields.map Field.fixedWidth).sum :=
  Field.sum_slotsFrom 0 d.fields

theorem map_capacitySlots (d : Descriptor) : (capacitySlots d).map Slot.member =
    d.textFields.map fun p => Naming.memberName p.2.capacityName := by
  have hmap := Field.capacities_slotsFrom 0 d.fields
  rw [← Descriptor.map_textFields, List.map_map] at hmap
  exact hmap

end Emit.RecordModule

/-- What the size function adds up is the most bytes that a record can take. -/
theorem Record.maxSize_eq_sum {r : Record} (hc : r.descriptor.Consistent)
    (hembedded : r.descriptor.targets.embedded = true) :
    ∃ capacities : List UInt32,
      ((RecordModule.capacitySlots r.descriptor).map Slot.member).map r.member? =
        capacities.map (fun c => some (.scalar (.u32 c))) ∧
      r.maxSize = Header.size + (RecordModule.fixedWidth r.descriptor +
        (capacities.map fun c => 4 + c.toNat).sum) := by
  refine ⟨r.descriptor.textFields.map fun p => (r.region p.1).capacity, ?_, ?_⟩
  · rw [RecordModule.map_capacitySlots, List.map_map, List.map_map]
    apply List.map_congr_left
    intro p hp
    obtain ⟨hf, hkind⟩ := Descriptor.mem_textFields.1 hp
    exact member?_capacity hc hembedded hf hkind
  · rw [maxSize_eq, RecordModule.fixedWidth_eq, List.map_map]
    rfl

/-! ## Codecs -/

/-- A source whose encoder, decoder and size function follow the records of a message. -/
structure Descriptor.CodedBy (d : Descriptor) (source : Lines) : Prop where
  encoder : ∃ body, bodiesOf (d.name ++ "Serialize") source = [body] ∧
    codecCalls "serialize" body = d.codecSteps.map CodecStep.spelled
  decoder : ∃ body, bodiesOf (d.name ++ "Deserialize") source = [body] ∧
    codecCalls "deserialize" body = d.codecSteps.map CodecStep.spelled
  /-- The constant and the counted capacities make up the size of a record behind its header. -/
  size : ∃ body constant, bodiesOf (d.name ++ "GetMessageSize") source = [body] ∧
    sizeConstants body = [toString (constant : Nat)] ∧
    ∀ r, Record.Reachable d r → ∃ capacities : List UInt32,
      (sizeTerms body).map r.member? = capacities.map (fun c => some (.scalar (.u32 c))) ∧
      r.maxSize = Header.size + (constant + (capacities.map fun c => 4 + c.toNat).sum)

theorem Descriptor.codedBy_source {d : Descriptor} (hs : d.Spelled) (hc : d.Consistent)
    (hembedded : d.targets.embedded = true) (hi : d.internal = false) (names : OutputNames) :
    d.CodedBy (RecordModule.source names d) where
  encoder := by
    refine ⟨_, RecordModule.bodiesOf_serialize hs hi names, ?_⟩
    rw [codecCalls, (readsFrom_codecCall? _).filterMap_readBody (by decide)]
    exact RecordModule.codecCalls_serializeBody hs
  decoder := by
    refine ⟨_, RecordModule.bodiesOf_deserialize hs hi names, ?_⟩
    rw [codecCalls, (readsFrom_codecCall? _).filterMap_readBody (by decide)]
    exact RecordModule.codecCalls_deserializeBody hs
  size := by
    refine ⟨_, RecordModule.fixedWidth d, RecordModule.bodiesOf_messageSize hs hi names, ?_, ?_⟩
    · rw [sizeConstants, (readsFrom_statement? (first?_ofList _ _) _).filterMap_readBody (by decide)]
      exact RecordModule.sizeConstants_sizeBody hs
    · intro r hr
      obtain ⟨-, rfl⟩ := hr.sound
      rw [sizeTerms, (readsFrom_statement? (first?_ofList _ _) _).filterMap_readBody (by decide)]
      have hterms : (RecordModule.sizeBody r.descriptor).filterMap
          (statement? "size += 4 + data->" ";") = _ := RecordModule.sizeTerms_sizeBody hs
      rw [hterms]
      exact Record.maxSize_eq_sum hc hembedded

/-- **Generated codecs follow the record.** The encoder and the decoder in the source of an embedded
message list the same primitives and members, those of the scalar fields in the order of declaration
and then those of the text fields. The bytes of a record are what these steps write behind the
header, and decoding reads these steps into these members. -/
theorem codec_follows_record {config : Config} {interface : Interface} {location : Location}
    {declaration : String} {d : Descriptor}
    (hbuild : Descriptor.build config interface location declaration = .ok d)
    (htarget : interface.targets.embedded = true) (hi : d.internal = false) (names : OutputNames) :
    (∃ file ∈ messageArtifacts names d, file.LiesAt .embedded ⟨s!"src/{d.name}.c"⟩ ∧
      d.CodedBy (linesOf file.contents)) ∧
    (∀ r, Record.Reachable d r → ∃ parts : List (List UInt8),
      d.codecSteps.map r.written? = parts.map some ∧
        r.encode = .ok (r.header.encode ++ parts.flatten)) ∧
    ∀ typeId bytes, (Record.decode d typeId bytes).map
        (fun s => (s.header, d.codecSteps.map fun step => s.member? step.member)) =
      ((d.readSteps typeId).parse bytes).map fun p => (p.1, p.2.map some) := by
  obtain ⟨hc, htargets⟩ := Descriptor.consistent_of_build hbuild
  have hs := Descriptor.spelled_of_build hbuild
  have hembedded : d.targets.embedded = true := by rw [htargets, htarget]
  refine ⟨⟨⟨.embedded, ⟨s!"src/{d.name}.c"⟩, render (RecordModule.source names d)⟩, ?_, ?_, ?_⟩,
    ?_, ?_⟩
  · rw [messageArtifacts, if_pos hembedded]
    exact List.mem_append_right _ (List.mem_cons_of_mem _ List.mem_cons_self)
  · exact ⟨rfl, beq_self_eq_true _⟩
  · rw [linesOf_render (RecordModule.oneLine_source hs hi names)]
    exact Descriptor.codedBy_source hs hc hembedded hi names
  · intro r hr
    obtain ⟨hsound, rfl⟩ := hr.sound
    exact Record.encode_codecSteps hsound hc hembedded hi
  · exact Record.decode_codecSteps hc hembedded

theorem codec_follows_record_mixed :
    (∃ file ∈ messageArtifacts {} .mixed, file.LiesAt .embedded ⟨"src/M.c"⟩ ∧
      Descriptor.mixed.CodedBy (linesOf file.contents)) ∧
    Descriptor.mixed.codecSteps.map CodecStep.spelled =
      [("int16_t", "mB"), ("string", "mA"), ("string", "mC")] ∧
    (∃ parts : List (List UInt8), Descriptor.mixed.codecSteps.map Record.mixed.written? =
      parts.map some ∧
        Record.mixed.encode = .ok (Record.mixed.header.encode ++ parts.flatten)) ∧
    Record.mixed.maxSize = Header.size + (2 + ((4 + 4) + (4 + 1))) := by
  obtain ⟨hfile, hencode, -⟩ := codec_follows_record Descriptor.build_mixed rfl rfl {}
  exact ⟨hfile, by decide, hencode _ Record.reachable_mixed, by decide⟩

end WireSchema
