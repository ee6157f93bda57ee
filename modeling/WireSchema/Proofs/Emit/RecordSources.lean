import WireSchema.Proofs.Descriptor
import WireSchema.Proofs.Emit.ParserSources
import WireSchema.Proofs.Schema.Acceptance
import WireSchema.Proofs.Schema.Outline

/-!
# Sources of records

The source of an embedded message defines a function that makes it, accessors for every slot of its
record and, unless it is internal, an encoder, a decoder and a function for its size.

**Theorem (`functions_source`).** These are all the functions that are read from the source, in this
order.

No accessor is called like one of the other three (`getter_ne_size`): what follows `Get` in the
name of a getter is in title case, and `MessageSize` is not.
-/

namespace WireSchema

/-! ## Words -/

/-- The names of a message and of its fields are words. -/
structure Descriptor.Spelled (d : Descriptor) : Prop where
  name : Naming.IsWord d.name
  field : ∀ f ∈ d.fields, Naming.IsWord f.name

theorem Descriptor.spelled_of_build {config : Config} {interface : Interface} {location : Location}
    {text : String} {d : Descriptor} (h : build config interface location text = .ok d) :
    d.Spelled := by
  refine ⟨Naming.isWord_of_isIdentifier (isIdentifier_of_build h), ?_⟩
  obtain ⟨declaration, -, -, -, hbuilt⟩ := declared_of_build h
  exact fun f hf => (hbuilt f hf).1.1

theorem Descriptor.Spelled.slot {d : Descriptor} (h : d.Spelled) {s : Slot} (hs : s ∈ d.slots) :
    Naming.IsWord s.name := by
  obtain ⟨f, hf, hs⟩ := exists_of_mem_slots hs
  have hf := h.field f (List.mem_of_getElem? hf)
  exact Field.forall_mem_slots hf (Naming.isWord_titleCase hf).append s hs

namespace Emit.RecordModule

variable {d : Descriptor}

/-! ## Signatures -/

theorem isType_messageType : IsType "moduleMsg_t*" := isType_ofList _ (by decide)

theorem isType_cName (type : Scalar) : IsType type.cName := by
  cases type <;> exact isType_ofList _ (by decide)

theorem isType_cType (s : Slot) : IsType s.cType := by
  rw [Slot.cType]
  split
  · exact isType_cName _
  · exact isType_ofList _ (by decide)

section Signatures

variable (d)

theorem createSignature_eq : createSignature d =
    "moduleMsg_t*" ++ " " ++ (d.name ++ "Create") ++ "(" ++ parameterList (createParameters d) ++
      ")" := by
  apply String.toList_inj.1
  simp [createSignature, messageType, toString]

theorem getterSignature_eq (s : Slot) : getterSignature d s =
    s.cType ++ " " ++ (d.name ++ "Get" ++ s.accessor) ++ "(" ++ parameterList [messageParameter] ++
      ")" := by
  apply String.toList_inj.1
  simp [getterSignature, toString]

theorem setterSignature_eq (s : Slot) : setterSignature d s =
    "void" ++ " " ++ (d.name ++ "Set" ++ s.accessor) ++ "(" ++ parameterList (setterParameters s) ++
      ")" := by
  apply String.toList_inj.1
  simp [setterSignature, toString]

theorem serializeSignature_eq : serializeSignature d =
    "uint8_t*" ++ " " ++ (d.name ++ "Serialize") ++ "(" ++
      "moduleMsg_t* msg, uint8_t* buffer, uint32_t buffer_size" ++ ")" := by
  apply String.toList_inj.1
  simp [serializeSignature, messageType, toString]

theorem deserializeSignature_eq : deserializeSignature d =
    "moduleMsg_t*" ++ " " ++ (d.name ++ "Deserialize") ++ "(" ++
      "uint8_t* buffer, uint32_t buffer_size" ++ ")" := by
  apply String.toList_inj.1
  simp [deserializeSignature, messageType, toString]

theorem sizeSignature_eq : sizeSignature d =
    "uint32_t" ++ " " ++ (d.name ++ "GetMessageSize") ++ "(" ++ "moduleMsg_t* msg" ++ ")" := by
  apply String.toList_inj.1
  simp [sizeSignature, messageType, toString]

end Signatures

/-! ## Bodies -/

section Bodies

variable (d)

/-- The statements of the function that makes a message. -/
def createBody : Lines :=
  let capacities := (d.slots.filter (·.role == .capacity)).map fun s => s!" + ({s.name})"
  let record := if d.slots.isEmpty then ""
    else s!" + sizeof({recordType d})" ++ String.join capacities
  let slots := if d.slots.isEmpty then []
    else ["", recordPointer d "internal_data"] ++
      (if d.textFields.isEmpty then [] else ["uint8_t* trailing = (uint8_t*)(internal_data + 1);"]) ++
      d.slots.flatMap (createSlot d)
  [s!"size_t size = sizeof({messageType}){record};",
    s!"{messageType}* msg = MSG_MALLOC(size);", ""] ++
  ifBlock "msg" ([
    "msg->mDestination = destination;",
    "msg->mSource = 0;",
    "msg->mMsgNr = msgNr;",
    s!"msg->type = {Naming.enumTag d.name};",
    "msg->mAllocatedSize = size;"] ++ slots) ++
  ["return msg;"]

def getterStatements (s : Slot) : Lines :=
  [s!"{s.cType} value = \x7b0\x7d;"] ++ onRecord d [s!"value = internal_data->{s.member};"] ++
    ["return value;"]

/-- The statements of the encoder. -/
def serializeBody : Lines :=
  ifBlock s!"!msg || (msg->type != {Naming.enumTag d.name})" ["return NULL;"] ++
    ["buffer = Msg_Serialize(msg, buffer, &buffer_size);"] ++
    (if d.slots.isEmpty then []
     else recordPointer d "data" :: fixedThenTexts d writeScalar writeText) ++
    ["return buffer;"]

/-- The statements of the decoder. -/
def deserializeBody : Lines :=
  let record := if d.slots.isEmpty then "" else s!" + sizeof({recordType d}) + buffer_size"
  [s!"size_t size = sizeof({messageType}){record};",
      s!"{messageType}* msg = MSG_MALLOC(size);"] ++
    ifBlock "!msg" ["return NULL;"] ++
    ["msg->mAllocatedSize = size;",
      "buffer = Msg_DeSerialize(msg, buffer, &buffer_size);"] ++
    (if d.slots.isEmpty then []
     else
      [recordPointer d "data"] ++
        (if d.textFields.isEmpty then []
         else ["uint8_t* trailing = (uint8_t*)(data + 1);",
          "uint32_t trailing_size = buffer_size;"]) ++
        fixedThenTexts d readScalar readText) ++
    ifBlock s!"!buffer || (msg->type != {Naming.enumTag d.name})"
      ["MSG_FREE(msg);", "return NULL;"] ++
    ["return msg;"]

/-- The slots whose values the size function adds. -/
def capacitySlots : List Slot := d.slots.filter (·.role == .capacity)

/-- The statements of the size function. -/
def sizeBody : Lines :=
  [s!"uint32_t size = MSG_HEADER_SIZE + {fixedWidth d};"] ++
    (if (capacitySlots d).isEmpty then ["(void)msg;"]
     else ifBlock (isOwnType d)
      (recordPointer d "data" :: (capacitySlots d).map fun s => s!"size += 4 + data->{s.member};")) ++
    ["return size;"]

/-- What stands in front of the functions. -/
def sourceFront (names : OutputNames) : Lines :=
  preamble names s!"{d.name}.c" .block ++
    [includeLine s!"../inc/{d.name}.h", "#include <string.h>", ""] ++ recordDeclaration d

def slotAccessors (s : Slot) : Lines :=
  [""] ++ function (getterSignature d s) (getterStatements d s) ++
    ([""] ++ function (setterSignature d s) (onRecord d (setterBody d s)))

theorem source_eq (names : OutputNames) (hi : d.internal = false) :
    source names d = sourceFront d names ++ (function (createSignature d) (createBody d) ++
      (d.slots.flatMap (slotAccessors d) ++
        ([""] ++ function (serializeSignature d) (serializeBody d) ++
          ([""] ++ function (deserializeSignature d) (deserializeBody d) ++
            ([""] ++ function (sizeSignature d) (sizeBody d)))))) := by
  have haccessors : d.slots.flatMap (fun s => [""] ++ getter d s ++ [""] ++ setter d s) =
      d.slots.flatMap (slotAccessors d) := by
    simp only [List.append_assoc]
    rfl
  rw [source, hi, haccessors, if_neg Bool.false_ne_true, sourceFront]
  simp only [List.append_assoc]
  rfl

end Bodies

/-! ## Functions -/

/-- A function as it is read from the source. -/
def readBody (body : Lines) : Lines := "\x7b" :: indent margin body

theorem functions_function {signature name : String} (hs : functionName? signature = some name)
    (body rest : Lines) :
    functions (function signature body ++ rest) = (name, readBody body) :: functions rest :=
  functions_block hs isMargin_margin body rest

theorem functions_gap (rest : Lines) : functions ([""] ++ rest) = functions rest :=
  functions_append (by decide) rest

/-- The accessors of a slot as they are read from the source. -/
def accessorsRead (d : Descriptor) (s : Slot) : List (String × Lines) :=
  [(d.name ++ "Get" ++ s.accessor, readBody (getterStatements d s)),
    (d.name ++ "Set" ++ s.accessor, readBody (onRecord d (setterBody d s)))]

theorem functions_slotAccessors (hd : Naming.IsWord d.name) {s : Slot}
    (hs : Naming.IsWord s.name) (rest : Lines) :
    functions (slotAccessors d s ++ rest) = accessorsRead d s ++ functions rest := by
  have haccessor : Naming.IsWord s.accessor := Naming.isWord_titleCase hs
  have hget : functionName? (getterSignature d s) = some (d.name ++ "Get" ++ s.accessor) := by
    rw [getterSignature_eq]
    exact functionName?_typed (isType_cType s)
      ((hd.append (Naming.isWord_ofList _ (by decide))).append haccessor) _
  have hset : functionName? (setterSignature d s) = some (d.name ++ "Set" ++ s.accessor) := by
    rw [setterSignature_eq]
    exact functionName?_typed (isType_ofList _ (by decide))
      ((hd.append (Naming.isWord_ofList _ (by decide))).append haccessor) _
  rw [slotAccessors, List.append_assoc, List.append_assoc, functions_gap, functions_function hget,
    List.append_assoc, functions_gap, functions_function hset]
  rfl

theorem functions_accessors (hd : Naming.IsWord d.name) {slots : List Slot}
    (hs : ∀ s ∈ slots, Naming.IsWord s.name) (rest : Lines) :
    functions (slots.flatMap (slotAccessors d) ++ rest) =
      slots.flatMap (accessorsRead d) ++ functions rest := by
  induction slots with
  | nil => rfl
  | cons s slots ih =>
    obtain ⟨hhead, htail⟩ := List.forall_mem_cons.1 hs
    rw [List.flatMap_cons, List.append_assoc, functions_slotAccessors hd hhead, ih htail,
      List.flatMap_cons, List.append_assoc]

theorem functionName?_sourceFront (names : OutputNames) :
    ∀ line ∈ sourceFront d names, functionName? line = none := by
  have hdeclaration : ∀ line ∈ recordDeclaration d, functionName? line = none := by
    rw [recordDeclaration]
    split
    · exact List.forall_mem_nil _
    · simp only [blockThen, List.forall_mem_append, List.forall_mem_singleton]
      refine ⟨⟨by decide, ⟨by decide, fun line hline => ?_⟩, ?_⟩, by decide⟩
      · exact (isMargin_margin.functionName?_indent line hline).1
      · exact functionName?_of_last? (last?_append _ (last?_append _ (last?_ofList rfl))) (by decide)
  simp only [sourceFront, List.forall_mem_append, List.forall_mem_cons]
  exact ⟨⟨fun line hline => functionName?_of_mem_block hline, functionName?_includeLine _,
    by decide, by decide, List.forall_mem_nil _⟩, hdeclaration⟩

/-- The functions of the source of a message on the wire. -/
theorem functions_source (h : d.Spelled) (hi : d.internal = false) (names : OutputNames) :
    functions (source names d) =
      (d.name ++ "Create", readBody (createBody d)) :: (d.slots.flatMap (accessorsRead d) ++
        [(d.name ++ "Serialize", readBody (serializeBody d)),
          (d.name ++ "Deserialize", readBody (deserializeBody d)),
          (d.name ++ "GetMessageSize", readBody (sizeBody d))]) := by
  have hname := h.name
  have hcreate : functionName? (createSignature d) = some (d.name ++ "Create") := by
    rw [createSignature_eq]
    exact functionName?_typed isType_messageType
      (hname.append (Naming.isWord_ofList _ (by decide))) _
  have hserialize : functionName? (serializeSignature d) = some (d.name ++ "Serialize") := by
    rw [serializeSignature_eq]
    exact functionName?_typed (isType_ofList _ (by decide))
      (hname.append (Naming.isWord_ofList _ (by decide))) _
  have hdeserialize : functionName? (deserializeSignature d) = some (d.name ++ "Deserialize") := by
    rw [deserializeSignature_eq]
    exact functionName?_typed isType_messageType
      (hname.append (Naming.isWord_ofList _ (by decide))) _
  have hsize : functionName? (sizeSignature d) = some (d.name ++ "GetMessageSize") := by
    rw [sizeSignature_eq]
    exact functionName?_typed (isType_ofList _ (by decide))
      (hname.append (Naming.isWord_ofList _ (by decide))) _
  rw [source_eq d names hi, functions_append (functionName?_sourceFront names),
    functions_function hcreate, functions_accessors hname fun s hs => h.slot hs,
    List.append_assoc, functions_gap, functions_function hserialize, List.append_assoc,
    functions_gap, functions_function hdeserialize, functions_gap,
    ← List.append_nil (function (sizeSignature d) _), functions_function hsize]
  rfl

/-! ## Names of functions -/

theorem append_ne {a b c : String} (h : b ≠ c) : a ++ b ≠ a ++ c := by
  intro heq
  apply h
  have hlist := congrArg String.toList heq
  rw [String.toList_append, String.toList_append, List.append_cancel_left_eq] at hlist
  exact String.toList_inj.1 hlist

/-- An accessor is not called like another function. -/
theorem accessor_ne {slots : List Slot} {suffix : String}
    (hget : ∀ s ∈ slots, "Get" ++ s.accessor ≠ suffix)
    (hset : ∀ s ∈ slots, "Set" ++ s.accessor ≠ suffix) :
    ∀ f ∈ slots.flatMap (accessorsRead d), f.1 ≠ d.name ++ suffix := by
  intro f hf
  obtain ⟨s, hs, hf⟩ := List.mem_flatMap.1 hf
  simp only [accessorsRead, List.mem_cons, List.not_mem_nil, or_false] at hf
  rcases hf with rfl | rfl
  · rw [String.append_assoc]
    exact append_ne (hget s hs)
  · rw [String.append_assoc]
    exact append_ne (hset s hs)

/-- What follows `Get` in the name of a getter is in title case. -/
theorem getter_ne_size {s : Slot} (h : Naming.IsWord s.name) :
    "Get" ++ s.accessor ≠ "GetMessageSize" := by
  intro heq
  have hsize : "GetMessageSize" = "Get" ++ "MessageSize" := by decide
  rw [hsize] at heq
  have haccessor : s.accessor = "MessageSize" := by
    by_contra hne
    exact append_ne hne heq
  have htitle : Naming.titleCase s.accessor = s.accessor := Naming.titleCase_titleCase h
  rw [haccessor] at htitle
  exact absurd htitle (by decide)

theorem ofList_append_ne {cs suffix : List Char} (h : ¬cs <+: suffix) (rest : String) :
    String.ofList cs ++ rest ≠ String.ofList suffix := by
  intro heq
  have hlist := congrArg String.toList heq
  rw [String.toList_append, String.toList_ofList, String.toList_ofList] at hlist
  exact h ⟨rest.toList, hlist⟩

section Wire

variable (h : d.Spelled) (hi : d.internal = false) (names : OutputNames)
include h hi

/-- A function behind the accessors, between `before` and `behind`. -/
theorem bodiesOf_wire {suffix : String} {body : Lines} (before : List (String × Lines))
    {behind : List (String × Lines)} (hwire : [(d.name ++ "Serialize", readBody (serializeBody d)),
      (d.name ++ "Deserialize", readBody (deserializeBody d)),
      (d.name ++ "GetMessageSize", readBody (sizeBody d))] =
        before ++ (d.name ++ suffix, body) :: behind)
    (hother : ∀ f ∈ before ++ behind, f.1 ≠ d.name ++ suffix) (hcreate : "Create" ≠ suffix)
    (hget : ∀ s ∈ d.slots, "Get" ++ s.accessor ≠ suffix)
    (hset : ∀ s ∈ d.slots, "Set" ++ s.accessor ≠ suffix) :
    bodiesOf (d.name ++ suffix) (source names d) = [body] := by
  obtain ⟨hbefore, hbehind⟩ := List.forall_mem_append.1 hother
  have hfunctions : functions (source names d) =
      ((d.name ++ "Create", readBody (createBody d)) ::
        (d.slots.flatMap (accessorsRead d) ++ before)) ++ (d.name ++ suffix, body) :: behind := by
    rw [functions_source h hi names, hwire, List.cons_append, List.append_assoc]
  refine bodiesOf_eq _ _ hfunctions ?_ hbehind
  exact List.forall_mem_cons.2 ⟨append_ne hcreate,
    List.forall_mem_append.2 ⟨accessor_ne hget hset, hbefore⟩⟩

theorem bodiesOf_serialize :
    bodiesOf (d.name ++ "Serialize") (source names d) = [readBody (serializeBody d)] := by
  apply bodiesOf_wire h hi names [] rfl
  · simp only [List.nil_append, List.forall_mem_cons]
    exact ⟨append_ne (by decide), append_ne (by decide), List.forall_mem_nil _⟩
  · decide
  · exact fun _ _ => ofList_append_ne (by decide) _
  · exact fun _ _ => ofList_append_ne (by decide) _

theorem bodiesOf_deserialize :
    bodiesOf (d.name ++ "Deserialize") (source names d) = [readBody (deserializeBody d)] := by
  apply bodiesOf_wire h hi names [_] rfl
  · simp only [List.singleton_append, List.forall_mem_cons]
    exact ⟨append_ne (by decide), append_ne (by decide), List.forall_mem_nil _⟩
  · decide
  · exact fun _ _ => ofList_append_ne (by decide) _
  · exact fun _ _ => ofList_append_ne (by decide) _

theorem bodiesOf_messageSize :
    bodiesOf (d.name ++ "GetMessageSize") (source names d) = [readBody (sizeBody d)] := by
  apply bodiesOf_wire h hi names [_, _] rfl
  · simp only [List.cons_append, List.nil_append, List.forall_mem_cons]
    exact ⟨append_ne (by decide), append_ne (by decide), List.forall_mem_nil _⟩
  · decide
  · exact fun s hs => getter_ne_size (h.slot hs)
  · exact fun _ _ => ofList_append_ne (by decide) _

end Wire

/-! ## Lines of the source -/

theorem oneLine_join {parts : List String} (h : ∀ part ∈ parts, OneLine part) :
    OneLine (String.join parts) := by
  induction parts with
  | nil => exact oneLine_empty
  | cons part parts ih =>
    obtain ⟨hpart, hparts⟩ := List.forall_mem_cons.1 h
    rw [String.join_cons]
    exact hpart.append (ih hparts)

theorem oneLine_intercalate {separator : String} (hs : OneLine separator) {parts : List String}
    (h : ∀ part ∈ parts, OneLine part) : OneLine (separator.intercalate parts) := by
  induction parts with
  | nil => exact oneLine_empty
  | cons part parts ih =>
    obtain ⟨hpart, hparts⟩ := List.forall_mem_cons.1 h
    cases parts with
    | nil => exact hpart
    | cons next parts =>
      rw [String.intercalate_cons_cons]
      exact (hpart.append hs).append (ih hparts)

theorem oneLine_nat (n : Nat) : OneLine (toString n) := by
  constructor
  intro hmem
  have hdigit : '\n' ∈ Nat.toDigits 10 n := by rwa [← Nat.toList_repr]
  exact absurd (Nat.isDigit_of_mem_toDigits (by decide) (by decide) hdigit) (by decide)

theorem oneLine_cName (type : Scalar) : OneLine type.cName := by
  cases type <;> exact oneLine_ofList _ (by decide)

theorem oneLine_cType (s : Slot) : OneLine s.cType := by
  rw [Slot.cType]
  split
  · exact oneLine_cName _
  · exact oneLine_ofList _ (by decide)

theorem oneLine_function {signature : String} {body : Lines} (hs : OneLine signature)
    (hb : ∀ line ∈ body, OneLine line) : ∀ line ∈ function signature body, OneLine line :=
  List.forall_mem_append.2 ⟨List.forall_mem_singleton.2 hs,
    oneLine_block (oneLine_indent (oneLine_ofList _ (by decide)) hb)⟩

theorem oneLine_parameterList {ps : List Parameter}
    (h : ∀ p ∈ ps, OneLine p.type ∧ OneLine p.name) : OneLine (parameterList ps) := by
  apply oneLine_intercalate (oneLine_ofList _ (by decide))
  rw [List.forall_mem_map]
  intro p hp
  exact ((h p hp).1.append (oneLine_ofList _ (by decide))).append (h p hp).2

section Lines

variable (h : d.Spelled)
include h

theorem oneLine_recordType : OneLine (recordType d) :=
  (oneLine_of_isWord h.name).append (oneLine_ofList _ (by decide))

theorem oneLine_tag : OneLine (Naming.enumTag d.name) :=
  oneLine_of_isWord (Naming.isWord_enumTag h.name)

theorem oneLine_recordPointer {name : String} (hn : OneLine name) :
    OneLine (recordPointer d name) := by
  have htype := oneLine_recordType h
  exact ((((htype.append (oneLine_ofList _ (by decide))).append hn).append
    (oneLine_ofList _ (by decide))).append htype).append (oneLine_ofList _ (by decide))

theorem oneLine_isOwnType : OneLine (isOwnType d) :=
  (oneLine_tag h).between (by decide) (by decide)

theorem oneLine_onRecord {body : Lines} (hb : ∀ line ∈ body, OneLine line) :
    ∀ line ∈ onRecord d body, OneLine line := by
  have helse : ∀ line ∈ block (indent margin ["MSG_ASSERT(0);"]), OneLine line :=
    oneLine_block (oneLine_indent (oneLine_ofList _ (by decide))
      (List.forall_mem_singleton.2 (oneLine_ofList _ (by decide))))
  rw [onRecord, List.forall_mem_append, List.forall_mem_append]
  exact ⟨⟨oneLine_ifBlock (oneLine_isOwnType h) (List.forall_mem_cons.2
    ⟨oneLine_recordPointer h (oneLine_ofList _ (by decide)), hb⟩),
    List.forall_mem_singleton.2 (oneLine_ofList _ (by decide))⟩, helse⟩

theorem oneLine_slot {s : Slot} (hs : s ∈ d.slots) :
    OneLine s.name ∧ OneLine s.member ∧ OneLine s.accessor :=
  ⟨oneLine_of_isWord (h.slot hs), oneLine_of_isWord (Naming.isWord_memberName (h.slot hs)),
    oneLine_of_isWord (Naming.isWord_titleCase (h.slot hs))⟩

theorem oneLine_sourceFront (names : OutputNames) :
    ∀ line ∈ sourceFront d names, OneLine line := by
  have hname := oneLine_of_isWord h.name
  have hdeclaration : ∀ line ∈ recordDeclaration d, OneLine line := by
    rw [recordDeclaration]
    split
    · exact List.forall_mem_nil _
    · have hslots : ∀ line ∈ d.slots.map fun s => s!"{s.cType} {s.member};", OneLine line := by
        rw [List.forall_mem_map]
        intro s hs
        exact (((oneLine_cType s).append (oneLine_ofList _ (by decide))).append
          (oneLine_slot h hs).2.1).append (oneLine_ofList _ (by decide))
      rw [List.forall_mem_append, List.forall_mem_append]
      exact ⟨⟨List.forall_mem_singleton.2 (oneLine_ofList _ (by decide)),
        oneLine_blockThen ((oneLine_recordType h).append (oneLine_ofList _ (by decide)))
          (oneLine_indent (oneLine_ofList _ (by decide)) hslots)⟩,
        List.forall_mem_singleton.2 oneLine_empty⟩
  simp only [sourceFront, List.forall_mem_append, List.forall_mem_cons]
  exact ⟨⟨oneLine_preamble names (hname.append (oneLine_ofList _ (by decide))) _,
    oneLine_includeLine (hname.between (by decide) (by decide)), oneLine_ofList _ (by decide),
    oneLine_empty, List.forall_mem_nil _⟩, hdeclaration⟩

/-! ### Creation -/

theorem oneLine_createSlot {s : Slot} (hs : s ∈ d.slots) :
    ∀ line ∈ createSlot d s, OneLine line := by
  obtain ⟨hname, hmember, -⟩ := oneLine_slot h hs
  have hstart : OneLine s!"internal_data->{s.member}" := (oneLine_ofList _ (by decide)).append hmember
  have hset : OneLine s!"internal_data->{s.member} = {s.name};" :=
    ((hstart.append (oneLine_ofList _ (by decide))).append hname).append
      (oneLine_ofList _ (by decide))
  unfold createSlot
  split
  · exact List.forall_mem_singleton.2 hset
  · exact List.forall_mem_singleton.2 hset
  · exact List.forall_mem_singleton.2 (hstart.append (oneLine_ofList _ (by decide)))
  · refine List.forall_mem_cons.2 ⟨hstart.append (oneLine_ofList _ (by decide)), ?_⟩
    rw [List.forall_mem_map]
    intro capacity hcapacity
    have hmem := Descriptor.mem_of_slotOf?_eq_some (Option.mem_toList.1 hcapacity)
    exact (oneLine_slot h hmem).1.between (by decide) (by decide)

theorem oneLine_createSignature : OneLine (createSignature d) := by
  have hparameters : OneLine (parameterList (createParameters d)) := by
    apply oneLine_parameterList
    simp only [createParameters, List.forall_mem_append, List.forall_mem_cons, List.forall_mem_map]
    refine ⟨⟨⟨oneLine_ofList _ (by decide), oneLine_ofList _ (by decide)⟩,
      ⟨oneLine_ofList _ (by decide), oneLine_ofList _ (by decide)⟩, List.forall_mem_nil _⟩, ?_⟩
    intro s hs
    exact ⟨oneLine_cType s, (oneLine_slot h (List.mem_of_mem_filter hs)).1⟩
  rw [createSignature_eq]
  exact (((((oneLine_ofList _ (by decide)).append (oneLine_ofList _ (by decide))).append
    ((oneLine_of_isWord h.name).append (oneLine_ofList _ (by decide)))).append
    (oneLine_ofList _ (by decide))).append hparameters).append (oneLine_ofList _ (by decide))

theorem oneLine_createBody : ∀ line ∈ createBody d, OneLine line := by
  have hpointer := oneLine_recordPointer h (oneLine_ofList _ (by decide) : OneLine "internal_data")
  have hrecord : OneLine (if d.slots.isEmpty then ""
      else s!" + sizeof({recordType d})" ++
        String.join ((d.slots.filter (·.role == .capacity)).map fun s => s!" + ({s.name})")) := by
    split
    · exact oneLine_empty
    · refine ((oneLine_recordType h).between (by decide) (by decide)).append (oneLine_join ?_)
      rw [List.forall_mem_map]
      intro s hs
      exact (oneLine_slot h (List.mem_of_mem_filter hs)).1.between (by decide) (by decide)
  have hslots : ∀ line ∈ (if d.slots.isEmpty then []
      else ["", recordPointer d "internal_data"] ++
        (if d.textFields.isEmpty then []
          else ["uint8_t* trailing = (uint8_t*)(internal_data + 1);"]) ++
        d.slots.flatMap (createSlot d)), OneLine line := by
    split
    · exact List.forall_mem_nil _
    · rw [List.forall_mem_append, List.forall_mem_append]
      refine ⟨⟨List.forall_mem_cons.2 ⟨oneLine_empty, List.forall_mem_singleton.2 hpointer⟩, ?_⟩, ?_⟩
      · split
        · exact List.forall_mem_nil _
        · exact List.forall_mem_singleton.2 (oneLine_ofList _ (by decide))
      · intro line hline
        obtain ⟨s, hs, hline⟩ := List.mem_flatMap.1 hline
        exact oneLine_createSlot h hs line hline
  unfold createBody
  rw [List.forall_mem_append, List.forall_mem_append]
  refine ⟨⟨?_, oneLine_ifBlock (oneLine_ofList _ (by decide)) ?_⟩,
    List.forall_mem_singleton.2 (oneLine_ofList _ (by decide))⟩
  · simp only [List.forall_mem_cons]
    exact ⟨((((oneLine_ofList _ (by decide)).append (oneLine_ofList _ (by decide))).append
      (oneLine_ofList _ (by decide))).append hrecord).append (oneLine_ofList _ (by decide)),
      (oneLine_ofList _ (by decide)).append (oneLine_ofList _ (by decide)), oneLine_empty,
      List.forall_mem_nil _⟩
  · refine List.forall_mem_append.2 ⟨?_, hslots⟩
    simp only [List.forall_mem_cons]
    exact ⟨oneLine_ofList _ (by decide), oneLine_ofList _ (by decide), oneLine_ofList _ (by decide),
      (oneLine_tag h).between (by decide) (by decide), oneLine_ofList _ (by decide),
      List.forall_mem_nil _⟩

/-! ### Accessors -/

omit h in
theorem oneLine_checkCapacity {count capacity : String} (hcount : OneLine count)
    (hcapacity : OneLine capacity) : ∀ line ∈ checkCapacity count capacity, OneLine line := by
  refine oneLine_ifBlock ((hcount.append (oneLine_ofList _ (by decide))).append hcapacity) ?_
  simp only [List.forall_mem_cons]
  exact ⟨oneLine_ofList _ (by decide), oneLine_ofList _ (by decide), List.forall_mem_nil _⟩

theorem oneLine_slotOf? {source : Nat} {role : SlotRole} {s : Slot}
    (hs : d.slotOf? source role = some s) : OneLine s.member :=
  (oneLine_slot h (Descriptor.mem_of_slotOf?_eq_some hs)).2.1

theorem oneLine_setterBody {s : Slot} (hs : s ∈ d.slots) :
    ∀ line ∈ setterBody d s, OneLine line := by
  obtain ⟨hname, hmember, -⟩ := oneLine_slot h hs
  have hset : OneLine s!"internal_data->{s.member} = {s.name};" :=
    ((((oneLine_ofList _ (by decide)).append hmember).append (oneLine_ofList _ (by decide))).append
      hname).append (oneLine_ofList _ (by decide))
  unfold setterBody
  split
  · exact List.forall_mem_singleton.2 hset
  · split
    · rename_i length capacity hlength hcapacity
      refine List.forall_mem_append.2 ⟨oneLine_checkCapacity (oneLine_ofList _ (by decide))
        (oneLine_slotOf? h hcapacity), ?_⟩
      simp only [List.forall_mem_cons]
      exact ⟨((((oneLine_ofList _ (by decide)).append hmember).append
        (oneLine_ofList _ (by decide))).append hname).append (oneLine_ofList _ (by decide)),
        (oneLine_slotOf? h hlength).between (by decide) (by decide), List.forall_mem_nil _⟩
    · exact List.forall_mem_nil _
  · have hcapacity : OneLine (((d.slotOf? s.source .capacity).map Slot.member).getD "") := by
      cases hcapacity : d.slotOf? s.source .capacity with
      | none => exact oneLine_empty
      | some capacity => exact oneLine_slotOf? h hcapacity
    exact List.forall_mem_append.2
      ⟨oneLine_checkCapacity hname hcapacity, List.forall_mem_singleton.2 hset⟩
  · simp only [List.forall_mem_cons]
    exact ⟨oneLine_ofList _ (by decide), hname.between (by decide) (by decide),
      oneLine_ofList _ (by decide), oneLine_ofList _ (by decide), List.forall_mem_nil _⟩

theorem oneLine_slotAccessors {s : Slot} (hs : s ∈ d.slots) :
    ∀ line ∈ slotAccessors d s, OneLine line := by
  obtain ⟨hname, hmember, haccessor⟩ := oneLine_slot h hs
  have hd := oneLine_of_isWord h.name
  have hcType := oneLine_cType s
  have hmessage : OneLine messageParameter.type ∧ OneLine messageParameter.name :=
    ⟨(oneLine_ofList _ (by decide)).append (oneLine_ofList _ (by decide)),
      oneLine_ofList _ (by decide)⟩
  have hget : OneLine (getterSignature d s) := by
    have hparameters := oneLine_parameterList (List.forall_mem_singleton.2 hmessage)
    rw [getterSignature_eq]
    exact ((((hcType.append (oneLine_ofList _ (by decide))).append
      ((hd.append (oneLine_ofList _ (by decide))).append haccessor)).append
      (oneLine_ofList _ (by decide))).append hparameters).append (oneLine_ofList _ (by decide))
  have hset : OneLine (setterSignature d s) := by
    have hparameters : OneLine (parameterList (setterParameters s)) := by
      apply oneLine_parameterList
      unfold setterParameters
      split
      · simp only [List.forall_mem_cons]
        exact ⟨hmessage, ⟨oneLine_ofList _ (by decide), hname⟩,
          ⟨oneLine_ofList _ (by decide), oneLine_ofList _ (by decide)⟩, List.forall_mem_nil _⟩
      · exact List.forall_mem_cons.2 ⟨hmessage, List.forall_mem_singleton.2 ⟨hcType, hname⟩⟩
    rw [setterSignature_eq]
    exact (((((oneLine_ofList _ (by decide)).append (oneLine_ofList _ (by decide))).append
      ((hd.append (oneLine_ofList _ (by decide))).append haccessor)).append
      (oneLine_ofList _ (by decide))).append hparameters).append (oneLine_ofList _ (by decide))
  have hgetter : ∀ line ∈ getterStatements d s, OneLine line := by
    rw [getterStatements, List.forall_mem_append, List.forall_mem_append]
    exact ⟨⟨List.forall_mem_singleton.2 (hcType.append (oneLine_ofList _ (by decide))),
      oneLine_onRecord h (List.forall_mem_singleton.2 (hmember.between (by decide) (by decide)))⟩,
      List.forall_mem_singleton.2 (oneLine_ofList _ (by decide))⟩
  simp only [slotAccessors, List.forall_mem_append, List.forall_mem_singleton]
  exact ⟨⟨oneLine_empty, oneLine_function hget hgetter⟩, oneLine_empty,
    oneLine_function hset (oneLine_onRecord h (oneLine_setterBody h hs))⟩

/-! ### Codec -/

omit h in
theorem of_textSlots?_eq_some {source : Nat} {t : TextSlots} (ht : textSlots? d source = some t) :
    d.slotOf? source .payload = some t.payload ∧ d.slotOf? source .length = some t.length ∧
      d.slotOf? source .capacity = some t.capacity := by
  obtain ⟨payload, hpayload, ht⟩ := Option.bind_eq_some_iff.1 ht
  obtain ⟨length, hlength, ht⟩ := Option.bind_eq_some_iff.1 ht
  obtain ⟨capacity, hcapacity, ht⟩ := Option.bind_eq_some_iff.1 ht
  cases ht
  exact ⟨hpayload, hlength, hcapacity⟩

omit h in
theorem oneLine_fixedThenTexts {onScalar : Slot → Lines} {onText : TextSlots → Lines}
    (hs : ∀ s ∈ d.slots, ∀ line ∈ onScalar s, OneLine line)
    (ht : ∀ source t, textSlots? d source = some t → ∀ line ∈ onText t, OneLine line) :
    ∀ line ∈ fixedThenTexts d onScalar onText, OneLine line := by
  rw [fixedThenTexts, List.forall_mem_append]
  constructor
  · intro line hline
    obtain ⟨p, -, hline⟩ := List.mem_flatMap.1 hline
    obtain ⟨s, hslot, hline⟩ := List.mem_flatMap.1 hline
    exact hs s (Descriptor.mem_of_slotOf?_eq_some (Option.mem_toList.1 hslot)) line hline
  · intro line hline
    obtain ⟨p, -, hline⟩ := List.mem_flatMap.1 hline
    obtain ⟨t, hslots, hline⟩ := List.mem_flatMap.1 hline
    exact ht p.1 t (Option.mem_toList.1 hslots) line hline

theorem oneLine_textSlots? {source : Nat} {t : TextSlots} (ht : textSlots? d source = some t) :
    OneLine t.payload.member ∧ OneLine t.length.member ∧ OneLine t.capacity.member :=
  have ⟨hpayload, hlength, hcapacity⟩ := of_textSlots?_eq_some ht
  ⟨oneLine_slotOf? h hpayload, oneLine_slotOf? h hlength, oneLine_slotOf? h hcapacity⟩

theorem oneLine_writes : ∀ line ∈ fixedThenTexts d writeScalar writeText, OneLine line := by
  apply oneLine_fixedThenTexts
  · intro s hs
    obtain ⟨-, hmember, -⟩ := oneLine_slot h hs
    exact List.forall_mem_singleton.2 (((((oneLine_ofList _ (by decide)).append
      (oneLine_cType s)).append (oneLine_ofList _ (by decide))).append hmember).append
      (oneLine_ofList _ (by decide)))
  · intro source t ht
    obtain ⟨hpayload, hlength, hcapacity⟩ := oneLine_textSlots? h ht
    exact List.forall_mem_singleton.2 ((hpayload.between (by decide) (by decide)).append
      (((hlength.between (by decide) (by decide)).append hcapacity).append
        (oneLine_ofList _ (by decide))))

theorem oneLine_reads : ∀ line ∈ fixedThenTexts d readScalar readText, OneLine line := by
  apply oneLine_fixedThenTexts
  · intro s hs
    obtain ⟨-, hmember, -⟩ := oneLine_slot h hs
    exact List.forall_mem_singleton.2 (((((oneLine_ofList _ (by decide)).append
      (oneLine_cType s)).append (oneLine_ofList _ (by decide))).append hmember).append
      (oneLine_ofList _ (by decide)))
  · intro source t ht
    obtain ⟨hpayload, hlength, hcapacity⟩ := oneLine_textSlots? h ht
    simp only [readText, List.forall_mem_cons]
    exact ⟨hpayload.between (by decide) (by decide),
      (hpayload.between (by decide) (by decide)).append (hlength.between (by decide) (by decide)),
      ((hcapacity.between (by decide) (by decide)).append hlength).append
        (oneLine_ofList _ (by decide)),
      hlength.between (by decide) (by decide), hlength.between (by decide) (by decide),
      List.forall_mem_nil _⟩

theorem oneLine_serializeBody : ∀ line ∈ serializeBody d, OneLine line := by
  have hcondition : OneLine s!"!msg || (msg->type != {Naming.enumTag d.name})" :=
    (oneLine_tag h).between (by decide) (by decide)
  unfold serializeBody
  rw [List.forall_mem_append, List.forall_mem_append, List.forall_mem_append]
  refine ⟨⟨⟨oneLine_ifBlock hcondition
      (List.forall_mem_singleton.2 (oneLine_ofList _ (by decide))),
    List.forall_mem_singleton.2 (oneLine_ofList _ (by decide))⟩, ?_⟩,
    List.forall_mem_singleton.2 (oneLine_ofList _ (by decide))⟩
  split
  · exact List.forall_mem_nil _
  · exact List.forall_mem_cons.2
      ⟨oneLine_recordPointer h (oneLine_ofList _ (by decide)), oneLine_writes h⟩

theorem oneLine_deserializeBody : ∀ line ∈ deserializeBody d, OneLine line := by
  have hcondition : OneLine s!"!buffer || (msg->type != {Naming.enumTag d.name})" :=
    (oneLine_tag h).between (by decide) (by decide)
  have hrecord : OneLine
      (if d.slots.isEmpty then "" else s!" + sizeof({recordType d}) + buffer_size") := by
    split
    · exact oneLine_empty
    · exact (oneLine_recordType h).between (by decide) (by decide)
  unfold deserializeBody
  simp only [List.forall_mem_append, List.forall_mem_cons]
  refine ⟨⟨⟨⟨⟨⟨?_, (oneLine_ofList _ (by decide)).append (oneLine_ofList _ (by decide)),
    List.forall_mem_nil _⟩, oneLine_ifBlock (oneLine_ofList _ (by decide))
      (List.forall_mem_singleton.2 (oneLine_ofList _ (by decide)))⟩,
    oneLine_ofList _ (by decide), oneLine_ofList _ (by decide), List.forall_mem_nil _⟩, ?_⟩, ?_⟩,
    oneLine_ofList _ (by decide), List.forall_mem_nil _⟩
  · exact ((((oneLine_ofList _ (by decide)).append (oneLine_ofList _ (by decide))).append
      (oneLine_ofList _ (by decide))).append hrecord).append (oneLine_ofList _ (by decide))
  · split
    · exact List.forall_mem_nil _
    · rw [List.forall_mem_append, List.forall_mem_append]
      refine ⟨⟨List.forall_mem_singleton.2 (oneLine_recordPointer h (oneLine_ofList _ (by decide))),
        ?_⟩, oneLine_reads h⟩
      split
      · exact List.forall_mem_nil _
      · exact List.forall_mem_cons.2 ⟨oneLine_ofList _ (by decide),
          List.forall_mem_singleton.2 (oneLine_ofList _ (by decide))⟩
  · exact oneLine_ifBlock hcondition (List.forall_mem_cons.2 ⟨oneLine_ofList _ (by decide),
      List.forall_mem_singleton.2 (oneLine_ofList _ (by decide))⟩)

theorem oneLine_sizeBody : ∀ line ∈ sizeBody d, OneLine line := by
  unfold sizeBody
  rw [List.forall_mem_append, List.forall_mem_append]
  refine ⟨⟨List.forall_mem_singleton.2 ((oneLine_nat _).between (by decide) (by decide)), ?_⟩,
    List.forall_mem_singleton.2 (oneLine_ofList _ (by decide))⟩
  split
  · exact List.forall_mem_singleton.2 (oneLine_ofList _ (by decide))
  · refine oneLine_ifBlock (oneLine_isOwnType h) (List.forall_mem_cons.2
      ⟨oneLine_recordPointer h (oneLine_ofList _ (by decide)), ?_⟩)
    rw [List.forall_mem_map]
    intro s hs
    exact (oneLine_slot h (List.mem_of_mem_filter hs)).2.1.between (by decide) (by decide)

/-- The names of a message and of its fields decide the lines of its source. -/
theorem oneLine_source (hi : d.internal = false) (names : OutputNames) :
    ∀ line ∈ source names d, OneLine line := by
  have hd := oneLine_of_isWord h.name
  have haccessors : ∀ line ∈ d.slots.flatMap (slotAccessors d), OneLine line := by
    intro line hline
    obtain ⟨s, hs, hline⟩ := List.mem_flatMap.1 hline
    exact oneLine_slotAccessors h hs line hline
  have hserialize : OneLine (serializeSignature d) :=
    ((((oneLine_ofList _ (by decide)).append hd).append (oneLine_ofList _ (by decide))).append
      (oneLine_ofList _ (by decide))).append (oneLine_ofList _ (by decide))
  have hdeserialize : OneLine (deserializeSignature d) :=
    (((oneLine_ofList _ (by decide)).append (oneLine_ofList _ (by decide))).append hd).append
      (oneLine_ofList _ (by decide))
  have hsize : OneLine (sizeSignature d) :=
    ((((oneLine_ofList _ (by decide)).append hd).append (oneLine_ofList _ (by decide))).append
      (oneLine_ofList _ (by decide))).append (oneLine_ofList _ (by decide))
  rw [source_eq d names hi]
  simp only [List.forall_mem_append, List.forall_mem_singleton]
  exact ⟨oneLine_sourceFront h names,
    oneLine_function (oneLine_createSignature h) (oneLine_createBody h), haccessors,
    ⟨oneLine_empty, oneLine_function hserialize (oneLine_serializeBody h)⟩,
    ⟨oneLine_empty, oneLine_function hdeserialize (oneLine_deserializeBody h)⟩,
    oneLine_empty, oneLine_function hsize (oneLine_sizeBody h)⟩

end Lines

end Emit.RecordModule

end WireSchema
