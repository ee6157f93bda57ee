import WireSchema.Artifact
import WireSchema.Emit.Lines

/-!
# Embedded records

A C module for each embedded message. The record lies directly behind the common header and is
followed by one buffer for all texts, which creation sizes once. On the wire the scalars come first
in declaration order, then each text behind its length. What belongs to a field is found among the
slots by the index of the field and the role of the slot.
-/

namespace WireSchema.Emit

/-- The C type of all embedded messages. -/
def messageType : String := "moduleMsg_t"

/-- The header that declares the type of all embedded messages. -/
def recordBaseHeader : String := "message_base.h"

namespace RecordModule

/-- The margin of C code. -/
def margin : String := "    "

def function (signature : String) (body : Lines) : Lines :=
  [signature] ++ block (indent margin body)

/-- A condition with the statements under it. -/
def ifBlock (condition : String) (body : Lines) : Lines :=
  [s!"if({condition})"] ++ block (indent margin body)

def recordType (d : Descriptor) : String := s!"{d.name}_t"

/-- A pointer to the record of `msg`. -/
def recordPointer (d : Descriptor) (name : String) : String :=
  s!"{recordType d}* {name} = ({recordType d}*)(msg + 1);"

/-- The condition that `msg` is a message of this type. -/
def isOwnType (d : Descriptor) : String := s!"msg && (msg->type == {Naming.enumTag d.name})"

/-! ## Signatures -/

/-- A parameter: its C type and its name. -/
structure Parameter where
  type : String
  name : String
deriving Repr, DecidableEq

/-- Parameters as they stand between parentheses. -/
def parameterList (ps : List Parameter) : String :=
  ", ".intercalate (ps.map fun p => s!"{p.type} {p.name}")

/-- The parameter that every accessor starts with. -/
def messageParameter : Parameter := ⟨messageType ++ "*", "msg"⟩

def createParameters (d : Descriptor) : List Parameter :=
  [⟨"uint32_t", "destination"⟩, ⟨"uint8_t", "msgNr"⟩] ++
    (d.slots.filter Slot.isCreateArg).map fun s => ⟨s.cType, s.name⟩

/-- The parameters of a setter. A text comes with its length. -/
def setterParameters (s : Slot) : List Parameter :=
  match s.role with
  | .payload => [messageParameter, ⟨"const uint8_t*", s.name⟩, ⟨"uint32_t", "length"⟩]
  | _ => [messageParameter, ⟨s.cType, s.name⟩]

def createSignature (d : Descriptor) : String :=
  s!"{messageType}* {d.name}Create({parameterList (createParameters d)})"

def getterSignature (d : Descriptor) (s : Slot) : String :=
  s!"{s.cType} {d.name}Get{s.accessor}({parameterList [messageParameter]})"

def setterSignature (d : Descriptor) (s : Slot) : String :=
  s!"void {d.name}Set{s.accessor}({parameterList (setterParameters s)})"

/-- The signature of the encoder. -/
def serializeSignature (d : Descriptor) : String :=
  s!"uint8_t* {d.name}Serialize({messageType}* msg, uint8_t* buffer, uint32_t buffer_size)"

/-- The signature of the decoder. -/
def deserializeSignature (d : Descriptor) : String :=
  s!"{messageType}* {d.name}Deserialize(uint8_t* buffer, uint32_t buffer_size)"

def sizeSignature (d : Descriptor) : String :=
  s!"uint32_t {d.name}GetMessageSize({messageType}* msg)"

/-! ## Header -/

/-- A prototype with an empty line behind it. -/
def prototype (signature : String) : Lines := [signature ++ ";", ""]

def guard (d : Descriptor) : String := Naming.headerGuard d.name

/-- The header of a message. -/
def header (names : OutputNames) (d : Descriptor) : Lines :=
  preamble names s!"{d.name}.h" .block ++
    guarded (guard d) (
      ["#include <stdint.h>", includeLine recordBaseHeader,
        includeLine s!"{names.addressEnum}.h"] ++
      (if names.sharedEnums.isSome then [includeLine "msg_enums.h"] else []) ++
      d.includes.map includeLine ++ [""] ++
      prototype (createSignature d) ++
      d.slots.flatMap (fun s =>
        prototype (getterSignature d s) ++ prototype (setterSignature d s)) ++
      (if d.internal then []
       else
        prototype (serializeSignature d) ++ prototype (deserializeSignature d) ++
          prototype (sizeSignature d)))

/-! ## Creation -/

/-- The statements that set up a slot. Texts take their places one behind the other. -/
def createSlot (d : Descriptor) (s : Slot) : Lines :=
  match s.role with
  | .value | .capacity => [s!"internal_data->{s.member} = {s.name};"]
  | .length => [s!"internal_data->{s.member} = 0;"]
  | .payload =>
    s!"internal_data->{s.member} = trailing;" ::
      ((d.slotOf? s.source .capacity).toList.map fun c => s!"trailing += {c.name};")

/-- The function that makes a message. -/
def create (d : Descriptor) : Lines :=
  let capacities := (d.slots.filter (·.role == .capacity)).map fun s => s!" + ({s.name})"
  let record := if d.slots.isEmpty then ""
    else s!" + sizeof({recordType d})" ++ String.join capacities
  let slots := if d.slots.isEmpty then []
    else ["", recordPointer d "internal_data"] ++
      (if d.textFields.isEmpty then [] else ["uint8_t* trailing = (uint8_t*)(internal_data + 1);"]) ++
      d.slots.flatMap (createSlot d)
  function (createSignature d) (
    [s!"size_t size = sizeof({messageType}){record};",
      s!"{messageType}* msg = MSG_MALLOC(size);", ""] ++
    ifBlock "msg" ([
      "msg->mDestination = destination;",
      "msg->mSource = 0;",
      "msg->mMsgNr = msgNr;",
      s!"msg->type = {Naming.enumTag d.name};",
      "msg->mAllocatedSize = size;"] ++ slots) ++
    ["return msg;"])

/-! ## Accessors -/

/-- Statements on the record of a message of this type; any other message is an error. -/
def onRecord (d : Descriptor) (body : Lines) : Lines :=
  ifBlock (isOwnType d) (recordPointer d "internal_data" :: body) ++
    ["else"] ++ block (indent margin ["MSG_ASSERT(0);"])

def getter (d : Descriptor) (s : Slot) : Lines :=
  function (getterSignature d s) (
    [s!"{s.cType} value = \x7b0\x7d;"] ++ onRecord d [s!"value = internal_data->{s.member};"] ++
    ["return value;"])

/-- Refuses a count above the capacity that a member holds. -/
def checkCapacity (count capacity : String) : Lines :=
  ifBlock s!"{count} > internal_data->{capacity}" ["MSG_ASSERT(0);", "return;"]

/-- The statements of the setter of a slot. A capacity is fixed by creation. -/
def setterBody (d : Descriptor) (s : Slot) : Lines :=
  match s.role with
  | .value => [s!"internal_data->{s.member} = {s.name};"]
  | .payload =>
    match d.slotOf? s.source .length, d.slotOf? s.source .capacity with
    | some length, some capacity =>
      checkCapacity "length" capacity.member ++
        [s!"memcpy(internal_data->{s.member}, {s.name}, length);",
          s!"internal_data->{length.member} = length;"]
    | _, _ => []
  | .length =>
    let capacity := ((d.slotOf? s.source .capacity).map Slot.member).getD ""
    checkCapacity s.name capacity ++ [s!"internal_data->{s.member} = {s.name};"]
  | .capacity => [
      "/* Fixed by Create: the trailing buffer is never resized. */",
      s!"(void){s.name};",
      "(void)internal_data;",
      "MSG_ASSERT(0);"]

def setter (d : Descriptor) (s : Slot) : Lines :=
  function (setterSignature d s) (onRecord d (setterBody d s))

/-! ## Codec -/

/-- The slots of a text. -/
structure TextSlots where
  payload : Slot
  length : Slot
  capacity : Slot

/-- The slots of the text at index `source`. -/
def textSlots? (d : Descriptor) (source : Nat) : Option TextSlots := do
  let payload ← d.slotOf? source .payload
  let length ← d.slotOf? source .length
  let capacity ← d.slotOf? source .capacity
  return ⟨payload, length, capacity⟩

def writeScalar (s : Slot) : Lines :=
  [s!"buffer = serialize_{s.cType}(buffer, &buffer_size, &data->{s.member});"]

def writeText (t : TextSlots) : Lines :=
  [s!"buffer = serialize_string(buffer, &buffer_size, data->{t.payload.member}, " ++
    s!"MSG_MIN(data->{t.length.member}, data->{t.capacity.member}));"]

def readScalar (s : Slot) : Lines :=
  [s!"buffer = deserialize_{s.cType}(buffer, &buffer_size, &data->{s.member});"]

/-- The statements that read a text. It takes its place behind those before it and fills all of
it. -/
def readText (t : TextSlots) : Lines := [
  s!"data->{t.payload.member} = trailing;",
  s!"buffer = deserialize_string(buffer, &buffer_size, data->{t.payload.member}, " ++
    s!"&data->{t.length.member}, trailing_size);",
  s!"data->{t.capacity.member} = data->{t.length.member};",
  s!"trailing += data->{t.length.member};",
  s!"trailing_size -= data->{t.length.member};"]

/-- Statements for the slot of every scalar field, then statements for the slots of every text
field. -/
def fixedThenTexts (d : Descriptor) (onScalar : Slot → Lines) (onText : TextSlots → Lines) :
    Lines :=
  d.fixedFields.flatMap (fun p => (d.slotOf? p.1 .value).toList.flatMap onScalar) ++
    d.textFields.flatMap (fun p => (textSlots? d p.1).toList.flatMap onText)

/-- The encoder. -/
def serialize (d : Descriptor) : Lines :=
  function (serializeSignature d) (
    ifBlock s!"!msg || (msg->type != {Naming.enumTag d.name})" ["return NULL;"] ++
    ["buffer = Msg_Serialize(msg, buffer, &buffer_size);"] ++
    (if d.slots.isEmpty then []
     else recordPointer d "data" :: fixedThenTexts d writeScalar writeText) ++
    ["return buffer;"])

/-- The decoder. -/
def deserialize (d : Descriptor) : Lines :=
  let record := if d.slots.isEmpty then "" else s!" + sizeof({recordType d}) + buffer_size"
  function (deserializeSignature d) (
    [s!"size_t size = sizeof({messageType}){record};",
      s!"{messageType}* msg = MSG_MALLOC(size);"] ++
    ifBlock "!msg" ["return NULL;"] ++
    ["msg->mAllocatedSize = size;",
      "buffer = Msg_DeSerialize(msg, buffer, &buffer_size);"] ++
    (if d.slots.isEmpty then []
     else
      [recordPointer d "data"] ++
        (if d.textFields.isEmpty then []
         else ["uint8_t* trailing = (uint8_t*)(data + 1);",
          "uint32_t trailing_size = buffer_size;"]) ++
        fixedThenTexts d readScalar readText) ++
    ifBlock s!"!buffer || (msg->type != {Naming.enumTag d.name})"
      ["MSG_FREE(msg);", "return NULL;"] ++
    ["return msg;"])

/-- Bytes of all scalars on the wire. -/
def fixedWidth (d : Descriptor) : Nat :=
  (d.slots.map fun s =>
    match s.role, s.scalar with
    | .value, some type => type.width
    | _, _ => 0).foldr (· + ·) 0

/-- The function that gives the most bytes a message can take. -/
def messageSize (d : Descriptor) : Lines :=
  let capacities := d.slots.filter (·.role == .capacity)
  function (sizeSignature d) (
    [s!"uint32_t size = MSG_HEADER_SIZE + {fixedWidth d};"] ++
    (if capacities.isEmpty then ["(void)msg;"]
     else ifBlock (isOwnType d)
      (recordPointer d "data" :: capacities.map fun s => s!"size += 4 + data->{s.member};")) ++
    ["return size;"])

/-! ## Source -/

/-- The type of the record. -/
def recordDeclaration (d : Descriptor) : Lines :=
  if d.slots.isEmpty then []
  else ["typedef struct"] ++
    blockThen s!"{recordType d};"
      (indent margin (d.slots.map fun s => s!"{s.cType} {s.member};")) ++ [""]

/-- The source of a message. -/
def source (names : OutputNames) (d : Descriptor) : Lines :=
  preamble names s!"{d.name}.c" .block ++
    [includeLine s!"../inc/{d.name}.h", "#include <string.h>", ""] ++
    recordDeclaration d ++ create d ++
    d.slots.flatMap (fun s => [""] ++ getter d s ++ [""] ++ setter d s) ++
    (if d.internal then []
     else [""] ++ serialize d ++ [""] ++ deserialize d ++ [""] ++ messageSize d)

/-! ## Artifacts -/

/-- The files of an embedded message. -/
def artifacts (names : OutputNames) (d : Descriptor) : List Artifact :=
  [⟨.embedded, ⟨s!"inc/{d.name}.h"⟩, render (header names d)⟩,
   ⟨.embedded, ⟨s!"src/{d.name}.c"⟩, render (source names d)⟩]

end RecordModule

end WireSchema.Emit
