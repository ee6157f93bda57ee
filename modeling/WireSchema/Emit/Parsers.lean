import WireSchema.Emit.HostClass
import WireSchema.Emit.RecordModule
import WireSchema.Registry

/-!
# Parsers of untyped messages

The host parser and the embedded dispatcher: one case for each message on the wire of their side.
The embedded side also serializes a message of any type.
-/

namespace WireSchema.Emit

/-! ## Host -/

def hostParserHeader (names : OutputNames) : Lines :=
  preamble names "Parser.h" .block ++
    guarded (Naming.headerGuard s!"{names.spaceName}_Parser") (
      ["#include <vector>", includeLine hostBaseHeader, "", openNamespace names, "",
        "class Parser"] ++
      blockThen ";" ["public:", "\tParser();", "\tvirtual ~Parser();", "",
        s!"\t{hostBase}::ptr parse(std::vector<unsigned char> data);"] ++
      ["", closeNamespace names, ""])

/-- The case of a message in the host parser. -/
def hostCase (names : OutputNames) (name : String) : Lines :=
  [s!"case {names.typeEnum}_t::{Naming.enumTag name}:"] ++
    block (indent "\t" [
      s!"{name}::ptr ptr = std::make_unique<{name}>(msgBase);",
      "ptr->setSkipStreamHeader();",
      "is >> *ptr;",
      "returnPtr = std::move(ptr);",
      "break;"])

def hostParser (names : OutputNames) (entries : List DispatchEntry) : Lines :=
  preamble names "Parser.cpp" .block ++
    [includeLine "../Parser.h", "", includeLine s!"{names.typeEnum}.h"] ++
    entries.map (fun e => includeLine s!"{e.name}.h") ++
    ["", openNamespace names, "", "Parser::Parser()"] ++ block [] ++
    ["", "Parser::~Parser()"] ++ block [] ++
    ["", s!"{hostBase}::ptr Parser::parse(std::vector<unsigned char> data)"] ++
    block (indent "\t" (
      [s!"{hostBase} msgBase;", "BinaryIStream is(data);", s!"{hostBase}::ptr returnPtr;", "",
        "is >> msgBase;", "msgBase.setSkipStreamHeader();", "switch (msgBase.getType())"] ++
      block (entries.flatMap (fun e => hostCase names e.name) ++ ["default:", "\tbreak;"]) ++
      ["return returnPtr;"])) ++
    ["", closeNamespace names]

/-! ## Embedded -/

def parseSignature : String := s!"{messageType}* Msg_Parse(uint8_t* buffer, uint32_t bufferLength)"

/-- The signature of the encoder of any message. -/
def serializeAnySignature : String :=
  s!"uint8_t* Msg_SerializeAny({messageType}* msg, uint8_t* buffer, uint32_t buffer_size)"

def recordParserHeader (names : OutputNames) : Lines :=
  preamble names "Msg_Parser.h" .block ++
    guarded (Naming.headerGuard "Msg_Parser") [
      "#include <stdint.h>", includeLine recordBaseHeader, "",
      "/**",
      " * Decode a message of any wire type. Returns NULL for unknown",
      " * or internal types and for malformed input.",
      " */",
      parseSignature ++ ";", "",
      "/**",
      " * Serialize any message. Internal messages are not serializable",
      " * and yield NULL.",
      " */",
      serializeAnySignature ++ ";", ""]

/-- The case of a message in the embedded parser. -/
def parseCase (name : String) : Lines :=
  [s!"case {Naming.enumTag name}:"] ++
    block (indent RecordModule.margin
      [s!"msgResult = {name}Deserialize(buffer, bufferLength);", "break;"])

/-- The case of a message in the encoder of any message. -/
def serializeAnyCase (d : Descriptor) : Lines :=
  s!"case {Naming.enumTag d.name}:" ::
    indent RecordModule.margin (
      if d.internal then
        ["/* Internal message: not serializable. */", "MSG_ASSERT(0);", "return NULL;"]
      else [s!"return {d.name}Serialize(msg, buffer, buffer_size);"])

/-- The embedded parser. -/
def recordParse (entries : List DispatchEntry) : Lines :=
  RecordModule.function parseSignature (
    [s!"{messageType} header = \x7b0\x7d;", "uint32_t remaining = bufferLength;"] ++
    RecordModule.ifBlock "!Msg_DeSerialize(&header, buffer, &remaining)" ["return NULL;"] ++
    ["", s!"{messageType}* msgResult = NULL;", "switch(header.type)"] ++
    block (entries.flatMap (fun e => parseCase e.name) ++ ["default:", "    break;"]) ++
    ["return msgResult;"])

def recordSerializeAny (messages : List Descriptor) : Lines :=
  RecordModule.function serializeAnySignature (
    RecordModule.ifBlock "!msg" ["return NULL;"] ++
    ["switch(msg->type)"] ++
    block (messages.flatMap serializeAnyCase ++ ["default:", "    return NULL;"]))

/-- The source of the embedded parser. -/
def recordParser (names : OutputNames) (r : Registry) (entries : List DispatchEntry) : Lines :=
  preamble names "Msg_Parser.c" .block ++
    [includeLine "../inc/Msg_Parser.h"] ++
    (r.messagesFor .embedded).map (fun d => includeLine s!"../inc/{d.name}.h") ++ [""] ++
    recordParse entries ++ [""] ++ recordSerializeAny (r.messagesFor .embedded)

/-! ## Artifacts -/

/-- The parsers of both trees, from their dispatch tables. -/
def parserArtifacts (names : OutputNames) (r : Registry) (host embedded : List DispatchEntry) :
    List Artifact :=
  [⟨.host, ⟨"Parser/Parser.h"⟩, render (hostParserHeader names)⟩,
   ⟨.host, ⟨"Parser/src/Parser.cpp"⟩, render (hostParser names host)⟩,
   ⟨.embedded, ⟨"inc/Msg_Parser.h"⟩, render (recordParserHeader names)⟩,
   ⟨.embedded, ⟨"src/Msg_Parser.c"⟩, render (recordParser names r embedded)⟩]

end WireSchema.Emit
