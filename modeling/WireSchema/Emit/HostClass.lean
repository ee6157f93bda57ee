import WireSchema.Artifact
import WireSchema.Emit.Lines
import WireSchema.Schema.Build

/-!
# Host classes

A C++ class for each host message, derived from the hand-written base of all messages. Fields are
streamed in declaration order without lengths or separators, owned values through their pointee.
-/

namespace WireSchema.Emit

def hostBase : String := "QGS_ModuleMsgBase"

/-- The header that declares the base of all host messages. -/
def hostBaseHeader : String := "QGS_ModuleMsg.h"

/-- The C++ type that an owned field points to. -/
def pointeeName : OwnedCore → String
  | .scalar type => type.cName
  | .text => textType
  | .foreign path => path

/-- The C++ type that a field points to, if it owns a value. -/
def pointee? (f : Field) : Option String :=
  match f.kind with
  | .owned core => some (pointeeName core)
  | _ => none

namespace HostClass

/-- The parameters of the constructor from values. -/
def parameters (d : Descriptor) : String :=
  ", ".intercalate (d.fields.map fun f => s!"{f.typeName} {f.name}")

/-! ## Declaration -/

def accessorDeclarations (f : Field) : Lines :=
  match pointee? f with
  | some core => [
      s!"{f.typeName} get{f.accessor}();",
      s!"std::unique_ptr<{core}> getClone{f.accessor}() const;",
      s!"void set{f.accessor}({f.typeName} {f.name});"]
  | none => [
      s!"{f.typeName} get{f.accessor}() const;",
      s!"void set{f.accessor}(const {f.typeName} {f.name});"]

/-- The declarations of the stream operators. Internal messages have none. -/
def streamDeclarations (d : Descriptor) : Lines :=
  if d.internal then []
  else [
    "",
    "virtual BinaryOStream& stream(BinaryOStream& os) const;",
    "virtual BinaryIStream& stream(BinaryIStream& is);"]

def dataMembers (d : Descriptor) : Lines :=
  if d.fields.isEmpty then []
  else ["", "protected:"] ++ indent "\t" (d.fields.map fun f => s!"{f.typeName} {f.member};")

/-- The class itself. -/
def declaration (d : Descriptor) : Lines :=
  let name := d.name
  [s!"class {name}: public {hostBase}"] ++
    blockThen ";" (["public:"] ++
      indent "\t" ([
        s!"typedef std::unique_ptr<{name}> ptr;",
        "",
        s!"{name}({parameters d});",
        s!"{name}(const {hostBase}& base);",
        s!"{name}(const {name}& msg);",
        s!"virtual ~{name}();"] ++
        d.fields.flatMap (fun f => "" :: accessorDeclarations f) ++
        streamDeclarations d) ++
      dataMembers d)

/-- The include guard of the header. -/
def guard (names : OutputNames) (d : Descriptor) : String :=
  Naming.headerGuard s!"{names.spaceName}_{d.name}"

/-- The header of a message. -/
def header (names : OutputNames) (d : Descriptor) : Lines :=
  preamble names s!"{d.name}.h" .block ++
    guarded (guard names d) (
      ["#include <memory>", "#include <string>", includeLine hostBaseHeader,
        includeLine s!"{names.typeEnum}.h"] ++
      d.includes.map includeLine ++ ["", openNamespace names, ""] ++
      declaration d ++ ["", closeNamespace names, ""])

/-! ## Definition -/

/-- A constructor that sets the base and then the members. -/
def constructor (signature base : String) (members : List (String × String)) : Lines :=
  [signature, s!"\t: {base}"] ++ members.map (fun m => s!"\t, {m.1}({m.2})") ++ block [] ++ [""]

/-- The three constructors and the destructor. Values are moved or copied in, owned values are
cloned by the copy constructor. -/
def constructors (names : OutputNames) (d : Descriptor) : Lines :=
  let name := d.name
  constructor s!"{name}::{name}({parameters d})"
      s!"{hostBase}({names.typeEnum}_t::{Naming.enumTag name})"
      (d.fields.map fun f =>
        (f.member, if (pointee? f).isSome then s!"std::move({f.name})" else f.name)) ++
    constructor s!"{name}::{name}(const {hostBase}& base)" s!"{hostBase}(base)"
      (d.fields.map fun f => (f.member, "")) ++
    constructor s!"{name}::{name}(const {name}& msg)" s!"{hostBase}(msg)"
      (d.fields.map fun f =>
        (f.member,
          if (pointee? f).isSome then s!"msg.getClone{f.accessor}()" else s!"msg.{f.member}")) ++
    [s!"{name}::~{name}()"] ++ block []

def function (signature : String) (body : Lines) : Lines :=
  [signature] ++ block (indent "\t" body)

def accessors (name : String) (f : Field) : Lines :=
  match pointee? f with
  | some core =>
    function s!"{f.typeName} {name}::get{f.accessor}()" [s!"return std::move({f.member});"] ++
      [""] ++
      function s!"std::unique_ptr<{core}> {name}::getClone{f.accessor}() const"
        ([s!"if(!{f.member})"] ++ block ["\treturn nullptr;"] ++
          [s!"return std::make_unique<{core}>(*{f.member});"]) ++
      [""] ++
      function s!"void {name}::set{f.accessor}({f.typeName} {f.name})"
        [s!"{f.member} = std::move({f.name});"]
  | none =>
    function s!"{f.typeName} {name}::get{f.accessor}() const" [s!"return {f.member};"] ++
      [""] ++
      function s!"void {name}::set{f.accessor}(const {f.typeName} {f.name})"
        [s!"{f.member} = {f.name};"]

/-! ## Stream operators -/

/-- The statements that write a field. A missing owned value is written as a default one, so that
what follows stays in place. -/
def writeField (f : Field) : Lines :=
  match pointee? f with
  | some core =>
    [s!"if({f.member})"] ++ block [s!"\tos << *{f.member};"] ++ ["else"] ++
      block [s!"\tos << {core}();"]
  | none => [s!"os << {f.member};"]

def readField (f : Field) : Lines :=
  match pointee? f with
  | some core =>
    [s!"if(!{f.member})"] ++ block [s!"\t{f.member} = std::make_unique<{core}>();"] ++
      [s!"is >> *{f.member};"]
  | none =>
    (if f.kind = .text then [s!"{f.member}.erase();"] else []) ++ [s!"is >> {f.member};"]

/-- The operator that writes a message. -/
def outputOperator (d : Descriptor) : Lines :=
  function s!"BinaryOStream& {d.name}::stream(BinaryOStream& os) const"
    ([s!"{hostBase}::stream(os);"] ++ d.fields.flatMap writeField ++ ["return os;"])

/-- The operator that reads a message. -/
def inputOperator (d : Descriptor) : Lines :=
  function s!"BinaryIStream& {d.name}::stream(BinaryIStream& is)"
    ([s!"{hostBase}::stream(is);"] ++ d.fields.flatMap readField ++ ["return is;"])

/-- Both stream operators. Internal messages have none. -/
def streamOperators (d : Descriptor) : Lines :=
  if d.internal then [] else [""] ++ outputOperator d ++ [""] ++ inputOperator d

/-- The source of a message. -/
def source (names : OutputNames) (d : Descriptor) : Lines :=
  preamble names s!"{d.name}.cpp" .block ++
    [includeLine s!"../{d.name}.h", "", openNamespace names, ""] ++
    constructors names d ++
    d.fields.flatMap (fun f => "" :: accessors d.name f) ++
    streamOperators d ++
    ["", closeNamespace names]

/-! ## Artifacts -/

def headerPath (d : Descriptor) : Path := Path.join ⟨d.interface⟩ ⟨s!"{d.name}.h"⟩

def sourcePath (d : Descriptor) : Path :=
  (Path.join ⟨d.interface⟩ ⟨"src"⟩).join ⟨s!"{d.name}.cpp"⟩

/-- The files of a host message. -/
def artifacts (names : OutputNames) (d : Descriptor) : List Artifact :=
  [⟨.host, headerPath d, render (header names d)⟩, ⟨.host, sourcePath d, render (source names d)⟩]

end HostClass

end WireSchema.Emit
