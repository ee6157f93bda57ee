import WireSchema.Location
import WireSchema.Text.Invisible

/-!
# Log events

What a run reports while it works. An event is data; its level, its origin and its wording are
functions of it, and the command line decides which levels are shown.
-/

namespace WireSchema

/-- How important an event is. -/
inductive Level where
  | debug | info | warn
deriving Repr, DecidableEq

def Level.word : Level → String
  | .debug => "DEBUG"
  | .info => "INFO"
  | .warn => "WARN"

/-- Something worth reporting. -/
inductive Event where
  | built (name interface : String) (fields : Nat) (internal : Bool)
  | registered (id : Nat) (name : String)
  | interfaceCutShort (interface : String) (location : Location)
  | untargeted (interface : String)
  | interfaceClosed (interface : String)
  | interfaceLeftOpen (interface file : String)
  | regionCutShort (location : Location) (region : Nat)
  | regionOpened (name : String) (region : Nat)
  | regionLeftOpen (file : String) (region : Nat)
  | allocated (domains entries : Nat)
  | emittedInterface (interface : String) (messages : Nat) (host embedded : Bool)
  | tablesBuilt (host embedded : Nat)
  | foreignTree (dir found : String)
  | unknownTree (dir : String)
  | wrote (file : String)
  | removedStale (file : String)
  | treeUpdated (dir representation : String) (written unchanged removed : Nat)
deriving Repr, DecidableEq

namespace Event

def level : Event → Level
  | built .. | registered .. | regionOpened .. | tablesBuilt .. | wrote _ | removedStale _ => .debug
  | interfaceClosed _ | allocated .. | emittedInterface .. | treeUpdated .. => .info
  | interfaceCutShort .. | untargeted _ | interfaceLeftOpen .. | regionCutShort ..
  | regionLeftOpen .. | foreignTree .. | unknownTree _ => .warn

/-- The part of the program that an event comes from. -/
def origin : Event → String
  | built .. => "msggen_schema::declaration"
  | registered .. => "msggen_core::registry"
  | interfaceCutShort .. | untargeted _ | interfaceClosed _ | interfaceLeftOpen ..
  | allocated .. => "msggen_schema::compiler"
  | regionCutShort .. | regionOpened .. | regionLeftOpen .. => "msggen_schema::address"
  | emittedInterface .. => "msggen_codegen::generator"
  | tablesBuilt .. => "msggen_codegen::registry"
  | foreignTree .. | unknownTree _ | wrote _ | removedStale _
  | treeUpdated .. => "msggen_codegen::output"

/-- One character between the quotes of a quoted field. -/
def quotedChar (c : Char) : String :=
  if c == '"' then "\\\""
  else if c == '\\' then "\\\\"
  else if c == '\n' then "\\n"
  else if c == '\r' then "\\r"
  else if c == '\t' then "\\t"
  else if c == '\x00' then "\\0"
  else if Text.isInvisible c then
    "\\u\x7b" ++ String.ofList (Nat.toDigits 16 c.toNat) ++ "\x7d"
  else c.toString

/-- A field between quotes. -/
def quoted (s : String) : String := "\"" ++ String.join (s.toList.map quotedChar) ++ "\""

/-- The wording of an event, with its fields. -/
def text : Event → String
  | built name interface fields internal =>
    s!"built descriptor {name} interface={interface} fields={fields} internal={internal}"
  | registered id name => s!"registered message id={id} name={name}"
  | interfaceCutShort interface location =>
    s!"interface implicitly closed by next marker interface={interface} location={location.text}"
  | untargeted interface => s!"interface targets no representation interface={interface}"
  | interfaceClosed interface => s!"closed interface interface={interface}"
  | interfaceLeftOpen interface file =>
    s!"interface still open at end of file interface={interface} file={file}"
  | regionCutShort location region =>
    s!"region opened without closing the previous one location={location.text} region={region}"
  | regionOpened name region => s!"opened address region name={name} region={region}"
  | regionLeftOpen file region =>
    s!"address schema ends with an open region file={quoted file} region={region}"
  | allocated domains entries => s!"allocated addresses domains={domains} entries={entries}"
  | emittedInterface interface messages host embedded =>
    s!"Emitted interface interface={interface} messages={messages} host={host} embedded={embedded}"
  | tablesBuilt host embedded => s!"dispatch tables built host={host} embedded={embedded}"
  | foreignTree dir found =>
    s!"Overwriting directory generated for another representation dir={dir} found={found}"
  | unknownTree dir => s!"Overwriting non-empty directory without manifest dir={dir}"
  | wrote file => s!"Wrote artifact file={file}"
  | removedStale file => s!"Removed stale artifact file={file}"
  | treeUpdated dir representation written unchanged removed =>
    s!"Output tree updated dir={dir} representation={representation} written={written} " ++
      s!"unchanged={unchanged} removed={removed}"

/-- The log line of an event; `verbose` adds where it comes from. -/
def line (verbose : Bool) (e : Event) : String :=
  if verbose then s!"{e.level.word} {e.origin}: {e.text}" else s!"{e.level.word} {e.text}"

end Event

/-- Whether an event is shown: warnings always, the others when asked for more. -/
def Event.shown (verbose : Bool) (e : Event) : Bool := verbose || e.level == .warn

end WireSchema
