import WireSchema.Registry
import WireSchema.Schema.Build

/-!
# Compiling a schema

Messages first, then addresses, then a check that both dispatch tables exist. Message and address
names end up in one scope of the generated code and must differ.
-/

namespace WireSchema

/-- A schema text and the name of its file. -/
structure Source where
  file : String
  text : String
deriving Repr, DecidableEq

/-- The state of compilation between two lines. -/
structure Compilation where
  registry : Registry := {}
  /-- The interface that is open. -/
  current : Option Interface := none
deriving Repr, DecidableEq

namespace Compilation

/-- Opens an interface. An open one ends here. -/
def openInterface (config : Config) (c : Compilation) (location : Location) (name : String) :
    Traced SchemaError Compilation := do
  if let some previous := c.current then
    Traced.log (.interfaceCutShort previous.name location)
  let targets := Targets.ofName config.infixes name
  Traced.logIf (!targets.host && !targets.embedded) (.untargeted name)
  let interface := Interface.empty name targets location
  let registry ← c.registry.pushInterface interface
  pure ⟨registry, some interface⟩

def closeInterface (c : Compilation) (location : Location) : Traced SchemaError Compilation := do
  match c.current with
  | none => Traced.fail (.malformed location .closeWithoutInterface)
  | some interface =>
    Traced.log (.interfaceClosed interface.name)
    pure { c with current := none }

/-- Declares a message in the open interface. -/
def declare (config : Config) (c : Compilation) (location : Location) (text : String) :
    Traced SchemaError Compilation := do
  match c.current with
  | none => Traced.fail (.malformed location .declarationOutside)
  | some interface =>
    let d ← Descriptor.build config interface location text
    Traced.log (.built d.name d.interface d.fields.length d.internal)
    let (registry, id) ← c.registry.pushMessage d
    Traced.log (.registered id d.name)
    pure { c with registry := registry }

/-- Takes one line. -/
def step (config : Config) (c : Compilation) (line : Line) : Traced SchemaError Compilation :=
  match line.directive with
  | .opened name => c.openInterface config line.location name
  | .closed => c.closeInterface line.location
  | .declared text => c.declare config line.location text

/-- Takes all lines, up to the first malformed one. -/
def run (config : Config) (c : Compilation) (lines : List (Except SchemaError Line)) :
    Traced SchemaError Compilation :=
  lines.foldlM (fun c (line : Except SchemaError Line) => do c.step config (← line)) c

end Compilation

def compileMessages (config : Config) (source : Source) : Traced SchemaError Registry := do
  let c ← Compilation.run config {} (Line.readAll config.markers source.file source.text)
  if let some interface := c.current then
    Traced.log (.interfaceLeftOpen interface.name source.file)
  pure c.registry

/-- The names of an address map with their places and kinds, domains first. -/
def AddressMap.names (m : AddressMap) : List (String × Location × NameKind) :=
  m.domains.map (fun d => (d.name, d.location, .domain)) ++
    m.entries.map (fun e => (e.name, e.location, .address))

/-- Fails when an address and a message have the same name. -/
def checkSharedScope (r : Registry) (m : AddressMap) : Except SchemaError Unit :=
  match m.names.findSome? fun n => (r.message? n.1).map (n, ·) with
  | some ((name, location, kind), d) => .error (.duplicateName location kind name d.location)
  | none => .ok ()

/-- Adds the addresses of an address schema. -/
def compileAddresses (config : Config) (r : Registry) (source : Source) :
    Traced SchemaError Registry := do
  let m ← AddressMap.allocate config.markers source.file source.text
  Traced.log (.allocated m.domains.length m.entries.length)
  checkSharedScope r m
  pure (r.setAddresses m)

/-- Compiles a message schema and, if there is one, an address schema. -/
def compile (config : Config) (messages : Source) (addresses : Option Source) :
    Traced SchemaError Registry := do
  let r ← compileMessages config messages
  let r ←
    match addresses with
    | none => pure r
    | some source => compileAddresses config r source
  let _ ← r.dispatchTable .host
  let _ ← r.dispatchTable .embedded
  pure r

end WireSchema
