import WireSchema.Schema.Directive
import WireSchema.Traced

/-!
# Addresses

An address schema groups names into regions. A region is numbered by how many came before it and a
name by its place in the region; both numbers have to fit in eight bits, and an address is the
region in the high byte and the place in the low byte.
-/

namespace WireSchema

/-- A region and its name. -/
structure Domain where
  name : String
  region : Fin 256
  location : Location
deriving Repr, DecidableEq

/-- The first address of the region. -/
def Domain.value (d : Domain) : Nat := 256 * d.region

/-- An address and its name. -/
structure AddressEntry where
  name : String
  region : Fin 256
  index : Fin 256
  location : Location
deriving Repr, DecidableEq

/-- The address as a 16-bit number. -/
def AddressEntry.address (e : AddressEntry) : Nat := 256 * e.region + e.index

/-- All regions and addresses in file order. -/
structure AddressMap where
  domains : List Domain := []
  entries : List AddressEntry := []
deriving Repr, DecidableEq

namespace AddressMap

def entry? (m : AddressMap) (name : String) : Option AddressEntry :=
  m.entries.find? (·.name == name)

def domain? (m : AddressMap) (name : String) : Option Domain := m.domains.find? (·.name == name)

/-- Whether nothing was declared. -/
def isEmpty (m : AddressMap) : Bool := m.domains.isEmpty && m.entries.isEmpty

/-- Where `name` was declared. Domains and entries share one scope. -/
def declared? (m : AddressMap) (name : String) : Option Location :=
  match m.domain? name with
  | some d => some d.location
  | none => (m.entry? name).map AddressEntry.location

end AddressMap

/-! ## Allocation -/

/-- The state of allocation between two lines. -/
structure Allocation where
  map : AddressMap := {}
  /-- The region that is open. -/
  region : Option (Fin 256) := none
  /-- Addresses declared since the last region was opened. -/
  index : Nat := 0
deriving Repr, DecidableEq

namespace Allocation

/-- A number as a half of an address. -/
def fit (location : Location) (part : AddressPart) (value : Nat) : Except SchemaError (Fin 256) :=
  if h : value < 256 then .ok ⟨value, h⟩ else .error (.addressOverflow location part value)

/-- Fails when `name` is taken. -/
def claim (a : Allocation) (location : Location) (kind : NameKind) (name : String) :
    Except SchemaError Unit :=
  match a.map.declared? name with
  | some first => .error (.duplicateName location kind name first)
  | none => .ok ()

/-- Opens the next region. An open region ends here. -/
def openRegion (a : Allocation) (location : Location) (name : String) :
    Traced SchemaError Allocation := do
  if let some region := a.region then Traced.log (.regionCutShort location region)
  let region ← fit location .region a.map.domains.length
  a.claim location .domain name
  Traced.log (.regionOpened name region)
  pure
    { map := { a.map with domains := a.map.domains ++ [⟨name, region, location⟩] }
      region := some region
      index := 0 }

def closeRegion (a : Allocation) (location : Location) : Except SchemaError Allocation :=
  match a.region with
  | some _ => .ok { a with region := none }
  | none => .error (.malformed location .closeWithoutRegion)

/-- Declares the next address of the open region. -/
def declare (a : Allocation) (location : Location) (name : String) :
    Except SchemaError Allocation := do
  match a.region with
  | none => throw (.malformed location (.addressOutside name))
  | some region =>
    if !Naming.isIdentifier name then throw (.malformed location (.badAddressName name))
    let index ← fit location .index a.index
    a.claim location .address name
    pure
      { a with
        map := { a.map with entries := a.map.entries ++ [⟨name, region, index, location⟩] }
        index := a.index + 1 }

/-- Takes one line. -/
def step (a : Allocation) (line : Line) : Traced SchemaError Allocation :=
  match line.directive with
  | .opened name => a.openRegion line.location name
  | .closed => Traced.ofExcept (a.closeRegion line.location)
  | .declared name => Traced.ofExcept (a.declare line.location name)

/-- Takes all lines, up to the first malformed one. -/
def run (a : Allocation) (lines : List (Except SchemaError Line)) :
    Traced SchemaError Allocation :=
  lines.foldlM (fun a (line : Except SchemaError Line) => do a.step (← line)) a

end Allocation

def AddressMap.allocate (markers : Markers) (file text : String) :
    Traced SchemaError AddressMap := do
  let a ← Allocation.run {} (Line.readAll markers file text)
  if let some region := a.region then Traced.log (.regionLeftOpen file region)
  pure a.map

end WireSchema
