import WireSchema.Address

/-!
# The registry

All interfaces, messages and addresses of a schema, in declaration order. The type id of a message
is its position in the enumeration of types, which a reserved name opens and another one closes, so
that a message added later never changes the id of an earlier one.

Type ids are natural numbers here, and four bytes on the wire. They are at most the number of
messages plus one (`lastTypeId`), so that they fit as long as there are fewer than `2 ^ 32 - 1`
messages. Nothing checks this.
-/

namespace WireSchema

/-- The reserved name with id zero. -/
def noType : String := "Msg_NoType"

/-- The reserved name behind all messages. -/
def lastType : String := "Msg_LastType"

/-- Which message a type id on the wire stands for. -/
structure DispatchEntry where
  typeId : Nat
  name : String
deriving Repr, DecidableEq

/-- A compiled schema. -/
structure Registry where
  interfaces : List Interface := []
  messages : List Descriptor := []
  addresses : AddressMap := {}
deriving Repr, DecidableEq

namespace Registry

/-! ## Building -/

/-- Adds an interface. Its name must be new. -/
def pushInterface (r : Registry) (i : Interface) : Except SchemaError Registry :=
  match r.interfaces.find? (·.name == i.name) with
  | some first => .error (.duplicateName i.location .interface i.name first.location)
  | none => .ok { r with interfaces := r.interfaces ++ [i] }

/-- Lists a message under the first interface called `interface`. -/
def addMember (interface message : String) : List Interface → Option (List Interface)
  | [] => none
  | i :: rest =>
    if i.name == interface then some ({ i with messages := i.messages ++ [message] } :: rest)
    else (addMember interface message rest).map (i :: ·)

def message? (r : Registry) (name : String) : Option Descriptor :=
  r.messages.find? (·.name == name)

/-- Adds a message and lists it under its interface. The result has its type id. -/
def pushMessage (r : Registry) (d : Descriptor) : Except SchemaError (Registry × Nat) :=
  if d.name == noType || d.name == lastType then
    .error (.malformed d.location (.reservedName d.name))
  else
    match r.message? d.name with
    | some first => .error (.duplicateName d.location .message d.name first.location)
    | none =>
      match addMember d.interface d.name r.interfaces with
      | none => .error (.malformed d.location (.unknownInterface d.interface))
      | some interfaces =>
        .ok ({ r with interfaces := interfaces, messages := r.messages ++ [d] },
          r.messages.length + 1)

def setAddresses (r : Registry) (addresses : AddressMap) : Registry :=
  { r with addresses := addresses }

/-! ## Type ids -/

def typeId? (r : Registry) (name : String) : Option Nat :=
  (r.messages.findIdx? (·.name == name)).map (· + 1)

/-- The message with a type id. -/
def byId? (r : Registry) : Nat → Option Descriptor
  | 0 => none
  | id + 1 => r.messages[id]?

/-- The id of the name behind all messages. -/
def lastTypeId (r : Registry) : Nat := r.messages.length + 1

/-- All type names in the order of their ids. -/
def typeNames (r : Registry) : List String :=
  noType :: r.messages.map Descriptor.name ++ [lastType]

/-! ## Views by representation -/

/-- The messages emitted for a representation, internal ones too. -/
def messagesFor (r : Registry) (rep : Representation) : List Descriptor :=
  r.messages.filter (·.targets.includes rep)

def interfacesFor (r : Registry) (rep : Representation) : List Interface :=
  r.interfaces.filter (·.targets.includes rep)

/-! ## Dispatch -/

/-- The entry of a listed name, if it is a message on the wire. -/
def dispatchEntry? (r : Registry) (rep : Representation) (name : String) : Option DispatchEntry := do
  let d ← r.message? name
  if d.isWire rep then
    let id ← r.typeId? name
    some ⟨id, name⟩
  else none

/-- The entries of all member lists, in the order of the interfaces. -/
def dispatchEntries (r : Registry) (rep : Representation) : List DispatchEntry :=
  (r.interfacesFor rep).flatMap fun i => i.messages.filterMap (r.dispatchEntry? rep)

/-- The type id under which the entries of a message are counted. -/
def countedId (r : Registry) (d : Descriptor) : Nat := (r.typeId? d.name).getD 0

def entryCount (entries : List DispatchEntry) (id : Nat) : Nat := entries.countP (·.typeId == id)

/-- The first message on the wire that does not have exactly one entry. -/
def firstUncovered? (r : Registry) (rep : Representation) (entries : List DispatchEntry) :
    Option Descriptor :=
  (r.messages.filter (·.isWire rep)).find? fun d => entryCount entries (r.countedId d) != 1

/-- The messages that a parser of untyped bytes can meet, by type id. Each message on the wire must
be listed exactly once. -/
def dispatchTable (r : Registry) (rep : Representation) : Except SchemaError (List DispatchEntry) :=
  let entries := r.dispatchEntries rep
  match r.firstUncovered? rep entries with
  | some d =>
    .error (.dispatch rep d.name (r.countedId d) (entryCount entries (r.countedId d)))
  | none => .ok (entries.mergeSort fun a b => a.typeId ≤ b.typeId)

end Registry

end WireSchema
