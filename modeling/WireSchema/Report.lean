import WireSchema.Registry
import WireSchema.Text.Hex

/-!
# Reports on a compiled schema

The facts that a check of a schema prints, and the table of its addresses.
-/

namespace WireSchema

/-- How many interfaces, messages and addresses a schema has. -/
def Registry.summary (r : Registry) : List String :=
  [s!"Interfaces: {r.interfaces.length} ({(r.interfacesFor .host).length} host, " ++
      s!"{(r.interfacesFor .embedded).length} embedded)",
   s!"Messages: {r.messages.length} ({(r.messagesFor .host).length} host, " ++
      s!"{(r.messagesFor .embedded).length} embedded, " ++
      s!"{r.messages.countP (·.internal)} internal)",
   s!"Addresses: {r.addresses.entries.length} in {r.addresses.domains.length} domains"]

namespace AddressMap

/-- A value of the address table: `0x` and four digits. -/
def tableValue (n : Nat) : String := "0x" ++ Text.hexPadded 4 n

def entriesOf (m : AddressMap) (region : Fin 256) : List AddressEntry :=
  m.entries.filter (·.region == region)

/-- The address table: each domain, and its entries indented below it. -/
def table (m : AddressMap) : List String :=
  m.domains.flatMap fun d =>
    s!"{tableValue d.value}  {d.name}" ::
      (m.entriesOf d.region).map fun e => s!"{tableValue e.address}    {e.name}"

end AddressMap

end WireSchema
