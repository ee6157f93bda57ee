/-!
# Places in schema text
-/

namespace WireSchema

/-- A line of a schema file, counted from one. -/
structure Location where
  file : String
  line : Nat
deriving Repr, DecidableEq, Inhabited

/-- `file:line`. -/
def Location.text (l : Location) : String := s!"{l.file}:{l.line}"

end WireSchema
