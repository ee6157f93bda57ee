import WireSchema.Emit.BuildLists
import WireSchema.Emit.Parsers
import WireSchema.Emit.SharedHeaders
import WireSchema.Traced

/-!
# Generation

Both source trees of a compiled schema, as artifacts. Nothing is written before all of them exist.
-/

namespace WireSchema

open Emit

/-- The files of a message in the trees that it is emitted for. -/
def messageArtifacts (names : OutputNames) (d : Descriptor) : List Artifact :=
  (if d.targets.host then HostClass.artifacts names d else []) ++
    (if d.targets.embedded then RecordModule.artifacts names d else [])

/-- The files of the messages listed under an interface. -/
def interfaceArtifacts (names : OutputNames) (r : Registry) (i : Interface) : List Artifact :=
  (i.messages.filterMap r.message?).flatMap (messageArtifacts names)

def emitInterfaces (names : OutputNames) (r : Registry) :
    List Interface → Traced SchemaError (List Artifact)
  | [] => pure []
  | i :: rest => do
    Traced.log (.emittedInterface i.name i.messages.length i.targets.host i.targets.embedded)
    let others ← emitInterfaces names r rest
    pure (interfaceArtifacts names r i ++ others)

/-- All artifacts of a schema: those of the messages, those of the schema as a whole, and the build
files. -/
def generate (names : OutputNames) (supplements : Supplements) (r : Registry) :
    Traced SchemaError (List Artifact) := do
  let messages ← emitInterfaces names r r.interfaces
  let host ← r.dispatchTable .host
  let embedded ← r.dispatchTable .embedded
  Traced.log (.tablesBuilt host.length embedded.length)
  pure (messages ++ enumerationArtifacts names r ++ parserArtifacts names r host embedded ++
    supplementArtifacts names supplements ++ buildArtifacts names r)

end WireSchema
