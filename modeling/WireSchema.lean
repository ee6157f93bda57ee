import WireSchema.CommandLine.Run
import WireSchema.Disk.Machine
import WireSchema.Generate
import WireSchema.Main
import WireSchema.Output.Verify
import WireSchema.Proofs.Wire.MessageRoundTrip
import WireSchema.Proofs.Wire.Parsing
import WireSchema.Proofs.Wire.RecordRoundTrip
import WireSchema.Report
import WireSchema.Schema.Compile
import WireSchema.Wire.Dispatch
import WireSchema.Proofs.Schema.ErrorLocation
import WireSchema.Proofs.Schema.Shape
import WireSchema.Proofs.Schema.Lines
import WireSchema.Proofs.Schema.Continuation
import WireSchema.Proofs.Wire.Agreement
import WireSchema.Proofs.AddressAllocation
import WireSchema.Proofs.Disk.Paths
import WireSchema.Proofs.Disk.Walking
import WireSchema.Proofs.Disk.Changes
import WireSchema.Proofs.Disk.Frame
import WireSchema.Proofs.Output.Confinement
import WireSchema.Proofs.Disk.Quiet
import WireSchema.Proofs.Disk.Routes
import WireSchema.Proofs.Output.Preparation
import WireSchema.Proofs.Output.Refusal
import WireSchema.Proofs.CommandLine.Refusal
import WireSchema.Proofs.Output.Growth
import WireSchema.Proofs.Output.Steps
import WireSchema.Proofs.Json.Strings
import WireSchema.Proofs.Output.ManifestText
import WireSchema.Proofs.Output.Contents
import WireSchema.Proofs.Output.History
import WireSchema.Proofs.Emit.Enumerators
import WireSchema.Proofs.Disk.Spelling
import WireSchema.Proofs.Emit.FilePaths
import WireSchema.Proofs.Output.Files
import WireSchema.Proofs.Output.Aftermath
import WireSchema.Proofs.Output.TwoTrees
import WireSchema.Proofs.Schema.Outline
import WireSchema.Proofs.Emit.Trees
import WireSchema.Proofs.Emit.Independence
import WireSchema.Proofs.Emit.Reading
import WireSchema.Proofs.Naming
import WireSchema.Proofs.Emit.SourceLists
import WireSchema.Proofs.Emit.BuildFiles
import WireSchema.Proofs.Emit.TypeHeaders
import WireSchema.Proofs.Emit.ParserSources
import WireSchema.Proofs.Emit.Dispatchers
import WireSchema.Proofs.Emit.RecordSources
import WireSchema.Proofs.Wire.CodecSteps
import WireSchema.Proofs.Emit.RecordCodec
import WireSchema.Proofs.TypeIds
import WireSchema.Proofs.Wire.Delimiting
import WireSchema.Proofs.Wire.Reencoding
import WireSchema.Proofs.Wire.RecordAccess
import WireSchema.Proofs.Wire.RecordSize
import WireSchema.Proofs.Wire.RecordEquality
import WireSchema.Proofs.Schema.TypeNames
import WireSchema.Proofs.Schema.Acceptance
import WireSchema.Proofs.Schema.RecordSlots
import WireSchema.Proofs.Schema.DeclarationGrammar
import WireSchema.Proofs.Schema.Rendering
import WireSchema.Proofs.Schema.Closing
import WireSchema.Proofs.Output.Regeneration
import WireSchema.Proofs.Disk.Transcript
import WireSchema.Proofs.Output.Rewriting
import WireSchema.Proofs.Output.Interruption
import WireSchema.Proofs.Output.Verification
import WireSchema.Proofs.Emit.HostSources
import WireSchema.Proofs.Emit.HostHeaders
import WireSchema.Proofs.Emit.StreamOperators
import WireSchema.Proofs.AddressTable
import WireSchema.Proofs.Emit.IncludeGuards
import WireSchema.Proofs.Emit.RecordSignatures
import WireSchema.Proofs.Emit.SourceVariables
import WireSchema.Proofs.Wire.Streams
import WireSchema.Proofs.Output.CanonicalKeys
import WireSchema.Proofs.Output.Reloading
