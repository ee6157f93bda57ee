import WireSchema.Text.ControlSequence

/-!
# Faults in options

Declarations and command lines are lists of words with options among them. These are the ways in
which such a list can be wrong. A message repeats words of the user without the control sequences
in them.
-/

namespace WireSchema

/-- Why a list of words with options cannot be read. Options are given as they are shown to the
user, with the names of their values. -/
inductive OptionFault where
  | unexpectedArgument (word : String)
  | valueMissing (option : String)
  | tooFewValues (option : String) (needed given : Nat)
  | unexpectedValue (value option : String)
  | repeated (option : String)
  | requiredMissing
  | unknownCommand (word : String)
  | commandMissing (program : String)
deriving Repr, DecidableEq

/-- The wording of a fault. -/
def OptionFault.message : OptionFault → String
  | .unexpectedArgument word => s!"unexpected argument '{Text.shown word}' found"
  | .valueMissing option => s!"a value is required for '{option}' but none was supplied"
  | .tooFewValues option needed given =>
    s!"{needed} values required for '{option}' but {given} was provided"
  | .unexpectedValue value option =>
    s!"unexpected value '{Text.shown value}' for '{option}' found; no more were expected"
  | .repeated option => s!"the argument '{option}' cannot be used multiple times"
  | .requiredMissing => "the following required arguments were not provided:"
  | .unknownCommand word => s!"unrecognized subcommand '{Text.shown word}'"
  | .commandMissing program => s!"'{program}' requires a subcommand but one was not provided"

end WireSchema
