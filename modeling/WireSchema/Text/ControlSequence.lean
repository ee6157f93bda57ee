/-!
# Control sequences

A terminal takes some characters as commands: single control characters, and sequences that start
with an escape character. Words of a user that are repeated in a message are freed of them, so that
they cannot change how the message looks.

A line break in the middle of a sequence is shown. It does not end the sequence, but what stands
behind it is shown too, up to the next control character, and only then the sequence goes on. A
character outside of ASCII that is shown ends the sequence for good.
-/

namespace WireSchema.Text

/-! ## Classes of characters -/

/-- Control characters that move to another place in the text, and are shown. -/
def isBreak (c : Char) : Bool := c == '\t' || c == '\n' || c == '\x0c' || c == '\r'

/-- Characters that are shown when they belong to no sequence. -/
def isPlain (c : Char) : Bool := isBreak c || (0x20 ≤ c.toNat && c != '\x7f')

/-- Characters that no sequence is made of: control characters, and all outside of ASCII. -/
def isForeign (c : Char) : Bool := c.toNat < 0x20 || 0x7F ≤ c.toNat

/-- Whether one of the last `count` bytes of a character is the string terminator `9C`. -/
def hasTerminator (n : Nat) : (count : Nat) → Bool
  | 0 => false
  | count + 1 => n % 64 == 0x1C || hasTerminator (n / 64) count

/-- Whether the encoding of a character outside of ASCII has the string terminator behind its first
byte. -/
def endsData (c : Char) : Bool :=
  let n := c.toNat
  if n < 0x80 then false
  else hasTerminator n (if n < 0x800 then 1 else if n < 0x10000 then 2 else 3)

/-! ## Sequences -/

/-- A control sequence, by what may follow in it. -/
inductive ControlSequence where
  /-- No sequence at all. -/
  | none
  /-- Behind an escape character. -/
  | escape
  /-- Behind an escape character and further characters that only prepare the last one. -/
  | prepared
  /-- Among the parameters of a control function. -/
  | control
  /-- In a command for the operating system, which a bell ends. -/
  | command
  /-- At the start of a device control string. -/
  | device
  /-- Among the parameters of a device control string. -/
  | deviceParameter
  /-- Behind the parameters of a device control string. -/
  | devicePrepared
  /-- In the data of a device control string, or in a string that is ignored. -/
  | data
deriving Repr, DecidableEq

namespace ControlSequence

/-- A sequence and one more character, which neither starts a sequence nor cancels this one. -/
def push (q : ControlSequence) (c : Char) : ControlSequence :=
  match q with
  | none => none
  | escape =>
    if isForeign c then escape
    else if c.toNat < 0x30 then prepared
    else if c == '[' then control
    else if c == ']' then command
    else if c == 'P' then device
    else if c == 'X' || c == '^' || c == '_' then data
    else none
  | prepared => if isForeign c || c.toNat < 0x30 then prepared else none
  | control => if isForeign c || c.toNat < 0x40 then control else none
  | command => if c == '\x07' then none else command
  | device =>
    if isForeign c then device
    else if c.toNat < 0x30 then devicePrepared
    else if c.toNat < 0x40 then deviceParameter
    else data
  | deviceParameter =>
    if isForeign c then deviceParameter
    else if c.toNat < 0x30 then devicePrepared
    else if c.toNat < 0x3C then deviceParameter
    else data
  | devicePrepared => if isForeign c || c.toNat < 0x30 then devicePrepared else data
  | data => if endsData c then none else data

/-- A sequence and one more character. -/
def next (q : ControlSequence) (c : Char) : ControlSequence :=
  if c == '\x1b' then escape
  else if c == '\x18' || c == '\x1a' then none
  else q.push c

/-- Whether breaks are shown here, which they are everywhere but in strings. -/
def showsBreaks : ControlSequence → Bool
  | none | escape | prepared | control => true
  | command | device | deviceParameter | devicePrepared | data => false

end ControlSequence

/-! ## Terminals -/

/-- A terminal between two characters of its input. -/
structure Terminal where
  /-- The sequence that goes on with the next character that is not shown. -/
  sequence : ControlSequence := .none
  /-- Whether the last character was shown. -/
  showing : Bool := false
deriving Repr, DecidableEq

namespace Terminal

/-- Whether a character is shown. -/
def shows (t : Terminal) (c : Char) : Bool :=
  isPlain c && (t.showing || t.sequence == .none || (isBreak c && t.sequence.showsBreaks))

/-- The terminal behind a character. -/
def step (t : Terminal) (c : Char) : Terminal :=
  if t.shows c then ⟨if c.toNat < 0x80 then t.sequence else .none, true⟩
  else ⟨t.sequence.next c, false⟩

/-- The characters that are shown of an input. -/
def shown : Terminal → List Char → List Char
  | _, [] => []
  | t, c :: cs => if t.shows c then c :: (t.step c).shown cs else (t.step c).shown cs

end Terminal

/-- A text without control characters and control sequences. -/
def shown (s : String) : String := String.ofList (({} : Terminal).shown s.toList)

end WireSchema.Text
