import WireSchema.Toml.Scalar

/-!
# Reading a configuration document

A reader for TOML 1.1. It gives the top-level entries of the document, or nothing when the text is
not a document. Each reader takes the rest of the text and gives what it read with what is left.
-/

namespace WireSchema.Toml

/-! ## Blanks, comments and line ends -/

/-- Blanks within a line. -/
def isBlank (c : Char) : Bool := c == ' ' || c == '\t'

def skipBlanks (cs : List Char) : List Char := cs.dropWhile isBlank

/-- Characters that comments and strings may hold: no control characters but the tab. -/
def isPlain (c : Char) : Bool := c == '\t' || (0x20 ≤ c.toNat && c.toNat != 0x7F)

/-- Drops a line end, or nothing at the end of the text. -/
def lineEnd? : List Char → Option (List Char)
  | [] => some []
  | '\n' :: cs => some cs
  | '\r' :: '\n' :: cs => some cs
  | _ => none

/-- Drops a comment, if there is one. -/
def skipComment : List Char → List Char
  | '#' :: cs => cs.dropWhile isPlain
  | cs => cs

/-- Drops blanks, comments and line ends. -/
def skipTrivia : Nat → List Char → List Char
  | 0, cs => cs
  | fuel + 1, cs =>
    match skipComment (skipBlanks cs) with
    | '\n' :: rest => skipTrivia fuel rest
    | '\r' :: '\n' :: rest => skipTrivia fuel rest
    | rest => rest

/-! ## Strings -/

/-- The character with a code of `count` hexadecimal digits. -/
def codePoint? (count : Nat) (cs : List Char) : Option (Char × List Char) := do
  let ds := cs.take count
  if ds.length < count then none
  let n ← ds.foldlM (fun n c => (digitValue? c).map (16 * n + ·)) 0
  if h : n.isValidChar then some (Char.ofNatAux n h, cs.drop count) else none

/-- What stands for an escape, given what follows its backslash. -/
def escape? : List Char → Option (Char × List Char)
  | 'b' :: cs => some ('\x08', cs)
  | 't' :: cs => some ('\t', cs)
  | 'n' :: cs => some ('\n', cs)
  | 'f' :: cs => some ('\x0c', cs)
  | 'r' :: cs => some ('\r', cs)
  | 'e' :: cs => some ('\x1b', cs)
  | '"' :: cs => some ('"', cs)
  | '\\' :: cs => some ('\\', cs)
  | 'x' :: cs => codePoint? 2 cs
  | 'u' :: cs => codePoint? 4 cs
  | 'U' :: cs => codePoint? 8 cs
  | _ => none

/-- The rest of a string in double quotes, on one line. -/
def basicBody : Nat → List Char → Option (List Char × List Char)
  | 0, _ => none
  | _ + 1, '"' :: cs => some ([], cs)
  | fuel + 1, '\\' :: cs => do
    let (c, rest) ← escape? cs
    let (body, rest) ← basicBody fuel rest
    some (c :: body, rest)
  | fuel + 1, c :: cs => do
    if !isPlain c then none
    let (body, rest) ← basicBody fuel cs
    some (c :: body, rest)
  | _ + 1, [] => none

/-- The rest of a string in single quotes, on one line. -/
def literalBody : List Char → Option (List Char × List Char)
  | [] => none
  | '\x27' :: cs => some ([], cs)
  | c :: cs => do
    if !isPlain c then none
    let (body, rest) ← literalBody cs
    some (c :: body, rest)

/-- The three quotes that close a string over several lines; up to two more quotes in front of them
belong to the string. -/
def closing? (quote : Char) (cs : List Char) : Option (List Char × List Char) :=
  let quotes := cs.takeWhile (· == quote)
  if quotes.length < 3 then none
  else
    let kept := min (quotes.length - 3) 2
    some (quotes.take kept, cs.drop (kept + 3))

/-- After a backslash at the end of a line: the text from the next character that is no white space,
if the line holds only blanks from here on. -/
def joinLines? (fuel : Nat) (cs : List Char) : Option (List Char) :=
  let white := fun c : Char => isBlank c || c == '\n'
  let rec go : Nat → List Char → List Char
    | 0, cs => cs
    | n + 1, cs =>
      match cs.dropWhile white with
      | '\r' :: '\n' :: rest => go n rest
      | rest => rest
  match skipBlanks cs with
  | '\n' :: rest => some (go fuel rest)
  | '\r' :: '\n' :: rest => some (go fuel rest)
  | _ => none

/-- The rest of a string in three double quotes. -/
def longBasicBody : Nat → List Char → Option (List Char × List Char)
  | 0, _ => none
  | _ + 1, [] => none
  | fuel + 1, c :: cs =>
    match closing? '"' (c :: cs) with
    | some done => some done
    | none =>
      if c == '\\' then
        match joinLines? fuel cs with
        | some rest => longBasicBody fuel rest
        | none => do
          let (e, rest) ← escape? cs
          let (body, rest) ← longBasicBody fuel rest
          some (e :: body, rest)
      else if c == '\r' then
        match cs with
        | '\n' :: rest => do
          let (body, rest) ← longBasicBody fuel rest
          some ('\r' :: '\n' :: body, rest)
        | _ => none
      else if c == '\n' || isPlain c then do
        let (body, rest) ← longBasicBody fuel cs
        some (c :: body, rest)
      else none

/-- The rest of a string in three single quotes. -/
def longLiteralBody : Nat → List Char → Option (List Char × List Char)
  | 0, _ => none
  | _ + 1, [] => none
  | fuel + 1, c :: cs =>
    match closing? '\x27' (c :: cs) with
    | some done => some done
    | none =>
      if c == '\r' then
        match cs with
        | '\n' :: rest => do
          let (body, rest) ← longLiteralBody fuel rest
          some ('\r' :: '\n' :: body, rest)
        | _ => none
      else if c == '\n' || isPlain c then do
        let (body, rest) ← longLiteralBody fuel cs
        some (c :: body, rest)
      else none

/-- Drops a line end right behind the opening quotes of a string over several lines. -/
def dropFirstBreak : List Char → List Char
  | '\n' :: cs => cs
  | '\r' :: '\n' :: cs => cs
  | cs => cs

/-- A string in any of the four forms. -/
def text? (cs : List Char) : Option (String × List Char) := do
  let fuel := cs.length + 1
  let (body, rest) ←
    match cs with
    | '"' :: '"' :: '"' :: rest => longBasicBody fuel (dropFirstBreak rest)
    | '\x27' :: '\x27' :: '\x27' :: rest => longLiteralBody fuel (dropFirstBreak rest)
    | '"' :: rest => basicBody fuel rest
    | '\x27' :: rest => literalBody rest
    | _ => none
  some (String.ofList body, rest)

/-! ## Keys -/

/-- Characters of a key without quotes. -/
def isKeyChar (c : Char) : Bool := c.isAlpha || c.isDigit || c == '_' || c == '-'

/-- One name of a key: a word, or a string on one line. -/
def simpleKey? (cs : List Char) : Option (String × List Char) :=
  match cs with
  | '"' :: rest => (basicBody (cs.length + 1) rest).map fun r => (String.ofList r.1, r.2)
  | '\x27' :: rest => (literalBody rest).map fun r => (String.ofList r.1, r.2)
  | _ =>
    let name := cs.takeWhile isKeyChar
    if name.isEmpty then none else some (String.ofList name, cs.dropWhile isKeyChar)

/-- How many names a key may have, and how many brackets and braces may be open at a time. -/
def depthLimit : Nat := 80

/-- A key of at most `count` names with points between them. Blanks around the points and behind the
key are dropped. -/
def keyUpTo? : (count : Nat) → List Char → Option (List String × List Char)
  | 0, _ => none
  | count + 1, cs => do
    let (name, rest) ← simpleKey? cs
    match skipBlanks rest with
    | '.' :: rest => do
      let (names, rest) ← keyUpTo? count (skipBlanks rest)
      some (name :: names, rest)
    | rest => some ([name], rest)

def key? (cs : List Char) : Option (List String × List Char) := keyUpTo? depthLimit cs

/-! ## Values -/

def endsWord (c : Char) : Bool :=
  isBlank c || c == '\n' || c == '\r' || c == ',' || c == ']' || c == '}' || c == '#'

/-- A value without quotes or brackets. A date and a time may have one blank between them. -/
def bare? (cs : List Char) : Option (Value × List Char) :=
  let (word, rest) := cut endsWord cs
  match rest with
  | ' ' :: d :: more =>
    if (Date.read? word).isSome && d.isDigit then
      let (time, rest) := cut endsWord (d :: more)
      (word? (word ++ ' ' :: time)).map (·, rest)
    else (word? word).map (·, rest)
  | _ => (word? word).map (·, rest)

mutual

/-- A value with at most `depth` brackets and braces open at a time. -/
def value? : (fuel depth : Nat) → List Char → Option (Value × List Char)
  | 0, _, _ => none
  | fuel + 1, depth, cs =>
    match cs, depth with
    | '[' :: rest, depth + 1 => do
      let (items, rest) ← items? fuel depth (skipTrivia rest.length rest)
      some (.array false items, rest)
    | '\x7b' :: rest, depth + 1 => do
      let (entries, rest) ← pairs? fuel depth [] (skipTrivia rest.length rest)
      some (.table .inline entries, rest)
    | c :: _, _ =>
      if c == '"' || c == '\x27' then (text? cs).map fun r => (.text r.1, r.2)
      else if c == '[' || c == '\x7b' then none
      else bare? cs
    | [], _ => none

/-- The items of an array and its closing bracket. -/
def items? : (fuel depth : Nat) → List Char → Option (List Value × List Char)
  | 0, _, _ => none
  | fuel + 1, depth, cs =>
    match cs with
    | ']' :: rest => some ([], rest)
    | _ => do
      let (item, rest) ← value? fuel depth cs
      match skipTrivia rest.length rest with
      | ',' :: rest => do
        let (items, rest) ← items? fuel depth (skipTrivia rest.length rest)
        some (item :: items, rest)
      | ']' :: rest => some ([item], rest)
      | _ => none

/-- The pairs of an inline table and its closing brace. Lines may end everywhere but in a key. -/
def pairs? : (fuel depth : Nat) → Entries → List Char → Option (Entries × List Char)
  | 0, _, _, _ => none
  | fuel + 1, depth, entries, cs =>
    match cs with
    | '\x7d' :: rest => some (entries, rest)
    | _ => do
      let (path, rest) ← key? cs
      match skipTrivia rest.length rest with
      | '=' :: rest => do
        let (value, rest) ← value? fuel depth (skipTrivia rest.length rest)
        let entries ← entries.addKey path value
        match skipTrivia rest.length rest with
        | ',' :: rest => pairs? fuel depth entries (skipTrivia rest.length rest)
        | '\x7d' :: rest => some (entries, rest)
        | _ => none
      | _ => none

end

/-! ## Lines -/

/-- A document on the way: its entries, and the table that keys now go to. -/
structure Draft where
  entries : Entries
  current : List String

/-- A line without the blanks in front of it, up to its comment or end. -/
def line? (draft : Draft) (cs : List Char) : Option (Draft × List Char) :=
  match cs with
  | '[' :: '[' :: rest => do
    let (path, rest) ← key? (skipBlanks rest)
    let entries ← draft.entries.inside (Entries.addItem (path.getLastD "")) path.dropLast
    match rest with
    | ']' :: ']' :: rest => some (⟨entries, path⟩, rest)
    | _ => none
  | '[' :: rest => do
    let (path, rest) ← key? (skipBlanks rest)
    let entries ← draft.entries.inside (Entries.addTable (path.getLastD "")) path.dropLast
    match rest with
    | ']' :: rest => some (⟨entries, path⟩, rest)
    | _ => none
  | [] => some (draft, cs)
  | c :: _ =>
    if c == '#' || c == '\n' || c == '\r' then some (draft, cs)
    else do
      let (path, rest) ← key? cs
      match rest with
      | '=' :: rest => do
        let (value, rest) ← value? (cs.length + 1) depthLimit (skipBlanks rest)
        let entries ← draft.entries.inside (·.addKey path value) draft.current
        some (⟨entries, draft.current⟩, rest)
      | _ => none

/-- All lines from here on. -/
def lines? : Nat → Draft → List Char → Option Draft
  | 0, _, _ => none
  | fuel + 1, draft, cs => do
    let (draft, rest) ← line? draft (skipBlanks cs)
    let rest ← lineEnd? (skipComment (skipBlanks rest))
    if rest.isEmpty then some draft else lines? fuel draft rest

/-- The entries of a document. A byte order mark at its start is skipped. -/
def parse? (document : String) : Option Entries :=
  let cs :=
    match document.toList with
    | '\ufeff' :: cs => cs
    | cs => cs
  (lines? (cs.length + 1) ⟨[], []⟩ cs).map Draft.entries

end WireSchema.Toml
