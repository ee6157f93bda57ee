import WireSchema.Toml.Moment

/-!
# Values of a configuration document

The values of a TOML document. A table remembers how it came about, because that decides whether a
later header or dotted key may still add to it.
-/

namespace WireSchema.Toml

/-- How a table came about. -/
inductive Origin where
  /-- Named only inside a longer header, and open to a header of its own. -/
  | implied
  /-- By a header of its own. -/
  | header
  /-- By a dotted key. -/
  | dotted
  /-- Written in braces, and closed. -/
  | inline
deriving Repr, DecidableEq

/-- A float without its sign. -/
inductive Real where
  | infinite
  /-- The value that is no number. -/
  | undefined
  /-- The number `digits · 10 ^ exponent`. -/
  | decimal (digits : Nat) (exponent : Int)
deriving Repr, DecidableEq

/-- A value of a document. -/
inductive Value where
  | text (s : String)
  | integer (n : Int)
  | real (r : Real)
  | boolean (b : Bool)
  | moment (m : Moment)
  /-- An array; `ofTables` marks one that headers in double brackets fill. -/
  | array (ofTables : Bool) (items : List Value)
  | table (origin : Origin) (entries : List (String × Value))
deriving Repr

/-- The entries of a table, in the order they were written. -/
abbrev Entries := List (String × Value)

/-! ## Numbers that can be kept -/

/-- The least number that a double can only hold as an infinity: half a step above the largest one
that it can hold. -/
def overflowBound : Nat := Nat.pow 2 1024 - Nat.pow 2 970

/-- Whether a float fits a double: an infinity may only come from the word for it. -/
def Real.fits : Real → Bool
  | .infinite | .undefined => true
  | .decimal digits (.ofNat k) => digits == 0 || (k < 400 && digits * Nat.pow 10 k < overflowBound)
  | .decimal digits (.negSucc k) =>
    digits.log2 ≤ k || digits < overflowBound * Nat.pow 10 (k + 1)

/-- Whether a whole number fits 128 bits, signed or unsigned. -/
def integerFits (n : Int) : Bool := -Int.pow 2 127 ≤ n && n < Int.pow 2 128

mutual

/-- Whether all numbers in a value fit their machine types. -/
def Value.fits : Value → Bool
  | .integer n => integerFits n
  | .real r => r.fits
  | .array _ items => itemsFit items
  | .table _ entries => entriesFit entries
  | .text _ | .boolean _ | .moment _ => true

def itemsFit : List Value → Bool
  | [] => true
  | v :: rest => v.fits && itemsFit rest

def entriesFit : List (String × Value) → Bool
  | [] => true
  | (_, v) :: rest => v.fits && entriesFit rest

end

/-! ## Tables -/

/-- The key under which a moment holds its text when it stands in the place of a table. -/
def momentKey : String := "$__toml_private_datetime"

/-- The entries of a value that can stand in the place of a table. -/
def Value.entries? : Value → Option Entries
  | .table _ entries => some entries
  | .moment m => some [(momentKey, .text m.text)]
  | _ => none

namespace Entries

/-- Changes the value of an existing key. -/
def replace (key : String) (value : Value) (es : Entries) : Entries :=
  es.map fun e => if e.1 == key then (key, value) else e

/-- Adds a key, given as a path of at least one name, to a table. Every name but the last leads into
a table that dotted keys may add to, which is made where there is none. -/
def addKey : List String → Value → Entries → Option Entries
  | [], _, _ => none
  | [key], value, es =>
    match es.lookup key with
    | some _ => none
    | none => some (es ++ [(key, value)])
  | key :: next :: rest, value, es =>
    match es.lookup key with
    | none => do
      let sub ← addKey (next :: rest) value []
      some (es ++ [(key, .table .dotted sub)])
    | some (.table origin sub) =>
      if origin == .dotted || (origin == .implied && !rest.isEmpty) then do
        let sub ← addKey (next :: rest) value sub
        some (es.replace key (.table origin sub))
      else none
    | some (.array true items) =>
      match items.getLast? with
      | some (.table origin sub) =>
        if rest.isEmpty then none
        else do
          let sub ← addKey (next :: rest) value sub
          some (es.replace key (.array true (items.dropLast ++ [.table origin sub])))
      | _ => none
    | some _ => none

/-- Runs `f` on the table that a header path names: the last item where the path meets an array of
tables, and a new table where it meets nothing. -/
def inside (f : Entries → Option Entries) : List String → Entries → Option Entries
  | [], es => f es
  | key :: rest, es =>
    match es.lookup key with
    | none => do
      let sub ← inside f rest []
      some (es ++ [(key, .table .implied sub)])
    | some (.table origin sub) =>
      if origin == .inline then none
      else do
        let sub ← inside f rest sub
        some (es.replace key (.table origin sub))
    | some (.array true items) =>
      match items.getLast? with
      | some (.table origin sub) => do
        let sub ← inside f rest sub
        some (es.replace key (.array true (items.dropLast ++ [.table origin sub])))
      | _ => none
    | some _ => none

/-- Declares the table with a header of its own. A table may have one header only. -/
def addTable (key : String) (es : Entries) : Option Entries :=
  match es.lookup key with
  | none => some (es ++ [(key, .table .header [])])
  | some (.table .implied sub) => some (es.replace key (.table .header sub))
  | some _ => none

/-- Adds a table to an array of tables. -/
def addItem (key : String) (es : Entries) : Option Entries :=
  match es.lookup key with
  | none => some (es ++ [(key, .array true [.table .header []])])
  | some (.array true items) => some (es.replace key (.array true (items ++ [.table .header []])))
  | some _ => none

end Entries

end WireSchema.Toml
