import WireSchema.Toml.Value

/-!
# Words of a configuration document

Truth values, numbers and dates are words without quotes. A word is read as a whole: it is a value
when all of its characters follow one of the forms below.
-/

namespace WireSchema.Toml

/-! ## Digits -/

/-- The value of a digit in any base up to sixteen. -/
def digitValue? (c : Char) : Option Nat :=
  if '0' ≤ c ∧ c ≤ '9' then some (c.toNat - '0'.toNat)
  else if 'a' ≤ c ∧ c ≤ 'f' then some (c.toNat - 'a'.toNat + 10)
  else if 'A' ≤ c ∧ c ≤ 'F' then some (c.toNat - 'A'.toNat + 10)
  else none

/-- Reads the digits after the first one; one underscore may stand before each. -/
def digitsFrom (base : Nat) (acc : Nat) : List Char → Option Nat
  | [] => some acc
  | '_' :: c :: cs => do
    let d ← digitValue? c
    if d < base then digitsFrom base (acc * base + d) cs else none
  | c :: cs => do
    let d ← digitValue? c
    if d < base then digitsFrom base (acc * base + d) cs else none

/-- Reads one digit or more, with single underscores between them. -/
def digits? (base : Nat) : List Char → Option Nat
  | [] => none
  | c :: cs => do
    let d ← digitValue? c
    if d < base then digitsFrom base d cs else none

/-! ## Numbers -/

/-- A decimal whole number without leading zeros. -/
def decimal? (cs : List Char) : Option Nat :=
  match cs with
  | '0' :: _ :: _ => none
  | _ => digits? 10 cs

/-- The sign in front of a number, and what follows it. -/
def signed : List Char → Int × List Char
  | '-' :: cs => (-1, cs)
  | '+' :: cs => (1, cs)
  | cs => (1, cs)

/-- A whole number: decimal with a sign, or in base 16, 8 or 2 without one. -/
def integer? (cs : List Char) : Option Int :=
  match cs with
  | '0' :: 'x' :: hs => (digits? 16 hs).map Int.ofNat
  | '0' :: 'o' :: os => (digits? 8 os).map Int.ofNat
  | '0' :: 'b' :: bs => (digits? 2 bs).map Int.ofNat
  | _ =>
    let (sign, ds) := signed cs
    (decimal? ds).map fun n => sign * n

/-- The part up to the first character that satisfies `p`, and from it on. -/
def cut (p : Char → Bool) (cs : List Char) : List Char × List Char :=
  (cs.takeWhile (!p ·), cs.dropWhile (!p ·))

/-- The digits behind a point, with single underscores between them, or nothing. -/
def fractionDigits? : List Char → Option (List Char)
  | [] => some []
  | _ :: ds => if (digits? 10 ds).isSome then some (ds.filter (· != '_')) else none

/-- An exponent behind its letter: a sign if any, then digits; or nothing. -/
def exponent? : List Char → Option Int
  | [] => some 0
  | _ :: cs =>
    let (sign, ds) := signed cs
    (digits? 10 ds).map fun n => sign * n

/-- A float: a whole number, then a fraction, an exponent or both; or an infinity or a value that is
no number; all with a sign if any. -/
def real? (cs : List Char) : Option Real := do
  let (_, body) := signed cs
  if body == "inf".toList then some .infinite
  else if body == "nan".toList then some .undefined
  else
    let (mantissa, power) := cut (fun c => c == 'e' || c == 'E') body
    let (whole, fraction) := cut (· == '.') mantissa
    if fraction.isEmpty && power.isEmpty then none
    let w ← decimal? whole
    let ds ← fractionDigits? fraction
    some (.decimal (ds.foldl (fun n c => 10 * n + (c.toNat - '0'.toNat)) w)
      ((← exponent? power) - ds.length))

def word? (cs : List Char) : Option Value :=
  if cs == "true".toList then some (.boolean true)
  else if cs == "false".toList then some (.boolean false)
  else
    match integer? cs with
    | some n => some (.integer n)
    | none =>
      match real? cs with
      | some r => some (.real r)
      | none => (Moment.read? cs).map .moment

end WireSchema.Toml
