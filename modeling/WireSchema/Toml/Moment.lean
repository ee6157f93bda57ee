/-!
# Dates and times

A moment of a configuration document: a date, a time of day, or both with an offset from universal
time if any. Reading forgets how it was written, so that two ways to write one moment are equal, and
`Moment.text` gives the one way in which it is shown.
-/

namespace WireSchema.Toml

/-! ## Parts of a moment -/

/-- A day of the calendar. -/
structure Date where
  year : Nat
  month : Nat
  day : Nat
deriving Repr, DecidableEq

/-- A time of day. -/
structure Clock where
  hour : Nat
  minute : Nat
  second : Nat
  nanosecond : Nat
deriving Repr, DecidableEq

/-- A difference from universal time. -/
inductive Offset where
  /-- Universal time itself. -/
  | zulu
  | minutes (n : Int)
deriving Repr, DecidableEq

/-- A moment. Only a date with a time has an offset. -/
inductive Moment where
  | date (d : Date)
  | clock (c : Clock)
  | both (d : Date) (c : Clock) (offset : Option Offset)
deriving Repr, DecidableEq

/-! ## Reading -/

/-- Whether the characters are decimal digits and nothing else. -/
def plainDigits (cs : List Char) : Bool := !cs.isEmpty && cs.all Char.isDigit

/-- The number that plain decimal digits spell. -/
def plainNumber (cs : List Char) : Nat := cs.foldl (fun n c => 10 * n + (c.toNat - '0'.toNat)) 0

/-- The number that digits spell, between two bounds. -/
def bounded? (least most : Nat) (cs : List Char) : Option Nat :=
  let n := plainNumber cs
  if plainDigits cs && least ≤ n && n ≤ most then some n else none

def daysIn (year month : Nat) : Nat :=
  if month == 2 then
    if (year % 4 == 0 && year % 100 != 0) || year % 400 == 0 then 29 else 28
  else if month == 4 || month == 6 || month == 9 || month == 11 then 30
  else 31

/-- A date `yyyy-mm-dd`. -/
def Date.read? : List Char → Option Date
  | [y₁, y₂, y₃, y₄, '-', m₁, m₂, '-', d₁, d₂] => do
    let year ← bounded? 0 9999 [y₁, y₂, y₃, y₄]
    let month ← bounded? 1 12 [m₁, m₂]
    let day ← bounded? 1 (daysIn year month) [d₁, d₂]
    some ⟨year, month, day⟩
  | _ => none

/-- The nanoseconds that the digits of a fraction of a second spell. Digits behind the ninth do not
count. -/
def nanoseconds (ds : List Char) : Nat :=
  plainNumber ((ds ++ List.replicate 9 '0').take 9)

/-- A fraction of a second, or nothing. -/
def fraction? : List Char → Option Nat
  | [] => some 0
  | '.' :: ds => if plainDigits ds then some (nanoseconds ds) else none
  | _ => none

/-- Seconds, with a fraction if any, or nothing. -/
def seconds? : List Char → Option (Nat × Nat)
  | [] => some (0, 0)
  | ':' :: s₁ :: s₂ :: rest => do
    let second ← bounded? 0 60 [s₁, s₂]
    some (second, ← fraction? rest)
  | _ => none

/-- A time `hh:mm`, with seconds if any. -/
def Clock.read? : List Char → Option Clock
  | h₁ :: h₂ :: ':' :: m₁ :: m₂ :: rest => do
    let hour ← bounded? 0 23 [h₁, h₂]
    let minute ← bounded? 0 59 [m₁, m₂]
    let (second, nanosecond) ← seconds? rest
    some ⟨hour, minute, second, nanosecond⟩
  | _ => none

/-- An offset: the letter Z, or a sign, hours and minutes. -/
def Offset.read? : List Char → Option Offset
  | ['Z'] | ['z'] => some .zulu
  | [sign, h₁, h₂, ':', m₁, m₂] => do
    let hours ← bounded? 0 23 [h₁, h₂]
    let minutes ← bounded? 0 59 [m₁, m₂]
    let n : Int := hours * 60 + minutes
    if sign == '+' then some (.minutes n)
    else if sign == '-' then some (.minutes (-n))
    else none
  | _ => none

def startsOffset (c : Char) : Bool := c == 'Z' || c == 'z' || c == '+' || c == '-'

/-- A time with an offset if any, behind a date. -/
def Moment.atTime? (d : Date) (cs : List Char) : Option Moment := do
  let clock ← Clock.read? (cs.takeWhile (!startsOffset ·))
  match cs.dropWhile (!startsOffset ·) with
  | [] => some (.both d clock none)
  | offset => do some (.both d clock (some (← Offset.read? offset)))

/-- A moment. The letter T or one blank stands between a date and a time. -/
def Moment.read? (cs : List Char) : Option Moment :=
  match Date.read? (cs.take 10) with
  | none => (Clock.read? cs).map .clock
  | some d =>
    match cs.drop 10 with
    | [] => some (.date d)
    | c :: rest => if c == 'T' || c == 't' || c == ' ' then Moment.atTime? d rest else none

/-! ## Showing -/

/-- A number with at least `width` digits. -/
def padded (width n : Nat) : List Char :=
  let ds := Nat.toDigits 10 n
  List.replicate (width - ds.length) '0' ++ ds

def Date.shown (d : Date) : List Char :=
  padded 4 d.year ++ '-' :: padded 2 d.month ++ '-' :: padded 2 d.day

/-- A fraction of a second without zeros at its end, or nothing when it is zero. -/
def shownFraction (nanosecond : Nat) : List Char :=
  match ((padded 9 nanosecond).reverse.dropWhile (· == '0')).reverse with
  | [] => []
  | ds => '.' :: ds

/-- A time as it is shown, always with seconds. -/
def Clock.shown (c : Clock) : List Char :=
  padded 2 c.hour ++ ':' :: padded 2 c.minute ++ ':' :: padded 2 c.second ++
    shownFraction c.nanosecond

def Offset.shown : Offset → List Char
  | .zulu => ['Z']
  | .minutes n =>
    let k := n.natAbs
    (if n < 0 then '-' else '+') :: padded 2 (k / 60) ++ ':' :: padded 2 (k % 60)

/-- A moment as it is shown. -/
def Moment.text : Moment → String
  | .date d => String.ofList d.shown
  | .clock c => String.ofList c.shown
  | .both d c offset =>
    String.ofList (d.shown ++ 'T' :: c.shown ++ (offset.map Offset.shown).getD [])

end WireSchema.Toml
