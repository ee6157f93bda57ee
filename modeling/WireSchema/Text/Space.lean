/-!
# White space, words and lines

White space is the Unicode property of that name. Schema text is cut into lines at line feeds and
into words at runs of white space; everything here works on lists of characters, and the `String`
versions at the end are what the rest of the library calls.
-/

namespace WireSchema.Text

/-- The 25 code points with the Unicode property `White_Space`. -/
def isSpace (c : Char) : Bool :=
  let n := c.toNat
  (0x09 ≤ n && n ≤ 0x0D) || n == 0x20 || n == 0x85 || n == 0xA0 || n == 0x1680 ||
    (0x2000 ≤ n && n ≤ 0x200A) || n == 0x2028 || n == 0x2029 || n == 0x202F || n == 0x205F ||
    n == 0x3000

/-! ## Trimming -/

/-- Drops white space at the start. -/
def trimStartChars (cs : List Char) : List Char :=
  cs.dropWhile isSpace

/-- Drops white space at the end. -/
def trimEndChars (cs : List Char) : List Char :=
  (cs.reverse.dropWhile isSpace).reverse

/-- Drops white space at both ends. -/
def trimChars (cs : List Char) : List Char :=
  trimEndChars (trimStartChars cs)

/-! ## Splitting and searching -/

/-- Puts `c` in front of the first piece, or starts a piece with it. -/
def consFirst (c : Char) : List (List Char) → List (List Char)
  | [] => [[c]]
  | w :: ws => (c :: w) :: ws

/-- The pieces between the characters that satisfy `p`; a text without one is one piece. -/
def splitWhere (p : Char → Bool) : List Char → List (List Char)
  | [] => [[]]
  | c :: cs => if p c then [] :: splitWhere p cs else consFirst c (splitWhere p cs)

/-- The pieces between the occurrences of `a b`, found from the left. -/
def splitPair (a b : Char) : List Char → List (List Char)
  | [] => [[]]
  | [c] => [[c]]
  | c :: d :: cs =>
    if c = a ∧ d = b then [] :: splitPair a b cs else consFirst c (splitPair a b (d :: cs))

/-- Whether `part` occurs somewhere in the text. -/
def occursIn (part : List Char) : List Char → Bool
  | [] => part.isEmpty
  | c :: cs => part.isPrefixOf (c :: cs) || occursIn part cs

/-! ## Words and lines -/

/-- The maximal runs of characters that are not white space. -/
def wordsChars (cs : List Char) : List (List Char) :=
  (splitWhere isSpace cs).filter (!·.isEmpty)

/-- The lines of a text. A line ends at a line feed, which it does not hold, nor one carriage return
right before it; an unfinished last line counts when it holds a character. -/
def linesChars : List Char → List (List Char)
  | [] => []
  | '\r' :: '\n' :: cs => [] :: linesChars cs
  | '\n' :: cs => [] :: linesChars cs
  | c :: cs => consFirst c (linesChars cs)

/-! ## The same on strings -/

/-- The text without white space at either end. -/
def trim (s : String) : String := String.ofList (trimChars s.toList)

/-- The text without white space at its end. -/
def trimEnd (s : String) : String := String.ofList (trimEndChars s.toList)

/-- The words of a text. -/
def words (s : String) : List String := (wordsChars s.toList).map String.ofList

/-- The lines of a text. -/
def lines (s : String) : List String := (linesChars s.toList).map String.ofList

/-- Whether `part` occurs somewhere in `s`. -/
def contains (s part : String) : Bool := occursIn part.toList s.toList

/-- The pieces of `s` between the separators. -/
def split (sep : Char) (s : String) : List String := (splitWhere (· == sep) s.toList).map String.ofList

end WireSchema.Text
