import WireSchema.Text.Alphabetic
import WireSchema.Text.Casing

/-!
# Names in generated code

How the name of a message, field or address turns into the identifiers that the emitted sources use,
and which names are identifiers in the first place.
-/

namespace WireSchema.Naming

/-- Title case from a position that is inside a word or at its start. A letter outside a word is put
in upper case and starts one; a letter inside a word is put in lower case; anything else ends it. -/
def titleFrom (inWord : Bool) : List Char → List Char
  | [] => []
  | c :: cs =>
    if Text.isAlphabetic c then
      (if inWord then Text.lowerChars c else Text.upperChars c) ++ titleFrom true cs
    else c :: titleFrom false cs

/-- Every run of letters with its first letter in upper case and the others in lower case. -/
def titleCase (s : String) : String := String.ofList (titleFrom false s.toList)

/-- The member of a generated record or class that holds a field. -/
def memberName (field : String) : String := "m" ++ titleCase field

/-- What follows `get` and `set` in the accessors of a field. -/
def accessorStem (field : String) : String := titleCase field

/-- The enumerator of a message, an address or a domain. -/
def enumTag (name : String) : String := name ++ "_e"

/-- Whether a character is an ASCII letter or digit. -/
def isAsciiAlphanum (c : Char) : Bool := c.isAlpha || c.isDigit

/-- ASCII letters in upper case, ASCII digits as they are, an underscore for all else. -/
def foldChar (c : Char) : Char := if isAsciiAlphanum c then c.toUpper else '_'

/-- A name folded to upper-case ASCII letters, digits and underscores. -/
def foldUpper (name : String) : String := String.ofList (name.toList.map foldChar)

def headerGuard (name : String) : String := foldUpper name ++ "_H_"

/-- A letter or underscore, then letters, digits and underscores, all of them ASCII. -/
def isIdentifierChars : List Char → Bool
  | [] => false
  | c :: cs => (c.isAlpha || c == '_') && cs.all fun d => isAsciiAlphanum d || d == '_'

/-- Whether a name is an identifier of C and C++. -/
def isIdentifier (s : String) : Bool := isIdentifierChars s.toList

end WireSchema.Naming
