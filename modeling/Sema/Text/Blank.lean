/-!
White space as Unicode's property `White_Space` has it, and the words that stand between it.
`collapse` keeps the words of a text and puts one space between neighbours, so a text that spans
several lines becomes one line.
-/

namespace Sema.Text

/-- Membership in `White_Space`: 25 code points in ten ranges. -/
def isBlank (char : Char) : Bool :=
  let code := char.toNat
  (9 ≤ code && code ≤ 13) || code == 0x20 || code == 0x85 || code == 0xA0 || code == 0x1680 ||
    (0x2000 ≤ code && code ≤ 0x200A) || (0x2028 ≤ code && code ≤ 0x2029) || code == 0x202F ||
    code == 0x205F || code == 0x3000

/-- A finished word, given with its last character first. The empty run is not a word. -/
def finished : List Char → List (List Char)
  | [] => []
  | char :: earlier => [(char :: earlier).reverse]

/-- The words of a text whose beginning, with its last character first, is already read. -/
def wordsFrom (read : List Char) : List Char → List (List Char)
  | [] => finished read
  | char :: rest =>
      if isBlank char then finished read ++ wordsFrom [] rest else wordsFrom (char :: read) rest

/-- The longest runs without white space, in order. -/
def words (text : List Char) : List (List Char) := wordsFrom [] text

/-- The words of a text with a single space between neighbours. -/
def collapse (text : String) : String :=
  String.ofList ([' '].intercalate (words text.toList))

end Sema.Text
