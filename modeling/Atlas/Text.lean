import Atlas.Chars.Blank
import Atlas.Chars.Split
import Atlas.Chars.Escape
import Atlas.Chars.Casing

/-!
# Text

The operations on character lists as operations on strings. Each is the one of its name under
`Chars`, between `String.toList` and `String.ofList`.
-/

namespace Atlas.Text

/-- A function on character lists as a function on strings. -/
def onChars (f : List Char → List Char) (s : String) : String := String.ofList (f s.toList)

/-- The text without blanks at either end. -/
def trim : String → String := onChars Chars.trim

/-- The text without its leading blanks. -/
def trimStart : String → String := onChars Chars.trimStart

/-- The text without its trailing blanks. -/
def trimEnd : String → String := onChars Chars.trimEnd

/-- The text without the characters at either end that satisfy `p`. -/
def trimWhile (p : Char → Bool) : String → String := onChars (Chars.trimWhile p)

/-- Whether the text holds nothing but blanks. -/
def isBlank (s : String) : Bool := s.toList.all Chars.isBlank

/-- The maximal runs of characters that are not blank. -/
def words (s : String) : List String := (Chars.words s.toList).map String.ofList

/-- The lines of a text, without their ends. -/
def lines (s : String) : List String := (Chars.lines s.toList).map String.ofList

/-- The pieces between the occurrences of a character. -/
def splitOn (sep : Char) (s : String) : List String :=
  (Chars.splitOn sep s.toList).map String.ofList

/-- Whether `p` stands at the start of the text. -/
def startsWith (p s : String) : Bool := Chars.startsWith p.toList s.toList

/-- Whether `p` stands at the end of the text. -/
def endsWith (p s : String) : Bool := Chars.endsWith p.toList s.toList

/-- What follows `p`, where the text starts with it. -/
def dropPrefix? (p s : String) : Option String :=
  (Chars.dropPrefix? p.toList s.toList).map String.ofList

/-- What stands before `p`, where the text ends with it. -/
def dropSuffix? (p s : String) : Option String :=
  (Chars.dropSuffix? p.toList s.toList).map String.ofList

/-- What stands before and after the first occurrence of `sep`. -/
def cut? (sep s : String) : Option (String × String) :=
  (Chars.cut? sep.toList s.toList).map fun (a, b) => (String.ofList a, String.ofList b)

/-- What stands before and after the last occurrence of a character. -/
def cutLast? (sep : Char) (s : String) : Option (String × String) :=
  (Chars.cutLast? sep s.toList).map fun (a, b) => (String.ofList a, String.ofList b)

/-- Whether `p` occurs in the text. -/
def contains (p s : String) : Bool := Chars.contains p.toList s.toList

/-- The text with every occurrence of `old`, which is not empty, replaced by `new`. -/
def replace (old new : String) : String → String :=
  onChars (Chars.replace old.toList new.toList)

/-- The text in lowercase. -/
def toLower : String → String := onChars Chars.toLower

/-- The text in uppercase. -/
def toUpper : String → String := onChars Chars.toUpper

/-- Whether two texts are equal when the case of ASCII letters does not count. -/
def equalIgnoringCase (s t : String) : Bool :=
  s.toList.map Char.toLower == t.toList.map Char.toLower

/-- The text as it is written inside a quoted label. -/
def escape : String → String := onChars Chars.escape

/-- The text that a quoted label stands for. -/
def unescape : String → String := onChars Chars.unescape

/-- The text with its line breaks written as two characters each. -/
def singleLine : String → String := onChars Chars.singleLine

/-- The name as an identifier. -/
def identifier : String → String := onChars Chars.identifier

/-- Each text followed by a line feed, one after another. -/
def unlines (ls : List String) : String := String.join (ls.map (· ++ "\n"))

/-- `n` copies of the text. -/
def repeated (n : Nat) (s : String) : String := String.join (List.replicate n s)

theorem unescape_escape (s : String) : unescape (escape s) = s := by
  simp [unescape, escape, onChars, Chars.unescape_escape]

end Atlas.Text
