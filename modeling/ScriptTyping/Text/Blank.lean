import ScriptTyping.Text.Ranges

/-!
# Blank characters

Two classes: the five blanks of ASCII that separate tokens, and the class White_Space of the Unicode
character database.
-/

namespace ScriptTyping.Text

/-- Space, tab, line feed, form feed and carriage return. -/
def isAsciiBlank (c : Char) : Bool :=
  c == ' ' || c == '\t' || c == '\n' || c == '\x0c' || c == '\r'

/-- The class White_Space. -/
def isWhiteSpace (c : Char) : Bool :=
  inRanges [(0x09, 0x0D), (0x20, 0x20), (0x85, 0x85), (0xA0, 0xA0), (0x1680, 0x1680),
    (0x2000, 0x200A), (0x2028, 0x2029), (0x202F, 0x202F), (0x205F, 0x205F), (0x3000, 0x3000)] c

/-- A text of nothing but white space. -/
def isBlankText (s : String) : Bool :=
  s.toList.all isWhiteSpace

/-- A text without the white space at its two ends. -/
def trim (s : String) : String :=
  let front := s.toList.dropWhile isWhiteSpace
  String.ofList (front.reverse.dropWhile isWhiteSpace).reverse

end ScriptTyping.Text
