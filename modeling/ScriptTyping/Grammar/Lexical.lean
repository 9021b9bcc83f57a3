import ScriptTyping.Grammar.Rule
import ScriptTyping.Peg.Expr
import ScriptTyping.Text.Identifier

/-!
# Words, literals and blanks

The parsing expressions of the tokens. A word is matched whole: nothing that may go on an
identifier may follow it. In the list of reserved words one that begins another stands after it.
-/

namespace ScriptTyping.Grammar
open Peg Peg.Expr

/-- What may begin an identifier. -/
def isIdentStart (c : Char) : Bool :=
  Text.isXidStart c || c == '_' || c == '$'

/-- What an identifier may go on with. -/
def isIdentPart (c : Char) : Bool :=
  Text.isXidContinue c || c == '$' || c == '\u200C' || c == '\u200D'

/-- The white space between tokens. -/
def isBlank (c : Char) : Bool :=
  c == ' ' || c == '\t' || c == '\r' || c == '\n' || c == '\uFEFF' || c == '\xA0' ||
    c == '\u2028' || c == '\u2029'

/-- The words that no identifier may be. -/
def reservedWords : List String :=
  ["instanceof", "in", "var", "let", "const", "function", "return", "if", "else", "for", "while",
    "break", "continue", "throw", "try", "catch", "finally", "switch", "case", "default", "new",
    "typeof", "void", "delete", "this", "true", "false", "null", "class", "extends", "super",
    "import", "export", "with", "debugger", "do", "yield", "await", "enum"]

/-- One character of an identifier's beginning. -/
def identStart : Expr Rule :=
  .char isIdentStart

/-- One character of an identifier's rest. -/
def identPart : Expr Rule :=
  .char isIdentPart

/-- Any character. -/
def any : Expr Rule :=
  .char fun _ => true

/-- Any character of a list. -/
def charIn (cs : List Char) : Expr Rule :=
  .char fun c => c ∈ cs

/-- Any character at which an expression does not match. -/
def anyBut (e : Expr Rule) : Expr Rule :=
  .seq (.notAhead e) any

/-- A line break. -/
def newline : Expr Rule :=
  oneOf [token "\n", token "\r\n", token "\r"]

/-- One of these words, whole. -/
def wholeWord (words : List String) : Expr Rule :=
  .seq (oneOf (words.map token)) (.notAhead identPart)

/-- A white space character, or a comment. A comment of the second or third form ends before the
line break. -/
def blank : Expr Rule :=
  oneOf [
    .char isBlank,
    all [token "/*", .star (anyBut (token "*/")), token "*/"],
    .seq (token "//") (.star (anyBut newline)),
    .seq (token "#!") (.star (anyBut newline))]

/-- The reserved words. -/
def keyword : Expr Rule :=
  wholeWord reservedWords

/-- A word that is not reserved. -/
def identifier : Expr Rule :=
  all [.notAhead (.call .keyword), identStart, .star identPart]

/-- A word, reserved or not. -/
def propertyIdentifier : Expr Rule :=
  .seq identStart (.star identPart)

/-- A word after a number sign. -/
def privateIdentifier : Expr Rule :=
  all [token "#", identStart, .star identPart]

/-- One decimal digit. -/
def digit : Expr Rule :=
  .char Char.isDigit

/-- Digits of a class after a zero and a letter, the first of them no underscore. -/
def prefixed (letters : List Char) (isDigit : Char → Bool) : Expr Rule :=
  all [token "0", charIn letters, .char isDigit, .star (.choice (.char isDigit) (token "_"))]

/-- A hexadecimal digit. -/
def isHexDigit (c : Char) : Bool :=
  c.isDigit || ('a' ≤ c && c ≤ 'f') || ('A' ≤ c && c ≤ 'F')

/-- An octal digit. -/
def isOctDigit (c : Char) : Bool :=
  '0' ≤ c && c ≤ '7'

/-- A binary digit. -/
def isBinDigit (c : Char) : Bool :=
  c == '0' || c == '1'

/-- An integer with the mark of arbitrary precision. -/
def bigint : Expr Rule :=
  all [plus digit, token "n", .notAhead identPart]

/-- An exponent, which may be left out. -/
def exponent : Expr Rule :=
  .opt (all [charIn ['e', 'E'], .opt (charIn ['+', '-']), plus digit])

/-- Digits with underscores among them, a fraction or both, and an exponent. -/
def decimal : Expr Rule :=
  .seq
    (.choice
      (all [digit, .star (.choice digit (token "_")), .opt (.seq (token ".") (.star digit))])
      (.seq (token ".") (plus digit)))
    exponent

/-- A number in one of four bases; only a decimal one may have a fraction or an exponent. -/
def number : Expr Rule :=
  .seq
    (oneOf [
      prefixed ['x', 'X'] isHexDigit,
      prefixed ['o', 'O'] isOctDigit,
      prefixed ['b', 'B'] isBinDigit,
      decimal])
    (.notAhead identPart)

/-- A text between two quotes on one line; a backslash takes any character with it. -/
def quoted (quote : String) : Expr Rule :=
  all [token quote,
    .star (.choice (.seq (token "\\") any)
      (anyBut (oneOf [token quote, token "\\", newline]))),
    token quote]

/-- A string in double or single quotes. -/
def string : Expr Rule :=
  .choice (quoted "\"") (quoted "'")

/-- A part of a hole in a template: a template, a string, a group in braces, or any other
character. -/
def templateHolePart : Expr Rule :=
  oneOf [
    .call .templateLiteral,
    .call .string,
    all [token "\x7b", .star (.call .templateHolePart), token "\x7d"],
    anyBut (charIn ['\x7d', '\x60'])]

/-- A part of a template: an escaped character, a hole, or any other character. -/
def templateChunk : Expr Rule :=
  oneOf [
    .seq (token "\\") any,
    all [token "$\x7b", .star (.call .templateHolePart), token "\x7d"],
    anyBut (token "\x60")]

/-- A text between backticks. -/
def templateLiteral : Expr Rule :=
  all [token "\x60", .star templateChunk, token "\x60"]

/-- A regular expression: a slash ends it unless it is escaped or inside brackets. -/
def regex : Expr Rule :=
  all [
    token "/",
    .notAhead (.choice (token "/") (token "*")),
    plus (oneOf [
      all [token "[",
        .star (.choice (.seq (token "\\") any)
          (anyBut (oneOf [token "]", token "\\", newline]))),
        token "]"],
      .seq (token "\\") any,
      anyBut (oneOf [token "/", token "\\", token "[", newline])]),
    token "/",
    .star identPart]

end ScriptTyping.Grammar
