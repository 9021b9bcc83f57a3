import ScriptTyping.Scan.Trailing
import ScriptTyping.Syntax.Node

/-!
# Where matches lie

An `Extent` says where a match lies in its source, and with it where the nodes stand that are made
of it: at a match alone, or from an operand to the end of what follows it.
-/

namespace ScriptTyping

/-- A match in a source text: the file, the text of the file, the number of characters before the
match, and the text it covers. -/
structure Extent where
  file : String
  source : List Char
  start : Nat
  text : List Char

namespace Extent

/-- The place after the first `n` characters of the source. -/
def place (e : Extent) (n : Nat) : Location :=
  Location.after e.file (e.source.take n)

/-- The span of a match without the blanks and comments at its end. -/
def span (e : Extent) : Span :=
  { start := e.place e.start
    stop := e.place (e.start + (Scan.trimTrailing e.text).length) }

/-- The text of a match. -/
def string (e : Extent) : String :=
  String.ofList e.text

/-- Where a match stands: its place, and its span. -/
def site (e : Extent) : Site :=
  { location := some (e.place e.start), span := some e.span }

/-- A node of the given form that covers a match. -/
def node (e : Extent) (f : Form Node) : Node :=
  .mk f e.site

end Extent

/-- Where a node stands that is made of an operand and of what follows it up to the end of a span: it
begins at the place of the operand. -/
def Node.siteTo (operand : Node) (last : Option Span) : Site :=
  { location := operand.location?, span := Span.join? operand.span? last }

end ScriptTyping
