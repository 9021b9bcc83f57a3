import ScriptTyping.Text.Bytes

/-!
# Places in a source text

A `Location` names a file and a place in it by line, column and byte offset; a `Span` is the
stretch between two places. A `Site` says of something where it begins and what it covers, each
told apart and each perhaps unknown. `Location.after` computes the place that a text leads up to. A line
ends at a line feed or at a carriage return followed by one; every other character, a lone
carriage return among them, is one column wide.
-/

namespace ScriptTyping

/-- A place in a file. Lines and columns count from one, the offset counts bytes from zero. -/
structure Location where
  file : String
  line : Nat
  column : Nat
  offset : Nat
  deriving DecidableEq, Repr, Inhabited

/-- A stretch of a file, its end excluded. -/
structure Span where
  start : Location
  stop : Location
  deriving DecidableEq, Repr, Inhabited

/-- Where something stands: the place where it begins and the stretch that it covers, as far as they
are known. -/
structure Site where
  location : Option Location
  span : Option Span
  deriving DecidableEq, Repr, Inhabited

namespace Location

/-- Line and column after a text that begins at the given line and column. A carriage return and
the line feed after it are one line break. -/
def advance (line column : Nat) : List Char → Nat × Nat
  | [] => (line, column)
  | '\r' :: '\n' :: cs => advance (line + 1) 1 cs
  | '\n' :: cs => advance (line + 1) 1 cs
  | _ :: cs => advance line (column + 1) cs

/-- The place in `file` that the text before it leads up to. -/
def after (file : String) (before : List Char) : Location :=
  let (line, column) := advance 1 1 before
  { file, line, column, offset := Text.byteLength before }

/-- A place as `file:line:column`. -/
def text (l : Location) : String :=
  l.file ++ ":" ++ toString l.line ++ ":" ++ toString l.column

@[simp] theorem after_offset (file : String) (before : List Char) :
    (after file before).offset = Text.byteLength before := rfl

@[simp] theorem after_file (file : String) (before : List Char) :
    (after file before).file = file := rfl

end Location

namespace Span

/-- The span from the start of the first to the end of the second. -/
def join (first last : Span) : Span :=
  { start := first.start, stop := last.stop }

/-- The span from the start of the first to the end of the second; none if one of them is
unknown. -/
def join? : Option Span → Option Span → Option Span
  | some first, some last => some (first.join last)
  | _, _ => none

/-- The text a span covers; none when the span does not fall on characters of the source. -/
def slice? (s : Span) (source : String) : Option String :=
  Text.sliceString? source s.start.offset s.stop.offset

/-- A span as its two places. -/
def text (s : Span) : String :=
  s.start.text ++ " - " ++ s.stop.text

end Span

end ScriptTyping
