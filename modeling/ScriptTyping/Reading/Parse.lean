import ScriptTyping.Building.Statement
import ScriptTyping.Grammar.Language
import ScriptTyping.Peg.Message
import ScriptTyping.Peg.Run
import ScriptTyping.Scan.Nesting
import ScriptTyping.Script

/-!
# Reading a script

`Script.parse` gives the syntax tree of a script. It first checks how deeply brackets are nested,
then matches the text against the grammar, and then builds the tree from the match.
-/

namespace ScriptTyping

/-- The deepest nesting of brackets that is read. -/
def maxNesting : Nat := 256

/-- A depth of evaluation that is enough for a text. -/
def depthFor (text : List Char) : Nat :=
  5000 * (text.length + 1)

namespace Script

/-- The place after the first `n` characters of a script. -/
def place (s : Script) (n : Nat) : Location :=
  Location.after s.name (s.content.toList.take n)

/-- Refuses a script with a bracket that opens a level too many. -/
def checkNesting (s : Script) : Except Fault Unit :=
  match Scan.beforeExcess? maxNesting s.content.toList with
  | some before =>
    let span := { start := s.place before.length, stop := s.place (before.length + 1) }
    .error (.tooDeep span maxNesting)
  | none => .ok ()

/-- The match of a script with the grammar. -/
def match? (s : Script) : Except Fault (Peg.Tree Rule) :=
  let text := s.content.toList
  match Peg.parse language (depthFor text) .program text with
  | .accepted (t :: _) => .ok t
  | .accepted [] => .error (.lacking { location := none, span := none })
  | .exhausted => .error (.interrupted "the text was not matched to its end")
  | .rejected attempts =>
    let complaint := attempts.message Rule.all Rule.name
    .error (.rejected s.name complaint (s.place attempts.furthest))

/-- The syntax tree of a script. -/
def parse (s : Script) : Except Fault Node := do
  s.checkNesting
  let t ← s.match?
  let part := Building.partOf s.name s.content.toList t
  Building.program part.extent part.parts

end Script

end ScriptTyping
