import ScriptTyping.Cause
import ScriptTyping.Declaration.Collect
import ScriptTyping.Emission.Source
import ScriptTyping.Reading.Parse
import ScriptTyping.Syntax.Member

/-!
# From a script to its texts

`Script.typed` gives the typed source of a script with the declarations it shows, and
`Script.treeText` the syntax tree as indented JSON.
-/

namespace ScriptTyping

/-- The typed source after a last pass, if there is one. -/
def Table.emit (t : Table) (s : Script) : Option Formatter → Except FormatterFault String
  | some format => format (t.typedSource s)
  | none => .ok (t.typedSource s)

namespace Script

/-- The typed source of a script with the declarations it shows. -/
def typed (s : Script) (formatter : Option Formatter) : Except Cause (String × Table) := do
  let program ← s.parse.mapError .fault
  let table := collect program s.content
  let text ← (table.emit s formatter).mapError .formatter
  return (text, table)

/-- The syntax tree of a script as indented JSON. -/
def treeText (s : Script) : Except Fault String :=
  s.parse.map fun program => program.json.prettyText

end Script

end ScriptTyping
