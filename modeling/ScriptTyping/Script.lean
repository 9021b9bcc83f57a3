import ScriptTyping.Text.Blank
import ScriptTyping.Text.Debug

/-!
# Scripts

A script is a source text with the name that locations give to it and the path it was read from.
-/

namespace ScriptTyping

/-- A source text, its name and its path. -/
structure Script where
  name : String
  path : String
  content : String
  deriving DecidableEq, Repr

namespace Script

/-- A script that was not read from a file; its name serves as its path. -/
def ofSource (name content : String) : Script :=
  { name, path := name, content }

/-- The name of the file that a path leads to: its last part that is no mere dot. A path that goes
up at its end, and one without parts, name no file. -/
def fileName (path : String) : String :=
  match ((path.toList.splitOn '/').filter fun part => part ≠ [] ∧ part ≠ ['.']).getLast? with
  | some ['.', '.'] => ""
  | some part => String.ofList part
  | none => ""

/-- The script read from a file. -/
def ofFile (path content : String) : Script :=
  { name := fileName path, path, content }

/-- Whether a script holds nothing but white space. -/
def isBlank (s : Script) : Bool :=
  Text.isBlankText s.content

/-- A script by its name and path. -/
def text (s : Script) : String :=
  "Script: " ++ s.name ++ " at " ++ Text.debugQuoted s.path

end Script

end ScriptTyping
