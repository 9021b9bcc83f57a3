import ScriptTyping.Declaration.Table
import ScriptTyping.Script

/-!
# Typed source

The text that shows the declarations of a script with their types: a line that names the script,
one line for each variable, and each function with its statements.
-/

namespace ScriptTyping

/-- The line of a variable. -/
def Variable.line (v : Variable) : String :=
  let value := match v.value with
    | some text => " = " ++ text
    | none => ""
  v.kind.symbol ++ " " ++ v.name ++ ": " ++ v.type.text ++ value ++ ";\n"

/-- The lines of a function. -/
def Routine.definition (r : Routine) (source : String) : String :=
  let body := match r.bodyText? source with
    | some text => "\x7b\n" ++ text ++ "\n\x7d"
    | none => "\x7b\x7d"
  "\nfunction " ++ r.name ++ "(" ++ r.paramText ++ "): " ++ r.returns.text ++ " " ++ body ++ "\n"

/-- The typed source of a script with the given declarations. -/
def Table.typedSource (t : Table) (s : Script) : String :=
  "// Generated by typeify from " ++ s.name ++ "\n" ++
    String.join (t.bindings.map Variable.line) ++
    String.join (t.routines.map (Routine.definition · s.content))

end ScriptTyping
