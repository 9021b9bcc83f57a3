import ScriptTyping.Emission.Formatter
import ScriptTyping.Reading.Fault

/-!
# Why a run fails

The causes for which a run gives no output, and the problem that each is reported as.
-/

namespace ScriptTyping

/-- A cause for which a run gives no output. -/
inductive Cause where
  /-- The script cannot be read from its file. -/
  | unreadable (path reason : String)
  /-- The script has no syntax tree. -/
  | fault (f : Fault)
  /-- The formatter gives no text. -/
  | formatter (f : FormatterFault)
  /-- The output cannot be written to its file. -/
  | unwritable (path reason : String)
  deriving DecidableEq, Repr

namespace Cause

/-- The problem that a cause is reported as. -/
def problem : Cause → Problem
  | unreadable path reason =>
    .placeless .error "typeify.script"
      ("Input file " ++ path ++ " cannot be read: " ++ reason)
  | fault f => f.problem
  | formatter f => f.problem
  | unwritable path reason =>
    .placeless .error "typeify.driver.write_output"
      ("Cannot write output to " ++ path ++ ": " ++ reason)

end Cause

end ScriptTyping
