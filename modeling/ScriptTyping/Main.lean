import Mathlib.Tactic.DeprecateTo
import ScriptTyping.Invocation.Session

/-!
# The program

The files and the clock of the machine as a host, and the command line on it. No other program is
started from here, so a formatter is told as one that is not found.
-/

namespace ScriptTyping

/-- The obstacle that the system tells of. Its numbers come with either sign. -/
def obstacleOf : IO.Error → Obstacle
  | .noFileOrDirectory .. => .absent
  | .inappropriateType _ number _ =>
    if number = 20 ∨ number = 0 - 20 then .notFolder else .isFolder
  | .invalidArgument _ 36 _ => .nameTooLong
  | .permissionDenied .. => .other "Permission denied (os error 13)"
  | e => .other (toString e)

/-- The time as it is written in a log. -/
def timeText : IO String := do
  let now ← Std.Time.Timestamp.now
  return (Std.Time.DateTime.ofTimestamp now .UTC).format "uuuu-MM-dd'T'HH:mm:ss.SSS'Z'"

/-- The files and the clock of the machine. -/
def machine : Host IO where
  read path := do
    match ← (IO.FS.readBinFile path).toBaseIO with
    | .ok bytes => return .ok bytes.toList
    | .error e => return .error (obstacleOf e)
  write path content := do
    match ← (IO.FS.writeBinFile path ⟨content.toArray⟩).toBaseIO with
    | .ok () => return .ok ()
    | .error e => return .error (obstacleOf e)
  program? _ := return none
  pathOf name := return name
  clock := do
    let time ← timeText
    return fun _ => time

end ScriptTyping

open ScriptTyping in
/-- Does what the arguments ask for. -/
def main (arguments : List String) : IO UInt32 := do
  let o ← session machine arguments
  (← IO.getStdout).putStr o.output
  (← IO.getStderr).putStr o.complaints
  return o.status.toUInt32
