/-!
# Logs

A log holds what is noted while something else is done. It is written with its records one after the
other, each behind the time at which it is written; only warnings are written unless more is asked for.
-/

namespace ScriptTyping

/-- How much a record matters. -/
inductive Weight where
  | warn
  | info
  | debug
  deriving DecidableEq, Repr

namespace Weight

/-- The name of a weight, filled up to the longest. -/
def name : Weight → String
  | warn => "WARN "
  | info => "INFO "
  | debug => "DEBUG"

/-- Whether records of a weight are written. -/
def isWritten (isVerbose : Bool) : Weight → Bool
  | warn => true
  | _ => isVerbose

end Weight

/-- A record: how much it matters, the part of the program that notes it, and what it says. -/
structure LogRecord where
  weight : Weight
  target : String
  message : String
  deriving DecidableEq, Repr

/-- A record as it is written at a time. A message of several lines stays one of several lines. -/
def LogRecord.text (time : String) (r : LogRecord) : String :=
  time ++ " " ++ r.weight.name ++ " [" ++ r.target ++ "] " ++ r.message ++ "\n"

/-- The text of a log, given the time at which the `n`-th of its records is written. -/
def logText (isVerbose : Bool) (clock : Nat → String) (log : List LogRecord) : String :=
  String.join ((log.filter (·.weight.isWritten isVerbose)).zipIdx.map fun (r, n) => r.text (clock n))

end ScriptTyping
