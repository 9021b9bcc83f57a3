import ScriptTyping.Location

/-!
# Problems

A problem says how serious it is, what is wrong, which part of the program found it, and where, if
that is known. `Problem.report` is the line that tells a user, `Problem.record` the one that holds
all there is to know.
-/

namespace ScriptTyping

/-- How serious a problem is. -/
inductive Level where
  | info
  | warning
  | error
  | critical
  deriving DecidableEq, Repr

namespace Level

/-- The name of a level. -/
def name : Level → String
  | info => "INFO"
  | warning => "WARNING"
  | error => "ERROR"
  | critical => "CRITICAL"

end Level

/-- A problem. -/
structure Problem where
  level : Level
  message : String
  issuer : String
  location : Option Location
  span : Option Span
  deriving DecidableEq, Repr

namespace Problem

/-- The line that tells a user of a problem. -/
def report (p : Problem) : String :=
  let place := match p.location with
    | some l => l.text
    | none => "unknown location"
  "TYPEIFY | " ++ p.level.name ++ " | " ++ place ++ " | " ++ p.message

/-- The line with all that is known of a problem. -/
def record (p : Problem) : String :=
  let place := match p.location with
    | some l => l.text
    | none => "unknown"
  let stretch := match p.span with
    | some s => s.text
    | none => "span:none"
  "TYPEIFY | " ++ p.level.name ++ " | " ++ place ++ " | " ++ p.issuer ++ " | " ++ stretch ++
    " | " ++ p.message

/-- The message and, where it is known, the place in parentheses. -/
def inParentheses (p : Problem) : String :=
  match p.location with
  | some l => p.message ++ " (at " ++ l.text ++ ")"
  | none => p.message

/-- The message and, where it is known, the place. -/
def sentence (p : Problem) : String :=
  match p.location with
  | some l => p.message ++ " at " ++ l.text
  | none => p.message

/-- A problem that lies at no place in a source text. -/
def placeless (level : Level) (issuer message : String) : Problem :=
  { level, message, issuer, location := none, span := none }

end Problem

end ScriptTyping
