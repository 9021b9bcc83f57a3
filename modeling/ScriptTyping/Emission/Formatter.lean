import ScriptTyping.Problem
import ScriptTyping.Text.Blank
import ScriptTyping.Text.Utf8

/-!
# Formatters

A formatter is a last pass over a text that may fail. A program is one if it reads a text on its
input and writes one to its output; a status other than zero is a failure, told with the first line
of what the program complains of.
-/

namespace ScriptTyping

/-- Why a formatter gives no text. -/
inductive FormatterFault where
  /-- The program is not found. -/
  | unavailable (program reason : String)
  /-- The program runs, but does not give a text. -/
  | failed (program reason : String)
  deriving DecidableEq, Repr

namespace FormatterFault

/-- What is wrong. -/
def message : FormatterFault → String
  | unavailable program reason =>
    "Formatter '" ++ program ++ "' could not be loaded: " ++ reason
  | failed program reason => "Formatter '" ++ program ++ "' failed: " ++ reason

/-- The part of the program that finds it. -/
def issuer : FormatterFault → String
  | unavailable .. => "typeify.emitter.format.locate"
  | failed .. => "typeify.emitter.format"

/-- The problem that a fault is reported as. -/
def problem (f : FormatterFault) : Problem :=
  .placeless .error f.issuer f.message

end FormatterFault

/-- A last pass over a text. -/
abbrev Formatter := String → Except FormatterFault String

/-- How a program ended: its status, its output and its complaints. -/
structure Completion where
  status : Nat
  output : List UInt8
  complaints : List UInt8

namespace Completion

/-- The first line of the complaints without the blanks around it. -/
def complaint (c : Completion) : String :=
  Text.trim (String.ofList ((Text.decodeLossy c.complaints).toList.takeWhile (· != '\n')))

/-- The text that a program gives, or why it gives none. -/
def result (c : Completion) : Except String String :=
  if c.status = 0 then
    (Text.decode c.output).mapError Text.Flaw.message
  else
    .error ("exited with exit status: " ++ toString c.status ++ ": " ++ c.complaint)

end Completion

/-- What a program makes of its arguments and its input. -/
abbrev Program := List String → List UInt8 → Completion

/-- The name of a formatter's program and the arguments it is given. -/
structure FormatterChoice where
  program : String
  arguments : List String
  deriving DecidableEq, Repr

namespace FormatterChoice

/-- The program that is used where none is named. -/
def defaultProgram : String := "prettier"

/-- The choice of a program by name. Only the default program is told what language to read. -/
def ofProgram (program : String) : FormatterChoice :=
  { program
    arguments := if program = defaultProgram then ["--parser", "typescript"] else [] }

/-- The formatter that runs a program. -/
def formatter (f : FormatterChoice) (p : Program) : Formatter := fun text =>
  (p f.arguments (Text.encode text)).result.mapError (.failed f.program)

/-- What is said of a program that is not found. -/
def missingReason : String := "cannot find binary path"

/-- The formatter of a choice, given the program that was found under its name. -/
def formatterOf? (f : FormatterChoice) : Option Program → Except FormatterFault Formatter
  | some p => .ok (f.formatter p)
  | none => .error (.unavailable f.program missingReason)

end FormatterChoice

end ScriptTyping
