import ScriptTyping.Declaration.Log
import ScriptTyping.Emission.Typed
import ScriptTyping.Run.Host

/-!
# Runs

`Options.perform` reads a script, makes its output and writes it, and keeps a log of it; `Options.run` is
the same without the log. A formatter that is not found is told before any work is done, and nothing is
written unless everything before has succeeded.
-/

namespace ScriptTyping

/-- What a run writes. -/
inductive Mode where
  | typedSource
  | syntaxTree
  deriving DecidableEq, Repr

/-- What to read, where to write, and what. -/
structure Options where
  input : String
  output : String
  mode : Mode
  formatter : Option FormatterChoice
  deriving DecidableEq, Repr

/-- What a run has done. -/
structure Summary where
  output : String
  mode : Mode
  table : Table

/-- The output for a script, and the declarations found in it. The syntax tree is not formatted. -/
def Script.output (s : Script) (formatter : Option Formatter) :
    Mode → Except Cause (String × Table)
  | .typedSource => s.typed formatter
  | .syntaxTree => do
    let program ← s.parse.mapError .fault
    return (program.json.prettyText, collect program s.content)

/-- What is logged while the declarations of a script are collected, if it has a syntax tree. -/
def Script.log (s : Script) : List LogRecord :=
  match s.parse with
  | .ok program => collectionLog program s.content s.name
  | .error _ => []

/-- Something that may fail and keeps a log, also when it fails. -/
abbrev Logged (m : Type → Type) := ExceptT Cause (StateT (List LogRecord) m)

namespace Logged

variable {m : Type → Type} [Monad m] {α : Type}

/-- Does something of which nothing is logged. -/
def quietly (x : ExceptT Cause m α) : Logged m α :=
  ExceptT.mk (StateT.lift x.run)

/-- Adds records to the log. -/
def note (rs : List LogRecord) : Logged m Unit :=
  ExceptT.lift (modify (· ++ rs))

end Logged

namespace Options

variable {m : Type → Type} [Monad m]

/-- The formatter that a run uses: only typed source is formatted. -/
def choice? (o : Options) : Option FormatterChoice :=
  match o.mode with
  | .typedSource => o.formatter
  | .syntaxTree => none

/-- The record of a formatter that is found at a path. -/
def foundRecord (f : FormatterChoice) (path : String) : LogRecord :=
  { weight := .debug, target := "typeify_core::emitter::format"
    message := "using formatter " ++ f.program ++ " at " ++ path }

/-- Finds the formatter of a choice. -/
def find (h : Host m) (f : FormatterChoice) : Logged m Formatter := do
  let formatter ← Logged.quietly (h.formatter f)
  let path ← Logged.quietly (ExceptT.lift (h.pathOf f.program))
  Logged.note [foundRecord f path]
  return formatter

/-- A record of the part of the program that a run is in. -/
def driverRecord (weight : Weight) (message : String) : LogRecord :=
  { weight, target := "typeify_core::driver", message }

/-- What is logged of a script before it is parsed. -/
def opening (o : Options) (s : Script) : List LogRecord :=
  driverRecord .info ("typeify " ++ s.path ++ " -> " ++ o.output) ::
    if s.isBlank then [driverRecord .warn (s.name ++ " contains no code")] else []

/-- What is logged of a text that has been written. -/
def closing (o : Options) (text : String) : LogRecord :=
  driverRecord .debug ("wrote " ++ toString (Text.byteLength text.toList) ++ " bytes to " ++ o.output)

/-- Reads, makes and writes what the options say, and keeps a log. -/
def perform (o : Options) (h : Host m) : Logged m Summary := do
  let s ← Logged.quietly (h.load o.input)
  let formatter ← o.choice?.mapM (find h)
  Logged.note (o.opening s)
  Logged.note s.log
  let (text, table) ← Logged.quietly (ExceptT.mk (pure (s.output formatter o.mode)))
  Logged.quietly (h.save o.output text)
  Logged.note [o.closing text]
  return { output := o.output, mode := o.mode, table }

/-- Reads, makes and writes what the options say. -/
def run (o : Options) (h : Host m) : ExceptT Cause m Summary :=
  ExceptT.mk (Prod.fst <$> (o.perform h).run.run [])

end Options

end ScriptTyping
