import ScriptTyping.Run.Options

/-!
# Command line arguments

`Invocation.ofArguments` reads the arguments of a command line. Two of them are paths; the others
are options, by a word after two dashes or by letters after one dash, and two dashes alone end the
options. The value of an option is the next argument or follows an equals sign.

Arguments are read from the first to the last, and the first that does not fit ends the reading. An
option that waits for a value is settled only when the next argument is one that is known, so an
unknown argument is told before a fault in the option just before it.
-/

namespace ScriptTyping

/-- Options that are there or not. -/
inductive Flag where
  | noFormat
  | dumpTree
  | list
  /-- Tells more about a run as it goes on, which is no part of its output. -/
  | verbose
  deriving DecidableEq, Repr

/-- What an option asks for. -/
inductive Switch where
  | flag (f : Flag)
  | formatter
  | help
  | version
  deriving DecidableEq, Repr

namespace Switch

/-- The option of a word. -/
def ofWord? : String → Option Switch
  | "no-format" => some (.flag .noFormat)
  | "dump-ast" => some (.flag .dumpTree)
  | "list" => some (.flag .list)
  | "verbose" => some (.flag .verbose)
  | "formatter" => some .formatter
  | "help" => some .help
  | "version" => some .version
  | _ => none

/-- The option of a letter. -/
def ofLetter? : Char → Option Switch
  | 'l' => some (.flag .list)
  | 'v' => some (.flag .verbose)
  | 'h' => some .help
  | 'V' => some .version
  | _ => none

end Switch

/-- What is wrong with arguments. -/
inductive Misuse where
  | missingPath
  | unknownArgument
  | missingValue
  | repeated
  | surplusValue
  deriving DecidableEq, Repr

namespace Misuse

/-- What is wrong. -/
def message : Misuse → String
  | missingPath => "one or more required arguments were not provided"
  | unknownArgument => "unexpected argument found"
  | missingValue => "one of the values isn't valid for an argument"
  | repeated => "an argument cannot be used with one or more of the other specified arguments"
  | surplusValue => "unexpected value for an argument found"

end Misuse

/-- Why arguments do not lead to a run. -/
inductive Halt where
  | help
  | version
  | misuse (m : Misuse)
  deriving DecidableEq, Repr

/-- The value of an option that is not settled yet. -/
inductive Pending where
  | nothing
  | awaited
  | given (value : String)
  deriving DecidableEq, Repr

/-- What the arguments up to some point say. -/
structure Gathered where
  paths : List String
  flags : List Flag
  formatter : Option String
  pending : Pending
  deriving DecidableEq, Repr

namespace Gathered

/-- What no arguments say. -/
def start : Gathered :=
  { paths := [], flags := [], formatter := none, pending := .nothing }

/-- Settles the option that waits for its value. -/
def settle (g : Gathered) : Except Halt Gathered :=
  match g.pending with
  | .nothing => .ok g
  | .awaited => .error (.misuse .missingValue)
  | .given value =>
    if g.formatter.isSome then .error (.misuse .repeated)
    else .ok { g with formatter := some value, pending := .nothing }

/-- Takes a path. -/
def path (g : Gathered) (a : String) : Except Halt Gathered :=
  if 2 ≤ g.paths.length then .error (.misuse .unknownArgument)
  else g.settle.map fun g => { g with paths := g.paths ++ [a] }

/-- Takes an option without a value. -/
def switch (g : Gathered) (s : Switch) : Except Halt Gathered := do
  let g ← g.settle
  match s with
  | .flag f =>
    if f ∈ g.flags then .error (.misuse .repeated) else .ok { g with flags := g.flags ++ [f] }
  | .formatter => .ok { g with pending := .awaited }
  | .help => .error .help
  | .version => .error .version

/-- Takes an option with the value after its equals sign. -/
def switchWith (g : Gathered) (s : Switch) (value : String) : Except Halt Gathered :=
  match s with
  | .formatter => g.settle.bind fun g => { g with pending := .given value : Gathered }.settle
  | _ => .error (.misuse .surplusValue)

/-- Takes what stands after two dashes. -/
def word (g : Gathered) (w : List Char) : Except Halt Gathered :=
  match Switch.ofWord? (String.ofList (w.takeWhile (· != '='))), w.dropWhile (· != '=') with
  | none, _ => .error (.misuse .unknownArgument)
  | some s, [] => g.switch s
  | some s, _ :: value => g.switchWith s (String.ofList value)

/-- Takes a letter after one dash. -/
def letter (g : Gathered) (c : Char) : Except Halt Gathered :=
  match Switch.ofLetter? c with
  | some s => g.switch s
  | none => .error (.misuse .unknownArgument)

/-- Takes a value or a path. -/
def plain (g : Gathered) (a : String) : Except Halt Gathered :=
  match g.pending with
  | .awaited => .ok { g with pending := .given a }
  | _ => g.path a

/-- Takes all arguments. -/
def read (g : Gathered) : List String → Except Halt Gathered
  | [] => .ok g
  | a :: rest =>
    match a.toList with
    | ['-', '-'] => rest.foldlM path g
    | '-' :: '-' :: w => (g.word w).bind (read · rest)
    | '-' :: c :: cs => ((c :: cs).foldlM letter g).bind (read · rest)
    | _ => (g.plain a).bind (read · rest)

end Gathered

/-- What a command line asks for. -/
structure Invocation where
  options : Options
  showsList : Bool
  isVerbose : Bool
  deriving DecidableEq, Repr

namespace Invocation

/-- What settled arguments ask for, given the two paths. -/
def ofGathered (g : Gathered) (input output : String) : Invocation :=
  { options := {
      input
      output
      mode := if .dumpTree ∈ g.flags then .syntaxTree else .typedSource
      formatter :=
        if .noFormat ∈ g.flags then none
        else some (.ofProgram (g.formatter.getD FormatterChoice.defaultProgram)) }
    showsList := decide (.list ∈ g.flags)
    isVerbose := decide (.verbose ∈ g.flags) }

/-- What a command line asks for. -/
def ofArguments (arguments : List String) : Except Halt Invocation := do
  let g ← (← Gathered.start.read arguments).settle
  match g.paths with
  | [input, output] => .ok (ofGathered g input output)
  | _ => .error (.misuse .missingPath)

end Invocation

end ScriptTyping
