import ScriptTyping.Invocation.Arguments

/-!
# What the command line says of itself

The texts of help, version and wrong use.
-/

namespace ScriptTyping

/-- The line that names the program and its version. -/
def versionText : String := "typeify 0.1.0\n"

/-- The lines that explain the arguments. -/
def helpLines : List String :=
  ["Annotate JavaScript declarations with inferred TypeScript types",
    "",
    "Usage: typeify [OPTIONS] <INPUT> <OUTPUT>",
    "",
    "Arguments:",
    "  <INPUT>   The JavaScript file to annotate",
    "  <OUTPUT>  Where to write the result",
    "",
    "Options:",
    "      --no-format            Skip the external formatter pass",
    "      --dump-ast             Write the parsed syntax tree as JSON instead of typed source",
    "      --formatter <PROGRAM>  Formatter program reading stdin and writing stdout " ++
      "[default: prettier]",
    "  -l, --list                 Print every discovered declaration with its inferred type",
    "  -v, --verbose              Enable debug logging",
    "  -h, --help                 Print help",
    "  -V, --version              Print version"]

/-- The text that explains the arguments. -/
def helpText : String :=
  String.join (helpLines.map (· ++ "\n"))

/-- The line that tells of wrong use. -/
def Misuse.report (m : Misuse) : String :=
  "TYPEIFY | ERROR | usage | " ++ m.message ++ "; usage: typeify <INPUT> <OUTPUT> [--no-format]"

end ScriptTyping
