import ScriptTyping.Problem

/-!
# Why a script is not read

The causes for which a script has no syntax tree, and the problem that each is reported as.
-/

namespace ScriptTyping

/-- A cause for which a script is not read. -/
inductive Fault where
  /-- A bracket opens a level deeper than the limit. -/
  | tooDeep (span : Span) (limit : Nat)
  /-- The grammar rejects the text, with the given complaint about a place in it. -/
  | rejected (script : String) (complaint : String) (location : Location)
  /-- A match is not what the builder of a node expects of it. -/
  | unexpected (message issuer : String) (site : Site)
  /-- The reading was broken off. -/
  | interrupted (reason : String)
  deriving DecidableEq, Repr

namespace Fault

/-- A match has fewer parts than its builder reads. -/
def lacking (site : Site) : Fault :=
  unexpected "Expected more inner pairs but found none." "typeify.ast.rules.fetch_next_pair" site

/-- A number has more digits than can be told. -/
def numberFormat (raw : String) (site : Site) : Fault :=
  unexpected ("Invalid number format '" ++ raw ++ "'.") "typeify.expr.parse_literal_rule" site

/-- A slice out of bounds ends the thread that reads. -/
def panicked : Fault :=
  interrupted "the parser thread panicked"

/-- What is wrong. -/
def message : Fault → String
  | tooDeep span limit =>
    "Nesting too deep at " ++ span.start.text ++ ": more than " ++ toString limit ++
      " levels of brackets."
  | rejected script complaint _ => "Failed to parse " ++ script ++ ": " ++ complaint
  | unexpected message .. => message
  | interrupted reason => "Pipeline failed: " ++ reason

/-- The part of the program that finds it. -/
def issuer : Fault → String
  | tooDeep .. => "typeify.ast.check_nesting_depth"
  | rejected .. => "typeify.ast.generate_ast_from_source"
  | unexpected _ issuer _ => issuer
  | interrupted _ => "typeify.driver.pipeline"

/-- How serious it is. -/
def level : Fault → Level
  | interrupted _ => .critical
  | _ => .error

/-- Where it lies. -/
def site : Fault → Site
  | tooDeep span _ => { location := some span.start, span := some span }
  | rejected _ _ location =>
    { location := some location, span := some { start := location, stop := location } }
  | unexpected _ _ site => site
  | interrupted _ => { location := none, span := none }

/-- The problem that a cause is reported as. -/
def problem (f : Fault) : Problem :=
  { level := f.level
    message := f.message
    issuer := f.issuer
    location := f.site.location
    span := f.site.span }

end Fault

end ScriptTyping
