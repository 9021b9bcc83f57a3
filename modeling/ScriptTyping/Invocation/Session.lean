import ScriptTyping.Invocation.Usage
import ScriptTyping.Listing.Declarations

/-!
# Sessions

A session is what happens from the arguments of a command line to the status it ends with. It
complains when it fails; otherwise it ends with the path it has written and the numbers of variables and
functions, after the lists of declarations and findings if these were asked for. The log of a run comes
before its complaint.
-/

namespace ScriptTyping

/-- How a session ends: its status, its output and its complaints. -/
structure Outcome where
  status : Nat
  output : String
  complaints : String
  deriving DecidableEq, Repr

namespace Outcome

/-- A session that has done what it was asked. -/
def done (output : String) : Outcome :=
  { status := 0, output, complaints := "" }

/-- A session that has failed with a line of complaint. -/
def failed (complaint : String) : Outcome :=
  { status := 1, output := "", complaints := complaint ++ "\n" }

/-- How a session ends without a run. -/
def ofHalt : Halt → Outcome
  | .help => done helpText
  | .version => done versionText
  | .misuse m => failed m.report

end Outcome

/-- The lists of declarations and, if there are any, of findings, under their titles. -/
def Table.listing (t : Table) : String :=
  "Declarations\n" ++ t.declarationList ++ "\n" ++
    match t.findingList? with
    | some list => "Diagnostics\n" ++ list ++ "\n"
    | none => ""

namespace Summary

/-- The lines that tell what a run has done. -/
def report (s : Summary) : String :=
  "Output written to " ++ s.output ++ "\n" ++
    "Discovered " ++ toString s.table.bindings.length ++ " variables and " ++
    toString s.table.routines.length ++ " functions.\n"

end Summary

namespace Outcome

/-- The same ending with a text before the complaints. -/
def behind (log : String) (o : Outcome) : Outcome :=
  { o with complaints := log ++ o.complaints }

/-- How a session ends after a run. -/
def ofRun (showsList : Bool) : Except Cause Summary → Outcome
  | .ok s => done ((if showsList then s.table.listing else "") ++ s.report)
  | .error c => failed c.problem.report

end Outcome

/-- Does what a command line asks for. -/
def session {m : Type → Type} [Monad m] (h : Host m) (arguments : List String) : m Outcome :=
  match Invocation.ofArguments arguments with
  | .ok i => do
    let (result, log) ← (i.options.perform h).run.run []
    let clock ← h.clock
    return (Outcome.ofRun i.showsList result).behind (logText i.isVerbose clock log)
  | .error halt => return .ofHalt halt

end ScriptTyping
