import ScriptTyping.Main
import ScriptTyping.Proofs.Declaration.Bodies
import ScriptTyping.Proofs.Grammar.Ranking
import ScriptTyping.Proofs.Syntax.Alike
import ScriptTyping.Proofs.Json.Headings
import ScriptTyping.Proofs.Run.Outcome
import ScriptTyping.Proofs.Syntax.Dump
import ScriptTyping.Proofs.Declaration.Behind
import ScriptTyping.Proofs.Reading.Objects
import ScriptTyping.Proofs.Reading.Forms
import ScriptTyping.Proofs.Reading.Sequence
import ScriptTyping.Proofs.Reading.Terms
import ScriptTyping.Proofs.Declaration.Calls
import ScriptTyping.Proofs.Declaration.Permuted
import ScriptTyping.Proofs.Declaration.Routines
import ScriptTyping.Proofs.Reading.Termination
import ScriptTyping.Proofs.Declaration.Names
import ScriptTyping.Proofs.Reading.Lines
import ScriptTyping.Proofs.Declaration.Findings
import ScriptTyping.Proofs.Kind.Keys
import ScriptTyping.Proofs.Kind.Inference
import ScriptTyping.Proofs.Syntax.Escaped
import ScriptTyping.Proofs.Declaration.Ranges
import ScriptTyping.Proofs.Declaration.Texts
import ScriptTyping.Proofs.Invocation.Session
import ScriptTyping.Proofs.Scan.Trailing
import ScriptTyping.Proofs.Scan.Excess
import ScriptTyping.Proofs.Reading.Rejection
import ScriptTyping.Proofs.Reading.Starts
import ScriptTyping.Proofs.Declaration.Reported
import ScriptTyping.Proofs.Reading.Nesting
import ScriptTyping.Proofs.Reading.Stops
