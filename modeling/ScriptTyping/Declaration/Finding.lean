import ScriptTyping.Declaration.Basic
import ScriptTyping.Syntax.Node

/-!
# Findings

What is worth telling about the declarations of a script, and the problem that each finding is
reported as.
-/

namespace ScriptTyping

/-- Something worth telling about a declaration. -/
inductive Finding where
  /-- A declaration takes values apart, and is left out. -/
  | destructured (pattern : String)
  /-- An array holds elements of several kinds. -/
  | mixedArray (name : String) (type : Kind)
  /-- A constant has a value that is not copied. -/
  | computedConstant (name : String)
  /-- A constant has no value. -/
  | emptyConstant (name : String)
  /-- A function has no statements. -/
  | emptyBody (name : String)
  deriving DecidableEq

namespace Finding

/-- What to say of a finding. -/
def message : Finding → String
  | destructured pattern => "Skipping destructured declaration '" ++ pattern ++ "'."
  | mixedArray name type =>
    "Array literal assigned to '" ++ name ++ "' mixes element types; typed as " ++ type.text ++ "."
  | computedConstant name =>
    "Constant '" ++ name ++ "' has a non-literal initializer; its value is not emitted."
  | emptyConstant name =>
    "Constant '" ++ name ++ "' has no initializer; it is emitted without a value."
  | emptyBody name => "Function '" ++ name ++ "' has an empty body."

/-- How serious a finding is. -/
def level : Finding → Level
  | emptyBody _ => .info
  | _ => .warning

/-- The part of the program that makes a finding. -/
def issuer : Finding → String
  | emptyBody _ => "typeify.analyzers.declarations.record_function"
  | _ => "typeify.analyzers.declarations.record_variable"

/-- A finding about a node as a problem. -/
def problem (f : Finding) (n : Node) : Problem :=
  { level := f.level
    message := f.message
    issuer := f.issuer
    location := n.location?
    span := n.span? }

end Finding

end ScriptTyping
