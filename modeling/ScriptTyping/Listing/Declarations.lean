import ScriptTyping.Declaration.Table
import ScriptTyping.Listing.Box

/-!
# Lists of declarations and findings

The two boxed tables that show what a table of declarations holds.
-/

namespace ScriptTyping

/-- Line and column of a place; nothing where there is none. -/
def placeCell : Option Location → String
  | some l => toString l.line ++ ":" ++ toString l.column
  | none => ""

/-- The row of a variable. -/
def Variable.row (v : Variable) : List String :=
  [v.kind.symbol, v.name, v.type.text, placeCell v.location]

/-- The row of a function. -/
def Routine.row (r : Routine) : List String :=
  ["function", r.name, "(" ++ r.paramText ++ ") => " ++ r.returns.text, placeCell r.location]

/-- The row of a finding. -/
def Problem.row (p : Problem) : List String :=
  [p.level.name, placeCell p.location, p.message]

namespace Table

/-- The declarations with a row for each variable and then for each function. -/
def declarationGrid (t : Table) : Listing.Grid :=
  { header := ["Declaration", "Name", "Type", "Location"]
    rows := t.bindings.map Variable.row ++ t.routines.map Routine.row }

/-- The findings with a row for each. -/
def findingGrid (t : Table) : Listing.Grid :=
  { header := ["Level", "Location", "Message"]
    rows := t.findings.map Problem.row }

/-- The list of declarations. -/
def declarationList (t : Table) : String :=
  t.declarationGrid.text

/-- The list of findings, if there are any. -/
def findingList? (t : Table) : Option String :=
  if t.findings.isEmpty then none else some t.findingGrid.text

end Table

end ScriptTyping
