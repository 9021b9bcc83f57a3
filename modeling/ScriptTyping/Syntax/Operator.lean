/-!
# Operators and keywords

The fixed words of the syntax tree. Each kind lists its members in `all` and spells them with
`symbol`; `ofSymbol?` is the member so spelled.
-/

namespace ScriptTyping

/-- Operators between two operands, but for the logical ones. -/
inductive BinaryOperator where
  | eq
  | ne
  | strictEq
  | strictNe
  | lt
  | le
  | gt
  | ge
  | shiftLeft
  | shiftRight
  | shiftRightZero
  | add
  | sub
  | mul
  | div
  | mod
  | power
  | bitOr
  | bitXor
  | bitAnd
  | isIn
  | instanceOf
  deriving DecidableEq, Repr

namespace BinaryOperator

/-- The operators. -/
def all : List BinaryOperator :=
  [eq, ne, strictEq, strictNe, lt, le, gt, ge, shiftLeft, shiftRight, shiftRightZero, add, sub, mul,
    div, mod, power, bitOr, bitXor, bitAnd, isIn, instanceOf]

/-- The spelling of an operator. -/
def symbol : BinaryOperator → String
  | eq => "=="
  | ne => "!="
  | strictEq => "==="
  | strictNe => "!=="
  | lt => "<"
  | le => "<="
  | gt => ">"
  | ge => ">="
  | shiftLeft => "<<"
  | shiftRight => ">>"
  | shiftRightZero => ">>>"
  | add => "+"
  | sub => "-"
  | mul => "*"
  | div => "/"
  | mod => "%"
  | power => "**"
  | bitOr => "|"
  | bitXor => "^"
  | bitAnd => "&"
  | isIn => "in"
  | instanceOf => "instanceof"

/-- The operator so spelled. -/
def ofSymbol? (s : String) : Option BinaryOperator :=
  all.find? fun op => op.symbol = s

/-- Whether the result counts as a number. -/
def isArithmetic : BinaryOperator → Bool
  | add | sub | mul | div | mod => true
  | _ => false

end BinaryOperator

/-- Operators that may leave their second operand alone. -/
inductive LogicalOperator where
  | or
  | and
  | nullish
  deriving DecidableEq, Repr

namespace LogicalOperator

/-- The operators. -/
def all : List LogicalOperator :=
  [or, and, nullish]

/-- The spelling of an operator. -/
def symbol : LogicalOperator → String
  | or => "||"
  | and => "&&"
  | nullish => "??"

/-- The operator so spelled. -/
def ofSymbol? (s : String) : Option LogicalOperator :=
  all.find? fun op => op.symbol = s

end LogicalOperator

/-- Operators before one operand. -/
inductive UnaryOperator where
  | plus
  | minus
  | not
  | bitNot
  | typeOf
  | void
  | delete
  deriving DecidableEq, Repr

namespace UnaryOperator

/-- The operators. -/
def all : List UnaryOperator :=
  [plus, minus, not, bitNot, typeOf, void, delete]

/-- The spelling of an operator. -/
def symbol : UnaryOperator → String
  | plus => "+"
  | minus => "-"
  | not => "!"
  | bitNot => "~"
  | typeOf => "typeof"
  | void => "void"
  | delete => "delete"

/-- The operator so spelled. -/
def ofSymbol? (s : String) : Option UnaryOperator :=
  all.find? fun op => op.symbol = s

end UnaryOperator

/-- Operators that change a variable by one. -/
inductive UpdateOperator where
  | increment
  | decrement
  deriving DecidableEq, Repr

namespace UpdateOperator

/-- The spelling of an operator. -/
def symbol : UpdateOperator → String
  | increment => "++"
  | decrement => "--"

end UpdateOperator

/-- The keyword of a declaration of variables. -/
inductive DeclarationKind where
  | var
  | let
  | const
  deriving DecidableEq, Repr

namespace DeclarationKind

/-- The keywords. -/
def all : List DeclarationKind :=
  [var, DeclarationKind.let, const]

/-- The spelling of a keyword. -/
def symbol : DeclarationKind → String
  | .var => "var"
  | .let => "let"
  | .const => "const"

/-- The keyword so spelled. -/
def ofSymbol? (s : String) : Option DeclarationKind :=
  all.find? fun kind => kind.symbol = s

end DeclarationKind

/-- What a method of a class is for. -/
inductive MethodKind where
  | constructor
  | method
  | get
  | set
  deriving DecidableEq, Repr

namespace MethodKind

/-- The name of a kind. -/
def symbol : MethodKind → String
  | constructor => "constructor"
  | method => "method"
  | get => "get"
  | set => "set"

end MethodKind

/-- What a property of an object is for. -/
inductive PropertyKind where
  | init
  | get
  | set
  deriving DecidableEq, Repr

namespace PropertyKind

/-- The name of a kind. -/
def symbol : PropertyKind → String
  | init => "init"
  | get => "get"
  | set => "set"

/-- The kind of an accessor with this keyword. -/
def ofAccessor? (s : String) : Option PropertyKind :=
  [get, set].find? fun kind => kind.symbol = s

end PropertyKind

end ScriptTyping
