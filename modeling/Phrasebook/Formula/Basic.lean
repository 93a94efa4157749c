import Phrasebook.Value

/-!
Formulas: the expressions in the slots of a template. A formula is a number, a variable or two
formulas joined by an operator; variables may carry parameters of their own.
-/

namespace Phrasebook

inductive BinaryOp where
  | add
  | subtract
  | multiply
  | divide
  | power
  deriving DecidableEq, Repr

def BinaryOp.symbol : BinaryOp → Char
  | .add => '+'
  | .subtract => '-'
  | .multiply => '*'
  | .divide => '/'
  | .power => '^'

inductive Param where
  | named (key value : String)
  | flag (name : String)
  deriving DecidableEq, Repr

def Param.display : Param → String
  | .named key value => key ++ "=" ++ value
  | .flag name => name

structure Variable where
  name : String
  params : List Param
  deriving DecidableEq, Repr

def Variable.display (var : Variable) : String :=
  match var.params with
  | [] => var.name
  | params => var.name ++ "<" ++ ",".intercalate (params.map Param.display) ++ ">"

inductive Formula where
  | number (value : Float)
  | var (asked : Variable)
  | binary (op : BinaryOp) (lhs rhs : Formula)
  deriving DecidableEq

/-- What the minus sign means. Some dictionaries were written for a minus sign that adds. -/
inductive SubtractionMode where
  | legacy
  | arithmetic
  deriving DecidableEq, Repr

def maxParentheses : Nat := 64

inductive FormulaFault where
  | unexpectedChar (column : Nat) (char : Char)
  | malformed (column : Nat)
  | tooDeep
  | unresolved (name : String)
  | invalidOperands (op : BinaryOp) (lhs rhs : ValueType)
  | divisionByZero
  | invalidRepeat (count : Float)
  | brokenDown (name message : String)
  deriving DecidableEq

def FormulaFault.message : FormulaFault → String
  | .unexpectedChar column char =>
      s!"syntax error at column {column}: unexpected character: '{char}'"
  | .malformed column =>
      s!"syntax error at column {column}: parse error: Parsing Error: " ++
        "ContextError \x7b context: [], cause: None \x7d"
  | .tooDeep => s!"expression nests deeper than {maxParentheses} levels"
  | .unresolved name => s!"unresolved variable '{name}'"
  | .invalidOperands op lhs rhs =>
      s!"cannot apply '{op.symbol}' to {lhs.name} and {rhs.name}"
  | .divisionByZero => "division by zero"
  | .invalidRepeat count => s!"cannot repeat a string {Decimal.plain count} times"
  | .brokenDown name message => s!"panic while resolving '{name}': {message}"

end Phrasebook
