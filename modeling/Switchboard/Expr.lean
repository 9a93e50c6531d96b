/-!
Expressions.

An expression is a literal, a variable, a binary operation or a call of a qualified name.  Every
node that can fail carries the place where it was written; literals cannot fail and carry none.
-/

namespace Switchboard

/-- A line and column of a named text, both counted from one. -/
structure Location where
  file : String
  line : Nat
  column : Nat
deriving DecidableEq, Repr

/-- The written form `file:line:column`. -/
def Location.text (location : Location) : String :=
  s!"{location.file}:{location.line}:{location.column}"

/-- Values that can be written down. -/
inductive Literal where
  | integer (n : Int64)
  | float (x : Float)
  | string (text : String)
  | boolean (b : Bool)

/-- The binary operators, in the order in which tables list them. -/
inductive Operator where
  | add
  | subtract
  | multiply
  | divide
  | modulo
  | equal
  | notEqual
  | lessThan
  | greaterThan
  | lessThanEqual
  | greaterThanEqual
  | and
  | or
deriving DecidableEq, Repr

namespace Operator

/-- Every operator once. -/
def all : List Operator :=
  [add, subtract, multiply, divide, modulo, equal, notEqual, lessThan, greaterThan,
    lessThanEqual, greaterThanEqual, and, or]

/-- How an operator is written. -/
def symbol : Operator → String
  | add => "+"
  | subtract => "-"
  | multiply => "*"
  | divide => "/"
  | modulo => "%"
  | equal => "=="
  | notEqual => "!="
  | lessThan => "<"
  | greaterThan => ">"
  | lessThanEqual => "<="
  | greaterThanEqual => ">="
  | and => "&&"
  | or => "||"

/-- The operator written so. -/
def ofSymbol? (text : String) : Option Operator :=
  all.find? fun op => op.symbol == text

theorem mem_all (op : Operator) : op ∈ all := by
  cases op <;> decide

theorem ofSymbol?_symbol (op : Operator) : ofSymbol? op.symbol = some op := by
  cases op <;> decide

end Operator

/-- Expression trees. -/
inductive Expr where
  | literal (value : Literal)
  | var (name : String) (location : Location)
  | binary (op : Operator) (left right : Expr) (location : Location)
  /-- Call of a native function or connector action by its qualified name. -/
  | call (function : String) (arguments : List Expr) (location : Location)

/-- Where the node is written: the name of a variable or call, the symbol of an operation. -/
def Expr.location? : Expr → Option Location
  | .literal _ => none
  | .var _ location => some location
  | .binary _ _ _ location => some location
  | .call _ _ location => some location

end Switchboard
