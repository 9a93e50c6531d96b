import Switchboard.Binary64
import Switchboard.Value

/-!
Which operators apply to which operands.

Operands come in pairs of one type: two integers, two floats, two truth values or two strings; a
float on one side makes a pair of floats of two numbers.  A table gives a reducer for some of the
combinations of operator and pair, and an operation without a reducer is a fault.

Integers are 64-bit words: addition, subtraction and multiplication wrap, division truncates toward
zero, and only a zero divisor is refused.  Strings are ordered by their characters, a proper
beginning before its extensions.
-/

namespace Switchboard

/-- The pairs of operands that a reducer can be registered for. -/
inductive OperandPair where
  | integer
  | float
  | boolean
  | string
deriving DecidableEq, Repr

namespace OperandPair

def all : List OperandPair := [integer, float, boolean, string]

def label : OperandPair → String
  | integer => "Integer"
  | float => "Float"
  | boolean => "Boolean"
  | string => "String"

/-- The pair of this label. -/
def ofLabel? (text : String) : Option OperandPair :=
  all.find? fun pair => pair.label == text

/-- The pair that two values form. -/
def of? : Value → Value → Option OperandPair
  | .integer _, .integer _ => some .integer
  | .integer _, .float _ => some .float
  | .float _, .integer _ => some .float
  | .float _, .float _ => some .float
  | .boolean _, .boolean _ => some .boolean
  | .string _, .string _ => some .string
  | _, _ => none

end OperandPair

/-- A number as a float; every other value as it is. -/
def Value.promote : Value → Value
  | .integer n => .float (Float.ofInt n.toInt)
  | value => value

/-- Combines two operands. -/
abbrev Reducer := Value → Value → Checked Value

namespace Reducer

/-- A reducer on the contents of both operands, the left one looked at first. -/
def lift {A : Type} (contents : Value → Checked A) (combine : A → A → Checked Value) : Reducer :=
  fun left right => do
    let a ← contents left
    let b ← contents right
    combine a b

def onIntegers (combine : Int64 → Int64 → Value) : Reducer :=
  lift Value.asInteger fun a b => .ok (combine a b)

/-- Division and remainder, which a zero divisor makes a fault. -/
def dividing (op : Operator) (combine : Int64 → Int64 → Int64) : Reducer :=
  lift Value.asInteger fun a b =>
    if b = 0 then .error (.divisionByZero op) else .ok (.integer (combine a b))

def onFloats (combine : Float → Float → Value) : Reducer :=
  lift Value.asFloat fun a b => .ok (combine a b)

def onBooleans (combine : Bool → Bool → Bool) : Reducer :=
  lift Value.asBoolean fun a b => .ok (.boolean (combine a b))

def onStrings (combine : String → String → Bool) : Reducer :=
  lift Value.asString fun a b => .ok (.boolean (combine a b))

/-- Arithmetic and comparison of integers. -/
def integer? : Operator → Option Reducer
  | .add => some (onIntegers fun a b => .integer (a + b))
  | .subtract => some (onIntegers fun a b => .integer (a - b))
  | .multiply => some (onIntegers fun a b => .integer (a * b))
  | .divide => some (dividing .divide fun a b => a / b)
  | .modulo => some (dividing .modulo fun a b => a % b)
  | .equal => some (onIntegers fun a b => .boolean (a == b))
  | .notEqual => some (onIntegers fun a b => .boolean (a != b))
  | .lessThan => some (onIntegers fun a b => .boolean (a < b))
  | .greaterThan => some (onIntegers fun a b => .boolean (b < a))
  | .lessThanEqual => some (onIntegers fun a b => .boolean (a ≤ b))
  | .greaterThanEqual => some (onIntegers fun a b => .boolean (b ≤ a))
  | .and => none
  | .or => none

/-- Arithmetic and comparison of floats. -/
def float? : Operator → Option Reducer
  | .add => some (onFloats fun a b => .float (a + b))
  | .subtract => some (onFloats fun a b => .float (a - b))
  | .multiply => some (onFloats fun a b => .float (a * b))
  | .divide => some (onFloats fun a b => .float (a / b))
  | .modulo => some (onFloats fun a b => .float (floatRemainder a b))
  | .equal => some (onFloats fun a b => .boolean (a == b))
  | .notEqual => some (onFloats fun a b => .boolean (a != b))
  | .lessThan => some (onFloats fun a b => .boolean (a < b))
  | .greaterThan => some (onFloats fun a b => .boolean (b < a))
  | .lessThanEqual => some (onFloats fun a b => .boolean (a ≤ b))
  | .greaterThanEqual => some (onFloats fun a b => .boolean (b ≤ a))
  | .and => none
  | .or => none

/-- Comparison of strings. -/
def string? : Operator → Option Reducer
  | .equal => some (onStrings fun a b => a == b)
  | .notEqual => some (onStrings fun a b => a != b)
  | .lessThan => some (onStrings fun a b => a < b)
  | .greaterThan => some (onStrings fun a b => b < a)
  | .lessThanEqual => some (onStrings fun a b => !(b < a : Bool))
  | .greaterThanEqual => some (onStrings fun a b => !(a < b : Bool))
  | _ => none

/-- Equality and logic of truth values. -/
def boolean? : Operator → Option Reducer
  | .equal => some (onBooleans fun a b => a == b)
  | .notEqual => some (onBooleans fun a b => a != b)
  | .and => some (onBooleans fun a b => a && b)
  | .or => some (onBooleans fun a b => a || b)
  | _ => none

end Reducer

/-- The reducers in use. -/
structure OperatorTable where
  reducer? : Operator → OperandPair → Option Reducer

namespace OperatorTable

def empty : OperatorTable := ⟨fun _ _ => none⟩

/-- Arithmetic on numbers, comparison of numbers and strings, equality and logic of truth
values. -/
def standard : OperatorTable where
  reducer? op
    | .integer => Reducer.integer? op
    | .float => Reducer.float? op
    | .boolean => Reducer.boolean? op
    | .string => Reducer.string? op

/-- Use `reducer` for one combination from now on. -/
def register (table : OperatorTable) (op : Operator) (pair : OperandPair) (reducer : Reducer) :
    OperatorTable where
  reducer? op' pair' :=
    if op' = op ∧ pair' = pair then some reducer else table.reducer? op' pair'

/-- The pairs an operator has a reducer for. -/
def pairs (table : OperatorTable) (op : Operator) : List OperandPair :=
  OperandPair.all.filter fun pair => (table.reducer? op pair).isSome

/-- Number of combinations that have a reducer. -/
def size (table : OperatorTable) : Nat :=
  (Operator.all.flatMap table.pairs).length

/-- Combine two values.  Numbers of different types are both made floats first. -/
def apply (table : OperatorTable) (op : Operator) (left right : Value) : Checked Value :=
  match OperandPair.of? left right with
  | none => .error (.operandTypeMismatch op left.type right.type)
  | some pair =>
      match table.reducer? op pair with
      | none => .error (.operandTypeMismatch op left.type right.type)
      | some reducer =>
          if pair = .float then reducer left.promote right.promote else reducer left right

example : standard.size = 32 := by decide

end OperatorTable

end Switchboard
