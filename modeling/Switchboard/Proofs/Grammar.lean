import Mathlib.Algebra.Group.Int.Defs
import Switchboard.Expr.Reader

/-!
The grammar of expressions.

The rules say which texts are expressions and which trees they mean, without saying how to find
out.  A run of separators may end anywhere, a number may stop after any of its digits, and nothing
is tried before anything else.  Only one rule looks ahead: a name that stands alone is not followed
by another character of a name.

`Derives levels text rest tree` says that `text` begins with an expression, that the expression
means `tree`, and that `rest` is what stands behind it.  A text is an expression when nothing
stands behind.
-/

namespace Switchboard

/-- Expressions without the places where they were written. -/
inductive Tree where
  | literal (value : Literal)
  | var (name : String)
  | binary (op : Operator) (left right : Tree)
  | call (function : String) (arguments : List Tree)

namespace Expr

mutual

/-- Forget where the nodes of an expression were written. -/
def bare : Expr → Tree
  | .literal value => .literal value
  | .var name _ => .var name
  | .binary op left right _ => .binary op left.bare right.bare
  | .call function arguments _ => .call function (bareAll arguments)

/-- Forget where the nodes of expressions were written. -/
def bareAll : List Expr → List Tree
  | [] => []
  | expr :: rest => expr.bare :: bareAll rest

end

end Expr

namespace Grammar

/-- The operators that join operands, loosest level first. -/
def levels : List (List Operator) :=
  [[.or], [.and],
    [.equal, .notEqual, .lessThanEqual, .greaterThanEqual, .lessThan, .greaterThan],
    [.add, .subtract], [.multiply, .divide, .modulo]]

/-! ## Words -/

/-- Any run of spaces, tabs, carriage returns and line feeds. -/
def IsBlank (word : List Char) : Prop :=
  ∀ c ∈ word, c = ' ' ∨ c = '\t' ∨ c = '\r' ∨ c = '\n'

/-- At least one decimal digit. -/
def IsDigits (word : List Char) : Prop :=
  word ≠ [] ∧ ∀ c ∈ word, c.isDigit = true

/-- A letter or underscore, then letters, digits and underscores. -/
def IsName : List Char → Prop
  | [] => False
  | c :: rest => Expr.isNameStart c = true ∧ ∀ d ∈ rest, Expr.isNamePart d = true

/-- Names joined by points. -/
inductive IsPackage : List Char → Prop
  | name {word : List Char} : IsName word → IsPackage word
  | point {word more : List Char} :
      IsName word → IsPackage more → IsPackage (word ++ '.' :: more)

/-- A package, a colon and a name. -/
inductive IsQualifiedName : List Char → Prop
  | intro {package name : List Char} :
      IsPackage package → IsName name → IsQualifiedName (package ++ ':' :: name)

/-- The minus sign of a negative number. -/
def sign (negative : Bool) : List Char :=
  if negative then ['-'] else []

/-- The exponent of a float and its value.  It may be absent. -/
inductive IsExponent : List Char → Int → Prop
  | absent : IsExponent [] 0
  | unsigned {e : Char} {digits : List Char} : e = 'e' ∨ e = 'E' → IsDigits digits →
      IsExponent (e :: digits) (Expr.digitsValue digits)
  | plus {e : Char} {digits : List Char} : e = 'e' ∨ e = 'E' → IsDigits digits →
      IsExponent (e :: '+' :: digits) (Expr.digitsValue digits)
  | minus {e : Char} {digits : List Char} : e = 'e' ∨ e = 'E' → IsDigits digits →
      IsExponent (e :: '-' :: digits) (-Expr.digitsValue digits)

/-- The float nearest to a decimal number, given by its sign, its digits before and behind the point
and its power of ten. -/
def floatOf (negative : Bool) (whole fraction : List Char) (power : Int) : Float :=
  let size := Decimal.nearestFloat (Expr.digitsValue (whole ++ fraction)) (power - fraction.length)
  if negative then -size else size

/-- Digits around a point, with a sign before and an exponent behind them or not. -/
inductive IsFloat : List Char → Float → Prop
  | intro (negative : Bool) {whole fraction exponent : List Char} {power : Int} :
      IsDigits whole → IsDigits fraction → IsExponent exponent power →
      IsFloat (sign negative ++ whole ++ '.' :: fraction ++ exponent)
        (floatOf negative whole fraction power)

/-- The number of these digits with this sign. -/
def integerOf (negative : Bool) (digits : List Char) : Int :=
  if negative then -(Expr.digitsValue digits : Int) else Expr.digitsValue digits

/-- Digits with a sign or not, when the number fits in 64 bits. -/
inductive IsInteger : List Char → Int64 → Prop
  | intro (negative : Bool) {digits : List Char} : IsDigits digits →
      -2 ^ 63 ≤ integerOf negative digits → integerOf negative digits < 2 ^ 63 →
      IsInteger (sign negative ++ digits) (Int64.ofInt (integerOf negative digits))

/-- The characters that may follow a backslash, and what they mean. -/
def escapes : List (Char × Char) :=
  [('\\', '\\'), ('"', '"'), ('n', '\n'), ('t', '\t')]

/-- What stands between the quotes of a string, and the characters it means. -/
inductive IsStringBody : List Char → List Char → Prop
  | nil : IsStringBody [] []
  | plain {c : Char} {word meant : List Char} : c ≠ '\\' → c ≠ '"' →
      IsStringBody word meant → IsStringBody (c :: word) (c :: meant)
  | escape {c m : Char} {word meant : List Char} : (c, m) ∈ escapes →
      IsStringBody word meant → IsStringBody ('\\' :: c :: word) (m :: meant)

/-- What a name that stands alone means. -/
def standalone (name : List Char) : Tree :=
  if name = "true".toList then .literal (.boolean true)
  else if name = "false".toList then .literal (.boolean false)
  else .var (String.ofList name)

/-- The next character, if there is one, is no character of a name. -/
def NameEnds (rest : List Char) : Prop :=
  ∀ c ∈ rest.head?, Expr.isNamePart c = false

/-! ## Phrases -/

mutual

/-- Chains of operands, folded to the left.  With no level left, an atom. -/
inductive Derives : List (List Operator) → List Char → List Char → Tree → Prop
  | atom {before inner behind after rest : List Char} {tree : Tree} :
      IsBlank before → Primary inner behind tree → IsBlank after → behind = after ++ rest →
      Derives [] (before ++ inner) rest tree
  | operand {level : List Operator} {tighter : List (List Operator)}
      {text rest : List Char} {tree : Tree} :
      Derives tighter text rest tree → Derives (level :: tighter) text rest tree
  | link {level : List Operator} {tighter : List (List Operator)} {op : Operator}
      {text behind rest : List Char} {left right : Tree} :
      op ∈ level → Derives (level :: tighter) text (op.symbol.toList ++ behind) left →
      Derives tighter behind rest right →
      Derives (level :: tighter) text rest (.binary op left right)

/-- Groups, literals, calls and names. -/
inductive Primary : List Char → List Char → Tree → Prop
  | group {inside rest : List Char} {tree : Tree} :
      Derives levels inside (')' :: rest) tree → Primary ('(' :: inside) rest tree
  | float {word rest : List Char} {x : Float} :
      IsFloat word x → Primary (word ++ rest) rest (.literal (.float x))
  | integer {word rest : List Char} {n : Int64} :
      IsInteger word n → Primary (word ++ rest) rest (.literal (.integer n))
  | string {word meant rest : List Char} : IsStringBody word meant →
      Primary ('"' :: word ++ '"' :: rest) rest (.literal (.string (String.ofList meant)))
  | call {name before inside behind after rest : List Char} {arguments : List Tree} :
      IsQualifiedName name → IsBlank before → Arguments inside behind arguments →
      IsBlank after → behind = after ++ ')' :: rest →
      Primary (name ++ before ++ '(' :: inside) rest (.call (String.ofList name) arguments)
  | name {name rest : List Char} :
      IsName name → NameEnds rest → Primary (name ++ rest) rest (standalone name)

/-- Expressions separated by commas, or nothing. -/
inductive Arguments : List Char → List Char → List Tree → Prop
  | none {text : List Char} : Arguments text text []
  | some {text rest : List Char} {first : Tree} {others : List Tree} :
      Items text rest first others → Arguments text rest (first :: others)

/-- Expressions separated by commas, at least one. -/
inductive Items : List Char → List Char → Tree → List Tree → Prop
  | one {text rest : List Char} {tree : Tree} :
      Derives levels text rest tree → Items text rest tree []
  | more {text behind rest : List Char} {tree next : Tree} {others : List Tree} :
      Derives levels text (',' :: behind) tree → Items behind rest next others →
      Items text rest tree (next :: others)

end

/-- The whole text is an expression that means `tree`. -/
def Expression (text : List Char) (tree : Tree) : Prop :=
  Derives levels text [] tree

end Grammar

end Switchboard
