import Switchboard.Decimal.Layout
import Switchboard.Expr
import Switchboard.Text.Blank

/-!
Reading expressions.

From the loosest to the tightest, operators bind in five tiers: `||`, `&&`, comparisons, `+ -`,
`* / %`.  Within a tier a chain folds to the left.  The operands of the tightest tier are atoms: a
group in parentheses, a literal, a qualified call, or a name, with separators allowed around them.

Reading either succeeds, or *misses*: no expression begins here and nothing is used up, so another
reading may be tried; or *breaks*: after an operator, an opening quote or an opening parenthesis
there is no way back.  Both failures keep the rest of the text, which says where they happened.

A place in the text is the rest that begins there.  Lines and columns are computed from it only
where a node or an error is recorded, so that they are exact by definition.
-/

namespace Switchboard

/-- What the text should have held at the place of an error. -/
inductive Expectation where
  | expression
  | closingParenthesis
  | closingQuote
  | endOfInput
deriving DecidableEq, Repr

/-- The wording of an error. -/
def Expectation.message : Expectation → String
  | .expression => "expected expression"
  | .closingParenthesis => "expected closing parenthesis"
  | .closingQuote => "expected closing quote"
  | .endOfInput => "unexpected trailing input"

/-- A text that is no expression: the first place where it goes wrong, and what was wanted. -/
structure ReadError where
  line : Nat
  column : Nat
  expected : Expectation
deriving DecidableEq, Repr

def ReadError.message (error : ReadError) : String :=
  error.expected.message

/-- The written form `line:column: message`. -/
def ReadError.text (error : ReadError) : String :=
  s!"{error.line}:{error.column}: {error.message}"

/-- The text being read and the name it goes by in locations. -/
structure SourceText where
  file : String
  chars : List Char

namespace SourceText

/-- What stands before the place where `rest` begins. -/
def before (source : SourceText) (rest : List Char) : List Char :=
  source.chars.take (source.chars.length - rest.length)

/-- One more than the line feeds before the place. -/
def lineAt (source : SourceText) (rest : List Char) : Nat :=
  (source.before rest).count '\n' + 1

/-- One more than the characters between the last line feed and the place. -/
def columnAt (source : SourceText) (rest : List Char) : Nat :=
  ((source.before rest).reverse.takeWhile (· != '\n')).length + 1

/-- The location of a place. -/
def locate (source : SourceText) (rest : List Char) : Location :=
  ⟨source.file, source.lineAt rest, source.columnAt rest⟩

end SourceText

/-- The outcome of reading something at the start of a text. -/
inductive Reading (A : Type) where
  | ok (value : A) (rest : List Char)
  | miss (rest : List Char)
  | broken (expected : Expectation) (rest : List Char)

namespace Reading

/-- After this point there is no other way to read on, so a miss breaks. -/
def committed {A : Type} : Reading A → Reading A
  | .miss rest => .broken .expression rest
  | other => other

end Reading

namespace Expr

/-- Drop separators. -/
def skipBlank (text : List Char) : List Char :=
  text.dropWhile Text.isSeparator

/-- A character that can begin a name. -/
def isNameStart (c : Char) : Bool :=
  c.isAlpha || c == '_'

/-- A character that can go on in a name. -/
def isNamePart (c : Char) : Bool :=
  c.isAlphanum || c == '_'

/-- Value of a run of decimal digits. -/
def digitsValue (digits : List Char) : Nat :=
  digits.foldl (fun value c => 10 * value + (c.toNat - '0'.toNat)) 0

/-- At least one decimal digit, as many as there are. -/
def digits? (text : List Char) : Option (List Char × List Char) :=
  match text.span Char.isDigit with
  | ([], _) => none
  | found => some found

/-- An optional minus sign: whether it is there, and the rest. -/
def minus : List Char → Bool × List Char
  | '-' :: rest => (true, rest)
  | text => (false, text)

/-- An optional sign of either kind: whether it is a minus sign, and the rest. -/
def plusOrMinus : List Char → Bool × List Char
  | '-' :: rest => (true, rest)
  | '+' :: rest => (false, rest)
  | text => (false, text)

/-- A sign and digits behind `e` or `E`; without them nothing is used up. -/
def exponent : List Char → Int × List Char
  | [] => (0, [])
  | e :: behind =>
      if e == 'e' || e == 'E' then
        match digits? (plusOrMinus behind).2 with
        | some (digits, rest) =>
            (if (plusOrMinus behind).1 then -(digitsValue digits : Int) else digitsValue digits,
              rest)
        | none => (0, e :: behind)
      else (0, e :: behind)

/-- `-`? digits `.` digits exponent?, read to the nearest float. -/
def floatLiteral? (text : List Char) : Option (Literal × List Char) := do
  let (negative, unsigned) := minus text
  let (whole, rest) ← digits? unsigned
  let '.' :: rest := rest | none
  let (fraction, rest) ← digits? rest
  let (power, rest) := exponent rest
  let size := Decimal.nearestFloat (digitsValue (whole ++ fraction)) (power - fraction.length)
  some (.float (if negative then -size else size), rest)

/-- `-`? digits, when the number fits in 64 bits. -/
def integerLiteral? (text : List Char) : Option (Literal × List Char) := do
  let (negative, unsigned) := minus text
  let (digits, rest) ← digits? unsigned
  let size : Int := digitsValue digits
  let n := if negative then -size else size
  if -Int.pow 2 63 ≤ n ∧ n < Int.pow 2 63 then some (.integer (Int64.ofInt n), rest) else none

/-- The character meant by a backslash and this one. -/
def unescape? (c : Char) : Option Char :=
  if c == '\\' then some '\\'
  else if c == '"' then some '"'
  else if c == 'n' then some '\n'
  else if c == 't' then some '\t'
  else none

/-- The characters of a string up to a quote, an unknown escape or the end of the text. -/
def stringBody : List Char → List Char × List Char
  | [] => ([], [])
  | '\\' :: c :: rest =>
      match unescape? c with
      | some meant =>
          let (body, rest) := stringBody rest
          (meant :: body, rest)
      | none => ([], '\\' :: c :: rest)
  | c :: rest =>
      if c == '\\' || c == '"' then ([], c :: rest)
      else
        let (body, rest) := stringBody rest
        (c :: body, rest)

/-- A name: a letter or underscore, then letters, digits and underscores. -/
def name? : List Char → Option (List Char × List Char)
  | c :: rest =>
      if isNameStart c then
        let (part, rest) := rest.span isNamePart
        some (c :: part, rest)
      else none
  | [] => none

/-- The rest of a package name: name characters, and points that a further name follows. -/
def packageTail : List Char → List Char × List Char
  | [] => ([], [])
  | '.' :: c :: rest =>
      if isNameStart c then
        let (tail, rest) := packageTail rest
        ('.' :: c :: tail, rest)
      else ([], '.' :: c :: rest)
  | c :: rest =>
      if isNamePart c then
        let (tail, rest) := packageTail rest
        (c :: tail, rest)
      else ([], c :: rest)

/-- A package name, a colon and a name. -/
def qualifiedName? : List Char → Option (List Char × List Char)
  | c :: rest =>
      if isNameStart c then
        match packageTail rest with
        | (tail, ':' :: rest) =>
            (name? rest).map fun (name, rest) => (c :: tail ++ ':' :: name, rest)
        | _ => none
      else none
  | [] => none

/-- A name standing alone: a truth value or a variable. -/
def ofName (source : SourceText) (start name : List Char) : Expr :=
  if name == "true".toList then .literal (.boolean true)
  else if name == "false".toList then .literal (.boolean false)
  else .var (String.ofList name) (source.locate start)

/-- Operators of one tier, longer symbols before their beginnings. -/
abbrev Tier := List Operator

/-- The tiers, loosest first. -/
def tiers : List Tier :=
  [[.or], [.and],
    [.equal, .notEqual, .lessThanEqual, .greaterThanEqual, .lessThan, .greaterThan],
    [.add, .subtract], [.multiply, .divide, .modulo]]

/-- The first operator of a tier whose symbol the text begins with. -/
def operator? (tier : Tier) (text : List Char) : Option (Operator × List Char) :=
  match tier.find? fun op => op.symbol.toList.isPrefixOf text with
  | some op => some (op, text.drop op.symbol.length)
  | none => none

/-- A literal that is written as a number. -/
def number? (text : List Char) : Option (Literal × List Char) :=
  floatLiteral? text <|> integerLiteral? text

mutual

/-- A chain of operands of the tighter tiers; with no tier left, an atom. -/
def readChain (source : SourceText) : Nat → List Tier → List Char → Reading Expr
  | 0, _, text => .miss text
  | fuel + 1, [], text => readAtom source fuel text
  | fuel + 1, tier :: tighter, text =>
      match readChain source fuel tighter text with
      | .ok left rest => readLinks source fuel tier tighter left rest
      | failed => failed

/-- The rest of a chain whose operands so far make `left`. -/
def readLinks (source : SourceText) :
    Nat → Tier → List Tier → Expr → List Char → Reading Expr
  | 0, _, _, _, text => .miss text
  | fuel + 1, tier, tighter, left, text =>
      match operator? tier text with
      | none => .ok left text
      | some (op, behind) =>
          match (readChain source fuel tighter behind).committed with
          | .ok right rest =>
              readLinks source fuel tier tighter (.binary op left right (source.locate text)) rest
          | failed => failed

/-- An atom with the separators around it. -/
def readAtom (source : SourceText) : Nat → List Char → Reading Expr
  | 0, text => .miss text
  | fuel + 1, text =>
      let start := skipBlank text
      match start with
      | '(' :: inside =>
          match readChain source fuel tiers inside with
          | .ok expr (')' :: rest) => .ok expr (skipBlank rest)
          | .ok _ rest => .broken .closingParenthesis rest
          | .miss _ => .miss start
          | .broken expected rest => .broken expected rest
      | '"' :: inside =>
          match stringBody inside with
          | (body, '"' :: rest) => .ok (.literal (.string (String.ofList body))) (skipBlank rest)
          | (_, rest) => .broken .closingQuote rest
      | _ =>
          match number? start with
          | some (value, rest) => .ok (.literal value) (skipBlank rest)
          | none =>
              match (qualifiedName? start).map fun (name, rest) => (name, skipBlank rest) with
              | some (name, '(' :: inside) =>
                  match readArguments source fuel inside with
                  | .ok arguments rest =>
                      match skipBlank rest with
                      | ')' :: rest =>
                          .ok (.call (String.ofList name) arguments (source.locate start))
                            (skipBlank rest)
                      | rest => .broken .closingParenthesis rest
                  | .miss rest => .miss rest
                  | .broken expected rest => .broken expected rest
              | _ =>
                  match name? start with
                  | some (name, rest) => .ok (ofName source start name) (skipBlank rest)
                  | none => .miss start

/-- Arguments separated by commas, or none.  A comma that no expression follows is left alone. -/
def readArguments (source : SourceText) : Nat → List Char → Reading (List Expr)
  | 0, text => .miss text
  | fuel + 1, text =>
      match readChain source fuel tiers text with
      | .ok first rest =>
          match readMoreArguments source fuel rest with
          | .ok others rest => .ok (first :: others) rest
          | failed => failed
      | .miss _ => .ok [] text
      | .broken expected rest => .broken expected rest

/-- Further arguments, a comma before each. -/
def readMoreArguments (source : SourceText) : Nat → List Char → Reading (List Expr)
  | 0, text => .miss text
  | fuel + 1, text =>
      match text with
      | ',' :: behind =>
          match readChain source fuel tiers behind with
          | .ok next rest =>
              match readMoreArguments source fuel rest with
              | .ok others rest => .ok (next :: others) rest
              | failed => failed
          | .miss _ => .ok [] text
          | .broken expected rest => .broken expected rest
      | _ => .ok [] text

end

/-- Steps that are enough to read a text of this length: between two characters that are used up
there are at most eight. -/
def readingSteps (text : List Char) : Nat :=
  8 * (text.length + 2)

/-- The expression that is all of `source`.  `file` only names the text in locations. -/
def read (source file : String) : Except ReadError Expr :=
  let text : SourceText := ⟨file, source.toList⟩
  let fail (expected : Expectation) (rest : List Char) : Except ReadError Expr :=
    .error ⟨text.lineAt rest, text.columnAt rest, expected⟩
  match readChain text (readingSteps text.chars) tiers text.chars with
  | .ok expr [] => .ok expr
  | .ok _ rest => fail .endOfInput rest
  | .miss rest => fail .expression rest
  | .broken expected rest => fail expected rest

end Expr

end Switchboard
