import Mathlib.Data.Int.ModEq
import Switchboard.Proofs.Blame

/-!
Integers in expressions.

An integer is a word of 64 bits, and a sum, a difference or a product that does not fit wraps.
However often this happens in an expression, what it comes to is the exact value reduced once,
because reducing goes along with all three operations.  A division cuts the exact quotient off
toward zero, and the remainder makes up for what was cut off; the one quotient that does not fit
wraps like any other result.  Nothing but a zero divisor can make a division fail, and nothing but a
division of integers can fail so.
-/

namespace Switchboard

/-! ## Exact values -/

/-- The exact value of an expression that adds, subtracts and multiplies integers. -/
inductive Expr.Exact (context : Context) : Expr → Int → Prop
  | literal (n : Int64) : Exact context (.literal (.integer n)) n.toInt
  | var {name : String} {n : Int64} (location : Location)
      (hbound : context.get? name = some (.integer n)) :
      Exact context (.var name location) n.toInt
  | add {left right : Expr} {x y : Int} (location : Location) (hleft : Exact context left x)
      (hright : Exact context right y) :
      Exact context (.binary .add left right location) (x + y)
  | subtract {left right : Expr} {x y : Int} (location : Location)
      (hleft : Exact context left x) (hright : Exact context right y) :
      Exact context (.binary .subtract left right location) (x - y)
  | multiply {left right : Expr} {x y : Int} (location : Location)
      (hleft : Exact context left x) (hright : Exact context right y) :
      Exact context (.binary .multiply left right location) (x * y)

/-- A word stands for the integers that it is congruent to. -/
theorem toInt_ofInt_modEq (n : Int) : (Int64.ofInt n).toInt ≡ n [ZMOD 2 ^ 64] := by
  rw [Int64.toInt_ofInt]
  exact Int.bmod_emod

/-! ## Division -/

/-- Quotient and remainder of a division of words that truncates toward zero. -/
structure Truncates (a b q r : Int64) : Prop where
  size : r.toInt.natAbs < b.toInt.natAbs
  sign : r = 0 ∨ r.toInt.sign = a.toInt.sign
  quotient : ¬ (a = Int64.minValue ∧ b = -1) → q.toInt = a.toInt.tdiv b.toInt
  /-- The quotient that does not fit. -/
  wraps : a = Int64.minValue → b = -1 → q = Int64.minValue ∧ r = 0

theorem truncates_div_mod {a b : Int64} (hb : b ≠ 0) : Truncates a b (a / b) (a % b) where
  size := by
    have hne : b.toInt ≠ 0 := fun h => hb (Int64.toInt_inj.1 h)
    rw [Int64.toInt_mod, Int.natAbs_tmod]
    exact Nat.mod_lt _ (Int.natAbs_pos.2 hne)
  sign := by
    have hsign := Int.sign_tmod a.toInt b.toInt
    rw [← Int64.toInt_mod] at hsign
    by_cases hdvd : b.toInt ∣ a.toInt
    · rw [if_pos hdvd, Int.sign_eq_zero_iff_zero] at hsign
      exact .inl (Int64.toInt_inj.1 hsign)
    · rw [if_neg hdvd] at hsign
      exact .inr hsign
  quotient := by
    intro hfits
    by_cases ha : a = Int64.minValue
    · exact Int64.toInt_div_of_ne_right a b fun hb => hfits ⟨ha, hb⟩
    · exact Int64.toInt_div_of_ne_left a b ha
  wraps := by
    intro ha hb
    rw [ha, hb]
    decide

/-- The remainder makes up for what the quotient cuts off, also where the quotient wraps. -/
theorem div_mul_add_mod (a b : Int64) : a / b * b + a % b = a := by
  rw [← Int64.toInt_inj, Int64.toInt_add, Int64.toInt_mul, Int64.toInt_div, Int64.toInt_mod,
    Int.bmod_mul_bmod, Int.bmod_add_bmod, Int.tdiv_mul_add_tmod]
  exact Int64.toInt_bmod a

namespace OperatorTable

variable {left right : Value} {a b : Int64}

theorem apply_divide (hb : b ≠ 0) :
    standard.apply .divide (.integer a) (.integer b) = .ok (.integer (a / b)) :=
  if_neg hb

theorem apply_modulo (hb : b ≠ 0) :
    standard.apply .modulo (.integer a) (.integer b) = .ok (.integer (a % b)) :=
  if_neg hb

/-- Which operands an operation can have: those that form no pair, and those of each pair. -/
theorem pair_cases (left right : Value) :
    OperandPair.of? left right = none ∨
      (∃ a b, left = .integer a ∧ right = .integer b) ∨
      (∃ x y, OperandPair.of? left right = some .float ∧ left.promote = .float x ∧
        right.promote = .float y) ∨
      (∃ a b, left = .boolean a ∧ right = .boolean b) ∨
      ∃ s t, left = .string s ∧ right = .string t := by
  cases left <;> cases right <;> simp [OperandPair.of?, Value.promote]

theorem eq_zero_of_apply {op named : Operator}
    (h : standard.apply op (.integer a) (.integer b) = .error (.divisionByZero named)) :
    named = op ∧ (op = .divide ∨ op = .modulo) ∧ b = 0 := by
  cases op with
  | divide =>
      by_cases hb : b = 0
      · subst hb
        cases h
        exact ⟨rfl, .inl rfl, rfl⟩
      · rw [apply_divide hb] at h
        cases h
  | modulo =>
      by_cases hb : b = 0
      · subst hb
        cases h
        exact ⟨rfl, .inr rfl, rfl⟩
      · rw [apply_modulo hb] at h
        cases h
  | _ => cases h

/-- An operation fails for its divisor when it divides an integer by zero, and not otherwise. -/
theorem apply_eq_divisionByZero_iff {op named : Operator} :
    standard.apply op left right = .error (.divisionByZero named) ↔
      named = op ∧ (op = .divide ∨ op = .modulo) ∧ (∃ a, left = .integer a) ∧
        right = .integer 0 := by
  constructor
  · intro h
    rcases pair_cases left right with hnone | ⟨a, b, rfl, rfl⟩ | ⟨x, y, hpair, hx, hy⟩ |
      ⟨a, b, rfl, rfl⟩ | ⟨s, t, rfl, rfl⟩
    · simp [apply, hnone] at h
    · obtain ⟨hnamed, hop, rfl⟩ := eq_zero_of_apply h
      exact ⟨hnamed, hop, ⟨a, rfl⟩, rfl⟩
    · simp only [apply, hpair, hx, hy] at h
      cases op <;> cases h
    · cases op <;> cases h
    · cases op <;> cases h
  · rintro ⟨rfl, rfl | rfl, ⟨a, rfl⟩, rfl⟩
    · rfl
    · rfl

end OperatorTable

/-! ## Evaluation -/

namespace Engine

/-- Evaluating an expression in this context comes to this value, and changes nothing. -/
def Yields (engine : Engine) (context : Context) (expr : Expr) (value : Value) : Prop :=
  ∀ world, engine.evaluate expr context world = ⟨.ok value, context, world⟩

section Operands

variable {engine : Engine} {context : Context} {left right : Expr} {x y : Value} {op : Operator}

theorem yields_literal (literal : Literal) :
    engine.Yields context (.literal literal) (.ofLiteral literal) :=
  fun _ => rfl

theorem yields_var {name : String} {value : Value} (hbound : context.get? name = some value)
    (location : Location) : engine.Yields context (.var name location) value := by
  intro world
  simp only [evaluate, Context.get, hbound, Outcome.checkedAt]

theorem evaluate_binary (hleft : engine.Yields context left x)
    (hright : engine.Yields context right y) (location : Location) (world : World) :
    engine.evaluate (.binary op left right location) context world =
      .checkedAt (some location) (engine.operators.apply op x y) context world := by
  simp only [evaluate, hleft world, hright world, Outcome.andThen]

theorem evaluate_binary_failed (hleft : engine.Yields context left x)
    (hright : engine.Yields context right y) (location : Location) (world : World)
    (fault : Fault) :
    (∃ failure, (engine.evaluate (.binary op left right location) context world).result =
        .error (.failed failure) ∧ failure.fault = fault) ↔
      engine.operators.apply op x y = .error fault := by
  rw [evaluate_binary hleft hright]
  constructor
  · rintro ⟨failure, hresult, rfl⟩
    exact (checkedAt_failed hresult).1
  · intro happly
    rw [happly]
    exact ⟨_, rfl, rfl⟩

end Operands

section Standard

variable {engine : Engine} (hoperators : engine.operators = .standard) {context : Context}
  {left right : Expr}

include hoperators

theorem Yields.binary {x y value : Value} {op : Operator} (hleft : engine.Yields context left x)
    (hright : engine.Yields context right y)
    (happly : OperatorTable.standard.apply op x y = .ok value) (location : Location) :
    engine.Yields context (.binary op left right location) value := by
  intro world
  rw [evaluate_binary hleft hright, hoperators, happly]
  rfl

/-- One reduction at the end does for those that the operations make on the way. -/
theorem yields_exact {expr : Expr} {exact : Int} (hexact : expr.Exact context exact) :
    engine.Yields context expr (.integer (Int64.ofInt exact)) := by
  induction hexact with
  | literal n =>
      rw [Int64.ofInt_toInt]
      exact yields_literal (.integer n)
  | var location hbound =>
      rw [Int64.ofInt_toInt]
      exact yields_var hbound location
  | add location _ _ hleft hright =>
      rw [Int64.ofInt_add]
      exact Yields.binary hoperators hleft hright rfl location
  | subtract location _ _ hleft hright =>
      rw [Int64.ofInt_sub]
      exact Yields.binary hoperators hleft hright rfl location
  | multiply location _ _ hleft hright =>
      rw [Int64.ofInt_mul]
      exact Yields.binary hoperators hleft hright rfl location

/-- Putting a quotient and a remainder together again. -/
theorem Yields.rebuild {a b : Int64} {quotient remainder : Expr}
    (hquotient : engine.Yields context quotient (.integer (a / b)))
    (hright : engine.Yields context right (.integer b))
    (hremainder : engine.Yields context remainder (.integer (a % b)))
    (inner outer : Location) :
    engine.Yields context (.binary .add (.binary .multiply quotient right inner) remainder outer)
      (.integer a) := by
  have hproduct : engine.Yields context (.binary .multiply quotient right inner)
      (.integer (a / b * b)) := Yields.binary hoperators hquotient hright rfl inner
  have hsum : OperatorTable.standard.apply .add (.integer (a / b * b)) (.integer (a % b)) =
      .ok (.integer (a / b * b + a % b)) := rfl
  rw [div_mul_add_mod] at hsum
  exact Yields.binary hoperators hproduct hremainder hsum outer

/-- With the standard table, an expression that adds, subtracts and multiplies integers comes to
the word of its exact value.  A division by anything but zero has a quotient and a remainder, and
the dividend can be put together again from them.  And the fault of a zero divisor is that of an
integer divided by zero, and names the operator. -/
theorem integer_arithmetic_is_exact (context : Context) :
    (∀ expr exact, expr.Exact context exact → ∃ n : Int64,
      engine.Yields context expr (.integer n) ∧ -2 ^ 63 ≤ n.toInt ∧ n.toInt < 2 ^ 63 ∧
        n.toInt ≡ exact [ZMOD 2 ^ 64]) ∧
    (∀ left right a b, engine.Yields context left (.integer a) →
      engine.Yields context right (.integer b) → b ≠ 0 → ∃ q r, Truncates a b q r ∧
        (∀ location, engine.Yields context (.binary .divide left right location) (.integer q)) ∧
        (∀ location, engine.Yields context (.binary .modulo left right location) (.integer r)) ∧
        ∀ quotient remainder inner outer, engine.Yields context quotient (.integer q) →
          engine.Yields context remainder (.integer r) →
          engine.Yields context
            (.binary .add (.binary .multiply quotient right inner) remainder outer)
            (.integer a)) ∧
    ∀ left right x y, engine.Yields context left x → engine.Yields context right y →
      ∀ op named location world,
        (∃ failure, (engine.evaluate (.binary op left right location) context world).result =
          .error (.failed failure) ∧ failure.fault = .divisionByZero named) ↔
        named = op ∧ (op = .divide ∨ op = .modulo) ∧ (∃ a, x = .integer a) ∧
          y = .integer 0 := by
  refine ⟨?_, ?_, ?_⟩
  · intro expr exact hexact
    exact ⟨_, yields_exact hoperators hexact, Int64.le_toInt _, Int64.toInt_lt _,
      toInt_ofInt_modEq exact⟩
  · intro left right a b hleft hright hb
    refine ⟨a / b, a % b, truncates_div_mod hb, ?_, ?_, ?_⟩
    · exact Yields.binary hoperators hleft hright (OperatorTable.apply_divide hb)
    · exact Yields.binary hoperators hleft hright (OperatorTable.apply_modulo hb)
    · intro quotient remainder inner outer hquotient hremainder
      exact Yields.rebuild hoperators hquotient hright hremainder inner outer
  · intro left right x y hleft hright op named location world
    rw [evaluate_binary_failed hleft hright, hoperators,
      OperatorTable.apply_eq_divisionByZero_iff]

end Standard

/-- An engine that can only calculate. -/
def calculator : Engine :=
  ⟨.default, ⟨[]⟩, .standard⟩

/-- A context in which the largest and the smallest integer are bound. -/
def extremes : Context :=
  ((Context.ofTrace "t").set "high" (.integer Int64.maxValue)).set "low"
    (.integer Int64.minValue)

/-- Two more than the square of the largest integer. -/
def squareAndTwo : Expr :=
  .binary .add (.binary .multiply (.var "high" ⟨"f", 1, 1⟩) (.var "high" ⟨"f", 1, 8⟩) ⟨"f", 1, 6⟩)
    (.literal (.integer 2)) ⟨"f", 1, 13⟩

/-- The smallest integer, divided by something. -/
def lowDividedBy (divisor : Int64) : Expr :=
  .binary .divide (.var "low" ⟨"f", 1, 1⟩) (.literal (.integer divisor)) ⟨"f", 1, 5⟩

/-- The square of the largest integer wraps and leaves 1.  The smallest integer divided by -1 wraps
as well, and divided by zero it fails. -/
theorem integer_arithmetic_is_exact_at_extremes :
    calculator.Yields extremes squareAndTwo (.integer 3) ∧
      calculator.Yields extremes (lowDividedBy (-1)) (.integer Int64.minValue) ∧
      ∃ failure, (calculator.evaluate (lowDividedBy 0) extremes (.start (.ofSlots 1))).result =
          .error (.failed failure) ∧ failure.fault = .divisionByZero .divide := by
  obtain ⟨hexact, hdivides, hzero⟩ := @integer_arithmetic_is_exact calculator rfl extremes
  have hhigh : extremes.get? "high" = some (.integer Int64.maxValue) := by simp [extremes]
  have hlow : extremes.get? "low" = some (.integer Int64.minValue) := by simp [extremes]
  have hdividend := @yields_var calculator extremes _ _ hlow ⟨"f", 1, 1⟩
  refine ⟨?_, ?_, ?_⟩
  · obtain ⟨n, hyields, hmin, hmax, hmod⟩ := hexact squareAndTwo _
      (.add _ (.multiply _ (.var _ hhigh) (.var _ hhigh)) (.literal 2))
    have hthree : n = 3 := by
      rw [← Int64.toInt_inj]
      have hsquare : Int64.maxValue.toInt * Int64.maxValue.toInt + (2 : Int64).toInt =
          85070591730234615847396907784232501251 := by decide
      have hword : (3 : Int64).toInt = 3 := by decide
      rw [hsquare, Int.ModEq] at hmod
      omega
    rw [← hthree]
    exact hyields
  · obtain ⟨q, r, htruncates, hquotient, -, -⟩ := hdivides _ _ Int64.minValue (-1) hdividend
      (yields_literal (.integer (-1))) (by decide)
    rw [← (htruncates.wraps rfl rfl).1]
    exact hquotient ⟨"f", 1, 5⟩
  · exact (hzero _ _ _ _ hdividend (yields_literal (.integer 0)) .divide .divide _ _).2
      ⟨rfl, .inl rfl, ⟨_, rfl⟩, rfl⟩

end Engine

end Switchboard
