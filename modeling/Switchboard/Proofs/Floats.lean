/-!
Floats compare as numbers.

Every bit pattern that is not a number stands for none, and the two zeros stand for the same one.
Apart from that, floats are equal as numbers exactly when they are the same.  Equality of floats is
therefore symmetric and transitive, and only what is no number differs from itself.
-/

namespace Switchboard

open Float.Model

/-- Two floats stand for the same number. -/
inductive SameNumber : UnpackedFloat → UnpackedFloat → Prop
  | zero (first second : UnpackedFloat.Sign) : SameNumber (.zero first) (.zero second)
  | infinity (sign : UnpackedFloat.Sign) : SameNumber (.infinity sign) (.infinity sign)
  | finite (sign : UnpackedFloat.Sign) (mantissa : Nat) (exponent : Int)
      (positive : 0 < mantissa) :
      SameNumber (.finite sign mantissa exponent positive) (.finite sign mantissa exponent positive)

namespace SameNumber

variable {x y z : UnpackedFloat}

theorem symm (h : SameNumber x y) : SameNumber y x := by
  induction h with
  | zero first second => exact .zero second first
  | infinity sign => exact .infinity sign
  | finite sign mantissa exponent positive => exact .finite sign mantissa exponent positive

theorem trans (hxy : SameNumber x y) (hyz : SameNumber y z) : SameNumber x z := by
  induction hxy with
  | zero first second =>
      cases hyz with
      | zero _ third => exact .zero first third
  | infinity sign => exact hyz
  | finite sign mantissa exponent positive => exact hyz

theorem self_iff : SameNumber x x ↔ x.isNaN = false := by
  cases x with
  | notANumber => exact ⟨nofun, nofun⟩
  | zero sign => exact ⟨fun _ => rfl, fun _ => .zero sign sign⟩
  | infinity sign => exact ⟨fun _ => rfl, fun _ => .infinity sign⟩
  | finite sign mantissa exponent positive => exact ⟨fun _ => rfl, fun _ => .finite ..⟩

theorem compare_sign_eq_iff {first second : UnpackedFloat.Sign} :
    compare first second = .eq ↔ first = second := by
  cases first with
  | negative =>
      cases second with
      | negative => exact iff_of_true rfl rfl
      | positive => exact iff_of_false nofun nofun
  | positive =>
      cases second with
      | negative => exact iff_of_false nofun nofun
      | positive => exact iff_of_true rfl rfl

theorem compare_finite_eq_iff {sign : UnpackedFloat.Sign} {mantissa other : Nat}
    {exponent power : Int} (hmantissa : 0 < mantissa) (hother : 0 < other) :
    (UnpackedFloat.finite sign mantissa exponent hmantissa).compare
        (.finite sign other power hother) = some .eq ↔ exponent = power ∧ mantissa = other := by
  have hparts : (compare exponent power).then (compare mantissa other) = .eq ↔
      exponent = power ∧ mantissa = other := by
    rw [Ordering.then_eq_eq, Int.compare_eq_eq, Nat.compare_eq_eq]
  cases sign with
  | negative =>
      change some ((compare exponent power).then (compare mantissa other)).swap = some .eq ↔ _
      rw [Option.some_inj, Ordering.swap_eq_eq, hparts]
  | positive =>
      change some ((compare exponent power).then (compare mantissa other)) = some .eq ↔ _
      rw [Option.some_inj, hparts]

/-- The comparison finds two floats equal only when they stand for the same number. -/
theorem of_compare (h : x.compare y = some .eq) : SameNumber x y := by
  cases x with
  | notANumber => cases h
  | zero first =>
      cases y with
      | notANumber => cases h
      | zero second => exact .zero first second
      | infinity sign => cases sign <;> cases h
      | finite sign _ _ _ => cases sign <;> cases h
  | infinity first =>
      cases y with
      | notANumber => cases first <;> cases h
      | zero _ => cases first <;> cases h
      | infinity second =>
          obtain rfl := compare_sign_eq_iff.1 (Option.some.inj h)
          exact .infinity first
      | finite _ _ _ _ => cases first <;> cases h
  | finite first mantissa exponent positive =>
      cases y with
      | notANumber => cases first <;> cases h
      | zero _ => cases first <;> cases h
      | infinity second => cases first <;> cases second <;> cases h
      | finite second other power _ =>
          have hsigns : first = second := by
            cases first with
            | negative =>
                cases second with
                | negative => rfl
                | positive => cases h
            | positive =>
                cases second with
                | negative => cases h
                | positive => rfl
          subst hsigns
          obtain ⟨rfl, rfl⟩ := (compare_finite_eq_iff _ _).1 h
          exact .finite first mantissa exponent positive

theorem compare_eq_iff : x.compare y = some .eq ↔ SameNumber x y := by
  refine ⟨of_compare, ?_⟩
  intro h
  induction h with
  | zero first second => rfl
  | infinity sign => cases sign <;> rfl
  | finite sign mantissa exponent positive => exact (compare_finite_eq_iff _ _).2 ⟨rfl, rfl⟩

end SameNumber

namespace FloatEquality

variable {x y z : Float}

theorem beq_iff : (x == y) = true ↔ SameNumber x.toModel.unpack y.toModel.unpack := by
  rw [← SameNumber.compare_eq_iff]
  change (x.toModel.unpack.compare y.toModel.unpack == some Ordering.eq) = true ↔ _
  rw [beq_iff_eq]

theorem symm (h : (x == y) = true) : (y == x) = true :=
  beq_iff.2 (beq_iff.1 h).symm

theorem trans (hxy : (x == y) = true) (hyz : (y == z) = true) : (x == z) = true :=
  beq_iff.2 ((beq_iff.1 hxy).trans (beq_iff.1 hyz))

theorem self_iff : (x == x) = true ↔ x.isNaN = false :=
  beq_iff.trans SameNumber.self_iff

example : ((0.0 : Float) == (-0.0 : Float)) = true := by decide +kernel

end FloatEquality

end Switchboard
