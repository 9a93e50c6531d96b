import Mathlib.Algebra.Ring.Nat
import Switchboard.Diagnostic.Broadcast

/-!
How many slots a broadcast has.

The number of slots that was asked for is rounded up to a power of two, and to one at least.  So the
most slots that can be allocated are a power of two as well, and what fits is told by the number
that was asked for.
-/

namespace Switchboard.Broadcast

variable {slots : Nat}

theorem roundUp_of_two_le (h : 2 ≤ slots) : roundUp slots = 2 ^ ((slots - 1).log2 + 1) := by
  rw [roundUp, if_neg (by omega)]
  rfl

theorem roundUp_of_lt_two (h : slots < 2) : roundUp slots = 1 := by
  rw [roundUp, if_pos (by omega)]

theorem le_roundUp (slots : Nat) : slots ≤ roundUp slots := by
  rcases Nat.lt_or_ge slots 2 with h | h
  · rw [roundUp_of_lt_two h]
    omega
  · rw [roundUp_of_two_le h]
    have hlt : slots - 1 < 2 ^ ((slots - 1).log2 + 1) := Nat.lt_log2_self
    omega

theorem exists_roundUp_eq_two_pow (slots : Nat) : ∃ exponent, roundUp slots = 2 ^ exponent := by
  rcases Nat.lt_or_ge slots 2 with h | h
  · exact ⟨0, roundUp_of_lt_two h⟩
  · exact ⟨_, roundUp_of_two_le h⟩

theorem max_le_roundUp (slots : Nat) : max slots 1 ≤ roundUp slots := by
  obtain ⟨exponent, hexponent⟩ := exists_roundUp_eq_two_pow slots
  have hpos : 1 ≤ 2 ^ exponent := Nat.one_le_two_pow
  rw [← hexponent] at hpos
  exact Nat.max_le.2 ⟨le_roundUp slots, hpos⟩

/-- A power of two has room for the slots that there are when it has room for those that were asked
for. -/
theorem roundUp_le_two_pow_iff {exponent : Nat} :
    roundUp slots ≤ 2 ^ exponent ↔ slots ≤ 2 ^ exponent := by
  constructor
  · exact Nat.le_trans (le_roundUp slots)
  · intro hle
    rcases Nat.lt_or_ge slots 2 with h | h
    · rw [roundUp_of_lt_two h]
      exact Nat.one_le_two_pow
    · have hlt : (slots - 1).log2 < exponent := (Nat.log2_lt (by omega)).2 (by omega)
      rw [roundUp_of_two_le h]
      exact Nat.pow_le_pow_right (by decide) hlt

/-- The most slots that can be had: twice as many could not be allocated in one piece. -/
def maximalCapacity : Nat := 2 ^ 56

theorem two_pow_mul_slotBytes_le_iff {exponent : Nat} :
    2 ^ exponent * slotBytes ≤ allocationLimit ↔ exponent ≤ 56 := by
  constructor
  · intro hle
    by_contra hlarge
    have hpow : 2 ^ 57 ≤ 2 ^ exponent := Nat.pow_le_pow_right (by decide) (Nat.not_le.1 hlarge)
    have hbytes : 2 ^ 57 * slotBytes ≤ allocationLimit :=
      Nat.le_trans (Nat.mul_le_mul_right slotBytes hpow) hle
    exact absurd hbytes (by decide)
  · intro hsmall
    have hpow : 2 ^ exponent ≤ 2 ^ 56 := Nat.pow_le_pow_right (by decide) hsmall
    exact Nat.le_trans (Nat.mul_le_mul_right slotBytes hpow) (by decide)

/-- The room for the slots decides; more than can be asked for would not fit anyway. -/
theorem fits_iff : fits slots = true ↔ slots ≤ maximalCapacity := by
  obtain ⟨exponent, hexponent⟩ := exists_roundUp_eq_two_pow slots
  have hroom : roundUp slots * slotBytes ≤ allocationLimit ↔ slots ≤ maximalCapacity := by
    rw [hexponent, two_pow_mul_slotBytes_le_iff, ← Nat.pow_le_pow_iff_right (by decide : 1 < 2),
      ← hexponent]
    exact roundUp_le_two_pow_iff
  have hrequest : slots ≤ maximalCapacity → slots ≤ requestLimit := fun hle =>
    Nat.le_trans hle (by decide)
  rw [fits, Bool.and_eq_true, decide_eq_true_iff, decide_eq_true_iff, hroom]
  exact ⟨fun hfits => hfits.2, fun hle => ⟨hrequest hle, hle⟩⟩

end Switchboard.Broadcast
