import SiteOperator.Decimal.Shortest
import Mathlib.Algebra.Order.Field.Basic
import Mathlib.Data.Rat.Cast.Order
import Mathlib.Tactic.Linarith
import Mathlib.Tactic.Ring

/-!
# Rounding to one decimal place

The natural number nearest to a rational number is unique, since of two numbers that are equally
near one is even (`IsNearest.unique`). Rounding a quotient finds it (`isNearest_roundHalfEven`). So
a double is written with the tenths nearest to its exact value (`Binary64.oneDecimal_eq`).
-/

namespace SiteOperator

/-- No natural number is nearer to the rational number, and halfway between two it is the even
one. -/
structure IsNearest (x : ℚ) (n : ℕ) : Prop where
  near : |x - n| ≤ 1 / 2
  even : |x - n| = 1 / 2 → n % 2 = 0

section Nearest

variable {x : ℚ} {n m : ℕ}

theorem isNearest_of_lt (h : |x - n| < 1 / 2) : IsNearest x n :=
  ⟨h.le, fun heq => absurd heq h.ne⟩

theorem IsNearest.le_succ (h : IsNearest x n) (h' : IsNearest x m) : n ≤ m + 1 := by
  have hn := (abs_le.mp h.near).1
  have hm := (abs_le.mp h'.near).2
  have : (n : ℚ) ≤ (m + 1 : ℕ) := by
    push_cast
    linarith
  exact_mod_cast this

theorem IsNearest.not_succ (h : IsNearest x m) : ¬ IsNearest x (m + 1) := by
  intro h'
  have hm := (abs_le.mp h.near).2
  have hsucc := (abs_le.mp h'.near).1
  push_cast at hsucc
  have hhalf : x = m + 1 / 2 := by linarith
  have heven := h.even (by rw [hhalf, add_sub_cancel_left, abs_of_pos (by norm_num)])
  have heven' := h'.even (by
    rw [hhalf, abs_of_neg (by push_cast; linarith)]
    push_cast
    ring)
  omega

theorem IsNearest.unique (h : IsNearest x n) (h' : IsNearest x m) : n = m := by
  have hle := h.le_succ h'
  have hle' := h'.le_succ h
  have hne : n ≠ m + 1 := by
    rintro rfl
    exact h'.not_succ h
  have hne' : m ≠ n + 1 := by
    rintro rfl
    exact h.not_succ h'
  omega

end Nearest

theorem isNearest_roundHalfEven (num : ℕ) {den : ℕ} (h : 0 < den) :
    IsNearest (num / den) (roundHalfEven num den) := by
  have hden : (0 : ℚ) < den := by exact_mod_cast h
  have hdivision : (num : ℚ) = den * (num / den : ℕ) + (num % den : ℕ) := by
    exact_mod_cast (Nat.div_add_mod num den).symm
  rw [hdivision, add_div, mul_div_cancel_left₀ _ hden.ne']
  have hrest := Nat.mod_lt num h
  show IsNearest _ (if 2 * (num % den) < den then num / den
    else if den < 2 * (num % den) then num / den + 1 else num / den + num / den % 2)
  generalize num / den = whole, num % den = rest at hrest ⊢
  have hpart : (0 : ℚ) ≤ rest / den := div_nonneg rest.cast_nonneg hden.le
  have hpart' : (rest / den : ℚ) < 1 := (div_lt_one hden).mpr (by exact_mod_cast hrest)
  split_ifs with hbelow habove
  · have : (rest / den : ℚ) < 1 / 2 := by
      rw [div_lt_div_iff₀ hden two_pos]
      exact_mod_cast (by omega : rest * 2 < 1 * den)
    refine isNearest_of_lt ?_
    rwa [add_sub_cancel_left, abs_of_nonneg hpart]
  · have : (1 / 2 : ℚ) < rest / den := by
      rw [div_lt_div_iff₀ two_pos hden]
      exact_mod_cast (by omega : 1 * den < rest * 2)
    refine isNearest_of_lt ?_
    push_cast
    rw [abs_lt]
    constructor <;> linarith
  · have hhalf : (rest / den : ℚ) = 1 / 2 := by
      rw [div_eq_div_iff hden.ne' two_ne_zero]
      exact_mod_cast (by omega : rest * 2 = 1 * den)
    refine ⟨?_, fun _ => by omega⟩
    rcases Nat.mod_two_eq_zero_or_one whole with heven | hodd
    · rw [heven, add_zero, add_sub_cancel_left, hhalf, abs_of_pos one_half_pos]
    · rw [hodd, hhalf, abs_le]
      push_cast
      constructor <;> linarith

namespace Binary64

def magnitude (x : Binary64) : ℚ := x.significand * (2 : ℚ) ^ x.exponent

theorem magnitude_eq (x : Binary64) : x.magnitude = x.ratio.1 / x.ratio.2 := by
  rw [magnitude, ratio]
  rcases Int.le_total 0 x.exponent with h | h
  · obtain ⟨n, hn⟩ := Int.eq_ofNat_of_zero_le h
    rw [hn]
    simp
  · obtain ⟨n, hn⟩ := Int.exists_eq_neg_ofNat h
    rw [hn]
    simp [div_eq_mul_inv]

/-- Rounding half to even finds the tenths that are nearest to a double. -/
theorem isNearest_tenths (x : Binary64) :
    IsNearest (10 * x.magnitude) (roundHalfEven (x.ratio.1 * 10) x.ratio.2) := by
  have hvalue : 10 * x.magnitude = ((x.ratio.1 * 10 : ℕ) : ℚ) / x.ratio.2 := by
    rw [magnitude_eq]
    push_cast
    ring
  rw [hvalue]
  exact isNearest_roundHalfEven _ (Nat.pow_pos (by decide))

theorem oneDecimal_eq (x : Binary64) {tenths : ℕ} (h : IsNearest (10 * x.magnitude) tenths) :
    x.oneDecimal = (if x.negative then "-" else "") ++ toString (tenths / 10) ++ "." ++
      toString (tenths % 10) := by
  rw [h.unique x.isNearest_tenths]
  rfl

end Binary64

end SiteOperator
