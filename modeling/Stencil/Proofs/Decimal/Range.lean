import Stencil.Decimal.Reader
import Mathlib

/-!
# Decimals that are computed

`Decimal.toFloat` decides from the exponents alone that a number lies far beyond the range. It does
so on the safe side: `1233 / 4096` is below the decimal logarithm of two and `1234 / 4096` above it,
so that the powers of ten in `log2_bounds` enclose every number.

* `Decimal.toFloat_eq_ofScientific` says that whatever lies between `10 ^ (-400)` and `10 ^ 400` is
  rounded as it stands.
-/

namespace Stencil.Decimal

variable {m : Nat} {e : Int}

/-- The powers of ten around a number, from the number of its binary digits. -/
theorem log2_bounds (hm : m ≠ 0) :
    10 ^ (Nat.log2 m * 1233 / 4096) ≤ m ∧ m < 10 ^ ((Nat.log2 m + 1) * 1234 / 4096 + 1) := by
  generalize hk : Nat.log2 m = k
  have hlow : 10 ^ (k * 1233 / 4096) ≤ 2 ^ k := by
    have hbase : 10 ^ 1233 ≤ 2 ^ 4096 := by decide +kernel
    refine (Nat.pow_le_pow_iff_left (n := 4096) (by decide)).1 ?_
    calc (10 ^ (k * 1233 / 4096)) ^ 4096 = 10 ^ (k * 1233 / 4096 * 4096) := (pow_mul ..).symm
      _ ≤ 10 ^ (1233 * k) := Nat.pow_le_pow_right (by decide) (by omega)
      _ = (10 ^ 1233) ^ k := pow_mul ..
      _ ≤ (2 ^ 4096) ^ k := Nat.pow_le_pow_left hbase k
      _ = (2 ^ k) ^ 4096 := pow_right_comm ..
  have hhigh : 2 ^ (k + 1) < 10 ^ ((k + 1) * 1234 / 4096 + 1) := by
    have hbase : 2 ^ 4096 ≤ 10 ^ 1234 := by decide +kernel
    refine (Nat.pow_lt_pow_iff_left (n := 4096) (by decide)).1 ?_
    calc (2 ^ (k + 1)) ^ 4096 = (2 ^ 4096) ^ (k + 1) := pow_right_comm ..
      _ ≤ (10 ^ 1234) ^ (k + 1) := Nat.pow_le_pow_left hbase _
      _ = 10 ^ (1234 * (k + 1)) := (pow_mul ..).symm
      _ < 10 ^ (((k + 1) * 1234 / 4096 + 1) * 4096) :=
        Nat.pow_lt_pow_right (by decide) (by omega)
      _ = (10 ^ ((k + 1) * 1234 / 4096 + 1)) ^ 4096 := pow_mul ..
  exact ⟨hlow.trans (hk ▸ Nat.log2_self_le hm), (hk ▸ Nat.lt_log2_self).trans hhigh⟩

/-- **A number that is not far beyond the range is rounded as it stands.** -/
theorem toFloat_eq_ofScientific (hleast : (10 : ℚ) ^ (-400 : Int) ≤ m * 10 ^ e)
    (hgreatest : m * (10 : ℚ) ^ e ≤ 10 ^ (400 : Int)) :
    toFloat m e = Float.ofScientific m (e < 0) e.natAbs := by
  have hm : m ≠ 0 := by
    rintro rfl
    rw [Nat.cast_zero, zero_mul] at hleast
    exact absurd hleast (not_le.2 (by positivity))
  obtain ⟨hlow, hhigh⟩ := log2_bounds hm
  have hupper : -400 ≤ ((Nat.log2 m + 1) * 1234 / 4096 : Int) + e := by
    have hlt : (10 : ℚ) ^ (-400 : Int) <
        10 ^ (((Nat.log2 m + 1) * 1234 / 4096 + 1 : Nat) + e : Int) :=
      calc (10 : ℚ) ^ (-400 : Int) ≤ m * 10 ^ e := hleast
        _ < 10 ^ ((Nat.log2 m + 1) * 1234 / 4096 + 1) * 10 ^ e := by
          gcongr
          exact_mod_cast hhigh
        _ = _ := by rw [zpow_add₀ (by norm_num), zpow_natCast]
    have hexp := (zpow_lt_zpow_iff_right₀ (by norm_num)).1 hlt
    push_cast at hexp
    omega
  have hlower : (Nat.log2 m * 1233 / 4096 : Int) + e ≤ 400 := by
    have hle : (10 : ℚ) ^ ((Nat.log2 m * 1233 / 4096 : Nat) + e : Int) ≤ 10 ^ (400 : Int) :=
      calc (10 : ℚ) ^ ((Nat.log2 m * 1233 / 4096 : Nat) + e : Int)
        _ = 10 ^ (Nat.log2 m * 1233 / 4096) * 10 ^ e := by
          rw [zpow_add₀ (by norm_num), zpow_natCast]
        _ ≤ m * 10 ^ e := by
          gcongr
          exact_mod_cast hlow
        _ ≤ 10 ^ (400 : Int) := hgreatest
    have hexp := (zpow_le_zpow_iff_right₀ (by norm_num)).1 hle
    push_cast at hexp
    exact hexp
  have hzero : ¬ (m = 0 || ((Nat.log2 m + 1) * 1234 / 4096 : Int) + e < -400) = true := by
    simp only [hm, decide_false, Bool.false_or, decide_eq_true_eq]
    omega
  have hinfinite : ¬ (Nat.log2 m * 1233 / 4096 : Int) + e > 400 := not_lt.2 hlower
  rw [toFloat, if_neg hzero, if_neg hinfinite]

end Stencil.Decimal
