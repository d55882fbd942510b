import Mathlib.Algebra.Order.Field.Power
import Mathlib.Data.Rat.Floor
import Mathlib.Tactic.Linarith
import Mathlib.Tactic.Positivity
import Mathlib.Tactic.Ring

/-! Binary64 arithmetic on the rationals it is about: every operation is the
exact one, rounded. Overflow and subnormal results are left to the caller. -/
namespace Sonarr.Lib.Binary64

/-- The nearest integer, the even one of two. -/
def roundEven (q : ℚ) : Int :=
  let f := q.num / q.den
  let r := q - f
  if r < 1 / 2 then f
  else if 1 / 2 < r then f + 1
  else if f % 2 = 0 then f else f + 1

def pow2 (e : Int) : ℚ := if 0 ≤ e then (2 ^ e.toNat : Nat) else 1 / (2 ^ (-e).toNat : Nat)

/-- The exponent that leaves 53 bits before the point. -/
def exponent (q : ℚ) : Int :=
  let e : Int := q.num.natAbs.log2 - q.den.log2 - 52
  if |q| < pow2 (e + 52) then e - 1 else e

/-- The nearest number with 53 significant bits. -/
def round (q : ℚ) : ℚ :=
  if q = 0 then 0 else roundEven (q / pow2 (exponent q)) * pow2 (exponent q)

/-- Conversion to a 64-bit integer: towards zero, and the least integer when the
value does not fit. -/
def toInt64 (q : ℚ) : Int :=
  let n := q.num.tdiv q.den
  if -(2 ^ 63) ≤ n ∧ n < 2 ^ 63 then n else -(2 ^ 63)

theorem tdiv_eq_floor {q : ℚ} (hq : 0 ≤ q) : q.num.tdiv q.den = ⌊q⌋ := by
  rw [Int.tdiv_eq_ediv_of_nonneg (Rat.num_nonneg.mpr hq), Rat.floor_def']

/-- A value that fits loses its fraction. -/
theorem toInt64_of_lt (hq : 0 ≤ q) (hlt : q < 9223372036854775808) : toInt64 q = ⌊q⌋ := by
  have hfloor : ⌊q⌋ < 9223372036854775808 := Int.floor_lt.mpr (by exact_mod_cast hlt)
  have hnonneg : 0 ≤ ⌊q⌋ := Int.floor_nonneg.mpr hq
  simp only [toInt64, tdiv_eq_floor hq]
  rw [if_pos (by omega)]

/-- One that does not is read as the least integer. -/
theorem toInt64_of_le (hq : 9223372036854775808 ≤ q) : toInt64 q = -9223372036854775808 := by
  have hnonneg : 0 ≤ q := le_trans (by norm_num) hq
  have hfloor : 9223372036854775808 ≤ ⌊q⌋ := Int.le_floor.mpr (by exact_mod_cast hq)
  simp only [toInt64, tdiv_eq_floor hnonneg]
  rw [if_neg (by omega)]
  norm_num

theorem toInt64_le (hq : 0 ≤ q) : (toInt64 q : ℚ) ≤ q := by
  by_cases hlt : q < 9223372036854775808
  · rw [toInt64_of_lt hq hlt]
    exact Int.floor_le q
  · rw [toInt64_of_le (not_lt.mp hlt)]
    exact le_trans (by norm_num) hq

theorem pow2_eq_zpow (e : Int) : pow2 e = (2 : ℚ) ^ e := by
  unfold pow2
  split
  · rename_i he
    obtain ⟨n, rfl⟩ := Int.eq_ofNat_of_zero_le he
    simp
  · rename_i he
    obtain ⟨n, hn⟩ := Int.eq_ofNat_of_zero_le (show 0 ≤ -e by omega)
    have hneg : e = -(n : Int) := by omega
    subst hneg
    simp

theorem roundEven_int (n : Int) : roundEven n = n := by
  unfold roundEven
  simp

theorem le_roundEven {k : Int} (h : (k : ℚ) ≤ q) : k ≤ roundEven q := by
  have hfloor : k ≤ q.num / q.den := by
    rw [← Rat.floor_def']
    exact Int.le_floor.mpr h
  unfold roundEven
  dsimp only
  split
  · exact hfloor
  · split
    · omega
    · split <;> omega

theorem exponent_nat {n : Nat} (hn : n < 9007199254740992) : exponent (n : ℚ) ≤ 0 := by
  have hlog : n.log2 ≤ 52 := by
    by_cases h0 : n = 0
    · subst h0; decide
    · have hlt : n.log2 < 53 := (Nat.log2_lt h0).mpr hn
      omega
  have h1 : Nat.log2 1 = 0 := by decide
  unfold exponent
  simp only [Rat.num_natCast, Rat.den_natCast, Int.natAbs_natCast, h1]
  split <;> omega

/-- An integer of 53 bits is kept. -/
theorem round_nat {n : Nat} (hn : n < 9007199254740992) : round (n : ℚ) = n := by
  unfold round
  split
  · rename_i h
    exact h.symm
  · have he := exponent_nat hn
    obtain ⟨k, hk⟩ := Int.eq_ofNat_of_zero_le (show 0 ≤ -exponent (n : ℚ) by omega)
    have hneg : exponent (n : ℚ) = -(k : Int) := by omega
    rw [hneg, pow2_eq_zpow]
    have hdiv : (n : ℚ) / 2 ^ (-(k : Int)) = ((n * 2 ^ k : Nat) : Int) := by
      simp [zpow_neg]
    rw [hdiv, roundEven_int]
    simp [zpow_neg]

/-- The exponent leaves no less than 53 bits. -/
theorem pow2_le (hq : 0 < q) : pow2 (exponent q + 52) ≤ q := by
  have hnum : 0 < q.num := Rat.num_pos.mpr hq
  have habs : |q| = q := abs_of_pos hq
  unfold exponent
  dsimp only
  rw [habs]
  split
  · rw [pow2_eq_zpow]
    have hlow : (2 : ℚ) ^ q.num.natAbs.log2 ≤ q.num := by
      have h := Nat.log2_self_le (n := q.num.natAbs) (by omega)
      have hcast : ((2 ^ q.num.natAbs.log2 : Nat) : ℚ) ≤ (q.num.natAbs : ℚ) := by exact_mod_cast h
      have habs' : (q.num.natAbs : ℚ) = q.num := by
        rw [Nat.cast_natAbs, abs_of_pos hnum]
      rw [habs'] at hcast
      simpa using hcast
    have hhigh : (q.den : ℚ) ≤ 2 ^ (q.den.log2 + 1) := by
      have h := Nat.lt_log2_self (n := q.den)
      have hcast : (q.den : ℚ) < ((2 ^ (q.den.log2 + 1) : Nat) : ℚ) := by exact_mod_cast h
      simpa using hcast.le
    have hsplit : q.num.natAbs.log2 - q.den.log2 - 52 - 1 + 52 =
        (q.num.natAbs.log2 : Int) - ((q.den.log2 + 1 : Nat) : Int) := by push_cast; ring
    rw [hsplit, zpow_sub₀ (by norm_num), zpow_natCast, zpow_natCast]
    calc (2 : ℚ) ^ q.num.natAbs.log2 / 2 ^ (q.den.log2 + 1) ≤ q.num / q.den := by
          apply div_le_div₀
          · exact_mod_cast hnum.le
          · exact hlow
          · exact_mod_cast q.den_pos
          · exact hhigh
      _ = q := Rat.num_div_den q
  · rename_i h
    exact not_lt.mp h

/-- Rounding does not cross a number that has the precision of the result. -/
theorem mul_zpow_le_round {m : Int} (hq : 0 < q) (h : m * (2 : ℚ) ^ exponent q ≤ q) :
    m * (2 : ℚ) ^ exponent q ≤ round q := by
  have hpos : (0 : ℚ) < 2 ^ exponent q := by positivity
  have hint : m ≤ roundEven (q / 2 ^ exponent q) := le_roundEven ((le_div_iff₀ hpos).mpr h)
  have hcast : (m : ℚ) ≤ roundEven (q / 2 ^ exponent q) := by exact_mod_cast hint
  unfold round
  rw [if_neg hq.ne', pow2_eq_zpow]
  exact mul_le_mul_of_nonneg_right hcast hpos.le

/-- Rounding does not cross a power of two. -/
theorem two_pow_le_round {k : Nat} (h : (2 : ℚ) ^ k ≤ q) : (2 : ℚ) ^ k ≤ round q := by
  have hq : 0 < q := lt_of_lt_of_le (by positivity) h
  have hle := pow2_le hq
  rw [pow2_eq_zpow] at hle
  by_cases he : exponent q ≤ k
  · obtain ⟨d, hd⟩ := Int.eq_ofNat_of_zero_le (show 0 ≤ (k : Int) - exponent q by omega)
    have heq : (((2 ^ d : Nat) : Int) : ℚ) * 2 ^ exponent q = 2 ^ k := by
      push_cast
      rw [← zpow_natCast, ← zpow_natCast, ← zpow_add₀ (by norm_num)]
      congr 1
      omega
    rw [← heq] at h ⊢
    exact mul_zpow_le_round hq h
  · have heq : (((2 ^ 52 : Nat) : Int) : ℚ) * 2 ^ exponent q = 2 ^ (exponent q + 52) := by
      rw [zpow_add₀ (by norm_num), mul_comm]
      norm_num
    have hbelow : (2 : ℚ) ^ k ≤ 2 ^ (exponent q + 52) := by
      rw [← zpow_natCast]
      exact zpow_le_zpow_right₀ (by norm_num) (by omega)
    rw [← heq] at hle hbelow
    exact le_trans hbelow (mul_zpow_le_round hq hle)

end Sonarr.Lib.Binary64
