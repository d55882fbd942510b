import Sonarr.Lib.Decimal
import Sonarr.Profiles.CustomFormats

namespace Sonarr.CustomFormats
open Lib Sonarr.Parser Profiles

/-- The texts before and after the first dash. -/
def halves (value : String) : Option (String × String) :=
  match value.toList.span (· != '-') with
  | (_, []) => none
  | (lo, _ :: hi) => some (Text.trimSpace (String.ofList lo), Text.trimSpace (String.ofList hi))

section Reading

/-- The value read so far is exact below 2 ^ 33, and does not fall below it any more. -/
def Tracks (n : Nat) (v : ℚ) : Prop :=
  (n < 8589934592 → v = n) ∧ (8589934592 ≤ n → 8589934592 ≤ v)

theorem Tracks.digit (h : Tracks n v) (hd : d ≤ 9) :
    Tracks (10 * n + d) (Binary64.round (Binary64.round (v * 10) + (d : ℚ))) := by
  by_cases hn : n < 8589934592
  · have hmul : Binary64.round (v * 10) = ((10 * n : Nat) : ℚ) := by
      rw [h.1 hn, ← Binary64.round_nat (show 10 * n < 9007199254740992 by omega)]
      congr 1
      push_cast
      ring
    have hadd : Binary64.round (Binary64.round (v * 10) + (d : ℚ)) = ((10 * n + d : Nat) : ℚ) := by
      rw [hmul, ← Binary64.round_nat (show 10 * n + d < 9007199254740992 by omega)]
      congr 1
      push_cast
      ring
    rw [hadd]
    refine ⟨fun _ => rfl, ?_⟩
    intro hbig
    exact_mod_cast hbig
  · have hv := h.2 (Nat.le_of_not_lt hn)
    have hpow : (2 : ℚ) ^ 33 = 8589934592 := by norm_num
    refine ⟨fun hsmall => absurd hsmall (by omega), fun _ => ?_⟩
    rw [← hpow] at hv ⊢
    apply Binary64.two_pow_le_round
    have hmul : (2 : ℚ) ^ 33 ≤ Binary64.round (v * 10) := by
      apply Binary64.two_pow_le_round
      linarith
    have hd : (0 : ℚ) ≤ d := by positivity
    linarith

end Reading

section Matching
variable (compile : Compile)

end Matching

end Sonarr.CustomFormats
