import Mathlib.Logic.Function.Basic

/-! Registers that are written on purpose, and copies of them that grow old. -/
namespace Sonarr.Lib

/-- What was last written under each key, and how often. -/
structure Register (α : Type) where
  value : Nat → α
  writes : Nat → Nat

namespace Register
variable {α : Type} {r : Register α}

def write (r : Register α) (k : Nat) (a : α) : Register α :=
  ⟨Function.update r.value k a, Function.update r.writes k (r.writes k + 1)⟩

/-- A copy of what stood under a key after `seen` writes; it is right until the next one. -/
def Holds (r : Register α) (seen : Nat → Nat) (k : Nat) (a : α) : Prop :=
  seen k ≤ r.writes k ∧ (r.writes k = seen k → a = r.value k)

theorem value_write_self (r : Register α) (k : Nat) (a : α) : (r.write k a).value k = a := by
  simp [write]

theorem value_write_of_ne (h : j ≠ k) (a : α) : (r.write k a).value j = r.value j := by
  simp [write, Function.update_of_ne h]

/-- A copy that is made now. -/
theorem Holds.copy (h : a = r.value k) : r.Holds r.writes k a := ⟨Nat.le_refl _, fun _ => h⟩

theorem Holds.write (h : r.Holds seen k a) (j : Nat) (b : α) : (r.write j b).Holds seen k a := by
  unfold Holds Register.write
  by_cases hk : k = j
  · subst hk
    simp only [Function.update_self]
    have hle := h.1
    exact ⟨by omega, fun he => absurd he (by omega)⟩
  · simp only [Function.update_of_ne hk]
    exact h

theorem Holds.current (h : r.Holds seen k a) (hk : r.writes k = seen k) : a = r.value k := h.2 hk

end Register
end Sonarr.Lib
