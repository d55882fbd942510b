import Mathlib.Algebra.Ring.Int.Defs
import Mathlib.Algebra.Ring.Nat
import Mathlib.Data.List.Basic

/-! Slices of a list with bounds in 64-bit integers. -/
namespace Sonarr.Lib.Slices

variable {α β : Type}

/-- The 64-bit integer that arithmetic wraps to. -/
def int64 (n : Int) : Int := Int.bmod n (2 ^ 64)

theorem int64_of_fits (lo : -2 ^ 63 ≤ n) (hi : n < 2 ^ 63) : int64 n = n := by
  unfold int64
  exact Int.bmod_eq_of_le (by omega) (by omega)

/-- A sum of two numbers that are not negative wraps to a negative one or not at all. -/
theorem int64_neg (lo : 2 ^ 63 ≤ n) (hi : n < 2 ^ 64) : int64 n < 0 := by
  unfold int64
  rw [Int.bmod_def]
  omega

theorem int64_lt (n : Int) : int64 n < 2 ^ 63 := by
  unfold int64
  rw [Int.bmod_def]
  omega

/-- `l[low:high]`, which panics when the bounds are out of range. -/
def slice (l : List α) (low high : Int) : Option (List α) :=
  if 0 ≤ low ∧ low ≤ high ∧ high ≤ l.length then
    some ((l.take high.toNat).drop low.toNat)
  else none

/-- The elements at the positions from `low` up to `high`, as far as there are any. -/
def positions (l : List α) (low high : Nat) : List α := (l.take high).drop low

theorem positions_of_length_le (h : l.length ≤ low) : positions l low high = ([] : List α) := by
  rw [positions, List.drop_eq_nil_iff]
  exact Nat.le_trans (List.length_take_le' _ _) h

theorem length_positions (l : List α) (low high : Nat) :
    (positions l low high).length = min high l.length - low := by
  simp [positions]

theorem take_append_positions (l : List α) (h : low ≤ high) :
    l.take low ++ positions l low high = l.take high := by
  have hlow : l.take low = (l.take high).take low := by
    rw [List.take_take, Nat.min_eq_left h]
  rw [hlow, positions, List.take_append_drop]

theorem slice_map (f : α → β) (l : List α) (low high : Int) :
    slice (l.map f) low high = (slice l low high).map (List.map f) := by
  unfold slice
  rw [List.length_map]
  split
  · simp [List.map_take, List.map_drop]
  · rfl

theorem positions_map (f : α → β) (l : List α) (low high : Nat) :
    positions (l.map f) low high = (positions l low high).map f := by
  simp [positions, List.map_take, List.map_drop]

end Sonarr.Lib.Slices
