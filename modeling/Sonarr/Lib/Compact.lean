import Mathlib.Data.List.Basic

/-! Filtering a slice into its own array, as `kept := xs[:0]` and appends to `kept` do while
`xs` is gone through. -/
namespace Sonarr.Lib.Compact

variable {α : Type}

/-- The array and how much of it is kept, after the element at `i` has been looked at. -/
def step (p : α → Bool) (s : List α × Nat) (i : Nat) : List α × Nat :=
  match s.1[i]? with
  | some x => if p x then (s.1.set s.2 x, s.2 + 1) else s
  | none => s

def loop (p : α → Bool) (xs : List α) (n : Nat) : List α × Nat := (List.range n).foldl (step p) (xs, 0)

def compact (p : α → Bool) (xs : List α) : List α :=
  (loop p xs xs.length).1.take (loop p xs xs.length).2

/-- What is still to be looked at has not been written over. -/
structure Inv (p : α → Bool) (xs : List α) (n : Nat) (s : List α × Nat) : Prop where
  room : s.2 ≤ n
  ahead : s.1.drop n = xs.drop n
  kept : s.1.take s.2 = (xs.take n).filter p

theorem inv_step {p : α → Bool} {xs : List α} {n : Nat} {s : List α × Nat} (h : Inv p xs n s)
    (hn : n < xs.length) : Inv p xs (n + 1) (step p s n) := by
  have hget : s.1[n]? = xs[n]? := by
    have := congrArg (fun l => l[0]?) h.ahead
    simpa using this
  have hdrop : s.1.drop (n + 1) = xs.drop (n + 1) := by
    have := congrArg (List.drop 1) h.ahead
    simpa [List.drop_drop] using this
  have htake : xs.take (n + 1) = xs.take n ++ [xs[n]] := by
    rw [List.take_add_one, List.getElem?_eq_getElem hn]
    rfl
  rw [step, hget, List.getElem?_eq_getElem hn]
  by_cases hp : p xs[n] = true
  · simp only [hp, if_true]
    have hlen : s.2 < s.1.length := by
      have := List.getElem?_eq_some_iff.mp (hget.trans (List.getElem?_eq_getElem hn))
      exact Nat.lt_of_le_of_lt h.room this.1
    refine ⟨Nat.succ_le_succ h.room, ?_, ?_⟩
    · rw [List.drop_set_of_lt (Nat.lt_succ_of_le h.room), hdrop]
    · rw [htake, List.filter_append, ← h.kept, List.take_add_one, List.take_set_of_le (Nat.le_refl _)]
      simp [hlen, hp]
  · simp only [hp, Bool.false_eq_true, if_false]
    refine ⟨Nat.le_succ_of_le h.room, hdrop, ?_⟩
    rw [htake, List.filter_append, ← h.kept]
    simp [hp]

theorem inv_loop (p : α → Bool) (xs : List α) {n : Nat} (hn : n ≤ xs.length) :
    Inv p xs n (loop p xs n) := by
  induction n with
  | zero => exact ⟨Nat.le_refl _, rfl, by simp [loop]⟩
  | succ n ih =>
    rw [loop, List.range_succ, List.foldl_append]
    exact inv_step (ih (Nat.le_of_succ_le hn)) hn

/-- It is the plain filter. -/
theorem compact_eq_filter (p : α → Bool) (xs : List α) : compact p xs = xs.filter p := by
  rw [compact, (inv_loop p xs (Nat.le_refl _)).kept, List.take_length]

end Sonarr.Lib.Compact
