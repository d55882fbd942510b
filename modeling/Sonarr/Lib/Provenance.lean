import Sonarr.Lib.Machine

/-! Where a fact about the last state of a run comes from. -/
namespace Sonarr.Lib

variable {σ ι : Type} {step : σ → ι → Option σ} {guard : σ → ι → Prop} {P : σ → Prop}

/-- The steps that leave states of `P`. -/
def Within (guard : σ → ι → Prop) (P : σ → Prop) (s : σ) (a : ι) : Prop := guard s a ∧ P s

theorem Path.of_within (path : Path step (Within guard P) s as t) (ht : P t) : P s := by
  cases path with
  | nil => exact ht
  | cons hin _ _ => exact hin.2

/-- What holds at the end held all along, or a step made it true and it has held since. -/
theorem Path.cause (path : Path step guard s as t) (ht : P t) :
    Path step (Within guard P) s as t ∨
    ∃ before a after u v, as = before ++ a :: after ∧ Path step guard s before u ∧ guard u a ∧
      step u a = some v ∧ ¬ P u ∧ P v ∧ Path step (Within guard P) v after t := by
  induction path with
  | nil => exact .inl .nil
  | @cons s a v as t ok next _ ih =>
    obtain halways | ⟨before, b, after, u, w, rfl, hbefore, hb⟩ := ih ht
    · by_cases hs : P s
      · exact .inl (.cons ⟨ok, hs⟩ next halways)
      · exact .inr ⟨[], a, as, s, v, rfl, .nil, ok, next, hs, halways.of_within ht, halways⟩
    · exact .inr ⟨a :: before, b, after, u, w, rfl, .cons ok next hbefore, hb⟩

/-- What did not hold at the beginning was made true. -/
theorem Path.cause_of_not (path : Path step guard s as t) (hs : ¬ P s) (ht : P t) :
    ∃ before a after u v, as = before ++ a :: after ∧ Path step guard s before u ∧ guard u a ∧
      step u a = some v ∧ ¬ P u ∧ P v ∧ Path step (Within guard P) v after t := by
  obtain halways | hcause := path.cause ht
  · exact absurd (halways.of_within ht) hs
  · exact hcause

/-- No step was taken that would have made an end of it. -/
theorem Path.notMem_of_within (path : Path step (Within guard P) s as t) (ht : P t)
    (hend : ∀ u v, step u a = some v → ¬ P v) : a ∉ as := by
  induction path with
  | nil => simp
  | @cons s b v as t _ next rest ih =>
    rw [List.mem_cons, not_or]
    refine ⟨fun heq => ?_, ih ht⟩
    subst heq
    exact hend s v next (rest.of_within ht)

/-- The steps of a run leave states of its invariant. -/
theorem Path.transitions_invariant
    (keep : ∀ s a t, guard s a → step s a = some t → P s → P t)
    (path : Path step guard s as t) (hs : P s) : ∀ x ∈ transitions step s as, P x.1 := by
  induction path with
  | nil => simp [transitions]
  | cons ok next _ ih =>
    rw [transitions, next, List.forall_mem_cons]
    exact ⟨hs, ih (keep _ _ _ ok next hs)⟩

end Sonarr.Lib
