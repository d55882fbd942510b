import Mathlib.Logic.Function.Basic

namespace Sonarr.Lib

variable {σ ι : Type} {step : σ → ι → Option σ} {guard : σ → ι → Prop}

/-- A finite run in which every step meets `guard` in the state it leaves. The
plain runs of a machine are those of the guard that asks for nothing. -/
inductive Path (step : σ → ι → Option σ) (guard : σ → ι → Prop) : σ → List ι → σ → Prop
  | nil : Path step guard s [] s
  | cons (ok : guard s a) (next : step s a = some t) (rest : Path step guard t as u) :
      Path step guard s (a :: as) u

/-- No condition on the steps. -/
def Free (_ : σ) (_ : ι) : Prop := True

/-- Executes a list of steps, stopping at the first one that is refused. -/
def exec (step : σ → ι → Option σ) : σ → List ι → Option σ
  | s, [] => some s
  | s, a :: as => match step s a with
    | none => none
    | some t => exec step t as

/-- An execution is a path of any guard that its steps meet in every state. -/
theorem Path.of_exec_guarded (hg : ∀ a ∈ as, ∀ s, guard s a) (h : exec step s as = some t) :
    Path step guard s as t := by
  induction as generalizing s with
  | nil => cases h; exact .nil
  | cons a as ih =>
    simp only [exec] at h
    split at h
    · cases h
    · rename_i u hu
      exact .cons (hg a (by simp) s) hu (ih (fun b hb => hg b (by simp [hb])) h)

theorem Path.of_exec (h : exec step s as = some t) : Path step Free s as t :=
  .of_exec_guarded (fun _ _ _ => trivial) h

/-- An execution whose steps are checked as they are taken is a path of what the check shows. -/
theorem Path.of_exec_checked {check : σ → ι → Bool} (hcheck : ∀ s a, check s a = true → guard s a)
    (h : exec (fun s a => if check s a then step s a else none) s as = some t) :
    Path step guard s as t := by
  induction as generalizing s with
  | nil => cases h; exact .nil
  | cons a as ih =>
    simp only [exec] at h
    split at h
    · cases h
    · rename_i u hu
      rw [Option.ite_none_right_eq_some] at hu
      exact .cons (hcheck s a hu.1) hu.2 (ih h)

/-- A run can go on with one more step. -/
theorem Path.snoc (h : Path step guard s as t) (ok : guard t a) (next : step t a = some u) :
    Path step guard s (as ++ [a]) u := by
  induction h with
  | nil => exact .cons ok next .nil
  | cons ok' next' _ ih => exact .cons ok' next' (ih ok next)

/-- The steps of an execution, each with the state it leaves. -/
def transitions (step : σ → ι → Option σ) : σ → List ι → List (σ × ι)
  | _, [] => []
  | s, a :: as => (s, a) :: match step s a with
    | none => []
    | some t => transitions step t as

theorem Path.transitions_guard (h : Path step guard s as t) :
    ∀ x ∈ transitions step s as, guard x.1 x.2 := by
  induction h with
  | nil => simp [transitions]
  | cons ok next _ ih =>
    rw [transitions, next, List.forall_mem_cons]
    exact ⟨ok, ih⟩

/-- What a guarded step preserves, a guarded run preserves. -/
theorem Path.invariant {P : σ → Prop}
    (keep : ∀ s a t, guard s a → step s a = some t → P s → P t)
    (h : Path step guard s as t) (hs : P s) : P t := by
  induction h with
  | nil => exact hs
  | cons ok next _ ih => exact ih (keep _ _ _ ok next hs)

end Sonarr.Lib
