import Mathlib.Data.List.Basic

/-! What is left of a list by a test or by a function that may have no value. -/
namespace Sonarr.Lib

variable {α β ρ : Type*}

/-- The first element with either property, if it has a given one, is the first with that. -/
theorem find?_of_either {p q : α → Bool} {l : List α} (hpq : ∀ x, p x = true → q x = true)
    (h : l.find? q = some x) (hx : p x = true) : l.find? p = some x := by
  obtain ⟨_, before, after, hl, hbefore⟩ := List.find?_eq_some_iff_append.mp h
  apply List.find?_eq_some_iff_append.mpr
  refine ⟨hx, before, after, hl, ?_⟩
  intro y hy
  have hno := hbefore y hy
  cases hp : p y with
  | true => simp [hpq y hp] at hno
  | false => rfl

theorem length_filterMap_le {f g : α → Option β} {l : List α}
    (h : ∀ a ∈ l, (g a).isSome → (f a).isSome) :
    (l.filterMap g).length ≤ (l.filterMap f).length := by
  induction l with
  | nil => simp
  | cons a l ih =>
    have hrest := ih (fun b hb => h b (List.mem_cons_of_mem _ hb))
    cases hg : g a with
    | none =>
      rw [List.filterMap_cons_none hg]
      cases hf : f a with
      | none => rwa [List.filterMap_cons_none hf]
      | some b => rw [List.filterMap_cons_some hf]; exact Nat.le_succ_of_le hrest
    | some c =>
      obtain ⟨b, hf⟩ := Option.isSome_iff_exists.mp (h a List.mem_cons_self (by rw [hg]; rfl))
      rw [List.filterMap_cons_some hg, List.filterMap_cons_some hf]
      exact Nat.succ_le_succ hrest

/-- A list that skips no element the other keeps is the same only if it agrees on each. -/
theorem filterMap_eq_iff {f g : α → Option β} {l : List α}
    (h : ∀ a ∈ l, (g a).isSome → (f a).isSome) :
    l.filterMap f = l.filterMap g ↔ ∀ a ∈ l, f a = g a := by
  refine ⟨?_, List.filterMap_congr⟩
  induction l with
  | nil => simp
  | cons a l ih =>
    have hrest : ∀ b ∈ l, (g b).isSome → (f b).isSome := fun b hb => h b (List.mem_cons_of_mem _ hb)
    intro heq
    cases hf : f a with
    | none =>
      have hg : g a = none := by
        cases hg : g a with
        | none => rfl
        | some c => simpa [hf, hg] using h a List.mem_cons_self
      rw [List.filterMap_cons_none hf, List.filterMap_cons_none hg] at heq
      simpa [hf, hg] using ih hrest heq
    | some b =>
      cases hg : g a with
      | none =>
        -- the other list would be too short
        rw [List.filterMap_cons_some hf, List.filterMap_cons_none hg] at heq
        have hlen := length_filterMap_le hrest
        rw [← heq, List.length_cons] at hlen
        omega
      | some c =>
        rw [List.filterMap_cons_some hf, List.filterMap_cons_some hg, List.cons.injEq] at heq
        simpa [hf, hg, heq.1] using ih hrest heq.2

theorem mapM_eq_filterMap {scan : ρ → Option α} {rows : List ρ}
    (h : ∀ r ∈ rows, (scan r).isSome = true) : rows.mapM scan = some (rows.filterMap scan) := by
  induction rows with
  | nil => rfl
  | cons r rows ih =>
    obtain ⟨a, ha⟩ := Option.isSome_iff_exists.mp (h r List.mem_cons_self)
    have hrest := ih (fun q hq => h q (List.mem_cons_of_mem _ hq))
    simp [List.mapM_cons, ha, hrest]

theorem isSome_of_mapM {scan : ρ → Option α} {rows : List ρ} (h : rows.mapM scan = some out) :
    ∀ r ∈ rows, (scan r).isSome = true := by
  induction rows generalizing out with
  | nil => simp
  | cons r rows ih =>
    rw [List.mapM_cons] at h
    obtain ⟨a, ha, h⟩ := Option.bind_eq_some_iff.mp h
    obtain ⟨rest, hrest, _⟩ := Option.bind_eq_some_iff.mp h
    intro q hq
    rcases List.mem_cons.mp hq with rfl | hq
    · simp [ha]
    · exact ih hrest q hq

end Sonarr.Lib
