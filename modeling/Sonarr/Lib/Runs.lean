import Mathlib.Data.List.TakeWhile

/-! Maximal runs of a list, and their joining with single separators. -/
namespace Sonarr.Lib

variable {α : Type}

/-- The maximal runs of elements that satisfy `p`: what stands between the others,
where it is not empty. -/
def runs (p : α → Bool) (l : List α) : List (List α) :=
  (l.splitOnP (fun a => !p a)).filter (fun r => !r.isEmpty)

@[simp] theorem runs_nil (p : α → Bool) : runs p [] = [] := by
  simp [runs]

theorem runs_append_cons {p : α → Bool} {a : α} (ha : p a = false) (l m : List α) :
    runs p (l ++ a :: m) = runs p l ++ runs p m := by
  unfold runs
  rw [List.splitOnP_append_cons l m (by simp [ha]), List.filter_append]

theorem runs_cons {p : α → Bool} {a : α} (ha : p a = false) (l : List α) :
    runs p (a :: l) = runs p l := by
  simpa using runs_append_cons ha [] l

theorem runs_concat {p : α → Bool} {a : α} (ha : p a = false) (l : List α) :
    runs p (l ++ [a]) = runs p l := by
  simpa using runs_append_cons ha l []

theorem runs_eq_singleton {p : α → Bool} {w : List α} (hne : w ≠ []) (hw : ∀ a ∈ w, p a = true) :
    runs p w = [w] := by
  have hsplit : w.splitOnP (fun a => !p a) = [w] :=
    List.splitOnP_eq_singleton (fun a ha => by simp [hw a ha])
  simp [runs, hsplit, hne]

theorem runs_eq_nil {p : α → Bool} (h : ∀ a ∈ l, p a = false) : runs p l = [] := by
  induction l with
  | nil => exact runs_nil p
  | cons a l ih =>
    rw [runs_cons (h a List.mem_cons_self)]
    exact ih (fun b hb => h b (List.mem_cons_of_mem _ hb))

/-- What surrounds a list without belonging to a run can be left out. -/
theorem runs_surrounded {p : α → Bool} {a b : List α} (ha : ∀ x ∈ a, p x = false)
    (hb : ∀ x ∈ b, p x = false) (l : List α) : runs p (a ++ l ++ b) = runs p l := by
  have hright : runs p (l ++ b) = runs p l := by
    cases b with
    | nil => rw [List.append_nil]
    | cons x b =>
      rw [runs_append_cons (hb x List.mem_cons_self),
        runs_eq_nil (fun y hy => hb y (List.mem_cons_of_mem _ hy)), List.append_nil]
  rw [List.append_assoc]
  induction a with
  | nil => exact hright
  | cons x a ih =>
    rw [List.cons_append, runs_cons (ha x List.mem_cons_self)]
    exact ih (fun y hy => ha y (List.mem_cons_of_mem _ hy))

/-- A list is empty, starts with a separator, is one run or starts with a run that
a separator ends. -/
theorem runs_induction {motive : List α → Prop} (p : α → Bool) (nil : motive [])
    (skip : ∀ a l, p a = false → motive l → motive (a :: l))
    (last : ∀ w, w ≠ [] → (∀ a ∈ w, p a = true) → motive w)
    (run : ∀ w a l, w ≠ [] → (∀ a ∈ w, p a = true) → p a = false → motive l →
      motive (w ++ a :: l)) (l : List α) : motive l := by
  induction h : l.length using Nat.strongRecOn generalizing l with
  | ind n ih =>
    subst h
    cases l with
    | nil => exact nil
    | cons a l =>
      cases ha : p a with
      | false => exact skip a l ha (ih l.length (by simp) l rfl)
      | true =>
        have hw : ∀ b ∈ (a :: l).takeWhile p, p b = true := fun b hb => List.mem_takeWhile_imp hb
        have hne : (a :: l).takeWhile p ≠ [] := by simp [ha]
        rw [← List.takeWhile_append_dropWhile (p := p) (l := a :: l)]
        cases hd : (a :: l).dropWhile p with
        | nil =>
          rw [List.append_nil]
          exact last _ hne hw
        | cons b m =>
          have hb : p b = false := by
            have := List.head?_dropWhile_not p (a :: l)
            simpa [hd] using this
          have hlen : m.length < (a :: l).length := by
            have := (List.dropWhile_sublist p (l := a :: l)).length_le
            rw [hd] at this
            exact this
          exact run _ b m hne hw hb (ih m.length hlen m rfl)

theorem mem_runs {p : α → Bool} (h : r ∈ runs p l) : r ≠ [] ∧ ∀ a ∈ r, p a = true := by
  induction l using runs_induction p with
  | nil => simp at h
  | skip a l ha ih =>
    rw [runs_cons ha] at h
    exact ih h
  | last w hne hw =>
    rw [runs_eq_singleton hne hw, List.mem_singleton] at h
    exact h ▸ ⟨hne, hw⟩
  | run w a l hne hw ha ih =>
    rw [runs_append_cons ha, runs_eq_singleton hne hw, List.singleton_append, List.mem_cons] at h
    rcases h with rfl | h
    · exact ⟨hne, hw⟩
    · exact ih h

theorem flatten_runs (p : α → Bool) (l : List α) : (runs p l).flatten = l.filter p := by
  induction l using runs_induction p with
  | nil => simp
  | skip a l ha ih => simp [runs_cons ha, ha, ih]
  | last w hne hw => simp [runs_eq_singleton hne hw, List.filter_eq_self.mpr hw]
  | run w a l hne hw ha ih =>
    simp [runs_append_cons ha, runs_eq_singleton hne hw, List.filter_eq_self.mpr hw, ha, ih]

/-- A map that respects `p` maps the runs. -/
theorem runs_map {β : Type} {p : α → Bool} {q : β → Bool} {f : α → β}
    (hf : ∀ a, q (f a) = p a) (l : List α) : runs q (l.map f) = (runs p l).map (List.map f) := by
  induction l using runs_induction p with
  | nil => simp
  | skip a l ha ih =>
    have hfa : q (f a) = false := by rw [hf, ha]
    simp [runs_cons ha, runs_cons hfa, ih]
  | last w hne hw =>
    have hfw : ∀ b ∈ w.map f, q b = true := by
      simpa [hf] using hw
    rw [runs_eq_singleton hne hw, runs_eq_singleton (by simpa using hne) hfw]
    rfl
  | run w a l hne hw ha ih =>
    have hfw : ∀ b ∈ w.map f, q b = true := by
      simpa [hf] using hw
    have hfa : q (f a) = false := by rw [hf, ha]
    rw [List.map_append, List.map_cons, runs_append_cons hfa, runs_append_cons ha,
      runs_eq_singleton hne hw, runs_eq_singleton (by simpa using hne) hfw, ih]
    rfl

/-- Runs that are joined are found again. -/
theorem runs_intercalate {p : α → Bool} {sep : α} (hsep : p sep = false)
    (h : ∀ r ∈ rs, r ≠ [] ∧ ∀ a ∈ r, p a = true) : runs p ([sep].intercalate rs) = rs := by
  induction rs with
  | nil => simp
  | cons r rs ih =>
    obtain ⟨hne, hr⟩ := h r List.mem_cons_self
    have hrest := ih (fun s hs => h s (List.mem_cons_of_mem _ hs))
    cases rs with
    | nil => simp [runs_eq_singleton hne hr]
    | cons s rs =>
      rw [List.intercalate_cons_cons, List.append_assoc, List.singleton_append,
        runs_append_cons hsep, runs_eq_singleton hne hr, hrest, List.singleton_append]

theorem intercalate_concat (sep : α) (rs : List (List α)) (w : List α) :
    [sep].intercalate (rs ++ [w]) = rs.flatMap (fun r => r ++ [sep]) ++ w := by
  induction rs with
  | nil => simp
  | cons r rs ih =>
    rw [List.cons_append, List.intercalate_cons_of_ne_nil (by simp), ih]
    simp

theorem mem_intercalate {sep : α} (h : a ∈ [sep].intercalate rs) : a = sep ∨ ∃ r ∈ rs, a ∈ r := by
  rcases List.eq_nil_or_concat rs with rfl | ⟨rs, w, rfl⟩
  · simp at h
  · rw [List.concat_eq_append, intercalate_concat, List.mem_append] at h
    rcases h with h | h
    · obtain ⟨r, hr, ha⟩ := List.mem_flatMap.mp h
      rcases List.mem_append.mp ha with ha | ha
      · exact Or.inr ⟨r, by simp [hr], ha⟩
      · exact Or.inl (List.mem_singleton.mp ha)
    · exact Or.inr ⟨w, by simp, h⟩

/-- Joining the runs makes nothing longer. -/
theorem length_intercalate_runs_le (p : α → Bool) (sep : α) (l : List α) :
    ([sep].intercalate (runs p l)).length ≤ l.length := by
  induction l using runs_induction p with
  | nil => simp
  | skip a l ha ih =>
    rw [runs_cons ha, List.length_cons]
    omega
  | last w hne hw => simp [runs_eq_singleton hne hw]
  | run w a l hne hw ha ih =>
    rw [runs_append_cons ha, runs_eq_singleton hne hw, List.singleton_append]
    cases hl : runs p l with
    | nil => simp
    | cons r rs =>
      rw [hl] at ih
      rw [List.intercalate_cons_cons]
      simp only [List.length_append, List.length_cons, List.length_nil]
      omega

/-- No separator at the ends and no two in a row. -/
structure SingleSpaced (sep : α) (l : List α) : Prop where
  head_ne : l.head? ≠ some sep
  last_ne : l.getLast? ≠ some sep
  no_pair : ¬ [sep, sep] <:+: l

/-- Joined runs are the shortest list with these runs, so that no separator can be left out. -/
theorem SingleSpaced.of_intercalate {p : α → Bool} {sep : α} (hsep : p sep = false)
    (h : [sep].intercalate (runs p l) = l) : SingleSpaced sep l := by
  have hshort : ∀ m, runs p m = runs p l → l.length ≤ m.length := by
    intro m hm
    have := length_intercalate_runs_le p sep m
    rwa [hm, h] at this
  refine ⟨?_, ?_, ?_⟩
  · intro hhead
    obtain ⟨m, rfl⟩ := List.head?_eq_some_iff.mp hhead
    have := hshort m (runs_cons hsep m).symm
    rw [List.length_cons] at this
    omega
  · intro hlast
    obtain ⟨m, rfl⟩ := List.getLast?_eq_some_iff.mp hlast
    have := hshort m (runs_concat hsep m).symm
    rw [List.length_append, List.length_singleton] at this
    omega
  · intro hpair
    obtain ⟨a, b, rfl⟩ := hpair
    have := hshort (a ++ sep :: b) (by
      rw [List.append_assoc, List.cons_append, List.singleton_append, runs_append_cons hsep,
        runs_append_cons hsep, runs_cons hsep])
    simp only [List.length_append, List.length_cons, List.length_nil] at this
    omega

/-- A single-spaced list is its runs, joined. -/
theorem SingleSpaced.intercalate_runs {p : α → Bool} {sep : α} (hp : ∀ a, p a = false ↔ a = sep)
    (h : SingleSpaced sep l) : [sep].intercalate (runs p l) = l := by
  induction l using runs_induction p with
  | nil => simp
  | skip a l ha ih =>
    obtain rfl := (hp a).mp ha
    exact absurd rfl h.head_ne
  | last w hne hw => simp [runs_eq_singleton hne hw]
  | run w a l hne hw ha ih =>
    obtain rfl := (hp a).mp ha
    have hl : l ≠ [] := by
      intro he
      exact h.last_ne (by simp [he])
    have hrest : SingleSpaced a l := by
      refine ⟨?_, ?_, ?_⟩
      · intro hhead
        obtain ⟨m, rfl⟩ := List.head?_eq_some_iff.mp hhead
        exact h.no_pair ⟨w, m, by simp⟩
      · intro hlast
        obtain ⟨m, rfl⟩ := List.getLast?_eq_some_iff.mp hlast
        exact h.last_ne (List.getLast?_eq_some_iff.mpr ⟨w ++ a :: m, by simp⟩)
      · intro hpair
        exact h.no_pair (hpair.trans (List.IsSuffix.isInfix ⟨w ++ [a], by simp⟩))
    have hruns : runs p l ≠ [] := by
      intro he
      have := ih hrest
      rw [he] at this
      exact hl this.symm
    rw [runs_append_cons ha, runs_eq_singleton hne hw, List.singleton_append,
      List.intercalate_cons_of_ne_nil hruns, ih hrest, List.append_assoc, List.singleton_append]

end Sonarr.Lib
