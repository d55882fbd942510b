import Mathlib.Data.List.Induction
import Mathlib.Data.List.Sort

namespace Sonarr.Lib

variable {α β : Type} {less : α → α → Bool}

/-- A comparison whose "not after" is total and transitive, which is what a
stable sort asks of its callback. -/
structure WeakOrder (less : α → α → Bool) : Prop where
  asymm : ∀ a b, less a b = true → less b a = false
  trans : ∀ a b c, less b a = false → less c b = false → less c a = false

/-- The stable sort by `less`: elements of which neither comes before the other
keep their order. -/
def stableSort (less : α → α → Bool) (l : List α) : List α :=
  l.insertionSort (fun a b => less b a = false)

/-- `x` is the first listed element of `l` that no other element comes before. -/
def IsFirst (less : α → α → Bool) (l : List α) (x : α) : Prop :=
  ∃ before after, l = before ++ x :: after ∧
    (∀ y ∈ before, less x y = true) ∧ ∀ y ∈ after, less y x = false

theorem IsFirst.mem (h : IsFirst less l x) : x ∈ l := by
  obtain ⟨before, after, rfl, _, _⟩ := h
  simp

theorem IsFirst.unbeaten (hw : WeakOrder less) (h : IsFirst less l x) :
    ∀ y ∈ l, less y x = false := by
  obtain ⟨before, after, rfl, hb, ha⟩ := h
  intro y hy
  rcases List.mem_append.mp hy with hy | hy
  · exact hw.asymm x y (hb y hy)
  · rcases List.mem_cons.mp hy with rfl | hy
    · cases hs : less y y with
      | false => rfl
      | true => exact absurd hs (by simp [hw.asymm y y hs])
    · exact ha y hy

/-- Two elements cannot both be first. -/
theorem IsFirst.unique (hw : WeakOrder less) (hx : IsFirst less l x) (hy : IsFirst less l y) :
    x = y := by
  have ux := hx.unbeaten hw
  have uy := hy.unbeaten hw
  obtain ⟨bx, ax, hlx, hbx, _⟩ := hx
  obtain ⟨bys, ays, hly, hby, _⟩ := hy
  rcases List.append_eq_append_iff.mp (hlx.symm.trans hly) with ⟨m, hm, ht⟩ | ⟨m, hm, ht⟩
  · cases m with
    | nil => exact (List.cons.inj ht).1
    | cons z m =>
      simp only [List.cons_append, List.cons.injEq] at ht
      have := hby x (by simp [hm, ht.1])
      simp [ux y (by simp [hly])] at this
  · cases m with
    | nil => exact (List.cons.inj ht).1.symm
    | cons z m =>
      simp only [List.cons_append, List.cons.injEq] at ht
      have := hbx y (by simp [hm, ht.1])
      simp [uy x (by simp [hlx])] at this

theorem head_orderedInsert (r : α → α → Prop) [DecidableRel r] (a : α) (l : List α) :
    (l.orderedInsert r a).head? = match l.head? with
      | none => some a
      | some b => if r a b then some a else some b := by
  cases l with
  | nil => rfl
  | cons b l =>
    simp only [List.orderedInsert_cons, List.head?_cons]
    split <;> rfl

/-- The element a stable sort puts first is the first unbeaten one. -/
theorem head_stableSort (hw : WeakOrder less) (l : List α)
    (h : (stableSort less l).head? = some x) : IsFirst less l x := by
  induction l generalizing x with
  | nil => simp [stableSort] at h
  | cons a l ih =>
    rw [stableSort, List.insertionSort_cons, head_orderedInsert] at h
    cases hm : (l.insertionSort (fun a b => less b a = false)).head? with
    | none =>
      have hl : l = [] := by
        have hp := List.perm_insertionSort (fun a b => less b a = false) l
        rw [List.head?_eq_none_iff.mp hm] at hp
        exact hp.symm.eq_nil
      simp only [hm, Option.some.injEq] at h
      subst h hl
      exact ⟨[], [], rfl, by simp, by simp⟩
    | some b =>
      have hb := ih hm
      simp only [hm] at h
      split at h
      · rename_i hba
        cases h
        exact ⟨[], l, rfl, by simp, fun y hy => hw.trans a b y hba (hb.unbeaten hw y hy)⟩
      · rename_i hba
        cases h
        obtain ⟨before, after, rfl, hbef, haft⟩ := hb
        refine ⟨a :: before, after, rfl, ?_, haft⟩
        intro y hy
        rcases List.mem_cons.mp hy with rfl | hy
        · simpa using hba
        · exact hbef y hy

theorem head_stableSort_isSome (less : α → α → Bool) (hl : l ≠ []) :
    ∃ x, (stableSort less l).head? = some x := by
  cases hm : (stableSort less l).head? with
  | some x => exact ⟨x, rfl⟩
  | none =>
    have hp := List.perm_insertionSort (fun a b => less b a = false) l
    rw [stableSort] at hm
    rw [List.head?_eq_none_iff.mp hm] at hp
    exact absurd hp.symm.eq_nil hl

theorem head_stableSort_iff (hw : WeakOrder less) (l : List α) :
    (stableSort less l).head? = some x ↔ IsFirst less l x := by
  refine ⟨head_stableSort hw l, fun hx => ?_⟩
  obtain ⟨y, hy⟩ := head_stableSort_isSome less (List.ne_nil_of_mem hx.mem)
  rw [hy, (head_stableSort hw l hy).unique hw hx]

/-- Sorting the images is the image of sorting. -/
theorem map_stableSort (f : α → β) (less : β → β → Bool) (l : List α) :
    (stableSort (fun a b => less (f a) (f b)) l).map f = stableSort less (l.map f) :=
  List.map_insertionSort _ _ f l (fun _ _ _ _ => Iff.rfl)

theorem perm_stableSort (less : α → α → Bool) (l : List α) : (stableSort less l).Perm l :=
  List.perm_insertionSort _ l

/-- A relation that holds along the list breaks the ties of the sorted one. -/
theorem pairwise_stableSort (hw : WeakOrder less) {R : α → α → Prop} (h : l.Pairwise R) :
    (stableSort less l).Pairwise
      (fun a b => less a b = true ∨ (less b a = false ∧ R a b)) := by
  induction l with
  | nil => exact .nil
  | cons a l ih =>
    obtain ⟨ha, hl⟩ := List.pairwise_cons.mp h
    have hmem : ∀ x ∈ stableSort less l, R a x :=
      fun x hx => ha x ((perm_stableSort less l).mem_iff.mp hx)
    have hsort := ih hl
    change ((stableSort less l).orderedInsert _ a).Pairwise _
    generalize stableSort less l = m at hmem hsort
    induction m with
    | nil => simp
    | cons b m ihm =>
      obtain ⟨hb, hm⟩ := List.pairwise_cons.mp hsort
      rw [List.orderedInsert_cons]
      split
      · rename_i hba
        refine List.pairwise_cons.mpr ⟨fun x hx => .inr ⟨?_, hmem x hx⟩, hsort⟩
        rcases List.mem_cons.mp hx with rfl | hx
        · exact hba
        · apply hw.trans a b x hba
          rcases hb x hx with hbx | hbx
          · exact hw.asymm b x hbx
          · exact hbx.1
      · rename_i hba
        refine List.pairwise_cons.mpr ⟨fun x hx => ?_, ihm (fun x hx => hmem x (by simp [hx])) hm⟩
        rcases (List.mem_orderedInsert _).mp hx with rfl | hx
        · exact .inl (by simpa using hba)
        · exact hb x hx

theorem sorted_stableSort (hw : WeakOrder less) (l : List α) :
    (stableSort less l).Pairwise (fun a b => less b a = false) := by
  apply (pairwise_stableSort hw (R := fun _ _ => True) (List.pairwise_of_forall (by simp))).imp
  intro a b h
  rcases h with hab | hba
  · exact hw.asymm a b hab
  · exact hba.1

/-- What compares strictly stands in that order wherever both stood before. -/
theorem stableSort_before {i j : Nat} (hw : WeakOrder less) (hab : less a b = true)
    (hi : (stableSort less l)[i]? = some a) (hj : (stableSort less l)[j]? = some b) : i < j := by
  have hsorted := sorted_stableSort hw l
  obtain ⟨hi', rfl⟩ := List.getElem?_eq_some_iff.mp hi
  obtain ⟨hj', rfl⟩ := List.getElem?_eq_some_iff.mp hj
  apply Nat.lt_of_not_le
  intro hji
  rcases Nat.lt_or_eq_of_le hji with hlt | rfl
  · have := List.pairwise_iff_getElem.mp hsorted j i hj' hi' hlt
    simp [hab] at this
  · simp [hw.asymm _ _ hab] at hab

section Related
variable {R : α → β → Prop} {less' : β → β → Bool}

theorem forall₂_orderedInsert (hR : ∀ a b c d, R a b → R c d → less a c = less' b d)
    (h : List.Forall₂ R as bs) (hab : R a b) :
    List.Forall₂ R (as.orderedInsert (fun x y => less y x = false) a)
      (bs.orderedInsert (fun x y => less' y x = false) b) := by
  induction h with
  | nil => exact .cons hab .nil
  | @cons c d cs ds hcd hrest ih =>
    rw [List.orderedInsert_cons, List.orderedInsert_cons, hR c d a b hcd hab]
    by_cases hless : less' d b = false
    · rw [if_pos hless, if_pos hless]
      exact .cons hab (.cons hcd hrest)
    · rw [if_neg hless, if_neg hless]
      exact .cons hcd ih

/-- Related lists stay related when they are sorted by comparisons that agree. -/
theorem forall₂_stableSort (hR : ∀ a b c d, R a b → R c d → less a c = less' b d)
    (h : List.Forall₂ R as bs) : List.Forall₂ R (stableSort less as) (stableSort less' bs) := by
  unfold stableSort
  induction h with
  | nil => exact .nil
  | cons hab _ ih => exact forall₂_orderedInsert hR ih hab

end Related

/-- What a sort that need not be stable may do: any order of the elements in
which no element comes before one that stands earlier. -/
structure Arrangement (less : α → α → Bool) where
  run : List α → List α
  perm : ∀ l, (run l).Perm l
  sorted : ∀ l, (run l).Pairwise (fun a b => less b a = false)

def Arrangement.stable (hw : WeakOrder less) : Arrangement less :=
  ⟨stableSort less, perm_stableSort less, sorted_stableSort hw⟩

end Sonarr.Lib
