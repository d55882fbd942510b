import Mathlib.Data.List.Nodup
import Mathlib.Order.Lattice

/-! A list read page by page, each page beginning after the key that ended the last one. -/
namespace Sonarr.Lib.Pages

variable {α κ : Type} [LinearOrder κ] {key : α → κ} {limit : Nat}

/-- What is left after a key. -/
def beyond (key : α → κ) (k : κ) (l : List α) : List α := l.filter (fun x => k < key x)

/-- All pages together, read until one is the last; `none` when `fuel` ends before. -/
def walk (key : α → κ) (limit : Nat) : Nat → List α → Option (List α)
  | 0, _ => none
  | fuel + 1, l =>
    if limit < l.length then
      match (l.take limit).getLast? with
      | none => none
      | some last => (walk key limit fuel (beyond key (key last) l)).map (fun r => l.take limit ++ r)
    else some l

/-- The element that ends a page is greater than all before it and less than all after it,
unless the list ends with it. -/
def InStep (key : α → κ) (limit : Nat) (l : List α) : Prop :=
  ∀ before x after, l = before ++ x :: after → limit ∣ before.length + 1 → after ≠ [] →
    (∀ y ∈ before, key y < key x) ∧ ∀ y ∈ after, key x < key y

/-- The first page of a list that has another one. -/
theorem exists_page (hpos : 0 < limit) {l : List α} (h : limit < l.length) :
    ∃ before last rest, l = before ++ last :: rest ∧ before.length + 1 = limit ∧ rest ≠ [] ∧
      l.take limit = before ++ [last] := by
  have hne : l.take limit ≠ [] := by
    rw [Ne, List.take_eq_nil_iff, not_or]
    exact ⟨by omega, List.ne_nil_of_length_pos (by omega)⟩
  refine ⟨(l.take limit).dropLast, (l.take limit).getLast hne, l.drop limit, ?_, ?_, ?_, ?_⟩
  · rw [← List.singleton_append, ← List.append_assoc, List.dropLast_append_getLast,
      List.take_append_drop]
  · simp
    omega
  · intro hnil
    have := congrArg List.length hnil
    simp at this
    omega
  · exact (List.dropLast_append_getLast hne).symm

/-- A page that is not the last one, cut off. -/
theorem take_page (last : α) (hlen : before.length + 1 = limit) (hrest : rest ≠ []) :
    limit < (before ++ last :: rest).length ∧
      (before ++ last :: rest).take limit = before ++ [last] := by
  have hpos := List.length_pos_of_ne_nil hrest
  constructor
  · simp
    omega
  · rw [← hlen, List.take_append, List.take_of_length_le (by omega)]
    simp

/-- One page, and the walk over what is left after it. -/
theorem walk_page (hlen : before.length + 1 = limit) (hrest : rest ≠ []) :
    walk key limit (fuel + 1) (before ++ last :: rest) =
      (walk key limit fuel (beyond key (key last) (before ++ last :: rest))).map
        (fun r => before ++ last :: r) := by
  obtain ⟨hlong, htake⟩ := take_page last hlen hrest
  rw [walk, if_pos hlong, htake]
  simp

theorem walk_short (h : l.length ≤ limit) : walk key limit (fuel + 1) l = some l := by
  rw [walk, if_neg (Nat.not_lt.mpr h)]

/-- The pages that follow begin with fewer elements. -/
theorem length_beyond_lt (key : α → κ) (h : x ∈ l) :
    (beyond key (key x) l).length < l.length := by
  refine List.length_filter_lt_length_iff_exists.mpr ⟨x, h, ?_⟩
  simp

theorem walk_isSome (key : α → κ) (hpos : 0 < limit) (h : l.length < fuel) :
    ∃ r, walk key limit fuel l = some r := by
  induction fuel generalizing l with
  | zero => omega
  | succ fuel ih =>
    by_cases hlong : limit < l.length
    · obtain ⟨before, last, rest, rfl, hlen, hrest, _⟩ := exists_page hpos hlong
      have hfewer := length_beyond_lt key (show last ∈ before ++ last :: rest by simp)
      have hfuel : (beyond key (key last) (before ++ last :: rest)).length < fuel := by omega
      obtain ⟨r, hr⟩ := ih hfuel
      exact ⟨_, by rw [walk_page hlen hrest, hr]; rfl⟩
    · exact ⟨l, walk_short (Nat.not_lt.mp hlong)⟩

theorem mem_of_mem_walk (hpos : 0 < limit) (h : walk key limit fuel l = some r) (hx : x ∈ r) :
    x ∈ l := by
  induction fuel generalizing l r with
  | zero => cases h
  | succ fuel ih =>
    by_cases hlong : limit < l.length
    · obtain ⟨before, last, rest, rfl, hlen, hrest, _⟩ := exists_page hpos hlong
      rw [walk_page hlen hrest] at h
      obtain ⟨r', hr', rfl⟩ := Option.map_eq_some_iff.mp h
      simp only [List.mem_append, List.mem_cons] at hx ⊢
      obtain hx | hx | hx := hx
      · exact .inl hx
      · exact .inr (.inl hx)
      · simpa using List.mem_of_mem_filter (ih hr' hx)
    · rw [walk_short (Nat.not_lt.mp hlong)] at h
      cases h
      exact hx

/-- The first element is always received. -/
theorem head_mem_walk (hpos : 0 < limit) (h : walk key limit fuel (x :: l) = some r) : x ∈ r := by
  cases fuel with
  | zero => cases h
  | succ fuel =>
    by_cases hlong : limit < (x :: l).length
    · obtain ⟨before, last, rest, heq, hlen, hrest, _⟩ := exists_page hpos hlong
      rw [heq, walk_page hlen hrest] at h
      obtain ⟨r', _, rfl⟩ := Option.map_eq_some_iff.mp h
      cases before with
      | nil => simp [(List.cons.inj heq).1]
      | cons y before => simp [(List.cons.inj heq).1]
    · rw [walk_short (Nat.not_lt.mp hlong)] at h
      cases h
      simp

theorem inStep_short {l : List α} (h : l.length ≤ limit) :
    InStep key limit l := by
  intro before x after heq hdvd hne
  have hle := Nat.le_of_dvd (by omega) hdvd
  have := List.length_pos_of_ne_nil hne
  simp [heq] at h
  omega

/-- The condition, one page at a time. -/
theorem inStep_page (hlen : before.length + 1 = limit) (hrest : rest ≠ []) :
    InStep key limit (before ++ last :: rest) ↔
      (∀ y ∈ before, key y < key last) ∧ (∀ y ∈ rest, key last < key y) ∧
        InStep key limit rest := by
  have hlater : ∀ m : List α, (before ++ last :: m).length + 1 = limit + (m.length + 1) := by
    intro m
    simp
    omega
  constructor
  · intro h
    obtain ⟨hbefore, hafter⟩ := h before last rest rfl (by simp [hlen]) hrest
    refine ⟨hbefore, hafter, fun before' x after heq hdvd hne => ?_⟩
    obtain ⟨hb, ha⟩ := h (before ++ last :: before') x after (by simp [heq])
      (by rwa [hlater, Nat.dvd_add_right (Nat.dvd_refl _)]) hne
    exact ⟨fun y hy => hb y (by simp [hy]), ha⟩
  · rintro ⟨hbefore, hafter, hstep⟩ before' x after heq hdvd hne
    have hle := Nat.le_of_dvd (by omega) hdvd
    obtain ⟨m, rfl, htail⟩ | ⟨m, rfl, htail⟩ := List.append_eq_append_iff.mp heq
    · -- a later page ends with `x`, or the first one
      cases m with
      | nil =>
        obtain ⟨rfl, rfl⟩ := List.cons.inj htail
        simpa using ⟨hbefore, hafter⟩
      | cons z m =>
        obtain ⟨rfl, rfl⟩ := List.cons.inj htail
        rw [hlater, Nat.dvd_add_right (Nat.dvd_refl _)] at hdvd
        obtain ⟨hb, ha⟩ := hstep m x after rfl hdvd hne
        refine ⟨fun y hy => ?_, ha⟩
        have hx : key last < key x := hafter x (by simp)
        simp only [List.mem_append, List.mem_cons] at hy
        obtain hy | rfl | hy := hy
        · exact lt_trans (hbefore y hy) hx
        · exact hx
        · exact hb y hy
    · -- nothing shorter than a page ends one
      cases m with
      | nil =>
        obtain ⟨rfl, rfl⟩ := List.cons.inj htail
        exact ⟨by simpa using hbefore, hafter⟩
      | cons z m =>
        simp at hlen
        omega

theorem beyond_of_inStep (hbefore : ∀ y ∈ before, key y < key last)
    (hafter : ∀ y ∈ rest, key last < key y) :
    beyond key (key last) (before ++ last :: rest) = rest := by
  have hnone : before.filter (fun y => decide (key last < key y)) = [] :=
    List.filter_eq_nil_iff.mpr (fun y hy => by simpa using le_of_lt (hbefore y hy))
  have hall : rest.filter (fun y => decide (key last < key y)) = rest :=
    List.filter_eq_self.mpr (fun y hy => by simpa using hafter y hy)
  simp [beyond, hnone, hall]

/-- An element of a page that is greater than its last one would be received again. -/
theorem lt_of_walk_perm (hpos : 0 < limit) (hnodup : ((before ++ last :: rest).map key).Nodup)
    (h : walk key limit fuel (beyond key (key last) (before ++ last :: rest)) = some r)
    (hperm : r.Perm rest) : ∀ y ∈ before, key y < key last := by
  have hdisjoint := (List.nodup_append.mp (List.map_append ▸ hnodup)).2.2
  have hagain : beyond key (key last) before = [] := by
    cases hb : beyond key (key last) before with
    | nil => rfl
    | cons x xs =>
      have hx : x ∈ before := List.mem_of_mem_filter (hb ▸ List.mem_cons_self ..)
      rw [show beyond key (key last) (before ++ last :: rest) =
        x :: (xs ++ beyond key (key last) (last :: rest)) by
          rw [beyond, List.filter_append, ← beyond, hb]; rfl] at h
      have hrest := hperm.mem_iff.mp (head_mem_walk hpos h)
      exact absurd rfl (hdisjoint (key x) (List.mem_map_of_mem hx) (key x)
        (List.mem_map_of_mem (List.mem_cons_of_mem _ hrest)))
  intro y hy
  have hle : ¬ key last < key y := by
    simpa using List.filter_eq_nil_iff.mp hagain y hy
  have hne : key y ≠ key last := hdisjoint (key y) (List.mem_map_of_mem hy) (key last) (by simp)
  exact lt_of_le_of_ne (not_lt.mp hle) hne

/-- Every element is received exactly once if and only if the pages end in step. -/
theorem walk_perm_iff (hpos : 0 < limit) (hnodup : (l.map key).Nodup)
    (h : walk key limit fuel l = some r) : r.Perm l ↔ InStep key limit l := by
  induction fuel generalizing l r with
  | zero => cases h
  | succ fuel ih =>
    by_cases hlong : limit < l.length
    · obtain ⟨before, last, rest, rfl, hlen, hrest, _⟩ := exists_page hpos hlong
      rw [walk_page hlen hrest] at h
      obtain ⟨r', hr', rfl⟩ := Option.map_eq_some_iff.mp h
      have hsub : (rest.map key).Nodup := hnodup.sublist (by
        apply List.Sublist.map
        exact (List.sublist_cons_self _ _).trans (List.sublist_append_right _ _))
      rw [inStep_page hlen hrest, List.perm_append_left_iff, List.perm_cons]
      constructor
      · intro hperm
        have hafter : ∀ y ∈ rest, key last < key y := by
          intro y hy
          have := mem_of_mem_walk hpos hr' (hperm.mem_iff.mpr hy)
          simpa using (List.mem_filter.mp this).2
        have hbefore := lt_of_walk_perm hpos hnodup hr' hperm
        rw [beyond_of_inStep hbefore hafter] at hr'
        exact ⟨hbefore, hafter, (ih hsub hr').mp hperm⟩
      · rintro ⟨hbefore, hafter, hstep⟩
        rw [beyond_of_inStep hbefore hafter] at hr'
        exact (ih hsub hr').mpr hstep
    · rw [walk_short (Nat.not_lt.mp hlong)] at h
      cases h
      simp [inStep_short (Nat.not_lt.mp hlong)]

end Sonarr.Lib.Pages
