import Sonarr.Lib.Captures

/-! Which of the ways to match is found first. -/
namespace Sonarr.Lib.Re

/-- The groups of the first way to match from a place. -/
def firstGroups (r : Re) (c : Cursor) : Option (List (String × List Char)) :=
  (r.run c).head?.map Cursor.groups

theorem firstGroups_seq (a b : Re) (c : Cursor) :
    (seq a b).firstGroups c = (a.run c).findSome? b.firstGroups := by
  unfold firstGroups
  rw [run, List.head?_flatMap, List.map_findSome?]
  rfl

theorem firstGroups_none {r : Re} (h : r.run c = []) : r.firstGroups c = none := by
  simp [firstGroups, h]

/-- The first way goes on from where the first part ends, if it can. -/
theorem firstGroups_seq_of_head {a b : Re} (ha : (a.run c).head? = some d)
    (hb : b.firstGroups d = some gs) :
    (seq a b).firstGroups c = some gs := by
  rw [firstGroups_seq]
  cases hrun : a.run c with
  | nil => simp [hrun] at ha
  | cons x xs =>
    rw [hrun, List.head?_cons] at ha
    cases ha
    simp [hb]

/-- A match at the start of the text is the one that is found. -/
theorem findSubmatch_of_first {r : Re} {s : String}
    (h : r.firstGroups ⟨none, s.toList, []⟩ = some gs) :
    r.findSubmatch s = some gs := by
  obtain ⟨d, hd, rfl⟩ := Option.map_eq_some_iff.mp h
  unfold findSubmatch
  cases hs : s.toList with
  | nil =>
    rw [hs] at hd
    simp [search, hd]
  | cons x xs =>
    rw [hs] at hd
    simp [search, hd]

section Sets
variable {p : Char → Bool} {prev : Option Char} {gs : List (String × List Char)}

theorem run_set_true {xs : List Char} (hx : p x = true) :
    (set p).run ⟨prev, x :: xs, gs⟩ = [⟨some x, xs, gs⟩] := by
  simp [run, hx]

theorem run_set_none {v : List Char} (hv : ∀ x ∈ v.head?, p x = false) :
    (set p).run ⟨prev, v, gs⟩ = [] := by
  cases v with
  | nil => rfl
  | cons x xs =>
    have hx : p x = false := hv x (by simp)
    simp [run, hx]

theorem head_false {v : List Char} (hy : p y = false) : ∀ x ∈ (y :: v).head?, p x = false := by
  simpa using hy

/-- A greedy repetition goes on as long as it can. -/
theorem head_star (u v : List Char) (hu : ∀ x ∈ u, p x = true) (hv : ∀ x ∈ v.head?, p x = false)
    (fuel : Nat) (hfuel : u.length ≤ fuel) (prev : Option Char) :
    ∃ prev', (iterate true (set p).run fuel ⟨prev, u ++ v, gs⟩).head? = some ⟨prev', v, gs⟩ := by
  induction u generalizing prev fuel with
  | nil =>
    refine ⟨prev, ?_⟩
    cases fuel with
    | zero => rfl
    | succ fuel =>
      unfold iterate
      rw [List.nil_append, run_set_none hv]
      simp
  | cons x u ih =>
    cases fuel with
    | zero => simp at hfuel
    | succ fuel =>
      obtain ⟨prev', hhead⟩ := ih (fun y hy => hu y (List.mem_cons_of_mem _ hy)) fuel
        (by simpa using hfuel) (some x)
      refine ⟨prev', ?_⟩
      unfold iterate
      rw [List.cons_append, run_set_true (hu x List.mem_cons_self)]
      simp [List.head?_append, hhead]

theorem head_many1 {u v : List Char} (hu : ∀ x ∈ u, p x = true) (hne : u ≠ [])
    (hv : ∀ x ∈ v.head?, p x = false)
    (prev : Option Char) :
    ∃ prev', ((many1 (set p)).run ⟨prev, u ++ v, gs⟩).head? = some ⟨prev', v, gs⟩ := by
  cases u with
  | nil => exact absurd rfl hne
  | cons x u =>
    obtain ⟨prev', hhead⟩ : ∃ prev', (iterate true (set p).run (u ++ v).length
        ⟨some x, u ++ v, gs⟩).head? = some ⟨prev', v, gs⟩ :=
      head_star u v (fun y hy => hu y (List.mem_cons_of_mem _ hy)) hv _ (by simp) _
    refine ⟨prev', ?_⟩
    rw [many1, run, List.cons_append, run_set_true (hu x List.mem_cons_self)]
    simpa [run] using hhead

theorem run_times {u : List Char} (hu : ∀ x ∈ u, p x = true) (v : List Char) (prev : Option Char) :
    ∃ prev', (times (set p) u.length).run ⟨prev, u ++ v, gs⟩ = [⟨prev', v, gs⟩] := by
  induction u generalizing prev with
  | nil => exact ⟨prev, rfl⟩
  | cons x u ih =>
    obtain ⟨prev', hrun⟩ := ih (fun y hy => hu y (List.mem_cons_of_mem _ hy)) (some x)
    refine ⟨prev', ?_⟩
    rw [List.length_cons, times, run, List.cons_append, run_set_true (hu x List.mem_cons_self)]
    simpa using hrun

theorem head_upTo {u v : List Char} (hu : ∀ x ∈ u, p x = true)
    (hv : ∀ x ∈ v.head?, p x = false) (k : Nat)
    (hk : u.length ≤ k) (prev : Option Char) :
    ∃ prev', ((upTo (set p) k).run ⟨prev, u ++ v, gs⟩).head? = some ⟨prev', v, gs⟩ := by
  induction k generalizing u prev with
  | zero =>
    have hnil : u = [] := List.eq_nil_of_length_eq_zero (by omega)
    subst hnil
    exact ⟨prev, rfl⟩
  | succ k ih =>
    cases u with
    | nil =>
      refine ⟨prev, ?_⟩
      unfold upTo opt run run
      rw [List.nil_append, run_set_none hv]
      simp
    | cons x u =>
      obtain ⟨prev', hhead⟩ := ih (fun y hy => hu y (List.mem_cons_of_mem _ hy)) (by simpa using hk)
        (some x)
      refine ⟨prev', ?_⟩
      unfold upTo opt run run
      rw [List.cons_append, run_set_true (hu x List.mem_cons_self)]
      simp [List.head?_append, hhead]

/-- As many characters of a kind as there are, within the bounds. -/
theorem head_between {u v : List Char} (hu : ∀ x ∈ u, p x = true) (hv : ∀ x ∈ v.head?, p x = false)
    (hm : m ≤ u.length) (hn : u.length ≤ n) (prev : Option Char) :
    ∃ prev', ((between (set p) m n).run ⟨prev, u ++ v, gs⟩).head? = some ⟨prev', v, gs⟩ := by
  have hsplit : u ++ v = u.take m ++ (u.drop m ++ v) := by
    rw [← List.append_assoc, List.take_append_drop]
  have hlength : (u.take m).length = m := by simp [hm]
  have htaken : ∀ x ∈ u.take m, p x = true := fun x hx => hu x (List.mem_of_mem_take hx)
  have hleft : ∀ x ∈ u.drop m, p x = true := fun x hx => hu x (List.mem_of_mem_drop hx)
  obtain ⟨mid, hmid⟩ : ∃ mid, (times (set p) (u.take m).length).run
      ⟨prev, u.take m ++ (u.drop m ++ v), gs⟩ = [⟨mid, u.drop m ++ v, gs⟩] :=
    run_times htaken _ prev
  obtain ⟨prev', hhead⟩ : ∃ prev', ((upTo (set p) (n - m)).run ⟨mid, u.drop m ++ v, gs⟩).head? =
      some ⟨prev', v, gs⟩ := by
    refine head_upTo hleft hv (n - m) ?_ mid
    rw [List.length_drop]
    omega
  refine ⟨prev', ?_⟩
  rw [hlength] at hmid
  rw [between, run, hsplit, hmid]
  simpa using hhead

theorem head_group {a : Re} {u v : List Char}
    (h : (a.run ⟨prev, u ++ v, gs⟩).head? = some ⟨prev', v, gs⟩) :
    ((group name a).run ⟨prev, u ++ v, gs⟩).head? = some ⟨prev', v, (name, u) :: gs⟩ := by
  rw [run, List.head?_map, h]
  simp

/-- A repetition of what does not match here stays here. -/
theorem run_star_none {a : Re} (h : a.run c = []) : (star true a).run c = [c] := by
  rw [run]
  cases c.rest.length with
  | zero => rfl
  | succ fuel => simp [iterate, h]

/-- A lazy repetition stops at the first place from which the rest goes on. -/
theorem findSome?_lazy {g : Cursor → Option β} {e : β} (u v : List Char)
    (hu : ∀ x ∈ u, p x = true)
    (hno : ∀ u₁ u₂ prev, u = u₁ ++ u₂ → u₂ ≠ [] → g ⟨prev, u₂ ++ v, gs⟩ = none)
    (hyes : ∀ prev, g ⟨prev, v, gs⟩ = some e) (fuel : Nat) (hfuel : u.length ≤ fuel)
    (prev : Option Char) :
    (iterate false (set p).run fuel ⟨prev, u ++ v, gs⟩).findSome? g = some e := by
  induction u generalizing prev fuel with
  | nil =>
    cases fuel with
    | zero => simp [iterate, hyes]
    | succ fuel => simp [iterate, hyes]
  | cons x u ih =>
    cases fuel with
    | zero => simp at hfuel
    | succ fuel =>
      have hhere := hno [] (x :: u) prev rfl (by simp)
      have hrest := ih (fun y hy => hu y (List.mem_cons_of_mem _ hy))
        (fun u₁ u₂ prev he hne => hno (x :: u₁) u₂ prev (by rw [he]; rfl) hne) fuel
        (by simpa using hfuel) (some x)
      unfold iterate
      rw [List.cons_append, run_set_true (hu x List.mem_cons_self)]
      rw [List.cons_append] at hhere
      simpa [List.findSome?_cons, hhere] using hrest

end Sets

/-- A lazy group takes as little as lets the rest match, at least one character. -/
theorem firstGroups_lazy {b : Re} {p : Char → Bool} {name : String} {prev : Option Char}
    (u v : List Char)
    (hne : u ≠ []) (hu : ∀ x ∈ u, p x = true)
    (hno : ∀ u₁ u₂ prev, u = u₁ ++ u₂ → u₁ ≠ [] → u₂ ≠ [] →
      b.run ⟨prev, u₂ ++ v, (name, u₁) :: gs⟩ = [])
    (hyes : ∀ prev, b.firstGroups ⟨prev, v, (name, u) :: gs⟩ = some hs) :
    (seq (group name (lazy1 (set p))) b).firstGroups ⟨prev, u ++ v, gs⟩ = some hs := by
  cases u with
  | nil => exact absurd rfl hne
  | cons x u =>
    rw [firstGroups_seq, run, List.findSome?_map, lazy1, run, List.cons_append,
      run_set_true (hu x List.mem_cons_self), List.flatMap_singleton, run]
    have htaken : ∀ (u₁ w : List Char), (x :: (u₁ ++ w)).take ((x :: (u₁ ++ w)).length - w.length) =
        x :: u₁ := by
      intro u₁ w
      rw [← List.cons_append, List.length_append, Nat.add_sub_cancel, List.take_left]
    refine findSome?_lazy u v (fun y hy => hu y (List.mem_cons_of_mem _ hy)) ?_ ?_ _ (by simp) _
    · intro u₁ u₂ prev he hne₂
      have hhere := hno (x :: u₁) u₂ prev (by rw [he]; rfl) (by simp) hne₂
      rw [he, List.append_assoc]
      refine firstGroups_none ?_
      simpa only [htaken] using hhere
    · intro prev
      simpa only [Function.comp, htaken] using hyes prev

end Sonarr.Lib.Re
