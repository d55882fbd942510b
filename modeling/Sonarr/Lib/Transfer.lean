import Mathlib.Data.List.Forall2
import Mathlib.Data.List.Nodup
import Mathlib.Logic.Function.Basic

/-! Rows copied one after another into a destination that may refuse any of them. -/
namespace Sonarr.Lib.Transfer

variable {α β δ ι κ : Type} [DecidableEq ι]

/-- The destination, the id it gave to each row and the number of rows copied. -/
structure Progress (δ ι κ : Type) where
  dest : δ
  ids : ι → Option κ
  count : Nat

variable (key : α → ι) (create : α → δ → Option (κ × δ))

/-- A refused row leaves everything as it was. -/
def step (p : Progress δ ι κ) (a : α) : Progress δ ι κ :=
  match create a p.dest with
  | none => p
  | some (id, dest) => ⟨dest, Function.update p.ids (key a) (some id), p.count + 1⟩

def transfer (src : List α) (p : Progress δ ι κ) : Progress δ ι κ :=
  src.foldl (step key create) p

/-- `copied` are the rows that were not refused and `new` what the destination's
table has gained for them, in the same order. -/
structure Outcome (table : δ → List β) (image : α → κ → β → Prop) (src : List α)
    (p q : Progress δ ι κ) (copied : List α) (new : List β) : Prop where
  sublist : copied.Sublist src
  rows : table q.dest = table p.dest ++ new
  images : List.Forall₂ (fun a r => ∃ id, q.ids (key a) = some id ∧ image a id r) copied new
  count : q.count = p.count + new.length
  refused : ∀ a ∈ src, a ∉ copied → q.ids (key a) = p.ids (key a)
  others : ∀ i, i ∉ src.map key → q.ids i = p.ids i

/-- An outcome from nothing: the rows of the table are the images of some of the
source's rows, in their order, and the ids lead to them. -/
structure Copied (image : α → κ → β → Prop) (src : List α) (ids : ι → Option κ) (rows : List β)
    (count : Nat) : Prop where
  images : List.SublistForall₂ (fun r a => ∃ id, ids (key a) = some id ∧ image a id r) rows src
  known : ∀ i id, ids i = some id → ∃ a ∈ src, key a = i ∧ ∃ r ∈ rows, image a id r
  count : count = rows.length

theorem forall₂_mem_left {R : α → β → Prop} (h : List.Forall₂ R as bs) (ha : a ∈ as) :
    ∃ b ∈ bs, R a b := by
  induction h with
  | nil => cases ha
  | cons hr _ ih =>
    rcases List.mem_cons.mp ha with rfl | ha
    · exact ⟨_, List.mem_cons_self, hr⟩
    · obtain ⟨b, hb, hab⟩ := ih ha
      exact ⟨b, List.mem_cons_of_mem _ hb, hab⟩

theorem forall₂_imp_mem {R S : α → β → Prop} (h : List.Forall₂ R as bs)
    (himp : ∀ a b, b ∈ bs → R a b → S a b) : List.Forall₂ S as bs := by
  induction h with
  | nil => exact .nil
  | cons hr _ ih =>
    exact .cons (himp _ _ List.mem_cons_self hr)
      (ih (fun a b hb => himp a b (List.mem_cons_of_mem _ hb)))

/-- Two relations between the same lists hold of the same pairs. -/
theorem forall₂_both {R S : α → β → Prop} (hR : List.Forall₂ R as bs) (hS : List.Forall₂ S as bs)
    (hb : b ∈ bs) : ∃ a, R a b ∧ S a b := by
  induction hR with
  | nil => cases hb
  | cons hr _ ih =>
    cases hS with
    | cons hs hrest =>
      rcases List.mem_cons.mp hb with rfl | hb
      · exact ⟨_, hr, hs⟩
      · exact ih hrest hb

theorem sublistForall₂_imp {R S : α → β → Prop} (h : List.SublistForall₂ R as bs)
    (himp : ∀ a b, R a b → S a b) : List.SublistForall₂ S as bs := by
  induction h with
  | nil => exact .nil
  | cons hr _ ih => exact .cons (himp _ _ hr) ih
  | cons_right _ ih => exact .cons_right ih

section Rules
variable {key : α → ι} {create : α → δ → Option (κ × δ)} {src : List α} {p : Progress δ ι κ}

theorem step_none (h : create a p.dest = none) : step key create p a = p := by
  simp [step, h]

theorem step_some (h : create a p.dest = some c) :
    step key create p a = ⟨c.2, Function.update p.ids (key a) (some c.1), p.count + 1⟩ := by
  simp [step, h]

theorem transfer_cons (a : α) (src : List α) (p : Progress δ ι κ) :
    transfer key create (a :: src) p = transfer key create src (step key create p a) := rfl

theorem transfer_singleton (h : create a p.dest = some c) :
    (transfer key create [a] p).ids (key a) = some c.1 := by
  rw [transfer_cons, step_some h]
  exact Function.update_self ..

/-- What every creation keeps, the whole transfer keeps. -/
theorem transfer_invariant (heq : transfer key create src p = q) (P : δ → Prop)
    (hstep : ∀ a d id d', create a d = some (id, d') → P d → P d') (h : P p.dest) : P q.dest := by
  subst heq
  induction src generalizing p with
  | nil => exact h
  | cons a src ih =>
    rw [transfer_cons]
    apply ih
    cases hc : create a p.dest with
    | none => rwa [step_none hc]
    | some c =>
      rw [step_some hc]
      exact hstep a p.dest c.1 c.2 hc h

theorem transfer_count_le (heq : transfer key create src p = q) :
    q.count ≤ p.count + src.length := by
  subst heq
  induction src generalizing p with
  | nil => exact Nat.le_refl _
  | cons a src ih =>
    have hstep : (step key create p a).count ≤ p.count + 1 := by
      cases hc : create a p.dest with
      | none => simp [step_none hc]
      | some c => simp [step_some hc]
    have hrest := ih (p := step key create p a)
    rw [transfer_cons, List.length_cons]
    omega

/-- Rows that are always refused need not be looked at. -/
theorem transfer_filter {ok : α → Bool} (h : ∀ a d, ok a = false → create a d = none) :
    transfer key create src p = transfer key create (src.filter ok) p := by
  induction src generalizing p with
  | nil => rfl
  | cons a src ih =>
    rw [transfer_cons]
    cases hok : ok a with
    | false => rw [step_none (h a p.dest hok), List.filter_cons_of_neg (by simp [hok]), ih]
    | true => rw [List.filter_cons_of_pos hok, transfer_cons, ih]

/-- `ready rest d` is what is known of the destination when `rest` is still to come. -/
theorem transfer_outcome (table : δ → List β) (image : α → κ → β → Prop)
    (ready : List α → δ → Prop)
    (hskip : ∀ a rest d, ready (a :: rest) d → ready rest d)
    (hstep : ∀ a rest d id d', ready (a :: rest) d → create a d = some (id, d') →
      ready rest d' ∧ ∃ r, table d' = table d ++ [r] ∧ image a id r)
    (hkeys : (src.map key).Nodup) (h : ready src p.dest) :
    ∃ copied new, Outcome key table image src p (transfer key create src p) copied new := by
  induction src generalizing p with
  | nil => exact ⟨[], [], by simp, by simp [transfer], .nil, rfl, by simp, fun _ _ => rfl⟩
  | cons a src ih =>
    obtain ⟨ha, hsrc⟩ := List.nodup_cons.mp hkeys
    have hne : ∀ b ∈ src, key b ≠ key a := by
      intro b hb he
      exact ha (List.mem_map.mpr ⟨b, hb, he⟩)
    rw [transfer_cons]
    cases hc : create a p.dest with
    | none =>
      rw [step_none hc]
      obtain ⟨copied, new, out⟩ := ih hsrc (hskip a src p.dest h)
      refine ⟨copied, new, out.sublist.cons a, out.rows, out.images, out.count, ?_, ?_⟩
      · intro b hb hno
        rcases List.mem_cons.mp hb with rfl | hb
        · exact out.others (key b) ha
        · exact out.refused b hb hno
      · intro i hi
        exact out.others i (fun hm => hi (List.mem_cons_of_mem _ hm))
    | some c =>
      obtain ⟨id, dest⟩ := c
      rw [step_some hc]
      obtain ⟨hready, r, hrows, himage⟩ := hstep a src p.dest id dest h hc
      obtain ⟨copied, new, out⟩ :=
        ih (p := ⟨dest, Function.update p.ids (key a) (some id), p.count + 1⟩) hsrc hready
      have hid := (out.others (key a) ha).trans (Function.update_self ..)
      refine ⟨a :: copied, r :: new, out.sublist.cons_cons a, ?_, .cons ⟨id, hid, himage⟩ out.images,
        ?_, ?_, ?_⟩
      · rw [out.rows, hrows, List.append_assoc]
        rfl
      · rw [out.count, List.length_cons]
        simp only
        omega
      · intro b hb hno
        rcases List.mem_cons.mp hb with rfl | hb
        · exact absurd List.mem_cons_self hno
        · rw [out.refused b hb (fun hm => hno (List.mem_cons_of_mem _ hm))]
          exact Function.update_of_ne (hne b hb) ..
      · intro i hi
        have hia : i ≠ key a := by
          rintro rfl
          exact hi List.mem_cons_self
        rw [out.others i (fun hm => hi (List.mem_cons_of_mem _ hm))]
        exact Function.update_of_ne hia ..

theorem Outcome.copied {table : δ → List β} {image : α → κ → β → Prop} {q : Progress δ ι κ}
    {copied : List α} {new : List β}
    (out : Outcome key table image src p q copied new) (hrows : table p.dest = [])
    (hids : ∀ i, p.ids i = none) (hcount : p.count = 0) :
    Copied key image src q.ids (table q.dest) q.count := by
  have hnew : table q.dest = new := by rw [out.rows, hrows, List.nil_append]
  rw [hnew]
  refine ⟨List.sublistForall₂_iff.mpr ⟨copied, out.images.flip, out.sublist⟩, ?_, ?_⟩
  · intro i id hi
    obtain ⟨a, ha, rfl⟩ : ∃ a ∈ src, key a = i := by
      by_contra hno
      rw [out.others i (by simpa using hno), hids] at hi
      cases hi
    refine ⟨a, ha, rfl, ?_⟩
    by_cases hc : a ∈ copied
    · obtain ⟨r, hr, id', hid, himage⟩ := forall₂_mem_left out.images hc
      rw [hi] at hid
      cases hid
      exact ⟨r, hr, himage⟩
    · rw [out.refused a ha hc, hids] at hi
      cases hi
  · rw [out.count, hcount, Nat.zero_add]

theorem transfer_copied (heq : transfer key create src p = q) (table : δ → List β)
    (image : α → κ → β → Prop) (ready : List α → δ → Prop)
    (hskip : ∀ a rest d, ready (a :: rest) d → ready rest d)
    (hstep : ∀ a rest d id d', ready (a :: rest) d → create a d = some (id, d') →
      ready rest d' ∧ ∃ r, table d' = table d ++ [r] ∧ image a id r)
    (hkeys : (src.map key).Nodup) (hready : ready src p.dest) (hrows : table p.dest = [])
    (hids : ∀ i, p.ids i = none) (hcount : p.count = 0) :
    Copied key image src q.ids (table q.dest) q.count := by
  obtain ⟨copied, new, out⟩ := transfer_outcome table image ready hskip hstep hkeys hready
  rw [heq] at out
  exact out.copied hrows hids hcount

/-- An id once given stays. -/
theorem transfer_isSome (h : (p.ids i).isSome = true) :
    ((transfer key create src p).ids i).isSome = true := by
  induction src generalizing p with
  | nil => exact h
  | cons a src ih =>
    rw [transfer_cons]
    apply ih
    cases hc : create a p.dest with
    | none => rwa [step_none hc]
    | some c =>
      rw [step_some hc]
      by_cases hi : i = key a
      · simp [hi]
      · simpa [Function.update_of_ne hi] using h

/-- Rows that are never refused all get an id. -/
theorem transfer_all (heq : transfer key create src p = q) (ready : List α → δ → Prop)
    (hstep : ∀ a rest d, ready (a :: rest) d → ∃ c, create a d = some c ∧ ready rest c.2)
    (h : ready src p.dest) : ∀ a ∈ src, (q.ids (key a)).isSome = true := by
  subst heq
  induction src generalizing p with
  | nil => simp
  | cons a src ih =>
    obtain ⟨c, hc, hrest⟩ := hstep a src p.dest h
    rw [transfer_cons, step_some hc]
    intro b hb
    rcases List.mem_cons.mp hb with rfl | hb
    · exact transfer_isSome (by simp)
    · exact ih hrest b hb

/-- If what is refused depends on the row alone, the others are copied. -/
theorem transfer_rows (heq : transfer key create src p = q) (table : δ → List β)
    (image : α → β → Prop) (ok : α → Bool) (hno : ∀ a d, ok a = false → create a d = none)
    (hok : ∀ a d, ok a = true → ∃ c r, create a d = some c ∧ table c.2 = table d ++ [r] ∧ image a r) :
    ∃ new, table q.dest = table p.dest ++ new ∧
      List.Forall₂ (fun r a => image a r) new (src.filter ok) := by
  subst heq
  induction src generalizing p with
  | nil => exact ⟨[], by simp [transfer], .nil⟩
  | cons a src ih =>
    rw [transfer_cons]
    cases ha : ok a with
    | false =>
      rw [step_none (hno a p.dest ha), List.filter_cons_of_neg (by simp [ha])]
      exact ih
    | true =>
      obtain ⟨c, r, hc, hrows, himage⟩ := hok a p.dest ha
      rw [step_some hc, List.filter_cons_of_pos ha]
      obtain ⟨new, hnew, hall⟩ :=
        ih (p := ⟨c.2, Function.update p.ids (key a) (some c.1), p.count + 1⟩)
      refine ⟨r :: new, ?_, .cons himage hall⟩
      rw [hnew, hrows, List.append_assoc]
      rfl

/-- Ids are not handed out twice if every new one was unused. -/
theorem transfer_injective (heq : transfer key create src p = q) (used : δ → κ → Prop)
    (hstep : ∀ a d id d', create a d = some (id, d') →
      ¬ used d id ∧ used d' id ∧ ∀ k, used d k → used d' k)
    (hused : ∀ i k, p.ids i = some k → used p.dest k)
    (hinj : ∀ i j k, p.ids i = some k → p.ids j = some k → i = j) :
    ∀ i j k, q.ids i = some k → q.ids j = some k → i = j := by
  subst heq
  induction src generalizing p with
  | nil => exact hinj
  | cons a src ih =>
    rw [transfer_cons]
    cases hc : create a p.dest with
    | none =>
      rw [step_none hc]
      exact ih hused hinj
    | some c =>
      rw [step_some hc]
      obtain ⟨hnew, hnow, hmono⟩ := hstep a p.dest c.1 c.2 hc
      -- Another row cannot have the id that was unused until now.
      have hfresh : ∀ i, p.ids i ≠ some c.1 := fun i hi => hnew (hused i c.1 hi)
      have hcases : ∀ i k, Function.update p.ids (key a) (some c.1) i = some k →
          (i = key a ∧ k = c.1) ∨ p.ids i = some k := by
        intro i k hi
        by_cases hia : i = key a
        · rw [hia, Function.update_self] at hi
          exact .inl ⟨hia, (Option.some.inj hi).symm⟩
        · rw [Function.update_of_ne hia] at hi
          exact .inr hi
      apply ih
      · intro i k hi
        rcases hcases i k hi with ⟨_, rfl⟩ | hi
        · exact hnow
        · exact hmono k (hused i k hi)
      · intro i j k hi hj
        rcases hcases i k hi with ⟨hia, hk⟩ | hi <;> rcases hcases j k hj with ⟨hja, hk'⟩ | hj
        · rw [hia, hja]
        · exact absurd (hk ▸ hj) (hfresh j)
        · exact absurd (hk' ▸ hi) (hfresh i)
        · exact hinj i j k hi hj

end Rules

/-- Rows picked by their keys are found again by them. -/
theorem filter_keys {key : α → ι} {sub src : List α} (hsub : sub.Sublist src)
    (hkeys : (src.map key).Nodup) : src.filter (fun a => (sub.map key).contains (key a)) = sub := by
  induction hsub with
  | slnil => rfl
  | @cons sub src a hs ih =>
    obtain ⟨ha, hsrc⟩ := List.nodup_cons.mp hkeys
    rw [List.filter_cons_of_neg, ih hsrc]
    simp only [List.contains_iff_mem]
    exact fun hm => ha ((hs.map key).subset hm)
  | @cons_cons sub src a hs ih =>
    obtain ⟨ha, hsrc⟩ := List.nodup_cons.mp hkeys
    rw [List.filter_cons_of_pos (by simp)]
    refine congrArg (a :: ·) (Eq.trans (List.filter_congr ?_) (ih hsrc))
    intro b hb
    have hne : key b ≠ key a := fun he => ha (List.mem_map.mpr ⟨b, hb, he⟩)
    simp [hne]

end Sonarr.Lib.Transfer
