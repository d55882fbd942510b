import Mathlib.Data.List.Nodup

/-! Rankings given by the order of a list, with and without ties. -/
namespace Sonarr.Lib.Ranking

variable {α β : Type}

/-- `a` is listed at some place before `b`. -/
def Before (l : List α) (a b : α) : Prop := [a, b].Sublist l

theorem before_cons : Before (x :: l) a b ↔ Before l a b ∨ (a = x ∧ b ∈ l) := by
  unfold Before
  rw [List.sublist_cons_iff]
  refine or_congr Iff.rfl ⟨?_, ?_⟩
  · rintro ⟨r, hr, hsub⟩
    cases hr
    exact ⟨rfl, List.singleton_sublist.mp hsub⟩
  · rintro ⟨rfl, hb⟩
    exact ⟨[b], rfl, List.singleton_sublist.mpr hb⟩

theorem Before.mem (h : Before l a b) : a ∈ l ∧ b ∈ l :=
  ⟨h.subset (by simp), h.subset (by simp)⟩

theorem before_reverse : Before l.reverse a b ↔ Before l b a := by
  unfold Before
  rw [← List.reverse_sublist]
  simp

theorem before_filterMap {g : α → Option β} {l : List α} :
    Before (l.filterMap g) u v ↔ ∃ a b, Before l a b ∧ g a = some u ∧ g b = some v := by
  induction l with
  | nil => simp [Before]
  | cons x l ih =>
    cases hx : g x with
    | none =>
      rw [List.filterMap_cons_none hx, ih]
      constructor
      · rintro ⟨a, b, hab, ha, hb⟩
        exact ⟨a, b, before_cons.mpr (.inl hab), ha, hb⟩
      · rintro ⟨a, b, hab, ha, hb⟩
        rcases before_cons.mp hab with hab | ⟨rfl, _⟩
        · exact ⟨a, b, hab, ha, hb⟩
        · rw [hx] at ha
          cases ha
    | some y =>
      rw [List.filterMap_cons_some hx, before_cons, ih]
      constructor
      · rintro (⟨a, b, hab, ha, hb⟩ | ⟨rfl, hv⟩)
        · exact ⟨a, b, before_cons.mpr (.inl hab), ha, hb⟩
        · obtain ⟨b, hb, hgb⟩ := List.mem_filterMap.mp hv
          exact ⟨x, b, before_cons.mpr (.inr ⟨rfl, hb⟩), hx, hgb⟩
      · rintro ⟨a, b, hab, ha, hb⟩
        rcases before_cons.mp hab with hab | ⟨rfl, hmem⟩
        · exact .inl ⟨a, b, hab, ha, hb⟩
        · rw [hx] at ha
          exact .inr ⟨(Option.some.inj ha).symm, List.mem_filterMap.mpr ⟨b, hmem, hb⟩⟩

theorem before_map {f : α → β} {l : List α} :
    Before (l.map f) u v ↔ ∃ a b, Before l a b ∧ f a = u ∧ f b = v := by
  rw [← List.filterMap_eq_map, before_filterMap]
  simp

/-- Of two elements one comes first. -/
theorem before_total (ha : a ∈ l) (hb : b ∈ l) (hne : a ≠ b) : Before l a b ∨ Before l b a := by
  induction l with
  | nil => cases ha
  | cons x l ih =>
    rcases List.mem_cons.mp ha with hax | hal <;> rcases List.mem_cons.mp hb with hbx | hbl
    · exact absurd (hax.trans hbx.symm) hne
    · exact .inl (before_cons.mpr (.inr ⟨hax, hbl⟩))
    · exact .inr (before_cons.mpr (.inr ⟨hbx, hal⟩))
    · exact (ih hal hbl).imp (fun h => before_cons.mpr (.inl h)) (fun h => before_cons.mpr (.inl h))

theorem Before.asymm (hl : l.Nodup) (h : Before l a b) : ¬ Before l b a := by
  induction l with
  | nil => simp [Before] at h
  | cons x l ih =>
    obtain ⟨hx, hl⟩ := List.nodup_cons.mp hl
    intro h'
    rcases before_cons.mp h with hab | ⟨hax, hbl⟩ <;>
      rcases before_cons.mp h' with hba | ⟨hbx, hal⟩
    · exact ih hl hab hba
    · exact hx (hbx ▸ hab.mem.2)
    · exact hx (hax ▸ hba.mem.2)
    · exact hx (hax ▸ hal)

/-- Lists with the same members in the same order are the same. -/
theorem eq_of_before (hl : l.Nodup) (hm : m.Nodup) (hmem : ∀ x, x ∈ l ↔ x ∈ m)
    (hbefore : ∀ a b, Before l a b ↔ Before m a b) : l = m := by
  refine @List.Perm.eq_of_pairwise _ (Before l) _ _ ?_ ?_ ?_
    ((List.perm_ext_iff_of_nodup hl hm).mpr hmem)
  · intro a b _ _ hab hba
    exact absurd hba (hab.asymm hl)
  · exact List.pairwise_iff_forall_sublist.mpr (fun h => h)
  · exact List.pairwise_iff_forall_sublist.mpr (fun h => (hbefore _ _).mpr h)

/-- The place of an element is found by its key, if no other has the key. -/
theorem findIdx_lt_iff {κ : Type} [DecidableEq κ] (key : α → κ) {l : List α} (ha : a ∈ l)
    (hb : b ∈ l) (hone : l.Pairwise (fun x y => key x = key y → key x ≠ key a ∧ key x ≠ key b)) :
    l.findIdx (fun x => key x == key a) < l.findIdx (fun x => key x == key b) ↔ Before l a b := by
  induction l with
  | nil => cases ha
  | cons x l ih =>
    obtain ⟨hx, hl⟩ := List.pairwise_cons.mp hone
    rw [List.findIdx_cons, List.findIdx_cons, before_cons]
    by_cases hxa : key x = key a
    · have hnot : a ∉ l := fun h => (hx a h hxa).1 hxa
      have hax : a = x := (List.mem_cons.mp ha).resolve_right hnot
      have hno : ¬ Before l a b := fun h => hnot h.mem.1
      by_cases hxb : key x = key b
      · have hnotb : b ∉ l := fun h => (hx b h hxb).2 hxb
        simp [beq_iff_eq.mpr hxb, hnotb, hno]
      · have hbl : b ∈ l := (List.mem_cons.mp hb).resolve_left (fun h => hxb (h ▸ rfl))
        simp [beq_false_of_ne hxb, hax, hbl]
    · have hal : a ∈ l := (List.mem_cons.mp ha).resolve_left (fun h => hxa (h ▸ rfl))
      have hne : a ≠ x := fun h => hxa (h ▸ rfl)
      by_cases hxb : key x = key b
      · have hnotb : b ∉ l := fun h => (hx b h hxb).2 hxb
        have hno : ¬ Before l a b := fun h => hnotb h.mem.2
        simp [beq_iff_eq.mpr hxb, hne, hno]
      · have hbl : b ∈ l := (List.mem_cons.mp hb).resolve_left (fun h => hxb (h ▸ rfl))
        simp only [beq_false_of_ne hxa, beq_false_of_ne hxb, cond_false, Nat.add_lt_add_iff_right,
          ih hal hbl hl, hne, false_and, or_false]

/-- In a ranking with ties, each entry a tie: `a` comes in an earlier entry than `b`. -/
def Earlier (entries : List (List α)) (a b : α) : Prop :=
  ∃ e f, Before entries e f ∧ a ∈ e ∧ b ∈ f

/-- An entry of a ranking without repetition meets no other. -/
theorem eq_of_common {entries : List (List α)} (h : entries.flatten.Nodup) (he : e ∈ entries)
    (hf : f ∈ entries) (hae : a ∈ e) (haf : a ∈ f) : e = f := by
  by_contra hne
  obtain ⟨_, hdisjoint⟩ := List.nodup_flatten.mp h
  rcases before_total he hf hne with hb | hb
  · exact List.pairwise_iff_forall_sublist.mp hdisjoint hb hae haf
  · exact List.pairwise_iff_forall_sublist.mp hdisjoint hb haf hae

/-- Entries of at most one element are the elements. -/
theorem entries_eq {entries : List (List α)} (h : ∀ e ∈ entries, ∀ a ∈ e, e = [a]) :
    entries.filter (fun e => !e.isEmpty) = entries.flatten.map (fun a => [a]) := by
  induction entries with
  | nil => rfl
  | cons e entries ih =>
    have hrest := ih (fun f hf => h f (List.mem_cons_of_mem _ hf))
    cases e with
    | nil => simpa using hrest
    | cons a e =>
      have hone := h (a :: e) List.mem_cons_self a List.mem_cons_self
      rw [hone, List.filter_cons_of_pos (by simp), hrest]
      rfl

theorem earlier_singletons {l : List α}
    (h : entries.filter (fun e => !e.isEmpty) = l.map (fun a => [a])) :
    Earlier entries a b ↔ Before l a b := by
  have hmap : ∀ a b, Before (l.map (fun a => [a])) [a] [b] ↔ Before l a b := by
    intro a b
    rw [before_map]
    simp
  rw [← hmap, ← h]
  constructor
  · rintro ⟨e, f, hef, ha, hb⟩
    have hef' : Before (entries.filter (fun e => !e.isEmpty)) e f := by
      have := List.Sublist.filter (fun e => !e.isEmpty) hef
      simpa [Before, List.ne_nil_of_mem ha, List.ne_nil_of_mem hb] using this
    have hsingle : ∀ e ∈ entries.filter (fun e => !e.isEmpty), ∀ a ∈ e, e = [a] := by
      rw [h]
      intro e he a ha
      obtain ⟨c, _, rfl⟩ := List.mem_map.mp he
      rw [List.mem_singleton.mp ha]
    rw [← hsingle e hef'.mem.1 a ha, ← hsingle f hef'.mem.2 b hb]
    exact hef'
  · intro hab
    exact ⟨[a], [b], hab.trans List.filter_sublist, by simp, by simp⟩

/-- A ranking with ties and one without agree exactly if there are no ties and the
elements are listed in the same order. -/
theorem same_ranking_iff {entries : List (List α)} {l : List α} (he : entries.flatten.Nodup)
    (hl : l.Nodup) :
    ((∀ a, a ∈ entries.flatten ↔ a ∈ l) ∧ ∀ a b, Earlier entries a b ↔ Before l a b) ↔
      entries.filter (fun e => !e.isEmpty) = l.map (fun a => [a]) := by
  constructor
  · rintro ⟨hmem, hrank⟩
    -- Two elements of one entry would have to be ranked.
    have htie : ∀ e ∈ entries, ∀ a ∈ e, ∀ b ∈ e, ¬ Before l a b := by
      intro e hmem' a ha b hb hab
      obtain ⟨f, g, hfg, haf, hbg⟩ := (hrank a b).mpr hab
      have hef := eq_of_common he hmem' hfg.mem.1 ha haf
      have heg := eq_of_common he hmem' hfg.mem.2 hb hbg
      subst hef
      subst heg
      exact List.pairwise_iff_forall_sublist.mp (List.nodup_flatten.mp he).2 hfg ha ha
    have hsingle : ∀ e ∈ entries, ∀ a ∈ e, e = [a] := by
      intro e hmem' a ha
      have hall : ∀ b ∈ e, b = a := by
        intro b hb
        by_contra hne
        have hin : ∀ x ∈ e, x ∈ l := fun x hx =>
          (hmem x).mp (List.mem_flatten.mpr ⟨e, hmem', hx⟩)
        rcases before_total (hin b hb) (hin a ha) hne with h | h
        · exact htie e hmem' b hb a ha h
        · exact htie e hmem' a ha b hb h
      have hnodup := (List.nodup_flatten.mp he).1 e hmem'
      rw [List.eq_replicate_iff.mpr ⟨rfl, hall⟩] at hnodup ⊢
      have hlen : e.length ≤ 1 := List.nodup_replicate.mp hnodup
      have hpos : 0 < e.length := List.length_pos_of_mem ha
      rw [show e.length = 1 by omega]
      rfl
    have heq := entries_eq hsingle
    rw [heq]
    refine congrArg _ (eq_of_before he hl hmem (fun a b => ?_))
    rw [← hrank a b, earlier_singletons heq]
  · intro heq
    refine ⟨fun a => ?_, fun a b => earlier_singletons heq⟩
    have hflat : entries.flatten = l := by
      rw [← List.flatten_filter_not_isEmpty, heq, ← List.flatMap_def]
      exact List.flatMap_singleton' l
    rw [hflat]

end Sonarr.Lib.Ranking
