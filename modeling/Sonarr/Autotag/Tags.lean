import Mathlib.Data.List.Nodup

namespace Sonarr.Autotag

/-- What `ApplyTags` and `RemoveTags` read of a rule. -/
structure Rule where
  tags : List Int
  deriving DecidableEq, Repr

/-- The keys of a map filled from a list of tags. -/
def keySet (tags : List Int) : List Int := tags.foldl (fun seen t => t :: seen) []

structure Merge where
  seen : List Int
  out : List Int

def Merge.step (st : Merge) (t : Int) : Merge :=
  if t ∈ st.seen then st else ⟨t :: st.seen, st.out ++ [t]⟩

def applyTags (existing : List Int) (rule : Rule) : List Int :=
  (rule.tags.foldl Merge.step ⟨keySet existing, existing⟩).out

def removeTags (existing : List Int) (rule : Rule) : List Int :=
  let drop := keySet rule.tags
  existing.foldl (fun out t => if t ∈ drop then out else out ++ [t]) []

theorem mem_keySet : x ∈ keySet tags ↔ x ∈ tags := by
  have hfold : ∀ seen : List Int, tags.foldl (fun seen t => t :: seen) seen = tags.reverse ++ seen := by
    induction tags with
    | nil => exact fun seen => rfl
    | cons t tags ih =>
      intro seen
      rw [List.foldl_cons, ih]
      simp
  rw [keySet, hfold, List.append_nil, List.mem_reverse]

/-- The state of the loop after some tags: `added` is what came to the existing tags. -/
structure Merged (existing added : List Int) (st : Merge) : Prop where
  out_eq : st.out = existing ++ added
  mem_seen : ∀ x, x ∈ st.seen ↔ x ∈ existing ++ added
  nodup : added.Nodup
  fresh : ∀ x ∈ added, x ∉ existing

theorem Merged.start (existing : List Int) : Merged existing [] ⟨keySet existing, existing⟩ :=
  ⟨by simp, fun x => by simp [mem_keySet], List.nodup_nil, by simp⟩

theorem Merged.step (h : Merged existing added st) (t : Int) :
    ∃ added', Merged existing added' (st.step t) ∧ ∀ x, x ∈ added' ↔ x ∈ added ∨
      x = t ∧ t ∉ existing := by
  unfold Merge.step
  by_cases ht : t ∈ st.seen
  · rw [if_pos ht]
    refine ⟨added, h, ?_⟩
    intro x
    have hold := List.mem_append.mp ((h.mem_seen t).mp ht)
    constructor
    · exact Or.inl
    · intro hx
      rcases hx with hx | ⟨rfl, hne⟩
      · exact hx
      · exact hold.resolve_left hne
  · rw [if_neg ht]
    have hnew : t ∉ existing ∧ t ∉ added := by
      rw [h.mem_seen, List.mem_append, not_or] at ht
      exact ht
    refine ⟨added ++ [t], ⟨?_, ?_, ?_, ?_⟩, ?_⟩
    · simp [h.out_eq]
    · intro x
      simp only [List.mem_cons, h.mem_seen, List.mem_append, List.not_mem_nil, or_false]
      tauto
    · exact h.nodup.append (List.nodup_singleton t) (by simpa using hnew.2)
    · intro x hx
      rcases List.mem_append.mp hx with hx | hx
      · exact h.fresh x hx
      · exact List.mem_singleton.mp hx ▸ hnew.1
    · intro x
      simp [hnew.1]

theorem Merged.foldl (h : Merged existing added st) (tags : List Int) :
    ∃ added', Merged existing added' (tags.foldl Merge.step st) ∧
      ∀ x, x ∈ added' ↔ x ∈ added ∨ x ∈ tags ∧ x ∉ existing := by
  induction tags generalizing added st with
  | nil => exact ⟨added, h, by simp⟩
  | cons t tags ih =>
    obtain ⟨added₁, h₁, hmem₁⟩ := h.step t
    obtain ⟨added₂, h₂, hmem₂⟩ := ih h₁
    refine ⟨added₂, h₂, ?_⟩
    intro x
    rw [hmem₂, hmem₁, List.mem_cons]
    constructor
    · intro hx
      rcases hx with (hx | ⟨rfl, hne⟩) | ⟨hx, hne⟩
      · exact Or.inl hx
      · exact Or.inr ⟨Or.inl rfl, hne⟩
      · exact Or.inr ⟨Or.inr hx, hne⟩
    · intro hx
      rcases hx with hx | ⟨rfl | hx, hne⟩
      · exact Or.inl (Or.inl hx)
      · exact Or.inl (Or.inr ⟨rfl, hne⟩)
      · exact Or.inr ⟨hx, hne⟩

/-- Applying a rule appends its tags that are not there, each once. -/
theorem applyTags_eq_append (existing : List Int) (rule : Rule) :
    ∃ added, applyTags existing rule = existing ++ added ∧ added.Nodup ∧
      ∀ x, x ∈ added ↔ x ∈ rule.tags ∧ x ∉ existing := by
  obtain ⟨added, h, hmem⟩ := (Merged.start existing).foldl rule.tags
  exact ⟨added, h.out_eq, h.nodup, fun x => by simpa using hmem x⟩

theorem mem_applyTags : x ∈ applyTags existing rule ↔ x ∈ existing ∨ x ∈ rule.tags := by
  obtain ⟨added, he, -, hmem⟩ := applyTags_eq_append existing rule
  rw [he, List.mem_append, hmem]
  tauto

/-- A rule whose tags are all there changes nothing. -/
theorem applyTags_eq_self (h : ∀ x ∈ rule.tags, x ∈ existing) : applyTags existing rule = existing := by
  obtain ⟨added, he, -, hmem⟩ := applyTags_eq_append existing rule
  have hnone : added = [] := by
    rw [List.eq_nil_iff_forall_not_mem]
    intro x hx
    obtain ⟨ht, hne⟩ := (hmem x).mp hx
    exact hne (h x ht)
  rw [he, hnone, List.append_nil]

theorem removeTags_eq_filter (existing : List Int) (rule : Rule) :
    removeTags existing rule = existing.filter (fun t => t ∉ rule.tags) := by
  have hfold : ∀ out : List Int,
      existing.foldl (fun out t => if t ∈ keySet rule.tags then out else out ++ [t]) out =
        out ++ existing.filter (fun t => t ∉ rule.tags) := by
    induction existing with
    | nil => simp
    | cons t existing ih =>
      intro out
      rw [List.foldl_cons, ih, List.filter_cons]
      by_cases ht : t ∈ rule.tags
      · simp [mem_keySet, ht]
      · simp [mem_keySet, ht]
  exact hfold []

/-- Tags that are there are never taken for new ones, in whichever order rules come. -/
theorem tags_algebra (tags : List Int) (r s : Rule) :
    applyTags (applyTags tags r) r = applyTags tags r ∧
    (∃ added, applyTags tags r = tags ++ added ∧ added.Nodup ∧ ∀ x ∈ added, x ∉ tags) ∧
    removeTags (applyTags tags r) r = removeTags tags r ∧
    removeTags (removeTags tags r) r = removeTags tags r ∧
    removeTags (removeTags tags r) s = removeTags (removeTags tags s) r ∧
    ∀ x, x ∈ applyTags (applyTags tags r) s ↔ x ∈ applyTags (applyTags tags s) r := by
  obtain ⟨added, he, hnodup, hmem⟩ := applyTags_eq_append tags r
  refine ⟨?_, ?_, ?_, ?_, ?_, ?_⟩
  · exact applyTags_eq_self (fun x hx => mem_applyTags.mpr (Or.inr hx))
  · exact ⟨added, he, hnodup, fun x hx => ((hmem x).mp hx).2⟩
  · have hgone : added.filter (fun t => t ∉ r.tags) = [] := by
      rw [List.filter_eq_nil_iff]
      intro x hx
      simpa using ((hmem x).mp hx).1
    rw [removeTags_eq_filter, removeTags_eq_filter, he, List.filter_append, hgone, List.append_nil]
  · rw [removeTags_eq_filter, removeTags_eq_filter, List.filter_filter]
    simp
  · simp only [removeTags_eq_filter, List.filter_filter]
    congr 1
    funext t
    exact Bool.and_comm _ _
  · intro x
    simp only [mem_applyTags]
    tauto

end Sonarr.Autotag
