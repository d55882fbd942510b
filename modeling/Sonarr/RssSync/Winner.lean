import Sonarr.RssSync.Plan

namespace Sonarr.RssSync
open Lib DecisionEngine Providers Inputs

/-- For this episode a smaller accepted release is listed before the one ranked
first, and has its title. -/
def Overtaken (inp : Inputs) (key : GroupKey) : Prop :=
  ∃ before b after, inp.accepted key = before ++ b :: after ∧
    (∀ y ∈ before, inp.prefers b y = true) ∧ (∀ y ∈ after, inp.prefers y b = false) ∧
    ∃ a ∈ before, a.release.title = b.release.title ∧ a.release.size < b.release.size

variable {inp : Inputs} {key : GroupKey} {call : GrabCall}

theorem accepted_before (hl : inp.accepted key = before ++ b :: after) (ha : a ∈ before) :
    a ∈ inp.accepted key := by
  rw [hl]
  exact List.mem_append_left _ ha

/-- The first candidate with the title of the one ranked first is that one,
unless the title came up before. -/
theorem find_title (hl : inp.accepted key = before ++ b :: after)
    (hb : ∀ a ∈ before, a.release.title ≠ b.release.title) :
    (inp.accepted key).find? (fun c => c.release.title == b.release.title) = some b := by
  have hnone : before.find? (fun c => c.release.title == b.release.title) = none := by
    rw [List.find?_eq_none]
    intro a ha
    simpa using hb a ha
  rw [hl, List.find?_append, hnone]
  simp

theorem find_title_before (hl : inp.accepted key = before ++ b :: after) (ha : a ∈ before)
    (ht : a.release.title = b.release.title) :
    ∃ w ∈ before, w.release.title = b.release.title ∧
      (inp.accepted key).find? (fun c => c.release.title == b.release.title) = some w := by
  cases hf : before.find? (fun c => c.release.title == b.release.title) with
  | none => exact absurd ht (by simpa using List.find?_eq_none.mp hf a ha)
  | some w =>
    refine ⟨w, List.mem_of_find?_eq_some hf, by simpa using List.find?_some hf, ?_⟩
    rw [hl, List.find?_append, hf]
    rfl

theorem not_overtaken_grabs (h : ¬ Overtaken inp key) (hc : inp.callFor key = some call) :
    ∃ c, (inp.ranked key).head? = some c ∧ call.release = c.release := by
  obtain ⟨defs, b, w, _, hb, hw, rfl⟩ := callFor_eq_some.mp hc
  refine ⟨b, (head_stableSort_iff prefers_weak _).mpr hb, ?_⟩
  have hmem := hb.mem
  obtain ⟨before, after, hl, hbef, haft⟩ := hb
  have hnew : ∀ a ∈ before, a.release.title ≠ b.release.title := by
    intro a ha ht
    have hsize := (prefers_same_title hmem (accepted_before hl ha) ht.symm).mp (hbef a ha)
    exact h ⟨before, b, after, hl, hbef, haft, a, ha, ht, hsize⟩
  rw [find_title hl hnew] at hw
  cases hw
  rfl

theorem overtaken_grabs (h : Overtaken inp key) :
    ∃ call, inp.callFor key = some call ∧
      ∀ c, (inp.ranked key).head? = some c → call.release ≠ c.release := by
  obtain ⟨before, b, after, hl, hbef, haft, a, ha, ht, _⟩ := h
  have hfirst : IsFirst inp.prefers (inp.accepted key) b := ⟨before, after, hl, hbef, haft⟩
  obtain ⟨w, hw, hwt, hfind⟩ := find_title_before hl ha ht
  have hwm := accepted_before hl hw
  obtain ⟨defs, formats, hd, _, _⟩ := mem_accepted hwm
  refine ⟨_, callFor_eq_some.mpr ⟨defs, b, w, hd, hfirst, hfind, rfl⟩, ?_⟩
  intro c hc he
  have hcb : c = b := ((head_stableSort_iff prefers_weak _).mp hc).unique prefers_weak hfirst
  have hsize := (prefers_same_title hfirst.mem hwm hwt.symm).mp (hbef w hw)
  have hew : w.release = b.release := by rw [← hcb]; exact he
  rw [hew] at hsize
  omega

/-- Every group's grab is for the candidate ranked first exactly when no such
candidate is listed after a smaller one of its title. -/
theorem ranked_winner_grabbed_iff (inp : Inputs) (order : Walk) :
    (∀ key call, (key, call) ∈ inp.calls order →
      ∃ c, (inp.ranked key).head? = some c ∧ call.release = c.release) ↔
    ∀ key, ¬ Overtaken inp key := by
  constructor
  · intro h key ho
    obtain ⟨call, hc, hne⟩ := overtaken_grabs ho
    obtain ⟨c, hh, he⟩ := h key call ((mem_calls order).mpr hc)
    exact hne c hh he
  · intro h key call hc
    exact not_overtaken_grabs (h key) ((mem_calls order).mp hc)

/-- The same release, 300 MB on one indexer and 800 MB on the other. -/
def sameTitleFeeds : Inputs where
  compile _ := none
  registry _ := some (fun settings => some (some
    [⟨"Breaking.Bad.S01E01.720p-GROUP", "https://example.com/" ++ settings,
      if settings = "a" then 300 * 1024 * 1024 else 800 * 1024 * 1024, settings, .usenet⟩]))
  indexers := some [⟨1, "A", "Newznab", "a", true⟩, ⟨2, "B", "Newznab", "b", true⟩]
  qualityDefs := some []
  customFormats := some []
  profile1 := none
  engine := [notSampleSpec]
  reads := ⟨some [breakingBad], fun _ => some [pilot]⟩

theorem smaller_release_grabbed :
    ¬ ∀ inp order key call, (key, call) ∈ Inputs.calls inp order →
      ∃ c, (inp.ranked key).head? = some c ∧ call.release = c.release := by
  intro h
  have hcalls : (sameTitleFeeds.calls inOrder).map (fun kc => (kc.1, kc.2.release.size)) =
      [(⟨1, 1, 1⟩, 314572800)] := by decide
  have hbest : (sameTitleFeeds.ranked ⟨1, 1, 1⟩).head?.map (fun c => c.release.size) =
      some 838860800 := by decide
  obtain ⟨⟨key, call⟩, hm, he⟩ := List.mem_map.mp (hcalls ▸ List.mem_singleton.mpr rfl)
  simp only [Prod.mk.injEq] at he
  obtain ⟨c, hc, hrel⟩ := h _ _ key call hm
  rw [he.1] at hc
  rw [hc, Option.map_some, Option.some.injEq, ← hrel, he.2] at hbest
  cases hbest

end Sonarr.RssSync
