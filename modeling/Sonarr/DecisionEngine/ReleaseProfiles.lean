import Mathlib.Data.List.Forall2
import Sonarr.DecisionEngine.Specs

namespace Sonarr.DecisionEngine
open Lib Sonarr.Parser Profiles CustomFormats

variable {compile : Compile}

theorem termMatches_blank (title : String) : termMatches compile "" title = true := if_pos rfl

theorem isMatch_iff {p : ReleaseProfile} : p.isMatch compile title = true ↔
    (∀ term ∈ p.required, termMatches compile term title = true) ∧
      ∀ term ∈ p.ignored, termMatches compile term title = false := by
  simp [ReleaseProfile.isMatch]

theorem isMatch_eq_false_iff {p : ReleaseProfile} : p.isMatch compile title = false ↔
    (∃ term ∈ p.required, termMatches compile term title = false) ∨
      ∃ term ∈ p.ignored, termMatches compile term title = true := by
  rw [← Bool.not_eq_true, isMatch_iff, not_and_or]
  simp only [not_forall, Bool.not_eq_true, Bool.not_eq_false, exists_prop]

/-- A blank term that is required asks for nothing. -/
theorem isMatch_required_blank {p : ReleaseProfile} (h : terms.Perm ("" :: p.required)) :
    { p with required := terms }.isMatch compile title = p.isMatch compile title := by
  rw [Bool.eq_iff_iff, isMatch_iff, isMatch_iff]
  simp only [h.mem_iff, List.forall_mem_cons, termMatches_blank, true_and]

/-- A blank term that is ignored is in every title. -/
theorem isMatch_ignored_blank {p : ReleaseProfile} (h : terms.Perm ("" :: p.ignored)) :
    { p with ignored := terms }.isMatch compile title = false := by
  rw [isMatch_eq_false_iff]
  exact Or.inr ⟨"", h.mem_iff.mpr List.mem_cons_self, termMatches_blank title⟩

/-- A profile lets a title pass if it is disabled or matches. -/
def ReleaseProfile.Passes (compile : Compile) (p : ReleaseProfile) (title : String) : Prop :=
  p.enabled = true → p.isMatch compile title = true

theorem releaseProfileSpec_accepts (profiles : Nat → String → Option (List ReleaseProfile))
    (remote : RemoteEpisode) (quality : QualityProfile) :
    ((releaseProfileSpec compile profiles).evaluate remote quality).1 = .accept ↔
      ∀ p ∈ (profiles remote.seriesID remote.release.indexer).getD [],
        p.Passes compile remote.release.title := by
  unfold releaseProfileSpec
  dsimp only
  cases profiles remote.seriesID remote.release.indexer with
  | none => simp [acceptIt]
  | some ps =>
    dsimp only [Option.getD_some]
    cases hfind : ps.find? (fun p => p.enabled && !p.isMatch compile remote.release.title) with
    | none =>
      have hnone := List.find?_eq_none.mp hfind
      simp only [acceptIt, true_iff]
      intro p hp hen
      have := hnone p hp
      simpa [hen] using this
    | some p =>
      have hp := List.mem_of_find?_eq_some hfind
      have hm := List.find?_some hfind
      rw [Bool.and_eq_true, Bool.not_eq_true'] at hm
      simp only [rejectAs, reduceCtorEq, false_iff]
      intro hall
      have := hall p hp hm.1
      rw [hm.2] at this
      cases this

theorem Decision.eq_of_accept_iff {d e : Decision} (h : d = .accept ↔ e = .accept) : d = e := by
  cases d with
  | accept => exact (h.mp rfl).symm
  | reject =>
    cases e with
    | accept => exact h.mpr rfl
    | reject => rfl

/-- Two profiles that differ in the order of their terms only. -/
structure SameTerms (p q : ReleaseProfile) : Prop where
  eq : q = { p with required := q.required, ignored := q.ignored }
  required : p.required.Perm q.required
  ignored : p.ignored.Perm q.ignored

theorem SameTerms.passes_iff {p q : ReleaseProfile} (h : SameTerms p q) :
    p.Passes compile title ↔ q.Passes compile title := by
  have hen : q.enabled = p.enabled := by rw [h.eq]
  unfold ReleaseProfile.Passes
  rw [hen, isMatch_iff, isMatch_iff]
  simp only [h.required.mem_iff, h.ignored.mem_iff]

/-- The same profiles up to their order and that of the terms in each. -/
def Reordered (ps qs : List ReleaseProfile) : Prop := ∃ rs, List.Forall₂ SameTerms ps rs ∧ rs.Perm qs

theorem Reordered.passes_iff (h : Reordered ps qs) :
    (∀ p ∈ ps, p.Passes compile title) ↔ ∀ q ∈ qs, q.Passes compile title := by
  obtain ⟨rs, hterms, hperm⟩ := h
  simp only [← hperm.mem_iff]
  clear hperm
  induction hterms with
  | nil => simp
  | cons hpq _ ih => rw [List.forall_mem_cons, List.forall_mem_cons, hpq.passes_iff, ih]

/-- A blank term is neutral among the required ones; among the ignored ones only where the
profile rejects the title without it. The verdict is that of all enabled profiles together. -/
theorem blank_terms_neutral_iff (compile : Compile) :
    (∀ (p : ReleaseProfile) (title : String) (terms : List String),
      terms.Perm ("" :: p.required) →
        { p with required := terms }.isMatch compile title = p.isMatch compile title) ∧
    (∀ (p : ReleaseProfile) (title : String) (terms : List String),
      terms.Perm ("" :: p.ignored) →
        ({ p with ignored := terms }.isMatch compile title = p.isMatch compile title ↔
          (∃ term ∈ p.required, termMatches compile term title = false) ∨
            ∃ term ∈ p.ignored, termMatches compile term title = true)) ∧
    ∀ (profiles : Nat → String → Option (List ReleaseProfile)) (remote : RemoteEpisode)
      (quality : QualityProfile),
      (((releaseProfileSpec compile profiles).evaluate remote quality).1 = .accept ↔
        ∀ p ∈ (profiles remote.seriesID remote.release.indexer).getD [],
          p.enabled = true → p.isMatch compile remote.release.title = true) ∧
      ∀ profiles' : Nat → String → Option (List ReleaseProfile),
        Reordered ((profiles remote.seriesID remote.release.indexer).getD [])
          ((profiles' remote.seriesID remote.release.indexer).getD []) →
        ((releaseProfileSpec compile profiles').evaluate remote quality).1 =
          ((releaseProfileSpec compile profiles).evaluate remote quality).1 := by
  refine ⟨fun p title terms h => isMatch_required_blank h, ?_, ?_⟩
  · intro p title terms h
    rw [isMatch_ignored_blank h, ← isMatch_eq_false_iff]
    exact eq_comm
  · intro profiles remote quality
    refine ⟨releaseProfileSpec_accepts profiles remote quality, ?_⟩
    intro profiles' hre
    apply Decision.eq_of_accept_iff
    rw [releaseProfileSpec_accepts, releaseProfileSpec_accepts, hre.passes_iff]

/-- A profile without terms, and with one blank ignored term. -/
theorem blank_ignored_rejects :
    ReleaseProfile.isMatch (fun _ => none) ⟨1, "p", true, [], [], 0, []⟩
        "Show.S01E01.1080p.WEB-DL.x264" = true ∧
      ReleaseProfile.isMatch (fun _ => none) ⟨1, "p", true, [], [""], 0, []⟩
        "Show.S01E01.1080p.WEB-DL.x264" = false := by
  decide

end Sonarr.DecisionEngine
