import Mathlib.Data.List.Chain
import Mathlib.Data.List.Perm.Subperm
import Sonarr.DecisionEngine.ReleaseProfiles
import Sonarr.DecisionEngine.Verdict
import Sonarr.Profiles.Seeds

namespace Sonarr.DecisionEngine
open Lib Sonarr.Parser Profiles CustomFormats

section Chains
variable {profile : QualityProfile}

theorem upgradableSpec_rejects : upgradableSpec.rejects remote profile = true ↔
    remote.existingFileQualityID ≠ 0 ∧
      profile.index remote.existingFileQualityID ≤ profile.index remote.qualityID := by
  rw [Spec.rejects_iff]
  simp only [upgradableSpec, profileIndex]
  by_cases hex : remote.existingFileQualityID = 0
  · simp [hex, acceptIt]
  · by_cases hle : profile.index remote.existingFileQualityID ≤ profile.index remote.qualityID
    · simp [hex, hle, rejectAs]
    · simp [hex, hle, acceptIt]

end Chains

section Cutoff
variable (compile : Compile) (w : Wiring)

/-- The item a profile has for a quality allows it. -/
def Allows (profile : QualityProfile) (qualityID : Int) : Prop :=
  ∃ item, profile.items.find? (fun it => it.qualityID == qualityID) = some item ∧
    item.allowed = true

/-- The blocklist or a global release profile keeps a title from being grabbed. -/
def Barred (seriesID : Nat) (title : String) : Prop :=
  (∃ entries, w.blocklist seriesID = some entries ∧
    blocklistMatches entries seriesID title = true) ∨
  ∃ ps, w.releaseProfiles = some ps ∧ ∃ p ∈ ps, p.enabled = true ∧ p.indexerID = 0 ∧
    p.isMatch compile title = false

theorem qualityAllowedSpec_rejects : qualityAllowedSpec.rejects remote profile = true ↔
    ¬ Allows profile remote.qualityID := by
  rw [Spec.rejects_iff]
  simp only [qualityAllowedSpec, Allows]
  cases profile.items.find? (fun it => it.qualityID == remote.qualityID) with
  | none => simp [rejectAs]
  | some item => cases hitem : item.allowed <;> simp [rejectAs, acceptIt, hitem]

theorem upgradeAllowedSpec_rejects : upgradeAllowedSpec.rejects remote profile = true ↔
    remote.existingFileQualityID ≠ 0 ∧ profile.upgradeAllowed = false := by
  rw [Spec.rejects_iff]
  simp only [upgradeAllowedSpec]
  by_cases hex : remote.existingFileQualityID = 0
  · simp [hex, acceptIt]
  · cases hup : profile.upgradeAllowed <;> simp [hex, acceptIt, rejectAs]

theorem blocklistedSpec_rejects : (blocklistedSpec w.blocklist).rejects remote profile = true ↔
    ∃ entries, w.blocklist remote.seriesID = some entries ∧
      blocklistMatches entries remote.seriesID remote.release.title = true := by
  rw [Spec.rejects_iff]
  simp only [blocklistedSpec]
  cases w.blocklist remote.seriesID with
  | none => simp [acceptIt]
  | some entries =>
    cases hm : blocklistMatches entries remote.seriesID remote.release.title <;>
      simp [acceptIt, rejectAs, hm]

/-- The release profiles the application hands to the spec. -/
def globalProfiles : Option (List ReleaseProfile) :=
  w.releaseProfiles.map (fun ps => ps.filter (fun p => p.enabled && p.indexerID == 0))

theorem releaseProfileSpec_rejects :
    (releaseProfileSpec compile (fun _ _ => globalProfiles w)).rejects remote profile = true ↔
      ∃ ps, w.releaseProfiles = some ps ∧ ∃ p ∈ ps, p.enabled = true ∧ p.indexerID = 0 ∧
        p.isMatch compile remote.release.title = false := by
  have hnot : ∀ d : Decision, d = .reject ↔ ¬ d = .accept := by
    intro d
    cases d <;> simp
  rw [Spec.rejects_iff, hnot, releaseProfileSpec_accepts]
  unfold globalProfiles ReleaseProfile.Passes
  cases w.releaseProfiles with
  | none => simp
  | some ps =>
    -- the spec asks for the flag once more, after the application has
    simp only [Option.map_some, Option.getD_some, List.mem_filter, Bool.and_eq_true, beq_iff_eq,
      not_forall, exists_prop, Bool.not_eq_true, Option.some.injEq, exists_eq_left', and_assoc]
    constructor
    · intro h
      obtain ⟨p, hp, hen, hid, -, hm⟩ := h
      exact ⟨p, hp, hen, hid, hm⟩
    · intro h
      obtain ⟨p, hp, hen, hid, hm⟩ := h
      exact ⟨p, hp, hen, hid, hen, hm⟩

theorem mem_appEngine (s : Spec) : s ∈ appEngine compile w ↔
    s = qualityAllowedSpec ∨ s = customFormatScoreSpec ∨ s = upgradeAllowedSpec ∨
    s = upgradableSpec ∨ s = acceptableSizeSpec w.qualityDefs ∨ s = notSampleSpec ∨
    s = repackSpec ∨ s = alreadyImportedSpec ∨ s = blocklistedSpec w.blocklist ∨
    s = releaseProfileSpec compile (fun _ _ => globalProfiles w) := by
  simp only [appEngine, globalProfiles, List.mem_cons, List.not_mem_nil, or_false]

theorem barred_rejected (h : Barred compile w remote.seriesID remote.release.title) :
    ∃ s ∈ appEngine compile w, s.rejects remote profile = true := by
  rcases h with hblock | hprofile
  · exact ⟨_, by simp [mem_appEngine], (blocklistedSpec_rejects w).mpr hblock⟩
  · exact ⟨_, by simp [mem_appEngine], (releaseProfileSpec_rejects compile w).mpr hprofile⟩

/-- Nothing else stands between an allowed, strictly better quality and an accept. -/
theorem plainRelease_accepted (hq : Allows profile qualityID)
    (hup : profile.upgradeAllowed = true)
    (hidx : profile.index qualityID < profile.index existing)
    (hbar : ¬ Barred compile w seriesID title) :
    ((appEngine compile w).evaluate
      (plainRelease qualityID existing 0 profile.minFormatScore seriesID title) profile).1 ≠
      .reject := by
  rw [ne_eq, appEngine_reject_iff]
  intro ⟨s, hs, hrej⟩
  rcases (mem_appEngine compile w s).mp hs with
    rfl | rfl | rfl | rfl | rfl | rfl | rfl | rfl | rfl | rfl
  · exact qualityAllowedSpec_rejects.mp hrej hq
  · simp [Spec.rejects, customFormatScoreSpec, plainRelease, acceptIt] at hrej
  · have := (upgradeAllowedSpec_rejects.mp hrej).2
    simp [hup] at this
  · exact Nat.not_le_of_lt hidx (upgradableSpec_rejects.mp hrej).2
  · simp [Spec.rejects, acceptableSizeSpec, plainRelease, acceptIt] at hrej
  · simp [Spec.rejects, notSampleSpec, plainRelease, acceptIt] at hrej
  · simp [Spec.rejects, repackSpec, plainRelease, acceptIt] at hrej
  · simp [Spec.rejects, alreadyImportedSpec, acceptIt] at hrej
  · have hblock := (blocklistedSpec_rejects w).mp hrej
    exact hbar (.inl hblock)
  · have hprofile := (releaseProfileSpec_rejects compile w).mp hrej
    exact hbar (.inr hprofile)

/-- A file is kept only if the profile forbids all upgrades or allows nothing better than the file,
or no title gets through. -/
theorem upgrades_stop_iff (profile : QualityProfile) {existing : Int} (hex : existing ≠ 0) :
    (∀ remote : RemoteEpisode, remote.existingFileQualityID = existing →
      ((appEngine compile w).evaluate remote profile).1 = .reject) ↔
    (profile.upgradeAllowed = false ∨
      (∀ q, Allows profile q → profile.index existing ≤ profile.index q) ∨
      ∀ seriesID title, Barred compile w seriesID title) := by
  constructor
  · intro h
    by_contra hnot
    simp only [not_or, not_forall, Bool.not_eq_false] at hnot
    obtain ⟨hup, ⟨q, hq, hidx⟩, seriesID, title, hbar⟩ := hnot
    exact plainRelease_accepted compile w hq hup (Nat.lt_of_not_le hidx) hbar (h _ rfl)
  · rintro h remote rfl
    rw [appEngine_reject_iff]
    rcases h with hup | hbest | hbar
    · exact ⟨_, by simp [mem_appEngine], upgradeAllowedSpec_rejects.mpr ⟨hex, hup⟩⟩
    · by_cases hq : Allows profile remote.qualityID
      · exact ⟨_, by simp [mem_appEngine], upgradableSpec_rejects.mpr ⟨hex, hbest _ hq⟩⟩
      · exact ⟨_, by simp [mem_appEngine], qualityAllowedSpec_rejects.mpr hq⟩
    · exact barred_rejected compile w (hbar _ _)

/-- The cutoff stops upgrades only where something else does: the profile forbids them all,
allows nothing better than the cutoff, or no title gets through. -/
theorem cutoff_stops_upgrades_iff (profile : QualityProfile)
    (hne : profile.cutoff ≠ 0) :
    (∀ remote : RemoteEpisode, remote.existingFileQualityID ≠ 0 →
      profile.index remote.existingFileQualityID ≤ profile.index profile.cutoff →
      ((appEngine compile w).evaluate remote profile).1 = .reject) ↔
    (profile.upgradeAllowed = false ∨
      (∀ q, Allows profile q → profile.index profile.cutoff ≤ profile.index q) ∨
      ∀ seriesID title, Barred compile w seriesID title) := by
  constructor
  · intro h
    apply (upgrades_stop_iff compile w profile hne).mp
    intro remote he
    exact h remote (he ▸ hne) (he ▸ Nat.le_refl _)
  · intro h remote hex hle
    refine (upgrades_stop_iff compile w profile hex).mpr ?_ remote rfl
    exact h.imp_right (Or.imp_left fun hbest q hq => Nat.le_trans hle (hbest q hq))

theorem cutoff_stops_upgrades_iff_forbidden :
    let profile : QualityProfile := ⟨1, "HD", false, 1, [⟨2, true⟩, ⟨1, true⟩], 0, 0, []⟩
    ((appEngine (fun _ => none) ⟨[], fun _ => none, none⟩).evaluate
      (plainRelease 2 1 0 0 1 "Show.S01E01") profile).1 = .reject := by
  intro profile
  apply (cutoff_stops_upgrades_iff (fun _ => none) ⟨[], fun _ => none, none⟩ profile
    (by decide)).mpr (.inl rfl)
  · decide
  · exact Nat.le_refl _

/-- The file has the cutoff quality, and a better release is still accepted. -/
theorem accepted_past_cutoff :
    let profile : QualityProfile := ⟨1, "HD", true, 1, [⟨2, true⟩, ⟨1, true⟩], 0, 0, []⟩
    let remote := plainRelease 2 1 0 0 1 "Show.S01E01"
    remote.existingFileQualityID = profile.cutoff ∧
      ((appEngine (fun _ => none) ⟨[], fun _ => none, none⟩).evaluate remote profile).1 =
        .accept := by
  decide

end Cutoff

section Default
variable (profileID : Int)

/-- The one profile of a new installation. -/
def defaultProfile : QualityProfile := anyProfile profileID (getAll qualityDefinitions)

example : seedDefaultProfile profileID [] (getAll qualityDefinitions) =
    [defaultProfile profileID] := rfl

/-- Whatever it is ranked against, the release with fewer lines comes first. -/
theorem fewer_lines_ranked_first {i j : Nat} (hscore : a.cfScore = b.cfScore)
    (ha : Seeded a.qualityID) (hb : Seeded b.qualityID)
    (hlt : linesOf qualityDefinitions a.qualityID < linesOf qualityDefinitions b.qualityID)
    (hi : (rank remotes (defaultProfile profileID))[i]? = some a)
    (hj : (rank remotes (defaultProfile profileID))[j]? = some b) : i < j := by
  apply stableSort_before (preferred_weak _) _ hi hj
  apply preferred_iff.mpr
  exact .inr ⟨hscore, .inl (anyProfile_fewer_lines_first profileID ha hb hlt)⟩

theorem fewer_lines_accepted (hq : Seeded remote.qualityID)
    (he : Seeded remote.existingFileQualityID)
    (hlt : linesOf qualityDefinitions remote.qualityID <
      linesOf qualityDefinitions remote.existingFileQualityID) :
    (upgradableSpec.evaluate remote (defaultProfile profileID)).1 = .accept := by
  have hidx := anyProfile_fewer_lines_first profileID hq he hlt
  cases hd : (upgradableSpec.evaluate remote (defaultProfile profileID)).1 with
  | accept => rfl
  | reject =>
    have hrej := upgradableSpec_rejects.mp (Spec.rejects_iff.mpr hd)
    exact absurd hrej.2 (Nat.not_le_of_lt hidx)

/-- The seeded profile never prefers fewer lines only where there are none to prefer: the
releases ranked have one resolution, and the release is not a step down from the file. -/
theorem default_profile_prefers_better_iff (remotes : List RemoteEpisode)
    (remote : RemoteEpisode) (hscore : ∀ a ∈ remotes, ∀ b ∈ remotes, a.cfScore = b.cfScore)
    (hseeded : ∀ a ∈ remotes, Seeded a.qualityID) (hq : Seeded remote.qualityID)
    (he : Seeded remote.existingFileQualityID) :
    ((rank remotes (defaultProfile profileID)).Pairwise (fun a b =>
        ¬ linesOf qualityDefinitions a.qualityID < linesOf qualityDefinitions b.qualityID) ∧
      ¬ ((upgradableSpec.evaluate remote (defaultProfile profileID)).1 = .accept ∧
        linesOf qualityDefinitions remote.qualityID <
          linesOf qualityDefinitions remote.existingFileQualityID)) ↔
    ((∀ a ∈ remotes, ∀ b ∈ remotes,
        linesOf qualityDefinitions a.qualityID = linesOf qualityDefinitions b.qualityID) ∧
      linesOf qualityDefinitions remote.existingFileQualityID ≤
        linesOf qualityDefinitions remote.qualityID) := by
  have hperm : (rank remotes (defaultProfile profileID)).Perm remotes := perm_stableSort _ _
  constructor
  · intro ⟨hrank, hup⟩
    have hle : ∀ a ∈ remotes, ∀ b ∈ remotes,
        linesOf qualityDefinitions b.qualityID ≤ linesOf qualityDefinitions a.qualityID := by
      intro a ha b hb
      apply Nat.le_of_not_lt
      intro hlt
      obtain ⟨i, hi, hia⟩ := List.mem_iff_getElem.mp (hperm.mem_iff.mpr ha)
      obtain ⟨j, hj, hjb⟩ := List.mem_iff_getElem.mp (hperm.mem_iff.mpr hb)
      have hij := fewer_lines_ranked_first profileID (hscore a ha b hb) (hseeded a ha)
        (hseeded b hb) hlt (List.getElem?_eq_some_iff.mpr ⟨hi, hia⟩)
        (List.getElem?_eq_some_iff.mpr ⟨hj, hjb⟩)
      have hnot := List.pairwise_iff_getElem.mp hrank i j hi hj hij
      rw [hia, hjb] at hnot
      exact hnot hlt
    refine ⟨fun a ha b hb => Nat.le_antisymm (hle b hb a ha) (hle a ha b hb), ?_⟩
    apply Nat.le_of_not_lt
    intro hlt
    exact hup ⟨fewer_lines_accepted profileID hq he hlt, hlt⟩
  · intro ⟨hsame, hle⟩
    refine ⟨?_, fun h => Nat.not_lt_of_le hle h.2⟩
    apply List.pairwise_of_forall_mem_list
    intro a ha b hb
    rw [hsame a (hperm.mem_iff.mp ha) b (hperm.mem_iff.mp hb)]
    exact Nat.lt_irrefl _

/-- Two releases of WEBDL-1080p, and one over a file of the same quality. -/
theorem default_profile_prefers_better_iff_same :
    let a := plainRelease 10 10 0 0 1 "Show.S01E01"
    (rank [a, a] (defaultProfile 1)).Pairwise (fun a b =>
      ¬ linesOf qualityDefinitions a.qualityID < linesOf qualityDefinitions b.qualityID) := by
  have hseeded : Seeded 10 := ⟨qualityDefinitions.get ⟨9, by decide⟩, by simp, by decide⟩
  refine ((default_profile_prefers_better_iff 1 _ (plainRelease 10 10 0 0 1 "Show.S01E01")
    ?_ ?_ hseeded hseeded).mpr ⟨?_, Nat.le_refl _⟩).1
  · simp
  · simpa [plainRelease] using hseeded
  · simp

/-- A 480p release is ranked before a 2160p one and accepted over a file of it. -/
theorem sdtv_before_2160p :
    let a := plainRelease 18 0 0 0 1 "Show.S01E01.2160p"
    let b := plainRelease 1 18 0 0 1 "Show.S01E01.SDTV"
    ((rank [a, b] (defaultProfile 1)).map RemoteEpisode.qualityID = [1, 18]) ∧
      (upgradableSpec.evaluate b (defaultProfile 1)).1 = .accept ∧
      linesOf qualityDefinitions b.qualityID < linesOf qualityDefinitions a.qualityID := by
  decide +kernel

end Default

end Sonarr.DecisionEngine
