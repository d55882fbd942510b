import Mathlib.Tactic.Linarith
import Sonarr.DecisionEngine.Verdict
import Sonarr.Profiles.Seeds

namespace Sonarr.DecisionEngine
open Lib Sonarr.Parser Profiles

/-- A size of so many MB a minute over a runtime, in bytes. -/
def perMinute (mb minutes : ℚ) : ℚ := mb * minutes * (1024 * 1024)

section
variable {d : QualityDefinition}

theorem acceptableSizeSpec_rejects (profile : QualityProfile)
    (hd : defs.find? (fun d => d.id == remote.qualityID) = some d) :
    (acceptableSizeSpec defs).rejects remote profile = true ↔
      remote.release.size ≠ 0 ∧
        ((0 < bytesOf d.minSize ∧ remote.release.size < bytesOf d.minSize) ∨
          (0 < d.maxSize ∧ bytesOf d.maxSize < remote.release.size)) := by
  rw [Spec.rejects_iff]
  simp only [acceptableSizeSpec, hd]
  by_cases hzero : remote.release.size = 0
  · simp [hzero, acceptIt]
  · by_cases hmin : 0 < bytesOf d.minSize ∧ remote.release.size < bytesOf d.minSize
    · simp [hzero, hmin, rejectAs]
    · by_cases hmax : 0 < d.maxSize ∧ bytesOf d.maxSize < remote.release.size
      · simp [hzero, hmin, hmax, rejectAs]
      · simp [hzero, hmin, hmax, acceptIt]

theorem bytesOf_le (hmb : 0 ≤ mb) : (bytesOf mb : ℚ) ≤ mb * (1024 * 1024) :=
  Binary64.toInt64_le (by positivity)

/-- The limit in bytes is passed where the exact one is, and always where it does not fit. -/
theorem bytesOf_lt_iff {size : Int} (hmb : 0 ≤ mb) (hsize : 0 ≤ size) :
    bytesOf mb < size ↔
      ¬ ((size : ℚ) ≤ mb * (1024 * 1024) ∧ mb * (1024 * 1024) < 9223372036854775808) := by
  unfold bytesOf
  by_cases hfits : mb * (1024 * 1024) < 9223372036854775808
  · rw [Binary64.toInt64_of_lt (by positivity) hfits, Int.floor_lt]
    simp [hfits]
  · rw [Binary64.toInt64_of_le (not_lt.mp hfits)]
    constructor
    · exact fun _ h => hfits h.2
    · intro _
      omega

theorem perMinute_le (hmb : 0 ≤ mb) (hr : 1 ≤ r) : mb * (1024 * 1024) ≤ perMinute mb r := by
  unfold perMinute
  nlinarith

/-- The limits are flat ones, so a release within the limits for its runtime is accepted
only if it does not need the runtime: it is no larger than a minute may be. -/
theorem size_limits_per_minute_iff (defs : List QualityDefinition) (d : QualityDefinition)
    (remote : RemoteEpisode) (profile : QualityProfile) (r : ℚ)
    (hd : defs.find? (fun d => d.id == remote.qualityID) = some d) (hmin : 0 ≤ d.minSize)
    (hle : d.minSize ≤ d.maxSize) (hr : 1 ≤ r) :
    ((perMinute d.minSize r ≤ remote.release.size →
        (remote.release.size : ℚ) ≤ perMinute d.maxSize r →
        ((acceptableSizeSpec defs).evaluate remote profile).1 = .accept) ∧
      (0 < d.maxSize → perMinute d.maxSize r < remote.release.size →
        ((acceptableSizeSpec defs).evaluate remote profile).1 = .reject)) ↔
    (perMinute d.minSize r ≤ remote.release.size →
      (remote.release.size : ℚ) ≤ perMinute d.maxSize r →
      remote.release.size = 0 ∨
        ((remote.release.size : ℚ) ≤ d.maxSize * (1024 * 1024) ∧
          d.maxSize * (1024 * 1024) < 9223372036854775808)) := by
  have hmax : 0 ≤ d.maxSize := le_trans hmin hle
  have hminr := perMinute_le hmin hr
  have hmaxr := perMinute_le hmax hr
  have hrej := acceptableSizeSpec_rejects profile hd
  have hnonneg : perMinute d.minSize r ≤ remote.release.size → 0 ≤ remote.release.size := by
    intro hlow
    have hlow0 : (0 : ℚ) ≤ remote.release.size :=
      le_trans (le_trans (by positivity) hminr) hlow
    exact_mod_cast hlow0
  constructor
  · intro ⟨haccept, _⟩ hlow hhigh
    by_contra hnot
    obtain ⟨hzero, hbig⟩ := not_or.mp hnot
    have hpos : 0 < d.maxSize := by
      apply lt_of_le_of_ne hmax
      intro hmax0
      rw [← hmax0, perMinute, zero_mul, zero_mul] at hhigh
      have hhigh' : remote.release.size ≤ 0 := by exact_mod_cast hhigh
      exact hzero (Int.le_antisymm hhigh' (hnonneg hlow))
    have hover := (bytesOf_lt_iff hmax (hnonneg hlow)).mpr hbig
    have := Spec.rejects_iff.mp (hrej.mpr ⟨hzero, .inr ⟨hpos, hover⟩⟩)
    rw [haccept hlow hhigh] at this
    cases this
  · intro hcond
    refine ⟨?_, ?_⟩
    · intro hlow hhigh
      cases hdec : ((acceptableSizeSpec defs).evaluate remote profile).1 with
      | accept => rfl
      | reject =>
        obtain ⟨hzero, hunder | ⟨hpos, hover⟩⟩ := hrej.mp (Spec.rejects_iff.mpr hdec)
        · have hunder' : (remote.release.size : ℚ) < bytesOf d.minSize := by
            exact_mod_cast hunder.2
          linarith [bytesOf_le hmin]
        · exact absurd ((hcond hlow hhigh).resolve_left hzero)
            ((bytesOf_lt_iff hmax (hnonneg hlow)).mp hover)
    · intro hpos hover
      have hlarge : d.maxSize * (1024 * 1024) < remote.release.size := lt_of_le_of_lt hmaxr hover
      have hsize : (0 : ℚ) < remote.release.size := lt_of_le_of_lt (by positivity) hlarge
      have hsize' : 0 < remote.release.size := by exact_mod_cast hsize
      apply Spec.rejects_iff.mp
      apply hrej.mpr
      refine ⟨Int.ne_of_gt hsize', .inr ⟨hpos, ?_⟩⟩
      apply (bytesOf_lt_iff hmax (Int.le_of_lt hsize')).mpr
      exact fun h => absurd h.1 (not_le.mpr hlarge)

end

/-- The seeded definition of WEBDL-1080p, with its limits of 3 and 400 MB a minute. -/
def webdl1080p : QualityDefinition := ⟨10, "WEBDL-1080p", "webdl", "1080p", 3, 400, 190⟩

example : webdl1080p ∈ qualityDefinitions := by decide +kernel

/-- 200 MiB are within the limits for 45 minutes, and below the one for a single minute. -/
theorem size_limits_per_minute_iff_small :
    ((acceptableSizeSpec [webdl1080p]).evaluate
      (plainRelease 10 0 209715200 0 1 "Show.S01E01") ⟨1, "Any", true, 0, [], 0, 0, []⟩).1 =
        .accept := by
  refine ((size_limits_per_minute_iff [webdl1080p] webdl1080p
    (plainRelease 10 0 209715200 0 1 "Show.S01E01") ⟨1, "Any", true, 0, [], 0, 0, []⟩ 45 rfl
    (by norm_num [webdl1080p]) (by norm_num [webdl1080p]) (by norm_num)).mpr ?_).1 ?_ ?_
  · intro _ _
    right
    norm_num [plainRelease, webdl1080p]
  · norm_num [perMinute, plainRelease, webdl1080p]
  · norm_num [perMinute, plainRelease, webdl1080p]

/-- 1 GiB is within the limits for 45 minutes, and rejected. -/
theorem gibibyte_rejected :
    let remote := plainRelease 10 0 1073741824 0 1 "Show.S01E01"
    perMinute webdl1080p.minSize 45 ≤ remote.release.size ∧
      (remote.release.size : ℚ) ≤ perMinute webdl1080p.maxSize 45 ∧
      ((acceptableSizeSpec qualityDefinitions).evaluate remote
        ⟨1, "Any", true, 0, [], 0, 0, []⟩).1 = .reject := by
  refine ⟨?_, ?_, ?_⟩
  · norm_num [perMinute, plainRelease, webdl1080p]
  · norm_num [perMinute, plainRelease, webdl1080p]
  · decide +kernel

end Sonarr.DecisionEngine
