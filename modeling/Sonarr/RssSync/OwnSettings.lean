import Sonarr.RssSync.Matching

namespace Sonarr.RssSync
open Lib Sonarr.Parser Profiles CustomFormats DecisionEngine Providers Inputs

/-- `GetByID` on the stored profiles. -/
def getProfile (store : List QualityProfile) (id : Int) : Option QualityProfile :=
  store.find? (fun p => p.id == id)

/-- The profile a series asks for; 1 when it has none. -/
def ownProfileID (s : Series) : Int := if s.qualityProfileID = 0 then 1 else s.qualityProfileID

/-- A run on a library and the stored profiles, of which it loads profile 1. -/
def Inputs.on (inp : Inputs) (lib : Library) (store : List QualityProfile) : Inputs :=
  { inp with reads := readsOf lib, profile1 := getProfile store 1 }

/-- The run scores, accepts and ranks with this profile, and one that has loaded it
decides on this grab. -/
structure DecidedUnder (inp : Inputs) (p : QualityProfile) (key : GroupKey) (call : GrabCall) :
    Prop where
  profile : inp.profile.id = p.id
  call : ({ inp with profile1 := some p } : Inputs).callFor key = some call

/-- Every grab is for a monitored series and decided under the series' own profile. -/
def RespectsSettings (inp : Inputs) (lib : Library) (store : List QualityProfile) (order : Walk) :
    Prop :=
  ∀ key call, (key, call) ∈ (inp.on lib store).calls order →
    ∃ s ∈ lib.series.rows, s.id = key.seriesID ∧ s.monitored = true ∧
      ∃ p, getProfile store (ownProfileID s) = some p ∧ DecidedUnder (inp.on lib store) p key call

/-- Every series that has an acceptable release in the feeds is monitored and asks for
profile 1, which is stored. -/
def DefaultSettings (inp : Inputs) (lib : Library) (store : List QualityProfile) : Prop :=
  ∀ defs formats, inp.qualityDefs = some defs → inp.customFormats = some formats →
    ∀ rel ∈ inp.releases, ∀ key ep, (key, ep) ∈ (inp.on lib store).considered rel →
      (inp.on lib store).verdict defs formats rel key ep = .accept →
      ∀ s ∈ lib.series.rows, s.id = key.seriesID →
        s.monitored = true ∧ (s.qualityProfileID = 0 ∨ s.qualityProfileID = 1) ∧
          (getProfile store 1).isSome = true

section Profiles
variable {inp : Inputs} {lib : Library} {store : List QualityProfile} {key : GroupKey}

theorem getProfile_id (h : getProfile store n = some p) : p.id = n := by
  simpa using List.find?_some h

/-- With profile 1 missing, a profile of that id stands in for it. -/
theorem profile_id (inp : Inputs) (lib : Library) (store : List QualityProfile) :
    (inp.on lib store).profile.id = 1 := by
  unfold Inputs.profile Inputs.on
  cases h : getProfile store 1 with
  | none => rfl
  | some p => exact getProfile_id h

theorem ownProfileID_eq_one :
    ownProfileID s = 1 ↔ s.qualityProfileID = 0 ∨ s.qualityProfileID = 1 := by
  unfold ownProfileID
  split <;> omega

theorem considered_series (h : (key, ep) ∈ (inp.on lib store).considered rel) :
    ∃ s ∈ lib.series.rows, s.id = key.seriesID := by
  have hmatch := considered_matched h
  unfold matchedSeries at hmatch
  split at hmatch
  · cases hmatch
  · obtain ⟨s, hs, hid⟩ := Option.map_eq_some_iff.mp hmatch
    exact ⟨s, Library.mem_listSeries.mp (List.mem_of_find?_eq_some hs), hid⟩

end Profiles

/-- A run asks neither whether a series is monitored nor for its profile, so it keeps
to both exactly when they are what the run goes by. -/
theorem respects_settings_iff (inp : Inputs) (lib : Library) (store : List QualityProfile)
    (order : Walk) : RespectsSettings inp lib store order ↔ DefaultSettings inp lib store := by
  constructor
  · intro h defs formats hd hf rel hrel key ep hcon hacc s hs hid
    have hc : ⟨(inp.on lib store).remote defs formats rel key.seriesID ep.id, rel, ep.id⟩ ∈
        (inp.on lib store).accepted key :=
      mem_accepted_iff.mpr ⟨defs, formats, hd, hf, rel, hrel, ep, hcon, hacc, rfl⟩
    obtain ⟨_, _, call, _, _, _, hcall, _⟩ := callFor_of_accepted hc
    obtain ⟨s', hs', hid', hmon, p, hp, hunder⟩ := h key call ((mem_calls order).mpr hcall)
    have heq : s' = s := Table.eq_of_key hs' hs (hid'.trans hid.symm)
    subst heq
    have hone : ownProfileID s' = 1 := by
      rw [← getProfile_id hp, ← hunder.profile, profile_id]
    rw [hone] at hp
    exact ⟨hmon, ownProfileID_eq_one.mp hone, by rw [hp]; rfl⟩
  · intro h key call hcall
    obtain ⟨_, b, _, _, hb, _, _⟩ := callFor_eq_some.mp ((mem_calls order).mp hcall)
    obtain ⟨defs, formats, hd, hf, rel, hrel, ep, hcon, hacc, _⟩ := mem_accepted_iff.mp hb.mem
    obtain ⟨s, hs, hid⟩ := considered_series hcon
    obtain ⟨hmon, hown, hsome⟩ := h defs formats hd hf rel hrel key ep hcon hacc s hs hid
    obtain ⟨p, hp⟩ := Option.isSome_iff_exists.mp hsome
    refine ⟨s, hs, hid, hmon, p, ?_, ?_, ?_⟩
    · rw [ownProfileID_eq_one.mpr hown]
      exact hp
    · rw [profile_id, getProfile_id hp]
    · have hsame : ({ inp.on lib store with profile1 := some p } : Inputs) = inp.on lib store := by
        unfold Inputs.on
        rw [hp]
      rw [hsame]
      exact (mem_calls order).mp hcall

/-- A series that is to be had in quality 12 only. -/
def ownProfileLibrary : Library where
  series := ⟨[⟨1, "Breaking Bad", "breaking-bad", "/tv/Breaking Bad", 81189, "ended", "standard",
    true, 2, true, "all"⟩], 2, by decide, by decide⟩
  seasons := []
  episodes := unlinkedPilot
  files := Table.empty

def twoProfiles : List QualityProfile :=
  [⟨1, "Any", false, 0, [⟨12, true⟩, ⟨5, true⟩], 0, 0, []⟩,
    ⟨2, "Bluray", false, 0, [⟨12, true⟩], 0, 0, []⟩]

/-- A feed with an HDTV-720p release, of quality 5. -/
def hdtvFeed : Inputs where
  compile _ := none
  registry _ := some (fun _ => some (some [⟨"Breaking.Bad.S01E01.720p.HDTV.x264-GROUP",
    "https://example.com/1", 150 * 1024 * 1024, "A", .usenet⟩]))
  indexers := some [⟨1, "A", "Newznab", "", true⟩]
  qualityDefs := some [⟨5, "HDTV-720p", "television", "720p", 3, 200, 95⟩,
    ⟨12, "Bluray-1080p", "bluray", "1080p", 3, 400, 190⟩]
  customFormats := some []
  profile1 := none
  engine := [qualityAllowedSpec]
  reads := ⟨none, fun _ => none⟩

theorem other_profile_grabbed :
    ¬ RespectsSettings hdtvFeed ownProfileLibrary twoProfiles inOrder := by
  intro h
  have hcalls : ((hdtvFeed.on ownProfileLibrary twoProfiles).calls inOrder).map
      (fun kc => kc.2.episodeIDs) = [[1]] := by decide +kernel
  obtain ⟨⟨key, call⟩, hm, _⟩ := List.mem_map.mp (hcalls ▸ List.mem_singleton.mpr rfl)
  obtain ⟨s, hs, _, _, p, hp, hunder⟩ := h key call hm
  have hid := hunder.profile
  rw [profile_id, getProfile_id hp, List.mem_singleton.mp hs] at hid
  exact absurd hid (by decide)

end Sonarr.RssSync
