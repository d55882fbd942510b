import Sonarr.RssSync.Plan

namespace Sonarr.RssSync
open Lib Profiles CustomFormats DecisionEngine Providers Inputs

/-- A run of the wired application on a library. -/
def appInputs (compile : Compile) (wiring : Wiring) (lib : Library) (registry : IndexerRegistry)
    (indexers : Option (List IndexerInstance)) (qualityDefs : Option (List QualityDefinition))
    (customFormats : Option (List CustomFormat)) (profile1 : Option QualityProfile) : Inputs :=
  { compile, registry, indexers, qualityDefs, customFormats, profile1
    engine := appEngine compile wiring, reads := readsOf lib }

/-- The definition a file's quality is stored under: by name, as migrated files
have it, or by source and resolution, as the importer writes it. -/
def fileQuality (inp : Inputs) (f : EpisodeFile) : Int :=
  match (inp.qualityDefs.getD []).find? (fun d =>
      d.name == f.qualityName || d.source ++ "-" ++ d.resolution == f.qualityName) with
  | some d => d.id
  | none => 0

/-- What an upgrade of a file is: one the profile allows and ranks higher. -/
def Upgrades (inp : Inputs) (qualityID : Int) (f : EpisodeFile) : Prop :=
  inp.profile.upgradeAllowed = true ∧
    inp.profile.index qualityID < inp.profile.index (fileQuality inp f)

/-- No grab of a run is for an episode that has a file it does not upgrade. -/
def UpgradesOnly (inp : Inputs) (lib : Library) (order : Walk) : Prop :=
  ∀ key call, (key, call) ∈ inp.calls order →
    ∀ ep ∈ lib.episodes.rows, ep.id ∈ call.episodeIDs →
      ∀ f ∈ lib.files.rows, ep.episodeFileID = some f.id →
        Upgrades inp (inp.qualityOf call.release) f

/-- Where an episode has a file, an accepted release that does not upgrade it is
outranked by another accepted one. -/
def OthersOutranked (inp : Inputs) (lib : Library) : Prop :=
  ∀ ep ∈ lib.episodes.rows, ∀ f ∈ lib.files.rows, ep.episodeFileID = some f.id →
    ∀ key, ∀ c ∈ inp.accepted key, c.episodeID = ep.id →
      ¬ Upgrades inp (inp.qualityOf c.release) f → ∃ d ∈ inp.accepted key, inp.prefers d c = true

variable {inp : Inputs} {lib : Library}

theorem qualityOf_title (h : a.title = b.title) : inp.qualityOf a = inp.qualityOf b := by
  unfold qualityOf
  rw [h]

theorem outranked_upgrades_only (order : Walk) (h : OthersOutranked inp lib) :
    UpgradesOnly inp lib order := by
  intro key call hcall ep hep hid f hf hfile
  obtain ⟨_, b, w, _, hb, hw, rfl⟩ := callFor_eq_some.mp ((mem_calls order).mp hcall)
  have hmem := List.mem_of_find?_eq_some hw
  have ht : w.release.title = b.release.title := by simpa using List.find?_some hw
  have hwe : w.episodeID = ep.id := (List.mem_singleton.mp hid).symm
  rw [qualityOf_title ht]
  by_contra hno
  -- the release ranked first has the same title as the one grabbed
  obtain ⟨d, hd, hpref⟩ := h ep hep f hf hfile key b hb.mem (accepted_episode hb.mem hmem ▸ hwe) hno
  rw [hb.unbeaten prefers_weak d hd] at hpref
  cases hpref

theorem upgrades_only_outranked (order : Walk) (h : UpgradesOnly inp lib order) :
    OthersOutranked inp lib := by
  intro ep hep f hf hfile key c hc hid hno
  by_contra hout
  have hbest : ∀ d ∈ inp.accepted key, inp.prefers d c = false := by
    intro d hd
    by_contra hpref
    exact hout ⟨d, hd, by simpa using hpref⟩
  obtain ⟨b, w, call, hb, hw, ht, hcall, hrel, heps⟩ := callFor_of_accepted hc
  have hwe : ep.id ∈ call.episodeIDs := by
    rw [heps, accepted_episode hw hc, hid]
    exact List.mem_singleton.mpr rfl
  have hup := h key call ((mem_calls order).mpr hcall) ep hep hwe f hf hfile
  rw [hrel, qualityOf_title ht] at hup
  -- the release ranked first and `c` are equally good, so of one place in the profile
  have hsame := unbeaten_same_quality hc hb.mem hbest (hb.unbeaten prefers_weak)
  rw [accepted_quality hc, accepted_quality hb.mem] at hsame
  exact hno ⟨hup.1, hsame ▸ hup.2⟩

/-- The engine is never told of the file an episode has, so only the ranking can
keep a run to upgrades. -/
theorem upgrades_only_iff (compile : Compile) (wiring : Wiring) (lib : Library)
    (registry : IndexerRegistry) (indexers : Option (List IndexerInstance))
    (qualityDefs : Option (List QualityDefinition)) (customFormats : Option (List CustomFormat))
    (profile1 : Option QualityProfile) (order : Walk) :
    UpgradesOnly (appInputs compile wiring lib registry indexers qualityDefs customFormats profile1)
      lib order ↔
    OthersOutranked
      (appInputs compile wiring lib registry indexers qualityDefs customFormats profile1) lib :=
  ⟨upgrades_only_outranked order, outranked_upgrades_only order⟩

/-- One monitored episode that has a Bluray-1080p file. -/
def blurayLibrary : Library where
  series := breakingBadOnly
  seasons := []
  episodes := ⟨[⟨1, 1, 1, 1, none, "Pilot", "", none, true, some 1, 0⟩], 2, by decide, by decide⟩
  files := ⟨[⟨1, 1, 1, "Season 01/Pilot.mkv", 4000000000, "GROUP", "bluray-1080p"⟩], 2,
    by decide, by decide⟩

def seededDefs : List QualityDefinition :=
  [⟨5, "HDTV-720p", "television", "720p", 3, 200, 95⟩,
    ⟨12, "Bluray-1080p", "bluray", "1080p", 3, 400, 190⟩]

/-- A feed with an HDTV-720p release of that episode, under a profile that puts
Bluray-1080p first and allows no upgrades. -/
def lesserRelease : Inputs :=
  appInputs (fun _ => none) ⟨seededDefs, fun _ => some [], some []⟩ blurayLibrary
    (fun _ => some (fun _ => some (some [⟨"Breaking.Bad.S01E01.720p.HDTV.x264-GROUP",
      "https://example.com/1", 150 * 1024 * 1024, "A", .usenet⟩])))
    (some [⟨1, "A", "Newznab", "", true⟩]) (some seededDefs) (some [])
    (some ⟨1, "Any", false, 0, [⟨12, true⟩, ⟨5, true⟩], 0, 0, []⟩)

theorem lesser_release_grabbed : ¬ UpgradesOnly lesserRelease blurayLibrary inOrder := by
  intro h
  have hcalls : (lesserRelease.calls inOrder).map (fun kc => kc.2.episodeIDs) =
      [[1]] := by decide +kernel
  obtain ⟨⟨key, call⟩, hm, he⟩ := List.mem_map.mp (hcalls ▸ List.mem_singleton.mpr rfl)
  have hup := h key call hm _ (List.mem_singleton.mpr rfl) (by rw [he]; decide)
    _ (List.mem_singleton.mpr rfl) rfl
  exact absurd hup.1 (by decide)

end Sonarr.RssSync
