import Sonarr.Commands.RefreshSeries

namespace Sonarr.Commands.RefreshSeries
open Lib

/-- Of what was there before, nothing but metadata of one series has changed. -/
structure MetadataOnly (seriesID : Nat) (before after : Library) : Prop where
  seasons : ∀ s ∈ before.seasons, ∃ s' ∈ after.seasons, s'.key = s.key ∧ s'.monitored = s.monitored
  episodes : ∀ e ∈ before.episodes.rows, ∃ e' ∈ after.episodes.rows, e'.id = e.id ∧
    e'.monitored = e.monitored ∧ e'.episodeFileID = e.episodeFileID
  settings : ∀ s ∈ before.series.rows, ∃ s' ∈ after.series.rows, s'.id = s.id ∧ s'.path = s.path ∧
    s'.monitored = s.monitored ∧ s'.qualityProfileID = s.qualityProfileID ∧
    s'.seasonFolder = s.seasonFolder
  otherSeries : ∀ s, s.id ≠ seriesID → (s ∈ after.series.rows ↔ s ∈ before.series.rows)
  otherSeasons : ∀ s, s.seriesID ≠ seriesID → (s ∈ after.seasons ↔ s ∈ before.seasons)
  otherEpisodes : ∀ e, e.seriesID ≠ seriesID →
    (e ∈ after.episodes.rows ↔ e ∈ before.episodes.rows)
  files : after.files = before.files

/-- Every season of the series for which episodes are listed is monitored. -/
def ListedMonitored (source : Source) (seriesID : Nat) (lib : Library) : Prop :=
  ∀ ep ∈ listed source seriesID lib, ∀ s ∈ lib.seasons,
    s.key = (seasonRow seriesID ep).key → s.monitored = true

section Settings
variable {lib lib' : Library} {series : Series} {title status : String}
  (hm : series ∈ lib.series.rows)
  (hu : lib.updateSeries { series with title, status } = some lib')
include hm hu

theorem updateSeries_settings (hs : s ∈ lib.series.rows) :
    ∃ s' ∈ lib'.series.rows, s'.id = s.id ∧ s'.path = s.path ∧ s'.monitored = s.monitored ∧
      s'.qualityProfileID = s.qualityProfileID ∧ s'.seasonFolder = s.seasonFolder := by
  refine ⟨_, ((Library.updateSeries_some hu).2 _).mpr ⟨s, hs, rfl⟩, ?_⟩
  split
  · rename_i hid
    have he : s = series := Table.eq_of_key hs hm hid
    subst he
    exact ⟨rfl, rfl, rfl, rfl, rfl⟩
  · exact ⟨rfl, rfl, rfl, rfl, rfl⟩

omit hm in
theorem updateSeries_others (hne : s.id ≠ series.id) :
    s ∈ lib'.series.rows ↔ s ∈ lib.series.rows := by
  rw [(Library.updateSeries_some hu).2]
  constructor
  · rintro ⟨q, hq, rfl⟩
    split at hne
    · rename_i hid
      exact absurd hid hne
    · rename_i hid
      rw [if_neg hid]
      exact hq
  · intro hs
    exact ⟨s, hs, (if_neg hne).symm⟩

end Settings

/-- What a run that goes through all its steps does to each table. -/
structure Refreshed (episodes : List EpisodeInfo) (seriesID : Nat) (before after : Library) : Prop where
  series : ∃ (s : Series) (title status : String) (lib : Library), s ∈ before.series.rows ∧
    s.id = seriesID ∧ before.updateSeries { s with title, status } = some lib ∧
    after.series = lib.series
  seasons : ∀ x, x ∈ after.seasons ↔ (∃ ep ∈ episodes, x = seasonRow seriesID ep) ∨
    (x ∈ before.seasons ∧ ∀ ep ∈ episodes, x.key ≠ (seasonRow seriesID ep).key)
  kept : ∀ e ∈ before.episodes.rows, ∃ e' ∈ after.episodes.rows, e'.id = e.id ∧ e'.pair = e.pair ∧
    e'.monitored = e.monitored ∧ e'.episodeFileID = e.episodeFileID
  others : ∀ e, e.seriesID ≠ seriesID → (e ∈ after.episodes.rows ↔ e ∈ before.episodes.rows)
  files : after.files = before.files

theorem handle_refreshed (h : lib.Constraints) (source : Source) (now : Int) (seriesID : Nat) :
    (listed source seriesID lib = [] ∧ (handle source now seriesID lib).2 = lib) ∨
      Refreshed (listed source seriesID lib) seriesID lib (handle source now seriesID lib).2 := by
  rcases handle_cases h source now seriesID with hsame | ⟨s, title, status, lib', hg, hu, hrun⟩
  · exact .inl hsame
  · obtain ⟨hm, hid⟩ := Table.get_eq_some.mp hg
    have howner : lib'.hasSeries seriesID = true := by
      rw [Library.hasSeries_updateSeries hu]
      exact Library.hasSeries_iff.mpr ⟨s, hm, hid⟩
    obtain ⟨hlib, _⟩ := Library.updateSeries_some hu
    obtain ⟨_, hmid, hrows⟩ := mem_upsertSeasons (h.updateSeries hu) howner
      (listed source seriesID lib)
    have hkept := (EpisodesKept.refl seriesID
      (upsertSeasons seriesID (listed source seriesID lib) lib')).run
      (fun old ho => Library.mem_listForSeries.mp ho) now (listed source seriesID lib)
    rw [← hrun] at hkept
    -- Step 4 writes only `series`, step 6 only `seasons` and step 7 only `episodes`.
    have hser : (handle source now seriesID lib).2.series = lib'.series := by
      rw [hkept.rest, hmid]
    have hsea : (handle source now seriesID lib).2.seasons =
        (upsertSeasons seriesID (listed source seriesID lib) lib').seasons := by
      rw [hkept.rest]
    have heps : (upsertSeasons seriesID (listed source seriesID lib) lib').episodes =
        lib.episodes := by
      rw [hmid, hlib]
    have hfil : (handle source now seriesID lib).2.files = lib.files := by
      rw [hkept.rest, hmid, hlib]
    have hold : lib'.seasons = lib.seasons := by rw [hlib]
    refine .inr ⟨⟨s, title, status, lib', hm, hid, hu, hser⟩, ?_, ?_, ?_, hfil⟩
    · rw [hsea, ← hold]
      exact hrows
    · rw [← heps]
      exact hkept.kept
    · rw [← heps]
      exact hkept.others

/-- A run writes seasons as monitored, whatever they were, and touches metadata only
exactly when those it writes were. -/
theorem metadata_only_iff (db : Database) (source : Source) (now : Int) (seriesID : Nat) :
    MetadataOnly seriesID db.toLibrary (handle source now seriesID db.toLibrary).2 ↔
      ListedMonitored source seriesID db.toLibrary := by
  rcases handle_refreshed db.constraints source now seriesID with ⟨hnone, hsame⟩ | hr
  · constructor
    · intro _ ep hep
      rw [hnone] at hep
      cases hep
    · intro _
      rw [hsame]
      exact ⟨fun s hs => ⟨s, hs, rfl, rfl⟩, fun e he => ⟨e, he, rfl, rfl, rfl⟩,
        fun s hs => ⟨s, hs, rfl, rfl, rfl, rfl, rfl⟩, fun _ _ => Iff.rfl, fun _ _ => Iff.rfl,
        fun _ _ => Iff.rfl, rfl⟩
  · constructor
    · intro hmo ep hep s hs hk
      obtain ⟨s', hs', hk', hmon⟩ := hmo.seasons s hs
      rcases (hr.seasons s').mp hs' with ⟨_, _, rfl⟩ | ⟨_, hno⟩
      · exact hmon.symm
      · exact absurd (hk'.trans hk) (hno ep hep)
    · intro hl
      obtain ⟨series, title, status, lib', hm, hid, hu, hser⟩ := hr.series
      refine ⟨?_, ?_, ?_, ?_, ?_, hr.others, hr.files⟩
      · intro s hs
        by_cases hlist : ∃ ep ∈ listed source seriesID db.toLibrary, s.key = (seasonRow seriesID ep).key
        · obtain ⟨ep, hep, hk⟩ := hlist
          exact ⟨seasonRow seriesID ep, (hr.seasons _).mpr (.inl ⟨ep, hep, rfl⟩), hk.symm,
            (hl ep hep s hs hk).symm⟩
        · refine ⟨s, (hr.seasons s).mpr (.inr ⟨hs, ?_⟩), rfl, rfl⟩
          exact fun ep hep hk => hlist ⟨ep, hep, hk⟩
      · intro e he
        obtain ⟨e', he', hid', _, hmon, hfile⟩ := hr.kept e he
        exact ⟨e', he', hid', hmon, hfile⟩
      · rw [hser]
        exact fun s hs => updateSeries_settings hm hu hs
      · rw [hser]
        exact fun s hne => updateSeries_others hu (hid ▸ hne)
      · intro s hne
        rw [hr.seasons]
        constructor
        · rintro (⟨_, _, rfl⟩ | ⟨hs, _⟩)
          · exact absurd rfl hne
          · exact hs
        · intro hs
          exact .inr ⟨hs, fun ep _ hk => hne (congrArg Prod.fst hk)⟩

/-- A series whose only season the user does not monitor. -/
def unmonitoredSeason : Database where
  series := breakingBadOnly
  seasons := [⟨1, 1, false⟩]
  episodes := ⟨[⟨1, 1, 1, 1, none, "Pilot", "", none, false, none, 0⟩], 2, by decide, by decide⟩
  files := Table.empty
  constraints := ⟨by decide, by decide, by decide, by decide, by decide, by decide⟩

/-- Metadata of a series that has one episode. -/
def pilotOnly : Source where
  getSeries _ := .ok ⟨"Breaking Bad", "ended"⟩
  getEpisodes _ := .ok [⟨1, 1, none, "Pilot", "", none⟩]

theorem season_monitored_again :
    ¬ MetadataOnly 1 unmonitoredSeason.toLibrary
      (handle pilotOnly 0 1 unmonitoredSeason.toLibrary).2 := by
  intro h
  have hafter : (handle pilotOnly 0 1 unmonitoredSeason.toLibrary).2.seasons = [⟨1, 1, true⟩] := by
    decide
  obtain ⟨s, hs, _, hm⟩ := h.seasons ⟨1, 1, false⟩ (List.mem_singleton.mpr rfl)
  rw [hafter, List.mem_singleton] at hs
  rw [hs] at hm
  cases hm

end Sonarr.Commands.RefreshSeries
