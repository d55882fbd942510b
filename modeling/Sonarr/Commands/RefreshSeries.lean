import Sonarr.Library.Tables

namespace Sonarr.Commands.RefreshSeries
open Lib

/-- The metadata of a series that the handler uses. -/
structure SeriesInfo where
  title : String
  status : String
  deriving DecidableEq, Repr

/-- The metadata of an episode; the air date is a clock reading. -/
structure EpisodeInfo where
  seasonNumber : Int
  episodeNumber : Int
  absoluteEpisodeNumber : Option Int
  title : String
  overview : String
  airDate : Option Int
  deriving DecidableEq, Repr

/-- What the metadata source answers for a TVDB id, its cache invalidated. -/
structure Source where
  getSeries : Int → Except String SeriesInfo
  getEpisodes : Int → Except String (List EpisodeInfo)

/-- The key of `existingMap`, `"%d-%d"`. -/
def mapKey (season number : Int) : String := Text.decimal season ++ "-" ++ Text.decimal number

/-- A lookup in `existingMap`, in which a later episode replaces an earlier one. -/
def lookup (existing : List Episode) (ep : EpisodeInfo) : Option Episode :=
  existing.reverse.find? (fun e =>
    mapKey e.seasonNumber e.episodeNumber == mapKey ep.seasonNumber ep.episodeNumber)

/-- An existing episode with the metadata written over it. -/
def refreshed (ep : EpisodeInfo) (existing : Episode) : Episode :=
  { existing with
    title := ep.title, overview := ep.overview, airDateUtc := ep.airDate.map sqliteTime
    absoluteEpisodeNumber := ep.absoluteEpisodeNumber.map toInt32 }

/-- The episode that is created for metadata without one. -/
def created (seriesID : Nat) (ep : EpisodeInfo) : Episode where
  id := 0
  seriesID := seriesID
  seasonNumber := toInt32 ep.seasonNumber
  episodeNumber := toInt32 ep.episodeNumber
  absoluteEpisodeNumber := ep.absoluteEpisodeNumber.map toInt32
  title := ep.title
  overview := ep.overview
  airDateUtc := ep.airDate.map sqliteTime
  monitored := true
  episodeFileID := none
  updatedAt := 0

/-- Step 7 for one episode; what the store answers is not looked at. -/
def upsertEpisode (now : Int) (seriesID : Nat) (existing : List Episode) (lib : Library)
    (ep : EpisodeInfo) : Library :=
  match lookup existing ep with
  | some old => lib.updateEpisode now (refreshed ep old)
  | none => (lib.createEpisode now (created seriesID ep)).getD lib

def upsertEpisodes (now : Int) (seriesID : Nat) (existing : List Episode)
    (episodes : List EpisodeInfo) (lib : Library) : Library :=
  episodes.foldl (upsertEpisode now seriesID existing) lib

/-- Step 6 for one episode, with the season numbers seen before. -/
def upsertSeason (seriesID : Nat) (st : List Int × Library) (ep : EpisodeInfo) : List Int × Library :=
  if st.1.contains ep.seasonNumber then st
  else (ep.seasonNumber :: st.1,
    (st.2.upsertSeason ⟨seriesID, toInt32 ep.seasonNumber, true⟩).getD st.2)

def upsertSeasons (seriesID : Nat) (episodes : List EpisodeInfo) (lib : Library) : Library :=
  (episodes.foldl (upsertSeason seriesID) ([], lib)).2

inductive HandleError
  | getSeries (seriesID : Nat)
  | seriesMetadata (error : String)
  | updateSeries
  | getEpisodes (error : String)
  deriving DecidableEq, Repr

/-- `RefreshSeriesHandler.Handle` for a command body that names the series. -/
def handle (source : Source) (now : Int) (seriesID : Nat) (lib : Library) :
    Except HandleError Unit × Library :=
  match lib.series.get seriesID with
  | none => (.error (.getSeries seriesID), lib)
  | some series => match source.getSeries series.tvdbID with
    | .error e => (.error (.seriesMetadata e), lib)
    | .ok info => match lib.updateSeries { series with title := info.title, status := info.status } with
      | none => (.error .updateSeries, lib)
      | some lib => match source.getEpisodes series.tvdbID with
        | .error e => (.error (.getEpisodes e), lib)
        | .ok episodes =>
          let lib := upsertSeasons series.id episodes lib
          (.ok (), upsertEpisodes now series.id (lib.listForSeries series.id) episodes lib)

section Lookup

theorem mapKey_injective (h : mapKey s n = mapKey s' n') : s = s' ∧ n = n' := by
  have hl : (Text.decimal s).toList ++ '-' :: (Text.decimal n).toList =
      (Text.decimal s').toList ++ '-' :: (Text.decimal n').toList := by
    simpa [mapKey] using congrArg String.toList h
  obtain ⟨hs, hn⟩ := Text.decimal_dash_unique hl
  exact ⟨hs, Text.decimal_injective (String.toList_inj.mp hn)⟩

theorem lookup_some (h : lookup existing ep = some old) :
    old ∈ existing ∧ old.seasonNumber = ep.seasonNumber ∧ old.episodeNumber = ep.episodeNumber := by
  have hm := List.mem_of_find?_eq_some h
  have hk : mapKey old.seasonNumber old.episodeNumber = mapKey ep.seasonNumber ep.episodeNumber := by
    simpa using List.find?_some h
  exact ⟨List.mem_reverse.mp hm, mapKey_injective hk⟩

theorem lookup_none (h : lookup existing ep = none) (he : e ∈ existing) :
    ¬ (e.seasonNumber = ep.seasonNumber ∧ e.episodeNumber = ep.episodeNumber) := by
  rintro ⟨hs, hn⟩
  have := List.find?_eq_none.mp h e (List.mem_reverse.mpr he)
  simp [hs, hn] at this

/-- Everything that step 7 can do for an episode. -/
theorem upsertEpisode_cases (now : Int) (seriesID : Nat) (existing : List Episode) (lib : Library)
    (ep : EpisodeInfo) :
    (∃ old, lookup existing ep = some old ∧
      upsertEpisode now seriesID existing lib ep = lib.updateEpisode now (refreshed ep old)) ∨
    (lookup existing ep = none ∧
      (lib.createEpisode now (created seriesID ep) =
          some (upsertEpisode now seriesID existing lib ep) ∨
        (lib.createEpisode now (created seriesID ep) = none ∧
          upsertEpisode now seriesID existing lib ep = lib))) := by
  unfold upsertEpisode
  cases hl : lookup existing ep with
  | some old => exact .inl ⟨old, rfl, rfl⟩
  | none =>
    cases hc : lib.createEpisode now (created seriesID ep) with
    | none => exact .inr ⟨rfl, .inr ⟨rfl, rfl⟩⟩
    | some lib' => exact .inr ⟨rfl, .inl rfl⟩

end Lookup

section Episodes

/-- What step 7 leaves alone: all other tables and series, and of every episode
its place in the series, its flag and its file. -/
structure EpisodesKept (seriesID : Nat) (before after : Library) : Prop where
  rest : after = { before with episodes := after.episodes }
  kept : ∀ e ∈ before.episodes.rows, ∃ e' ∈ after.episodes.rows, e'.id = e.id ∧ e'.pair = e.pair ∧
    e'.monitored = e.monitored ∧ e'.episodeFileID = e.episodeFileID
  others : ∀ e, e.seriesID ≠ seriesID → (e ∈ after.episodes.rows ↔ e ∈ before.episodes.rows)

theorem EpisodesKept.refl (seriesID : Nat) (lib : Library) : EpisodesKept seriesID lib lib :=
  ⟨rfl, fun e he => ⟨e, he, rfl, rfl, rfl, rfl⟩, fun _ _ => Iff.rfl⟩

variable {start lib : Library}

/-- The row that an update is for is still the one that was listed. -/
theorem EpisodesKept.pair_of_id (hk : EpisodesKept seriesID start lib)
    (ho : old ∈ start.episodes.rows) (hq : q ∈ lib.episodes.rows) (hid : q.id = old.id) :
    q.pair = old.pair := by
  obtain ⟨o, hom, hoid, hop, _⟩ := hk.kept old ho
  rw [Table.eq_of_key hq hom (hid.trans hoid.symm)]
  exact hop

theorem EpisodesKept.update (hk : EpisodesKept seriesID start lib)
    (ho : old ∈ start.episodes.rows) (hs : old.seriesID = seriesID) (now : Int) (ep : EpisodeInfo) :
    EpisodesKept seriesID start (lib.updateEpisode now (refreshed ep old)) where
  rest := by
    have h := hk.rest
    rw [h]
    rfl
  kept := by
    intro e he
    obtain ⟨e', he', hid, hp, hm, hf⟩ := hk.kept e he
    refine ⟨_, Library.mem_updateEpisode.mpr ⟨e', he', rfl⟩, ?_⟩
    split
    · rename_i ho'
      have heq : e = old := Table.eq_of_key he ho (hid.symm.trans ho')
      subst heq
      exact ⟨hid, hp, rfl, rfl⟩
    · exact ⟨hid, hp, hm, hf⟩
  others := by
    intro r hr
    rw [← hk.others r hr, Library.mem_updateEpisode]
    have hown : ∀ q ∈ lib.episodes.rows, q.id = (refreshed ep old).id → q.seriesID = seriesID :=
      fun q hq hid => (congrArg Prod.fst (hk.pair_of_id ho hq hid)).trans hs
    constructor
    · rintro ⟨q, hq, rfl⟩
      split at hr
      · rename_i hid
        exact absurd (hown q hq hid) hr
      · rename_i hid
        rw [if_neg hid]
        exact hq
    · intro hm
      refine ⟨r, hm, ?_⟩
      rw [if_neg (fun hid => hr (hown r hm hid))]

theorem EpisodesKept.create (hk : EpisodesKept seriesID start lib)
    (hc : lib.createEpisode now (created seriesID ep) = some lib') :
    EpisodesKept seriesID start lib' := by
  obtain ⟨_, _, hser, hsea, hfil, _, hrows⟩ := Library.createEpisode_some hc
  refine ⟨?_, ?_, ?_⟩
  · rw [hk.rest] at hser hsea hfil
    cases lib'
    simp only at hser hsea hfil
    simp only [hser, hsea, hfil]
  · intro e he
    obtain ⟨e', he', h⟩ := hk.kept e he
    exact ⟨e', (hrows e').mpr (.inl he'), h⟩
  · intro e hne
    rw [← hk.others e hne, hrows]
    constructor
    · rintro (he | rfl)
      · exact he
      · exact absurd rfl hne
    · exact .inl

variable {existing : List Episode}
  (hex : ∀ old ∈ existing, old ∈ start.episodes.rows ∧ old.seriesID = seriesID)
include hex

theorem EpisodesKept.step (hk : EpisodesKept seriesID start lib) (now : Int) (ep : EpisodeInfo) :
    EpisodesKept seriesID start (upsertEpisode now seriesID existing lib ep) := by
  rcases upsertEpisode_cases now seriesID existing lib ep with
    ⟨old, hl, hu⟩ | ⟨_, hc | ⟨_, hu⟩⟩
  · obtain ⟨ho, hs⟩ := hex old (lookup_some hl).1
    rw [hu]
    exact hk.update ho hs now ep
  · exact hk.create hc
  · rw [hu]
    exact hk

theorem EpisodesKept.run (hk : EpisodesKept seriesID start lib) (now : Int)
    (episodes : List EpisodeInfo) :
    EpisodesKept seriesID start (upsertEpisodes now seriesID existing episodes lib) := by
  induction episodes generalizing lib with
  | nil => exact hk
  | cons ep episodes ih => exact ih (hk.step hex now ep)

end Episodes

section Seasons
variable {lib : Library}

/-- The row that step 6 writes for an episode. -/
def seasonRow (seriesID : Nat) (ep : EpisodeInfo) : Season := ⟨seriesID, toInt32 ep.seasonNumber, true⟩

theorem eq_of_seasonKey (h : lib.Constraints) (ha : a ∈ lib.seasons) (hb : b ∈ lib.seasons)
    (hk : a.key = b.key) : a = b :=
  List.inj_on_of_nodup_map h.seasons ha hb hk

/-- What holds of step 6 before each episode: the seasons seen are written. -/
structure Seen (seriesID : Nat) (st : List Int × Library) : Prop where
  constraints : st.2.Constraints
  owner : st.2.hasSeries seriesID = true
  written : ∀ n ∈ st.1, (⟨seriesID, toInt32 n, true⟩ : Season) ∈ st.2.seasons

/-- An episode's season is written, and no other is touched. -/
theorem upsertSeason_spec (h : Seen seriesID st) (ep : EpisodeInfo) :
    Seen seriesID (upsertSeason seriesID st ep) ∧
      (upsertSeason seriesID st ep).2 =
        { st.2 with seasons := (upsertSeason seriesID st ep).2.seasons } ∧
      ∀ x, x ∈ (upsertSeason seriesID st ep).2.seasons ↔
        x = seasonRow seriesID ep ∨ (x ∈ st.2.seasons ∧ x.key ≠ (seasonRow seriesID ep).key) := by
  by_cases hseen : ep.seasonNumber ∈ st.1
  · have hrow : seasonRow seriesID ep ∈ st.2.seasons := h.written _ hseen
    have hstep : upsertSeason seriesID st ep = st := by simp [upsertSeason, hseen]
    rw [hstep]
    refine ⟨h, rfl, fun x => ?_⟩
    constructor
    · intro hx
      by_cases hk : x.key = (seasonRow seriesID ep).key
      · exact .inl (eq_of_seasonKey h.constraints hx hrow hk)
      · exact .inr ⟨hx, hk⟩
    · rintro (rfl | ⟨hx, _⟩)
      · exact hrow
      · exact hx
  · have hu : st.2.upsertSeason (seasonRow seriesID ep) =
        some { st.2 with seasons := upsert Season.key (seasonRow seriesID ep) st.2.seasons } :=
      if_pos h.owner
    have hstep : upsertSeason seriesID st ep = (ep.seasonNumber :: st.1,
        { st.2 with seasons := upsert Season.key (seasonRow seriesID ep) st.2.seasons }) := by
      simp only [seasonRow] at hu
      simp [upsertSeason, hseen, hu, seasonRow]
    rw [hstep]
    refine ⟨⟨h.constraints.upsertSeason hu, h.owner, ?_⟩, rfl, fun x => mem_upsert⟩
    intro n hn
    rcases List.mem_cons.mp hn with rfl | hn
    · exact mem_upsert.mpr (.inl rfl)
    · by_cases hk : (toInt32 n) = (seasonRow seriesID ep).seasonNumber
      · exact mem_upsert.mpr (.inl (by rw [hk]; rfl))
      · exact mem_upsert.mpr (.inr ⟨h.written n hn, fun he => hk (congrArg Prod.snd he)⟩)

/-- After step 6 every season with metadata is monitored and all others are as before. -/
theorem mem_seasons_run (h : Seen seriesID st) (episodes : List EpisodeInfo) :
    (episodes.foldl (upsertSeason seriesID) st).2.Constraints ∧
      (episodes.foldl (upsertSeason seriesID) st).2 =
        { st.2 with seasons := (episodes.foldl (upsertSeason seriesID) st).2.seasons } ∧
      ∀ x, x ∈ (episodes.foldl (upsertSeason seriesID) st).2.seasons ↔
        (∃ ep ∈ episodes, x = seasonRow seriesID ep) ∨
          (x ∈ st.2.seasons ∧ ∀ ep ∈ episodes, x.key ≠ (seasonRow seriesID ep).key) := by
  induction episodes generalizing st with
  | nil => exact ⟨h.constraints, rfl, by simp⟩
  | cons ep episodes ih =>
    obtain ⟨hseen, hlib, hmem⟩ := upsertSeason_spec h ep
    obtain ⟨hcon, hrun, hrows⟩ := ih hseen
    refine ⟨hcon, ?_, fun x => ?_⟩
    · rw [hlib] at hrun
      exact hrun
    · rw [List.foldl_cons, hrows, hmem]
      simp only [List.mem_cons, exists_eq_or_imp, forall_eq_or_imp]
      constructor
      · rintro (h | ⟨rfl | ⟨hx, hk⟩, hall⟩)
        · exact .inl (.inr h)
        · exact .inl (.inl rfl)
        · exact .inr ⟨hx, hk, hall⟩
      · rintro ((rfl | h) | ⟨hx, hk, hall⟩)
        · -- The season may be listed again, under another number of the same 32 bits.
          by_cases hagain : ∃ ep' ∈ episodes, (seasonRow seriesID ep).key = (seasonRow seriesID ep').key
          · obtain ⟨ep', hep', hk⟩ := hagain
            refine .inl ⟨ep', hep', ?_⟩
            have hn := congrArg Prod.snd hk
            simp only [Season.key, seasonRow] at hn
            simp only [seasonRow, hn]
          · exact .inr ⟨.inl rfl, fun ep' hep' hk => hagain ⟨ep', hep', hk⟩⟩
        · exact .inl h
        · exact .inr ⟨.inr ⟨hx, hk⟩, hall⟩

theorem mem_upsertSeasons (h : lib.Constraints) (ho : lib.hasSeries seriesID = true)
    (episodes : List EpisodeInfo) :
    (upsertSeasons seriesID episodes lib).Constraints ∧
      upsertSeasons seriesID episodes lib =
        { lib with seasons := (upsertSeasons seriesID episodes lib).seasons } ∧
      ∀ x, x ∈ (upsertSeasons seriesID episodes lib).seasons ↔
        (∃ ep ∈ episodes, x = seasonRow seriesID ep) ∨
          (x ∈ lib.seasons ∧ ∀ ep ∈ episodes, x.key ≠ (seasonRow seriesID ep).key) :=
  mem_seasons_run ⟨h, ho, by simp⟩ episodes

end Seasons

section Handle
variable {lib : Library}

/-- The episodes that the handler gets metadata for. -/
def listed (source : Source) (seriesID : Nat) (lib : Library) : List EpisodeInfo :=
  match lib.series.get seriesID with
  | none => []
  | some series => match source.getSeries series.tvdbID, source.getEpisodes series.tvdbID with
    | .ok _, .ok episodes => episodes
    | _, _ => []

/-- Title and status are under no constraint. -/
theorem updateSeries_isSome (h : lib.Constraints) (hs : s ∈ lib.series.rows) (title status : String) :
    ∃ lib', lib.updateSeries { s with title, status } = some lib' := by
  have hclear : lib.series.rows.any (fun r =>
      r.id != s.id && Series.clashes { s with title, status } r) = false := by
    rw [List.any_eq_false]
    intro r hr hc
    simp only [Bool.and_eq_true, bne_iff_ne] at hc
    exact hc.1 (congrArg Series.id (h.series s hs r hr hc.2)).symm
  refine ⟨_, if_neg ?_⟩
  rw [hclear, Bool.and_false]
  exact Bool.false_ne_true

/-- A run changes nothing, or it goes through all its steps, perhaps with no
episodes. -/
theorem handle_cases (h : lib.Constraints) (source : Source) (now : Int) (seriesID : Nat) :
    (listed source seriesID lib = [] ∧ (handle source now seriesID lib).2 = lib) ∨
    ∃ (series : Series) (title status : String) (lib' : Library),
      lib.series.get seriesID = some series ∧
      lib.updateSeries { series with title, status } = some lib' ∧
      (handle source now seriesID lib).2 =
        upsertEpisodes now seriesID
          ((upsertSeasons seriesID (listed source seriesID lib) lib').listForSeries seriesID)
          (listed source seriesID lib) (upsertSeasons seriesID (listed source seriesID lib) lib') := by
  unfold handle listed
  cases hg : lib.series.get seriesID with
  | none => exact .inl ⟨rfl, rfl⟩
  | some series =>
    obtain ⟨hm, hid⟩ := Table.get_eq_some.mp hg
    have hid : series.id = seriesID := hid
    cases hs : source.getSeries series.tvdbID with
    | error e => exact .inl (by simp [hs])
    | ok info =>
      obtain ⟨lib', hu⟩ := updateSeries_isSome h hm info.title info.status
      refine .inr ⟨series, info.title, info.status, lib', rfl, hu, ?_⟩
      cases he : source.getEpisodes series.tvdbID with
      | error e => simp [hs, hu, he, upsertSeasons, upsertEpisodes]
      | ok episodes =>
        simp only [hs, hu, he]
        rw [hid]

/-- Step 7 starts from a library with the episodes and files from before the run. -/
theorem handle_run (h : lib.Constraints) (source : Source) (now : Int) (seriesID : Nat) :
    (listed source seriesID lib = [] ∧ (handle source now seriesID lib).2 = lib) ∨
    ∃ mid : Library, mid.Constraints ∧ mid.episodes = lib.episodes ∧ mid.files = lib.files ∧
      (∀ id, mid.hasSeries id = lib.hasSeries id) ∧ mid.hasSeries seriesID = true ∧
      (handle source now seriesID lib).2 =
        upsertEpisodes now seriesID (mid.listForSeries seriesID) (listed source seriesID lib) mid := by
  rcases handle_cases h source now seriesID with hsame | ⟨s, title, status, lib', hg, hu, hrun⟩
  · exact .inl hsame
  · obtain ⟨hm, hid⟩ := Table.get_eq_some.mp hg
    obtain ⟨hlib, _⟩ := Library.updateSeries_some hu
    have hhas := Library.hasSeries_updateSeries hu
    have howner : lib'.hasSeries seriesID = true := by
      rw [hhas]
      exact Library.hasSeries_iff.mpr ⟨s, hm, hid⟩
    obtain ⟨hcon, hmid, _⟩ := mem_upsertSeasons (h.updateSeries hu) howner
      (listed source seriesID lib)
    have hseries : ∀ id, (upsertSeasons seriesID (listed source seriesID lib) lib').hasSeries id =
        lib'.hasSeries id := by
      rw [hmid]
      exact fun _ => rfl
    refine .inr ⟨_, hcon, ?_, ?_, fun id => (hseries id).trans (hhas id),
      (hseries seriesID).trans howner, hrun⟩
    · rw [hmid, hlib]
    · rw [hmid, hlib]

end Handle

end Sonarr.Commands.RefreshSeries
