import Sonarr.Library.Store

namespace Sonarr
open Lib Commands

/-- Conversion to 32 bits. -/
def toInt32 (n : Int) : Int := Int.bmod n 4294967296

theorem toInt32_of_fits (lo : -2147483648 ≤ n) (hi : n < 2147483648) : toInt32 n = n := by
  unfold toInt32
  exact Int.bmod_eq_of_le (by omega) (by omega)

def Season.key (s : Season) : Nat × Int := (s.seriesID, s.seasonNumber)

/-- The columns of `episodes` that are unique together. -/
def Episode.pair (e : Episode) : Nat × Int × Int := (e.seriesID, e.seasonNumber, e.episodeNumber)

/-- Each of these columns of `series` is unique. -/
def Series.clashes (s r : Series) : Bool :=
  r.tvdbID == s.tvdbID || r.slug == s.slug || r.path == s.path

theorem Series.clashes_comm (s r : Series) : s.clashes r = r.clashes s := by
  simp [Series.clashes, Bool.beq_comm]

/-- An empty `MonitorNewItems` is stored as "all". -/
def Series.stored (s : Series) : Series :=
  { s with monitorNewItems := if s.monitorNewItems = "" then "all" else s.monitorNewItems }

theorem episode_key (e : Episode) (id : Nat) : Keyed.key { e with id } = id := rfl
theorem series_key (s : Series) (id : Nat) : Keyed.key { s with id } = id := rfl
theorem file_key (f : EpisodeFile) (id : Nat) : Keyed.key { f with id } = id := rfl

namespace Library
variable (lib : Library)

def empty : Library := ⟨Table.empty, [], Table.empty, Table.empty⟩

def hasSeries (id : Nat) : Bool := lib.series.rows.any (fun s => s.id == id)

/-- The row with its id; none if it clashes with another. The schema refuses a quality profile that
does not exist as well, but the profiles are no part of the library. -/
def createSeries (s : Series) : Option (Series × Library) :=
  if lib.series.rows.any s.clashes then none
  else some ({ s.stored with id := lib.series.next },
    { lib with series := lib.series.insert (fun id => { s.stored with id }) (series_key _) })

/-- An update of no row is no error. -/
def updateSeries (s : Series) : Option Library :=
  if lib.hasSeries s.id && lib.series.rows.any (fun r => r.id != s.id && s.clashes r) then none
  else some { lib with
    series := lib.series.update (fun r => r.id == s.id) (fun r => { s.stored with id := r.id })
      (fun r => series_key s.stored r.id) }

/-- What refers to the series is deleted with it. -/
def deleteSeries (id : Nat) : Library where
  series := lib.series.delete (fun s => s.id == id)
  seasons := lib.seasons.filter (fun s => s.seriesID != id)
  episodes := lib.episodes.delete (fun e => e.seriesID == id)
  files := lib.files.delete (fun f => f.seriesID == id)

def upsertSeason (s : Season) : Option Library :=
  if lib.hasSeries s.seriesID then some { lib with seasons := upsert Season.key s lib.seasons }
  else none

def listSeasons (seriesID : Nat) : List Season :=
  stableSort (fun a b => a.seasonNumber < b.seasonNumber)
    (lib.seasons.filter (fun s => s.seriesID == seriesID))

def createEpisode (now : Int) (e : Episode) : Option Library :=
  if lib.hasSeries e.seriesID && !lib.episodes.rows.any (fun r => r.pair == e.pair) then
    some { lib with
      episodes := lib.episodes.insert (fun id => { e with id, updatedAt := sqliteTime now })
        (episode_key { e with updatedAt := sqliteTime now }) }
  else none

def updateEpisode (now : Int) (e : Episode) : Library :=
  { lib with
    episodes := lib.episodes.update (fun r => r.id == e.id) (e.assign now)
      (Episode.assign_key now e) }

def writeMonitored (now : Int) (id : Nat) (monitored : Bool) : Library :=
  { lib with
    episodes := lib.episodes.update (fun r => r.id == id)
      (fun r => { r with monitored, updatedAt := sqliteTime now }) (fun _ => rfl) }

/-- The row is looked up first, to name its series in the event. -/
def setMonitored (now : Int) (id : Nat) (monitored : Bool) : Option Library :=
  (lib.episodes.get id).map (fun _ => lib.writeMonitored now id monitored)

def createFile (f : EpisodeFile) : Option Library :=
  if lib.hasSeries f.seriesID then
    some { lib with files := lib.files.insert (fun id => { f with id }) (file_key f) }
  else none

/-- `ORDER BY season_number, relative_path`. -/
def listFiles (seriesID : Nat) : List EpisodeFile :=
  stableSort (fun a b => decide (a.seasonNumber < b.seasonNumber) ||
      (a.seasonNumber == b.seasonNumber &&
        decide (a.relativePath.toList.map Char.toNat < b.relativePath.toList.map Char.toNat)))
    (lib.files.rows.filter (fun f => f.seriesID == seriesID))

def deleteFile (id : Nat) : Option Library :=
  (lib.files.get id).map (fun _ => { lib with files := lib.files.delete (fun r => r.id == id) })

/-- What the schema enforces. -/
structure Constraints (lib : Library) : Prop where
  series : ∀ a ∈ lib.series.rows, ∀ b ∈ lib.series.rows, a.clashes b = true → a = b
  seasons : (lib.seasons.map Season.key).Nodup
  pairs : ∀ a ∈ lib.episodes.rows, ∀ b ∈ lib.episodes.rows, a.pair = b.pair → a = b
  seasonOwned : ∀ s ∈ lib.seasons, lib.hasSeries s.seriesID = true
  episodeOwned : ∀ e ∈ lib.episodes.rows, lib.hasSeries e.seriesID = true
  fileOwned : ∀ f ∈ lib.files.rows, lib.hasSeries f.seriesID = true

end Library

/-- A library as the database can hold it. -/
structure Database extends Library where
  constraints : toLibrary.Constraints

def Database.empty : Database where
  toLibrary := Library.empty
  constraints := ⟨by decide, by decide, by decide, by decide, by decide, by decide⟩

namespace Library
variable {lib : Library}

theorem mem_listForSeries :
    e ∈ lib.listForSeries seriesID ↔ e ∈ lib.episodes.rows ∧ e.seriesID = seriesID := by
  unfold listForSeries stableSort
  rw [(List.perm_insertionSort _ _).mem_iff, List.mem_filter]
  simp

theorem mem_listFiles :
    f ∈ lib.listFiles seriesID ↔ f ∈ lib.files.rows ∧ f.seriesID = seriesID := by
  unfold listFiles stableSort
  rw [(List.perm_insertionSort _ _).mem_iff, List.mem_filter]
  simp

theorem mem_listSeries : s ∈ lib.listSeries ↔ s ∈ lib.series.rows :=
  (List.perm_insertionSort _ _).mem_iff

theorem hasSeries_iff :
    lib.hasSeries seriesID = true ↔ ∃ s ∈ lib.series.rows, s.id = seriesID := by
  simp [hasSeries]

theorem mem_updateEpisode : r ∈ (lib.updateEpisode now e).episodes.rows ↔
    ∃ q ∈ lib.episodes.rows, r = if q.id = e.id then e.assign now q else q := by
  simp only [updateEpisode, Table.mem_update, beq_iff_eq]

theorem mem_writeMonitored : r ∈ (lib.writeMonitored now episodeID m).episodes.rows ↔
    ∃ q ∈ lib.episodes.rows,
      r = if q.id = episodeID then { q with monitored := m, updatedAt := sqliteTime now } else q := by
  simp only [writeMonitored, Table.mem_update, beq_iff_eq]

/-- A created episode was allowed and is the one new row. -/
theorem createEpisode_some (h : lib.createEpisode now e = some lib') :
    lib.hasSeries e.seriesID = true ∧ (∀ r ∈ lib.episodes.rows, r.pair ≠ e.pair) ∧
      lib'.series = lib.series ∧ lib'.seasons = lib.seasons ∧ lib'.files = lib.files ∧
      lib'.episodes.next = lib.episodes.next + 1 ∧
      ∀ r, r ∈ lib'.episodes.rows ↔ r ∈ lib.episodes.rows ∨
        r = { e with id := lib.episodes.next, updatedAt := sqliteTime now } := by
  unfold createEpisode at h
  split at h
  · rename_i hc
    cases h
    simp only [Bool.and_eq_true, Bool.not_eq_true', List.any_eq_false, beq_iff_eq] at hc
    exact ⟨hc.1, hc.2, rfl, rfl, rfl, rfl, fun r => Table.mem_insert⟩
  · cases h

theorem createEpisode_isSome (now : Int) (hs : lib.hasSeries e.seriesID = true)
    (hp : ∀ r ∈ lib.episodes.rows, r.pair ≠ e.pair) :
    ∃ lib', lib.createEpisode now e = some lib' := by
  have hany : lib.episodes.rows.any (fun r => r.pair == e.pair) = false := by simpa using hp
  simp [createEpisode, hs, hany]

/-- A created file belongs to a series and is the one new row. -/
theorem createFile_some (h : lib.createFile f = some lib') :
    lib.hasSeries f.seriesID = true ∧ lib' = { lib with files := lib'.files } ∧
      ∀ r, r ∈ lib'.files.rows ↔ r ∈ lib.files.rows ∨ r = { f with id := lib.files.next } := by
  unfold createFile at h
  split at h
  · rename_i hs
    cases h
    exact ⟨hs, rfl, fun r => Table.mem_insert⟩
  · cases h

theorem deleteFile_some (h : lib.deleteFile n = some lib') :
    lib' = { lib with files := lib'.files } ∧
      ∀ r, r ∈ lib'.files.rows ↔ r ∈ lib.files.rows ∧ r.id ≠ n := by
  obtain ⟨_, _, rfl⟩ := Option.map_eq_some_iff.mp h
  refine ⟨rfl, fun r => ?_⟩
  simp [Table.mem_delete]

/-- A created series clashes with none and is the one new row. -/
theorem createSeries_some (h : lib.createSeries s = some (s', lib')) :
    s' = { s.stored with id := lib.series.next } ∧ (∀ r ∈ lib.series.rows, s.clashes r = false) ∧
      lib' = { lib with series := lib'.series } ∧ lib'.series.next = lib.series.next + 1 ∧
      ∀ r, r ∈ lib'.series.rows ↔ r ∈ lib.series.rows ∨ r = s' := by
  unfold createSeries at h
  split at h
  · cases h
  · rename_i hc
    cases h
    rw [Bool.not_eq_true, List.any_eq_false] at hc
    exact ⟨rfl, fun r hr => by simpa using hc r hr, rfl, rfl, fun r => Table.mem_insert⟩

theorem hasSeries_createSeries (h : lib.createSeries s = some (s', lib')) :
    lib'.hasSeries seriesID = true ↔ lib.hasSeries seriesID = true ∨ seriesID = lib.series.next := by
  obtain ⟨rfl, _, _, _, hrows⟩ := createSeries_some h
  simp only [hasSeries_iff, hrows, or_and_right, exists_or, exists_eq_left]
  exact or_congr_right eq_comm

/-- A series keeps its id in an update, and every other series is as before. -/
theorem updateSeries_some (h : lib.updateSeries s = some lib') :
    lib' = { lib with series := lib'.series } ∧
      ∀ r, r ∈ lib'.series.rows ↔
        ∃ q ∈ lib.series.rows, r = if q.id = s.id then { s.stored with id := q.id } else q := by
  unfold updateSeries at h
  split at h
  · cases h
  · cases h
    exact ⟨rfl, fun r => by simp only [Table.mem_update, beq_iff_eq]⟩

theorem hasSeries_updateSeries (h : lib.updateSeries s = some lib') (id : Nat) :
    lib'.hasSeries id = lib.hasSeries id := by
  obtain ⟨_, hrows⟩ := updateSeries_some h
  rw [Bool.eq_iff_iff, hasSeries_iff, hasSeries_iff]
  constructor
  · rintro ⟨r, hr, rfl⟩
    obtain ⟨q, hq, rfl⟩ := (hrows r).mp hr
    refine ⟨q, hq, ?_⟩
    split <;> rfl
  · rintro ⟨q, hq, rfl⟩
    refine ⟨_, (hrows _).mpr ⟨q, hq, rfl⟩, ?_⟩
    split <;> rfl

/-- A write to an episode leaves its place in the series alone. -/
theorem pair_assign (now : Int) (e q : Episode) :
    (if q.id = e.id then e.assign now q else q).pair = q.pair := by
  split <;> rfl

namespace Constraints

theorem updateEpisode (h : lib.Constraints) : (lib.updateEpisode now e).Constraints where
  series := h.series
  seasons := h.seasons
  pairs := by
    intro a ha b hb hp
    obtain ⟨p, hp', rfl⟩ := mem_updateEpisode.mp ha
    obtain ⟨q, hq, rfl⟩ := mem_updateEpisode.mp hb
    rw [pair_assign, pair_assign] at hp
    rw [h.pairs p hp' q hq hp]
  seasonOwned := h.seasonOwned
  episodeOwned := by
    intro r hr
    obtain ⟨q, hq, rfl⟩ := mem_updateEpisode.mp hr
    have ho := h.episodeOwned q hq
    split <;> exact ho
  fileOwned := h.fileOwned

theorem createEpisode (h : lib.Constraints) (hc : lib.createEpisode now e = some lib') :
    lib'.Constraints := by
  obtain ⟨hs, hfresh, hser, hsea, hfil, _, hrows⟩ := createEpisode_some hc
  have hhas : ∀ id, lib'.hasSeries id = lib.hasSeries id := fun id => by
    unfold hasSeries
    rw [hser]
  refine ⟨hser ▸ h.series, hsea ▸ h.seasons, ?_, ?_, ?_, ?_⟩
  · intro a ha b hb hp
    rcases (hrows a).mp ha with ha | rfl
    · rcases (hrows b).mp hb with hb | rfl
      · exact h.pairs a ha b hb hp
      · exact absurd hp (hfresh a ha)
    · rcases (hrows b).mp hb with hb | rfl
      · exact absurd hp.symm (hfresh b hb)
      · rfl
  · intro s hm
    rw [hhas]
    exact h.seasonOwned s (hsea ▸ hm)
  · intro r hr
    rw [hhas]
    rcases (hrows r).mp hr with hr | rfl
    · exact h.episodeOwned r hr
    · exact hs
  · intro f hf
    rw [hhas]
    exact h.fileOwned f (hfil ▸ hf)

theorem upsertSeason (h : lib.Constraints) (hu : lib.upsertSeason s = some lib') :
    lib'.Constraints := by
  unfold Library.upsertSeason at hu
  split at hu
  · rename_i hs
    cases hu
    refine ⟨h.series, nodup_upsert h.seasons, h.pairs, ?_, h.episodeOwned, h.fileOwned⟩
    intro x hx
    rcases mem_upsert.mp hx with rfl | ⟨hx, _⟩
    · exact hs
    · exact h.seasonOwned x hx
  · cases hu

theorem createSeries (h : lib.Constraints) (hc : lib.createSeries s = some (s', lib')) :
    lib'.Constraints := by
  obtain ⟨hs, hclear, hlib, _, hrows⟩ := createSeries_some hc
  have hhas : ∀ id, lib.hasSeries id = true → lib'.hasSeries id = true :=
    fun id hid => (hasSeries_createSeries hc).mpr (.inl hid)
  have hnew : ∀ r ∈ lib.series.rows, s'.clashes r = false := by
    rw [hs]
    exact hclear
  refine ⟨?_, ?_, ?_, ?_, ?_, ?_⟩
  · intro a ha b hb hcl
    rcases (hrows a).mp ha with ha | rfl
    · rcases (hrows b).mp hb with hb | rfl
      · exact h.series a ha b hb hcl
      · rw [Series.clashes_comm, hnew a ha] at hcl
        cases hcl
    · rcases (hrows b).mp hb with hb | rfl
      · rw [hnew b hb] at hcl
        cases hcl
      · rfl
  · rw [hlib]
    exact h.seasons
  · rw [hlib]
    exact h.pairs
  · intro x hx
    rw [hlib] at hx
    exact hhas _ (h.seasonOwned x hx)
  · intro x hx
    rw [hlib] at hx
    exact hhas _ (h.episodeOwned x hx)
  · intro x hx
    rw [hlib] at hx
    exact hhas _ (h.fileOwned x hx)

theorem createFile (h : lib.Constraints) (hc : lib.createFile f = some lib') : lib'.Constraints := by
  obtain ⟨hs, hlib, hrows⟩ := createFile_some hc
  rw [hlib]
  refine ⟨h.series, h.seasons, h.pairs, h.seasonOwned, h.episodeOwned, ?_⟩
  intro x hx
  rcases (hrows x).mp hx with hx | rfl
  · exact h.fileOwned x hx
  · exact hs

theorem deleteFile (h : lib.Constraints) (hd : lib.deleteFile n = some lib') : lib'.Constraints := by
  obtain ⟨hlib, hrows⟩ := deleteFile_some hd
  rw [hlib]
  exact ⟨h.series, h.seasons, h.pairs, h.seasonOwned, h.episodeOwned,
    fun x hx => h.fileOwned x ((hrows x).mp hx).1⟩

theorem deleteSeries (h : lib.Constraints) (n : Nat) : (lib.deleteSeries n).Constraints := by
  have hhas : ∀ m, m ≠ n → lib.hasSeries m = true → (lib.deleteSeries n).hasSeries m = true := by
    intro m hne hm
    obtain ⟨s, hs, rfl⟩ := hasSeries_iff.mp hm
    exact hasSeries_iff.mpr ⟨s, Table.mem_delete.mpr ⟨hs, by simpa using hne⟩, rfl⟩
  refine ⟨?_, ?_, ?_, ?_, ?_, ?_⟩
  · intro a ha b hb
    exact h.series a (Table.mem_delete.mp ha).1 b (Table.mem_delete.mp hb).1
  · exact h.seasons.sublist (List.filter_sublist.map Season.key)
  · intro a ha b hb
    exact h.pairs a (Table.mem_delete.mp ha).1 b (Table.mem_delete.mp hb).1
  · intro x hx
    obtain ⟨hm, hne⟩ := List.mem_filter.mp hx
    exact hhas _ (by simpa using hne) (h.seasonOwned x hm)
  · intro x hx
    obtain ⟨hm, hne⟩ := Table.mem_delete.mp hx
    exact hhas _ (by simpa using hne) (h.episodeOwned x hm)
  · intro x hx
    obtain ⟨hm, hne⟩ := Table.mem_delete.mp hx
    exact hhas _ (by simpa using hne) (h.fileOwned x hm)

/-- The unique columns of a series that is updated are compared with all other rows. -/
theorem updateSeries (h : lib.Constraints) (hu : lib.updateSeries s = some lib') :
    lib'.Constraints := by
  have hhas := hasSeries_updateSeries hu
  obtain ⟨hlib, hrows⟩ := updateSeries_some hu
  have hclear : ∀ q ∈ lib.series.rows, q.id = s.id → ∀ r ∈ lib.series.rows, r.id ≠ s.id →
      s.clashes r = false := by
    intro q hq hid r hr hne
    unfold Library.updateSeries at hu
    split at hu
    · cases hu
    · rename_i hno
      rw [Bool.and_eq_true, not_and, hasSeries_iff] at hno
      have hall := hno ⟨q, hq, hid⟩
      simp only [List.any_eq_true, Bool.and_eq_true, bne_iff_ne, not_exists, not_and] at hall
      simpa using hall r hr hne
  refine ⟨?_, ?_, ?_, ?_, ?_, ?_⟩
  · intro a ha b hb hc
    obtain ⟨p, hp, rfl⟩ := (hrows a).mp ha
    obtain ⟨q, hq, rfl⟩ := (hrows b).mp hb
    by_cases hpi : p.id = s.id
    · by_cases hqi : q.id = s.id
      · rw [if_pos hpi, if_pos hqi, hpi, hqi]
      · rw [if_pos hpi, if_neg hqi] at hc
        have hno := hclear p hp hpi q hq hqi
        exact absurd (hno.symm.trans hc) (by simp)
    · by_cases hqi : q.id = s.id
      · rw [if_neg hpi, if_pos hqi, Series.clashes_comm] at hc
        have hno := hclear q hq hqi p hp hpi
        exact absurd (hno.symm.trans hc) (by simp)
      · rw [if_neg hpi, if_neg hqi] at hc ⊢
        exact h.series p hp q hq hc
  · rw [hlib]
    exact h.seasons
  · rw [hlib]
    exact h.pairs
  · intro x hx
    rw [hhas]
    rw [hlib] at hx
    exact h.seasonOwned x hx
  · intro x hx
    rw [hhas]
    rw [hlib] at hx
    exact h.episodeOwned x hx
  · intro x hx
    rw [hhas]
    rw [hlib] at hx
    exact h.fileOwned x hx

end Constraints
end Library
end Sonarr
