import Sonarr.Lib.Selection
import Sonarr.Migrate.Run

namespace Sonarr.Migrate
open Lib

/-! What a migration that tolerates absent values reads: NULL in an optional column
stands for the absent value, and a row that still cannot be read is left out. -/

def SqlValue.ifNull (v absent : SqlValue) : SqlValue := if v = .null then absent else v

def EpisodeRow.filled (r : EpisodeRow) : EpisodeRow :=
  { r with
    absoluteEpisodeNumber := r.absoluteEpisodeNumber.ifNull (.integer 0)
    overview := r.overview.ifNull (.text "")
    episodeFileId := r.episodeFileId.ifNull (.integer 0) }

def EpisodeFileRow.filled (r : EpisodeFileRow) : EpisodeFileRow :=
  { r with releaseGroup := r.releaseGroup.ifNull (.text "") }

def HistoryRow.filled (r : HistoryRow) : HistoryRow :=
  { r with downloadId := r.downloadId.ifNull (.text ""), data := r.data.ifNull (.text "") }

def readTolerant (name : String) (scan : ρ → Option α) (table : Option (List ρ)) :
    Except String (List α) :=
  match table with
  | none => .error ("migrate: query " ++ name)
  | some rows => .ok (rows.filterMap scan)

def Source.tolerantReads (src : Source) : Reads where
  apiKey := src.apiKey.bind SqlValue.scanString
  qualityProfiles := readTolerant "QualityProfiles" QualityProfileRow.scan src.qualityProfiles
  series := readTolerant "Series" SeriesRow.scan src.series
  seasons := readTolerant "Seasons" SeasonRow.scan src.seasons
  episodeFiles := readTolerant "EpisodeFiles" (fun r => r.filled.scan) src.episodeFiles
  episodes := readTolerant "Episodes" (fun r => r.filled.scan) src.episodes
  indexers := readTolerant "Indexers" IndexerRow.scan src.indexers
  downloadClients := readTolerant "DownloadClients" DownloadClientRow.scan src.downloadClients
  notifications := readTolerant "Notifications" NotificationRow.scan src.notifications
  history := readTolerant "History" (fun r => r.filled.scan) src.history

/-- A run does what it would do if it tolerated absent values. -/
def Tolerates (json : Decoder) (src : Source) (opts : Options) : Prop :=
  ∀ env m, run json src.reads opts env m = run json src.tolerantReads opts env m

/-- The source has all the tables. -/
structure Source.HasTables (src : Source) : Prop where
  qualityProfiles : src.qualityProfiles.isSome = true
  series : src.series.isSome = true
  seasons : src.seasons.isSome = true
  episodeFiles : src.episodeFiles.isSome = true
  episodes : src.episodes.isSome = true
  indexers : src.indexers.isSome = true
  downloadClients : src.downloadClients.isSome = true
  notifications : src.notifications.isSome = true
  history : src.history.isSome = true

/-- Every row of a table has the property; a missing table has no rows. -/
def EveryRow (table : Option (List ρ)) (p : ρ → Prop) : Prop := ∀ r ∈ table.getD [], p r

/-- No optional column is NULL, the air date apart. -/
structure Source.NoNulls (src : Source) (opts : Options) : Prop where
  absoluteEpisodeNumber : EveryRow src.episodes (fun r => r.absoluteEpisodeNumber ≠ .null)
  overview : EveryRow src.episodes (fun r => r.overview ≠ .null)
  episodeFileId : EveryRow src.episodes (fun r => r.episodeFileId ≠ .null)
  releaseGroup : EveryRow src.episodeFiles (fun r => r.releaseGroup ≠ .null)
  downloadId : opts.skipHistory = false → EveryRow src.history (fun r => r.downloadId ≠ .null)
  data : opts.skipHistory = false → EveryRow src.history (fun r => r.data ≠ .null)

/-- Every row can be read, with NULL in an optional column taken as absent. -/
structure Source.Legible (src : Source) (opts : Options) : Prop where
  qualityProfiles : EveryRow src.qualityProfiles (fun r => r.scan.isSome = true)
  series : EveryRow src.series (fun r => r.scan.isSome = true)
  seasons : EveryRow src.seasons (fun r => r.scan.isSome = true)
  episodeFiles : EveryRow src.episodeFiles (fun r => r.filled.scan.isSome = true)
  episodes : EveryRow src.episodes (fun r => r.filled.scan.isSome = true)
  indexers : EveryRow src.indexers (fun r => r.scan.isSome = true)
  downloadClients : EveryRow src.downloadClients (fun r => r.scan.isSome = true)
  notifications : EveryRow src.notifications (fun r => r.scan.isSome = true)
  history : opts.skipHistory = false → EveryRow src.history (fun r => r.filled.scan.isSome = true)

/-! Reading a table. -/

/-- A table that is read has only rows that scan. -/
theorem scans_of_readTable {scan : ρ → Option α} (h : readTable name scan table = .ok out) :
    EveryRow table (fun r => (scan r).isSome = true) := by
  unfold readTable at h
  split at h
  · cases h
  · rename_i rows
    split at h
    · cases h
    · rename_i out hm
      exact isSome_of_mapM hm

theorem readTable_ok {scan : ρ → Option α} (htable : table.isSome = true)
    (h : EveryRow table (fun r => (scan r).isSome = true)) :
    readTable name scan table = .ok ((table.getD []).filterMap scan) := by
  obtain ⟨rows, rfl⟩ := Option.isSome_iff_exists.mp htable
  have hm : rows.mapM scan = some (rows.filterMap scan) := mapM_eq_filterMap h
  simp only [readTable, hm, Option.getD_some]

theorem readTolerant_ok {scan : ρ → Option α} (htable : table.isSome = true) :
    readTolerant name scan table = .ok ((table.getD []).filterMap scan) := by
  obtain ⟨rows, rfl⟩ := Option.isSome_iff_exists.mp htable
  rfl

/-- Rows that need no filling in are read as they are. -/
theorem readTable_ok_filled {scan : ρ → Option α} {filled : ρ → ρ} (htable : table.isSome = true)
    (hfilled : EveryRow table (fun r => filled r = r))
    (h : EveryRow table (fun r => (scan (filled r)).isSome = true)) :
    readTable name scan table = .ok ((table.getD []).filterMap (fun r => scan (filled r))) := by
  have hscan : EveryRow table (fun r => (scan r).isSome = true) := by
    intro r hr
    have hsome : (scan (filled r)).isSome = true := h r hr
    rwa [hfilled r hr] at hsome
  have hsame : (table.getD []).filterMap (fun r => scan (filled r)) =
      (table.getD []).filterMap scan :=
    List.filterMap_congr (fun r hr => by rw [hfilled r hr])
  rw [hsame, readTable_ok htable hscan]

/-! The rows with optional columns. -/

theorem SqlValue.ifNull_of_ne {v : SqlValue} (h : v ≠ .null) (absent : SqlValue) :
    v.ifNull absent = v := if_neg h

theorem EpisodeRow.filled_eq {r : EpisodeRow} (h₁ : r.absoluteEpisodeNumber ≠ .null)
    (h₂ : r.overview ≠ .null) (h₃ : r.episodeFileId ≠ .null) : r.filled = r := by
  simp [filled, SqlValue.ifNull_of_ne, h₁, h₂, h₃]

theorem EpisodeFileRow.filled_eq {r : EpisodeFileRow} (h : r.releaseGroup ≠ .null) :
    r.filled = r := by
  simp [filled, SqlValue.ifNull_of_ne, h]

theorem HistoryRow.filled_eq {r : HistoryRow} (h₁ : r.downloadId ≠ .null) (h₂ : r.data ≠ .null) :
    r.filled = r := by
  simp [filled, SqlValue.ifNull_of_ne, h₁, h₂]

/-- A NULL in any of these columns ends the reading of the table. -/
theorem EpisodeRow.present_of_scan {r : EpisodeRow} (h : r.scan.isSome = true) :
    r.absoluteEpisodeNumber ≠ .null ∧ r.overview ≠ .null ∧ r.episodeFileId ≠ .null := by
  refine ⟨?_, ?_, ?_⟩ <;>
  · intro hnull
    simp [scan, hnull, SqlValue.scanInt, SqlValue.scanString] at h

theorem EpisodeFileRow.present_of_scan {r : EpisodeFileRow} (h : r.scan.isSome = true) :
    r.releaseGroup ≠ .null := by
  intro hnull
  simp [scan, hnull, SqlValue.scanString] at h

theorem HistoryRow.present_of_scan {r : HistoryRow} (h : r.scan.isSome = true) :
    r.downloadId ≠ .null ∧ r.data ≠ .null := by
  constructor <;>
  · intro hnull
    simp [scan, hnull, SqlValue.scanString] at h

/-! The passes of a run. -/

section Run
variable {json : Decoder} {reads reads' : Reads} {opts : Options} {env : Env} {m m' : Migrator}

theorem attempt_pass_ok {read : Except String (List α)} {dry : List α → β}
    {write : List α → β × Migrator} {next : β → Migrator → Except String Report × Migrator}
    (h : attempt what m (pass opts read dry write m) next = (.ok report, m')) :
    ∃ sources n m₁, read = .ok sources ∧ next n m₁ = (.ok report, m') := by
  cases read with
  | error e => cases h
  | ok sources => exact ⟨sources, _, _, rfl, h⟩

/-- A run that returns a report has read every table it needs. -/
theorem gives_of_run (h : run json reads opts env m = (.ok report, m')) :
    ∃ t, reads.Gives opts t := by
  unfold run at h
  cases hkey : migrateAPIKey reads opts env m with
  | error e =>
    rw [hkey] at h
    cases h
  | ok m₁ =>
    rw [hkey] at h
    simp only [Except.map, attempt_ok] at h
    obtain ⟨profiles, _, _, h₁, h⟩ := attempt_pass_ok h
    obtain ⟨series, _, _, h₂, h⟩ := attempt_pass_ok h
    obtain ⟨seasons, _, _, h₃, h⟩ := attempt_pass_ok h
    obtain ⟨files, _, _, h₄, h⟩ := attempt_pass_ok h
    obtain ⟨episodes, _, _, h₅, h⟩ := attempt_pass_ok h
    obtain ⟨indexers, _, _, h₆, h⟩ := attempt_pass_ok h
    obtain ⟨clients, _, _, h₇, h⟩ := attempt_pass_ok h
    obtain ⟨notifications, _, _, h₈, h⟩ := attempt_pass_ok h
    cases hskip : opts.skipHistory with
    | true =>
      exact ⟨⟨profiles, series, seasons, files, episodes, indexers, clients, notifications, []⟩,
        h₁, h₂, h₃, h₄, h₅, h₆, h₇, h₈, fun hno => absurd (hskip.symm.trans hno) (by decide)⟩
    | false =>
      simp only [hskip] at h
      obtain ⟨history, _, _, h₉, _⟩ := attempt_pass_ok h
      exact ⟨⟨profiles, series, seasons, files, episodes, indexers, clients, notifications, history⟩,
        h₁, h₂, h₃, h₄, h₅, h₆, h₇, h₈, fun _ => h₉⟩

/-- A source that is read in full, and whose host config can be written, gives a report. -/
theorem exists_report (hread : reads.Gives opts t) (henv : env.configError = none) :
    ∃ report m', run json reads opts env m = (.ok report, m') := by
  cases hdry : opts.dryRun with
  | true => exact ⟨_, _, run_dry hread hdry⟩
  | false =>
    obtain ⟨m₁, hkey⟩ : ∃ m₁, migrateAPIKey reads opts env m = .ok m₁ := by
      unfold migrateAPIKey
      rw [henv]
      split
      · exact ⟨_, rfl⟩
      · exact ⟨_, if_neg (by simp [hdry])⟩
    exact ⟨_, _, run_write hread hdry hkey⟩

/-- A run depends on its readers' answers only. -/
theorem run_congr (h : reads.Gives opts t) (h' : reads'.Gives opts t)
    (hapi : reads.apiKey = reads'.apiKey) :
    run json reads opts env m = run json reads' opts env m := by
  cases hdry : opts.dryRun with
  | true => rw [run_dry h hdry, run_dry h' hdry]
  | false =>
    have hsame : migrateAPIKey reads opts env m = migrateAPIKey reads' opts env m := by
      unfold migrateAPIKey
      rw [hapi]
    cases hkey : migrateAPIKey reads opts env m with
    | error e => rw [run_error hkey, run_error (hsame ▸ hkey)]
    | ok m₁ => rw [run_write h hdry hkey, run_write h' hdry (hsame ▸ hkey)]

end Run

/-- The rows that are left when absent values are tolerated. -/
def Source.tolerantTables (src : Source) : Tables where
  qualityProfiles := (src.qualityProfiles.getD []).filterMap QualityProfileRow.scan
  series := (src.series.getD []).filterMap SeriesRow.scan
  seasons := (src.seasons.getD []).filterMap SeasonRow.scan
  episodeFiles := (src.episodeFiles.getD []).filterMap (fun r => r.filled.scan)
  episodes := (src.episodes.getD []).filterMap (fun r => r.filled.scan)
  indexers := (src.indexers.getD []).filterMap IndexerRow.scan
  downloadClients := (src.downloadClients.getD []).filterMap DownloadClientRow.scan
  notifications := (src.notifications.getD []).filterMap NotificationRow.scan
  history := (src.history.getD []).filterMap (fun r => r.filled.scan)

section Sources
variable {src : Source} {opts : Options}

theorem tolerantReads_gives (h : src.HasTables) (opts : Options) :
    src.tolerantReads.Gives opts src.tolerantTables where
  qualityProfiles := readTolerant_ok h.qualityProfiles
  series := readTolerant_ok h.series
  seasons := readTolerant_ok h.seasons
  episodeFiles := readTolerant_ok h.episodeFiles
  episodes := readTolerant_ok h.episodes
  indexers := readTolerant_ok h.indexers
  downloadClients := readTolerant_ok h.downloadClients
  notifications := readTolerant_ok h.notifications
  history := fun _ => readTolerant_ok h.history

/-- Without NULLs and unreadable rows the readers answer with all rows. -/
theorem reads_gives (h : src.HasTables) (hnull : src.NoNulls opts) (hlegible : src.Legible opts) :
    src.reads.Gives opts src.tolerantTables where
  qualityProfiles := readTable_ok h.qualityProfiles hlegible.qualityProfiles
  series := readTable_ok h.series hlegible.series
  seasons := readTable_ok h.seasons hlegible.seasons
  episodeFiles := readTable_ok_filled h.episodeFiles
    (fun r hr => EpisodeFileRow.filled_eq (hnull.releaseGroup r hr)) hlegible.episodeFiles
  episodes := readTable_ok_filled h.episodes
    (fun r hr => EpisodeRow.filled_eq (hnull.absoluteEpisodeNumber r hr) (hnull.overview r hr)
      (hnull.episodeFileId r hr)) hlegible.episodes
  indexers := readTable_ok h.indexers hlegible.indexers
  downloadClients := readTable_ok h.downloadClients hlegible.downloadClients
  notifications := readTable_ok h.notifications hlegible.notifications
  history := fun hskip => readTable_ok_filled h.history
    (fun r hr => HistoryRow.filled_eq (hnull.downloadId hskip r hr) (hnull.data hskip r hr))
    (hlegible.history hskip)

/-- Readers that answer have met no NULL. -/
theorem noNulls_of_gives (hread : src.reads.Gives opts t) :
    src.NoNulls opts := by
  have hfiles := scans_of_readTable hread.episodeFiles
  have hepisodes := scans_of_readTable hread.episodes
  have hhistory := fun hskip => scans_of_readTable (hread.history hskip)
  refine ⟨?_, ?_, ?_, ?_, ?_, ?_⟩
  · exact fun r hr => (EpisodeRow.present_of_scan (hepisodes r hr)).1
  · exact fun r hr => (EpisodeRow.present_of_scan (hepisodes r hr)).2.1
  · exact fun r hr => (EpisodeRow.present_of_scan (hepisodes r hr)).2.2
  · exact fun r hr => EpisodeFileRow.present_of_scan (hfiles r hr)
  · exact fun hskip r hr => (HistoryRow.present_of_scan (hhistory hskip r hr)).1
  · exact fun hskip r hr => (HistoryRow.present_of_scan (hhistory hskip r hr)).2

/-- Nor an unreadable row. -/
theorem legible_of_gives (hread : src.reads.Gives opts t) :
    src.Legible opts where
  qualityProfiles := scans_of_readTable hread.qualityProfiles
  series := scans_of_readTable hread.series
  seasons := scans_of_readTable hread.seasons
  episodeFiles := by
    intro r hr
    have hscan := scans_of_readTable hread.episodeFiles r hr
    rwa [EpisodeFileRow.filled_eq (EpisodeFileRow.present_of_scan hscan)]
  episodes := by
    intro r hr
    have hscan := scans_of_readTable hread.episodes r hr
    obtain ⟨h₁, h₂, h₃⟩ := EpisodeRow.present_of_scan hscan
    rwa [EpisodeRow.filled_eq h₁ h₂ h₃]
  indexers := scans_of_readTable hread.indexers
  downloadClients := scans_of_readTable hread.downloadClients
  notifications := scans_of_readTable hread.notifications
  history := by
    intro hskip r hr
    have hscan := scans_of_readTable (hread.history hskip) r hr
    obtain ⟨h₁, h₂⟩ := HistoryRow.present_of_scan hscan
    rwa [HistoryRow.filled_eq h₁ h₂]

end Sources

/-- Absent values and unreadable rows are tolerated exactly where there are none. -/
theorem tolerates_iff (json : Decoder) (src : Source) (opts : Options) (htables : src.HasTables) :
    Tolerates json src opts ↔ src.NoNulls opts ∧ src.Legible opts := by
  constructor
  · intro h
    let env : Env := ⟨fun _ _ => false, fun _ _ => 0, none⟩
    obtain ⟨report, m', hrun⟩ : ∃ report m',
        run json src.tolerantReads opts env (.start .empty) = (.ok report, m') :=
      exists_report (tolerantReads_gives htables opts) rfl
    obtain ⟨t, hread⟩ := gives_of_run ((h env _).trans hrun)
    exact ⟨noNulls_of_gives hread, legible_of_gives hread⟩
  · rintro ⟨hnull, hlegible⟩ env m
    exact run_congr (reads_gives htables hnull hlegible) (tolerantReads_gives htables opts) rfl

/-- A source with one series and one episode, whose absolute number is given. -/
def Source.withEpisode (absoluteEpisodeNumber : SqlValue) : Source where
  apiKey := none
  qualityProfiles := some []
  series := some [⟨.integer 1, .integer 81189, .text "Breaking Bad", .text "breakingbad",
    .text "ended", .text "/tv/Breaking Bad", .integer 1, .text "standard", .text "", .null⟩]
  seasons := some []
  episodeFiles := some []
  episodes := some [⟨.integer 1, .integer 1, .integer 1, .integer 1, absoluteEpisodeNumber,
    .text "Pilot", .text "", .null, .integer 1, .integer 0⟩]
  indexers := some []
  downloadClients := some []
  notifications := some []
  history := some []

theorem hasTables_withEpisode (v : SqlValue) : (Source.withEpisode v).HasTables :=
  ⟨rfl, rfl, rfl, rfl, rfl, rfl, rfl, rfl, rfl⟩

theorem numbered_episode_tolerated :
    Tolerates .failing (Source.withEpisode (.integer 1)) ⟨[], false, false⟩ := by
  refine (tolerates_iff .failing _ _ (hasTables_withEpisode _)).mpr ⟨?_, ?_⟩
  · constructor <;> simp [EveryRow, Source.withEpisode]
  · constructor <;> simp [EveryRow, Source.withEpisode] <;> rfl

/-- An episode without an absolute number, as standard series have them: the run fails
and the episode is lost, although NULL was to mean no number. -/
theorem absolute_number_null : (Source.withEpisode .null).HasTables ∧
    ¬ Tolerates .failing (Source.withEpisode .null) ⟨[], false, false⟩ ∧
    (run .failing (Source.withEpisode .null).reads ⟨[], false, false⟩
      ⟨fun _ _ => false, fun _ _ => 0, none⟩ (.start .empty)).1 =
        .error "migrate episodes: migrate: scan Episodes" ∧
    ∃ report m, run .failing (Source.withEpisode .null).tolerantReads
        ⟨[], false, false⟩ ⟨fun _ _ => false, fun _ _ => 0, none⟩ (.start .empty) = (.ok report, m) ∧
      report.episodes = 1 ∧ m.dest.lib.episodes.rows.map Episode.absoluteEpisodeNumber = [none] := by
  refine ⟨hasTables_withEpisode _, ?_, rfl, _, _, rfl, rfl, rfl⟩
  intro h
  cases congrArg Prod.fst (h ⟨fun _ _ => false, fun _ _ => 0, none⟩ (.start .empty))

end Sonarr.Migrate
