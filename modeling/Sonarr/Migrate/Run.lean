import Sonarr.Auth.Initialize
import Sonarr.Lib.Transfer
import Sonarr.Library.Tables
import Sonarr.Migrate.Source
import Sonarr.Profiles.Quality
import Sonarr.Providers.DownloadClient

namespace Sonarr.Migrate
open Lib Transfer Profiles
open Commands (sqliteTime)

instance : Keyed QualityProfile := ⟨fun p => p.id.toNat⟩
instance : Keyed Providers.Instance := ⟨Providers.Instance.id⟩

structure Indexer where
  id : Nat
  name : String
  implementation : String
  settings : String
  enableRss : Bool
  enableAutomaticSearch : Bool
  enableInteractiveSearch : Bool
  priority : Int
  deriving DecidableEq, Repr

structure Notification where
  id : Nat
  name : String
  implementation : String
  settings : String
  onGrab : Bool
  onDownload : Bool
  onHealthIssue : Bool
  deriving DecidableEq, Repr

/-- A row of `history`. The source's event types are taken over as they are. -/
structure HistoryEntry where
  id : Nat
  episodeID : Nat
  seriesID : Nat
  sourceTitle : String
  qualityName : String
  eventType : String
  date : Int
  downloadID : String
  data : String
  deriving DecidableEq, Repr

instance : Keyed Indexer := ⟨Indexer.id⟩
instance : Keyed Notification := ⟨Notification.id⟩
instance : Keyed HistoryEntry := ⟨HistoryEntry.id⟩

/-- The destination. `added` and `dateAdded` are the columns of those names of
the series and of the episode files, by row id. -/
structure Dest where
  config : Option Auth.HostConfig
  profiles : Table QualityProfile
  lib : Library
  added : Nat → Int
  dateAdded : Nat → Int
  indexers : Table Indexer
  downloadClients : Table Providers.Instance
  notifications : Table Notification
  history : Table HistoryEntry

def Dest.empty : Dest where
  config := none
  profiles := Table.empty
  lib := Library.empty
  added := fun _ => 0
  dateAdded := fun _ => 0
  indexers := Table.empty
  downloadClients := Table.empty
  notifications := Table.empty
  history := Table.empty

structure Migrator where
  dest : Dest
  seriesMap : Int → Option Nat
  episodeMap : Int → Option Nat
  episodeFileMap : Int → Option Nat
  profileMap : Int → Option Nat

/-- A new `Migrator`. -/
def Migrator.start (dest : Dest) : Migrator :=
  ⟨dest, fun _ => none, fun _ => none, fun _ => none, fun _ => none⟩

structure PathRemap where
  old : String
  new : String
  deriving DecidableEq, Repr

structure Options where
  remaps : List PathRemap
  dryRun : Bool
  skipHistory : Bool
  deriving DecidableEq, Repr

structure Report where
  series : Nat
  seasons : Nat
  episodes : Nat
  episodeFiles : Nat
  qualityProfiles : Nat
  indexers : Nat
  downloadClients : Nat
  notifications : Nat
  history : Nat
  warnings : List String
  deriving DecidableEq, Repr

inductive Entity
  | qualityProfile
  | series
  | season
  | episodeFile
  | episode
  | indexer
  | downloadClient
  | notification
  | history
  deriving DecidableEq, Repr

/-- What the stores do on top of the schema: the rows they refuse and the times at
which they write, by the rows' source ids, and an error for the host config. -/
structure Env where
  rejects : Entity → Int → Bool
  now : Entity → Int → Int
  configError : Option String

/-- The first remap whose prefix the path has. -/
def remapPath (remaps : List PathRemap) (path : String) : String :=
  match remaps.find? (fun r => Text.hasPrefix path r.old) with
  | some r => r.new ++ String.ofList (path.toList.drop r.old.toList.length)
  | none => path

section Create
variable (json : Decoder) (remaps : List PathRemap) (env : Env)

/-- The id and the flag that are decoded of an item: a group has no quality. -/
def Item.decoded : Item → QualityProfileItem
  | .quality id _ allowed => ⟨id, allowed⟩
  | .group _ _ allowed => ⟨0, allowed⟩

def SourceQualityProfile.profile (s : SourceQualityProfile) (items : List Item) : QualityProfile where
  id := 0
  name := s.name
  upgradeAllowed := s.upgradeAllowed
  cutoff := s.cutoff
  items := items.map Item.decoded
  minFormatScore := 0
  cutoffFormatScore := 0
  formatItems := []

/-- Items that are not the expected JSON skip the profile. -/
def createProfile (s : SourceQualityProfile) (profiles : Table QualityProfile) :
    Option (Nat × Table QualityProfile) :=
  match json.items s.items with
  | none => none
  | some items =>
    if env.rejects .qualityProfile s.id then none
    else some (profiles.next, profiles.insert (fun id => { s.profile items with id }) (fun _ => rfl))

def SourceSeries.series (s : SourceSeries) : Series where
  id := 0
  title := s.title
  slug := s.cleanTitle
  path := remapPath remaps s.path
  tvdbID := s.tvdbID
  status := s.status
  seriesType := s.seriesType
  monitored := s.monitored
  qualityProfileID := 0
  seasonFolder := false
  monitorNewItems := ""

/-- `CreateSeries` does not write `Added`: the column's default does. -/
def createSeries (s : SourceSeries) (d : Library × (Nat → Int)) :
    Option (Nat × Library × (Nat → Int)) :=
  if env.rejects .series s.id then none
  else match d.1.createSeries (s.series remaps) with
    | none => none
    | some (row, lib) =>
      some (row.id, lib, Function.update d.2 row.id (sqliteTime (env.now .series s.id)))

variable (seriesMap episodeFileMap episodeMap : Int → Option Nat)

def createSeason (s : SourceSeason) (lib : Library) : Option (Unit × Library) :=
  match seriesMap s.seriesID with
  | none => none
  | some seriesID =>
    if env.rejects .season s.id then none
    else (lib.upsertSeason ⟨seriesID, toInt32 s.seasonNumber, s.monitored⟩).map (fun lib => ((), lib))

def SourceEpisodeFile.file (f : SourceEpisodeFile) (seriesID : Nat) : EpisodeFile where
  id := 0
  seriesID := seriesID
  seasonNumber := toInt32 f.seasonNumber
  relativePath := f.relativePath
  size := f.size
  releaseGroup := f.releaseGroup
  qualityName := extractQualityName json f.quality

/-- `CreateEpisodeFile` does not write `DateAdded`: the column's default does. -/
def createEpisodeFile (f : SourceEpisodeFile) (d : Library × (Nat → Int)) :
    Option (Nat × Library × (Nat → Int)) :=
  match seriesMap f.seriesID with
  | none => none
  | some seriesID =>
    if env.rejects .episodeFile f.id then none
    else (d.1.createFile (f.file json seriesID)).map (fun lib =>
      (d.1.files.next, lib,
        Function.update d.2 d.1.files.next (sqliteTime (env.now .episodeFile f.id))))

def SourceEpisode.episode (e : SourceEpisode) (seriesID : Nat) : Episode where
  id := 0
  seriesID := seriesID
  seasonNumber := toInt32 e.seasonNumber
  episodeNumber := toInt32 e.episodeNumber
  absoluteEpisodeNumber := e.absoluteEpisodeNumber.map toInt32
  title := e.title
  overview := e.overview
  airDateUtc := e.airDateUtc
  monitored := e.monitored
  episodeFileID := e.episodeFileID.bind episodeFileMap
  updatedAt := 0

def createEpisode (e : SourceEpisode) (lib : Library) : Option (Nat × Library) :=
  match seriesMap e.seriesID with
  | none => none
  | some seriesID =>
    if env.rejects .episode e.id then none
    else (lib.createEpisode (env.now .episode e.id) (e.episode episodeFileMap seriesID)).map
      (fun lib' => (lib.episodes.next, lib'))

/-- The stores write an empty JSON column as an empty object. -/
def orEmpty (text : String) : String := if text = "" then "\x7b\x7d" else text

def createIndexer (s : SourceIndexer) (t : Table Indexer) : Option (Unit × Table Indexer) :=
  if env.rejects .indexer s.id then none
  else some ((), t.insert (fun id =>
    ⟨id, s.name, s.implementation, orEmpty s.settings, s.enableRss, s.enableAutomaticSearch,
      s.enableInteractiveSearch, s.priority⟩) (fun _ => rfl))

def createDownloadClient (s : SourceDownloadClient) (t : Table Providers.Instance) :
    Option (Unit × Table Providers.Instance) :=
  if env.rejects .downloadClient s.id then none
  else some ((), t.insert (fun id =>
    ⟨id, s.name, s.implementation, orEmpty s.settings, s.enable, s.priority⟩) (fun _ => rfl))

def createNotification (s : SourceNotification) (t : Table Notification) :
    Option (Unit × Table Notification) :=
  if env.rejects .notification s.id then none
  else some ((), t.insert (fun id =>
    ⟨id, s.name, s.implementation, orEmpty s.settings, s.onGrab, s.onDownload, s.onHealthIssue⟩)
    (fun _ => rfl))

/-- `CreateHistoryEntry` does not write `Date`: the column's default does. -/
def createHistory (h : SourceHistory) (t : Table HistoryEntry) : Option (Unit × Table HistoryEntry) :=
  match seriesMap h.seriesID with
  | none => none
  | some seriesID => match episodeMap h.episodeID with
    | none => none
    | some episodeID =>
      if env.rejects .history h.id then none
      else some ((), t.insert (fun id =>
        { id, episodeID, seriesID, sourceTitle := h.sourceTitle
          qualityName := extractQualityName json h.quality, eventType := h.eventType
          date := sqliteTime (env.now .history h.id), downloadID := h.downloadID
          data := orEmpty h.data }) (fun _ => rfl))

/-- The warning a history entry leaves in the report. -/
def historyWarning (h : SourceHistory) : Option String :=
  match seriesMap h.seriesID, episodeMap h.episodeID with
  | none, _ => some ("skip history entry " ++ Text.decimal h.id ++ ": series " ++
      Text.decimal h.seriesID ++ " not mapped")
  | some _, none => some ("skip history entry " ++ Text.decimal h.id ++ ": episode " ++
      Text.decimal h.episodeID ++ " not mapped")
  | some _, some _ => none

end Create

section Passes
variable (json : Decoder) (remaps : List PathRemap) (env : Env) (m : Migrator)

def writeQualityProfiles (sources : List SourceQualityProfile) : Nat × Migrator :=
  let p := transfer SourceQualityProfile.id (createProfile json env) sources
    ⟨m.dest.profiles, m.profileMap, 0⟩
  (p.count, { m with dest := { m.dest with profiles := p.dest }, profileMap := p.ids })

def writeSeries (sources : List SourceSeries) : Nat × Migrator :=
  let p := transfer SourceSeries.id (createSeries remaps env) sources
    ⟨(m.dest.lib, m.dest.added), m.seriesMap, 0⟩
  (p.count, { m with
    dest := { m.dest with lib := p.dest.1, added := p.dest.2 }, seriesMap := p.ids })

def writeSeasons (sources : List SourceSeason) : Nat × Migrator :=
  let p := transfer SourceSeason.id (createSeason env m.seriesMap) sources
    ⟨m.dest.lib, fun _ => none, 0⟩
  (p.count, { m with dest := { m.dest with lib := p.dest } })

def writeEpisodeFiles (sources : List SourceEpisodeFile) : Nat × Migrator :=
  let p := transfer SourceEpisodeFile.id (createEpisodeFile json env m.seriesMap) sources
    ⟨(m.dest.lib, m.dest.dateAdded), m.episodeFileMap, 0⟩
  (p.count, { m with
    dest := { m.dest with lib := p.dest.1, dateAdded := p.dest.2 }, episodeFileMap := p.ids })

def writeEpisodes (sources : List SourceEpisode) : Nat × Migrator :=
  let p := transfer SourceEpisode.id (createEpisode env m.seriesMap m.episodeFileMap) sources
    ⟨m.dest.lib, m.episodeMap, 0⟩
  (p.count, { m with dest := { m.dest with lib := p.dest }, episodeMap := p.ids })

def writeIndexers (sources : List SourceIndexer) : Nat × Migrator :=
  let p := transfer SourceIndexer.id (createIndexer env) sources ⟨m.dest.indexers, fun _ => none, 0⟩
  (p.count, { m with dest := { m.dest with indexers := p.dest } })

def writeDownloadClients (sources : List SourceDownloadClient) : Nat × Migrator :=
  let p := transfer SourceDownloadClient.id (createDownloadClient env) sources
    ⟨m.dest.downloadClients, fun _ => none, 0⟩
  (p.count, { m with dest := { m.dest with downloadClients := p.dest } })

def writeNotifications (sources : List SourceNotification) : Nat × Migrator :=
  let p := transfer SourceNotification.id (createNotification env) sources
    ⟨m.dest.notifications, fun _ => none, 0⟩
  (p.count, { m with dest := { m.dest with notifications := p.dest } })

def writeHistory (sources : List SourceHistory) : (Nat × List String) × Migrator :=
  let p := transfer SourceHistory.id (createHistory json env m.seriesMap m.episodeMap) sources
    ⟨m.dest.history, fun _ => none, 0⟩
  ((p.count, sources.filterMap (historyWarning m.seriesMap m.episodeMap)),
    { m with dest := { m.dest with history := p.dest } })

end Passes

variable (json : Decoder) (reads : Reads) (opts : Options) (env : Env)

/-- A key that cannot be read is only warned about. -/
def migrateAPIKey (m : Migrator) : Except String Migrator :=
  match reads.apiKey with
  | none => .ok m
  | some apiKey =>
    if opts.dryRun then .ok m
    else match env.configError with
      | some e => .error e
      | none =>
        let config := { Auth.HostConfig.zero with apiKey, authMode := "none" }
        .ok { m with dest := { m.dest with config := some config } }

/-- A pass: it reads its table, and a dry run then only counts. -/
def pass {α β : Type} (read : Except String (List α)) (dry : List α → β)
    (write : List α → β × Migrator) (m : Migrator) : Except String (β × Migrator) :=
  match read with
  | .error e => .error e
  | .ok sources => .ok (if opts.dryRun then (dry sources, m) else write sources)

/-- The error of a pass ends the run; what was written before stays. -/
def attempt {β : Type} (what : String) (m : Migrator) (result : Except String (β × Migrator))
    (next : β → Migrator → Except String Report × Migrator) : Except String Report × Migrator :=
  match result with
  | .error e => (.error (what ++ ": " ++ e), m)
  | .ok (n, m') => next n m'

/-- `Migrator.Run`. -/
def run (m : Migrator) : Except String Report × Migrator :=
  attempt "migrate API key" m ((migrateAPIKey reads opts env m).map (fun m => ((), m))) fun _ m =>
  attempt "migrate quality profiles" m
    (pass opts reads.qualityProfiles List.length (writeQualityProfiles json env m) m)
    fun qualityProfiles m =>
  attempt "migrate series" m (pass opts reads.series List.length (writeSeries opts.remaps env m) m)
    fun series m =>
  attempt "migrate seasons" m (pass opts reads.seasons List.length (writeSeasons env m) m)
    fun seasons m =>
  attempt "migrate episode files" m
    (pass opts reads.episodeFiles List.length (writeEpisodeFiles json env m) m)
    fun episodeFiles m =>
  attempt "migrate episodes" m (pass opts reads.episodes List.length (writeEpisodes env m) m)
    fun episodes m =>
  attempt "migrate indexers" m (pass opts reads.indexers List.length (writeIndexers env m) m)
    fun indexers m =>
  attempt "migrate download clients" m
    (pass opts reads.downloadClients List.length (writeDownloadClients env m) m)
    fun downloadClients m =>
  attempt "migrate notifications" m
    (pass opts reads.notifications List.length (writeNotifications env m) m)
    fun notifications m =>
  let report : Report :=
    { series, seasons, episodes, episodeFiles, qualityProfiles, indexers, downloadClients
      notifications, history := 0, warnings := [] }
  if opts.skipHistory then (.ok report, m)
  else attempt "migrate history" m
    (pass opts reads.history (fun sources => (sources.length, [])) (writeHistory json env m) m)
    fun (history, warnings) m => (.ok { report with history, warnings }, m)

/-- `t` is what the readers of a run answer. -/
structure Reads.Gives (t : Tables) : Prop where
  qualityProfiles : reads.qualityProfiles = .ok t.qualityProfiles
  series : reads.series = .ok t.series
  seasons : reads.seasons = .ok t.seasons
  episodeFiles : reads.episodeFiles = .ok t.episodeFiles
  episodes : reads.episodes = .ok t.episodes
  indexers : reads.indexers = .ok t.indexers
  downloadClients : reads.downloadClients = .ok t.downloadClients
  notifications : reads.notifications = .ok t.notifications
  history : opts.skipHistory = false → reads.history = .ok t.history

/-- What a reader answers, if the readers before it do. -/
def rowsIf {α : Type} (before : Bool) (read : Except String (List α)) : List α :=
  match before, read with
  | true, .ok rows => rows
  | _, _ => []

/-- The rows a run gets to: none of a table after one that cannot be read. -/
def Reads.upToError (reads : Reads) : Tables :=
  let ok₁ := reads.qualityProfiles.isOk
  let ok₂ := ok₁ && reads.series.isOk
  let ok₃ := ok₂ && reads.seasons.isOk
  let ok₄ := ok₃ && reads.episodeFiles.isOk
  let ok₅ := ok₄ && reads.episodes.isOk
  let ok₆ := ok₅ && reads.indexers.isOk
  let ok₇ := ok₆ && reads.downloadClients.isOk
  let ok₈ := ok₇ && reads.notifications.isOk
  { qualityProfiles := rowsIf true reads.qualityProfiles
    series := rowsIf ok₁ reads.series
    seasons := rowsIf ok₂ reads.seasons
    episodeFiles := rowsIf ok₃ reads.episodeFiles
    episodes := rowsIf ok₄ reads.episodes
    indexers := rowsIf ok₅ reads.indexers
    downloadClients := rowsIf ok₆ reads.downloadClients
    notifications := rowsIf ok₇ reads.notifications
    history := rowsIf ok₈ reads.history }

/-- All passes of a run that writes. -/
def writeAll (t : Tables) (m : Migrator) : Report × Migrator :=
  let p₁ := writeQualityProfiles json env m t.qualityProfiles
  let p₂ := writeSeries opts.remaps env p₁.2 t.series
  let p₃ := writeSeasons env p₂.2 t.seasons
  let p₄ := writeEpisodeFiles json env p₃.2 t.episodeFiles
  let p₅ := writeEpisodes env p₄.2 t.episodes
  let p₆ := writeIndexers env p₅.2 t.indexers
  let p₇ := writeDownloadClients env p₆.2 t.downloadClients
  let p₈ := writeNotifications env p₇.2 t.notifications
  let p₉ := writeHistory json env p₈.2 (if opts.skipHistory then [] else t.history)
  (⟨p₂.1, p₃.1, p₅.1, p₄.1, p₁.1, p₆.1, p₇.1, p₈.1, p₉.1.1, p₉.1.2⟩, p₉.2)

/-- The passes one by one, by what the run ends with: `lib₁`, `lib₂` and `lib₃` are
the library after the series, the seasons and the files. -/
structure Written (t : Tables) (m : Migrator) (report : Report) (m' : Migrator)
    (lib₁ lib₂ lib₃ : Library) : Prop where
  profiles : transfer SourceQualityProfile.id (createProfile json env) t.qualityProfiles
    ⟨m.dest.profiles, m.profileMap, 0⟩ = ⟨m'.dest.profiles, m'.profileMap, report.qualityProfiles⟩
  series : transfer SourceSeries.id (createSeries opts.remaps env) t.series
    ⟨(m.dest.lib, m.dest.added), m.seriesMap, 0⟩ = ⟨(lib₁, m'.dest.added), m'.seriesMap, report.series⟩
  seasons : ∃ ids, transfer SourceSeason.id (createSeason env m'.seriesMap) t.seasons
    ⟨lib₁, fun _ => none, 0⟩ = ⟨lib₂, ids, report.seasons⟩
  episodeFiles : transfer SourceEpisodeFile.id (createEpisodeFile json env m'.seriesMap) t.episodeFiles
    ⟨(lib₂, m.dest.dateAdded), m.episodeFileMap, 0⟩ =
      ⟨(lib₃, m'.dest.dateAdded), m'.episodeFileMap, report.episodeFiles⟩
  episodes : transfer SourceEpisode.id (createEpisode env m'.seriesMap m'.episodeFileMap) t.episodes
    ⟨lib₃, m.episodeMap, 0⟩ = ⟨m'.dest.lib, m'.episodeMap, report.episodes⟩
  indexers : ∃ ids, transfer SourceIndexer.id (createIndexer env) t.indexers
    ⟨m.dest.indexers, fun _ => none, 0⟩ = ⟨m'.dest.indexers, ids, report.indexers⟩
  downloadClients : ∃ ids, transfer SourceDownloadClient.id (createDownloadClient env) t.downloadClients
    ⟨m.dest.downloadClients, fun _ => none, 0⟩ = ⟨m'.dest.downloadClients, ids, report.downloadClients⟩
  notifications : ∃ ids, transfer SourceNotification.id (createNotification env) t.notifications
    ⟨m.dest.notifications, fun _ => none, 0⟩ = ⟨m'.dest.notifications, ids, report.notifications⟩
  history : ∃ ids, transfer SourceHistory.id (createHistory json env m'.seriesMap m'.episodeMap)
    (if opts.skipHistory then [] else t.history) ⟨m.dest.history, fun _ => none, 0⟩ =
      ⟨m'.dest.history, ids, report.history⟩

theorem written_writeAll (t : Tables) (m : Migrator) : ∃ lib₁ lib₂ lib₃,
    Written json opts env t m (writeAll json opts env t m).1 (writeAll json opts env t m).2
      lib₁ lib₂ lib₃ :=
  ⟨_, _, _, rfl, rfl, ⟨_, rfl⟩, rfl, rfl, ⟨_, rfl⟩, ⟨_, rfl⟩, ⟨_, rfl⟩, ⟨_, rfl⟩⟩

section Rules
variable {json : Decoder} {reads : Reads} {opts : Options} {env : Env} {m m' : Migrator} {t : Tables}

@[simp] theorem attempt_ok (what : String) (m : Migrator) (r : β × Migrator)
    (next : β → Migrator → Except String Report × Migrator) :
    attempt what m (.ok r) next = next r.1 r.2 := rfl

@[simp] theorem attempt_error (what : String) (m : Migrator) (e : String)
    (next : β → Migrator → Except String Report × Migrator) :
    attempt what m (.error e) next = (.error (what ++ ": " ++ e), m) := rfl

@[simp] theorem pass_ok (sources : List α) (dry : List α → β) (write : List α → β × Migrator) :
    pass opts (.ok sources) dry write m =
      .ok (if opts.dryRun then (dry sources, m) else write sources) := rfl

theorem run_error (h : migrateAPIKey reads opts env m = .error e) :
    run json reads opts env m = (.error ("migrate API key: " ++ e), m) := by
  unfold run
  rw [h]
  rfl

/-- A run whose readers all answer writes everything. -/
theorem run_write (h : reads.Gives opts t) (hdry : opts.dryRun = false)
    (hkey : migrateAPIKey reads opts env m = .ok m') :
    run json reads opts env m =
      (.ok (writeAll json opts env t m').1, (writeAll json opts env t m').2) := by
  unfold run
  rw [hkey]
  simp only [Except.map, attempt_ok, h.qualityProfiles, h.series, h.seasons, h.episodeFiles,
    h.episodes, h.indexers, h.downloadClients, h.notifications, pass_ok, hdry]
  cases hskip : opts.skipHistory with
  | true => simp [writeAll, hskip, writeHistory, transfer]
  | false => simp [writeAll, hskip, h.history hskip, hdry]

/-! A pass without rows writes nothing. -/

@[simp] theorem writeQualityProfiles_nil : writeQualityProfiles json env m [] = (0, m) := rfl
@[simp] theorem writeSeries_nil : writeSeries remaps env m [] = (0, m) := rfl
@[simp] theorem writeSeasons_nil : writeSeasons env m [] = (0, m) := rfl
@[simp] theorem writeEpisodeFiles_nil : writeEpisodeFiles json env m [] = (0, m) := rfl
@[simp] theorem writeEpisodes_nil : writeEpisodes env m [] = (0, m) := rfl
@[simp] theorem writeIndexers_nil : writeIndexers env m [] = (0, m) := rfl
@[simp] theorem writeDownloadClients_nil : writeDownloadClients env m [] = (0, m) := rfl
@[simp] theorem writeNotifications_nil : writeNotifications env m [] = (0, m) := rfl
@[simp] theorem writeHistory_nil : writeHistory json env m [] = ((0, []), m) := rfl

@[simp] theorem pass_error (e : String) (dry : List α → β) (write : List α → β × Migrator) :
    pass opts (.error e) dry write m = .error e := rfl

@[simp] theorem rowsIf_ok (rows : List α) : rowsIf true (.ok rows) = rows := rfl
@[simp] theorem rowsIf_false (read : Except String (List α)) : rowsIf false read = [] := rfl
@[simp] theorem rowsIf_error (before : Bool) (e : String) :
    rowsIf before (.error e : Except String (List α)) = [] := by cases before <;> rfl

@[simp] theorem isOk_ok (rows : List α) : (Except.ok rows : Except String (List α)).isOk = true := rfl
@[simp] theorem isOk_error (e : String) : (Except.error e : Except String (List α)).isOk = false := rfl

/-- Whatever a run returns, it has written the rows it got to. -/
theorem run_state (hdry : opts.dryRun = false) (hkey : migrateAPIKey reads opts env m = .ok m') :
    (run json reads opts env m).2 = (writeAll json opts env reads.upToError m').2 := by
  unfold run
  rw [hkey]
  simp only [Except.map, attempt_ok]
  unfold writeAll Reads.upToError
  cases h₁ : reads.qualityProfiles with
  | error e => simp
  | ok profiles =>
  cases h₂ : reads.series with
  | error e => simp [hdry]
  | ok series =>
  cases h₃ : reads.seasons with
  | error e => simp [hdry]
  | ok seasons =>
  cases h₄ : reads.episodeFiles with
  | error e => simp [hdry]
  | ok files =>
  cases h₅ : reads.episodes with
  | error e => simp [hdry]
  | ok episodes =>
  cases h₆ : reads.indexers with
  | error e => simp [hdry]
  | ok indexers =>
  cases h₇ : reads.downloadClients with
  | error e => simp [hdry]
  | ok clients =>
  cases h₈ : reads.notifications with
  | error e => simp [hdry]
  | ok notifications =>
  cases hskip : opts.skipHistory with
  | true => simp [hdry]
  | false => cases h₉ : reads.history with
    | error e => simp [hdry]
    | ok history => simp [hdry]

/-- The report of a dry run: the rows that were read. -/
def dryReport (opts : Options) (t : Tables) : Report where
  series := t.series.length
  seasons := t.seasons.length
  episodes := t.episodes.length
  episodeFiles := t.episodeFiles.length
  qualityProfiles := t.qualityProfiles.length
  indexers := t.indexers.length
  downloadClients := t.downloadClients.length
  notifications := t.notifications.length
  history := if opts.skipHistory then 0 else t.history.length
  warnings := []

theorem migrateAPIKey_dry (hdry : opts.dryRun = true) : migrateAPIKey reads opts env m = .ok m := by
  unfold migrateAPIKey
  split <;> simp [hdry]

theorem run_dry (h : reads.Gives opts t) (hdry : opts.dryRun = true) :
    run json reads opts env m = (.ok (dryReport opts t), m) := by
  unfold run
  rw [migrateAPIKey_dry hdry]
  simp only [Except.map, attempt_ok, h.qualityProfiles, h.series, h.seasons, h.episodeFiles,
    h.episodes, h.indexers, h.downloadClients, h.notifications, pass_ok, hdry]
  cases hskip : opts.skipHistory with
  | true => simp [dryReport, hskip]
  | false => simp [dryReport, hskip, h.history hskip, hdry]

end Rules

end Sonarr.Migrate
