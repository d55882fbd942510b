import Sonarr.Lib.Civil
import Sonarr.Lib.JsonRead

namespace Sonarr.Migrate
open Lib

/-- A value as the driver hands it over. Text in a column that is declared as a
time arrives as one; a real is given by the digits it is printed with. -/
inductive SqlValue
  | null
  | integer (n : Int)
  | real (digits : String)
  | text (s : String)
  | blob (s : String)
  | time (t : Int)
  deriving DecidableEq, Repr

/-- How `Scan` prints a time into a string. -/
def rfc3339 (t : Int) : String :=
  String.ofList ((Civil.format t).toList.map (fun c => if c = ' ' then 'T' else c)) ++ "Z"

namespace SqlValue

/-- `Scan` into an `int` or an `int64`. -/
def scanInt : SqlValue → Option Int
  | null => none
  | integer n => some n
  | real s | text s | blob s => Digits.parseInt s
  | time _ => none

/-- `Scan` into a `string`. -/
def scanString : SqlValue → Option String
  | null => none
  | integer n => some (Text.decimal n)
  | real s | text s | blob s => some s
  | time t => some (rfc3339 t)

/-- `Scan` into a `sql.NullString`, which never fails. -/
def scanNullString (v : SqlValue) : Option String := v.scanString

/-- `Scan` into an `int64` that is then compared with 0. -/
def scanBool (v : SqlValue) : Option Bool := v.scanInt.map (fun n => n != 0)

end SqlValue

def parseSonarrTime (s : String) : Int :=
  if s = "" then Civil.zeroTime else (Civil.parse s).getD Civil.zeroTime

/-- An entry of a profile's items, as the source means it. -/
inductive Item
  | quality (id : Int) (name : String) (allowed : Bool)
  | group (id : Int) (members : List (Int × String)) (allowed : Bool)
  deriving DecidableEq, Repr

/-- What is made of the JSON columns; none where that fails. -/
structure Decoder where
  qualityName : String → Option String
  items : String → Option (List Item)

section Unmarshal
open Json Value

/-- The migration reads the id alone; another kind of name does not stop it. -/
def qualityOver (old : Int × String) : Value → Option (Int × String) :=
  toStruct (fun field => ((field "id").foldlM intOver old.1).map (fun id =>
    (id, ((field "name").foldlM textOver old.2).getD old.2)))

def memberOf : Value → Option (Int × String) :=
  toStruct (fun field => (field "quality").foldlM qualityOver (0, ""))

/-- An item without a quality of its own is a group of those that it lists. -/
def itemOf : Value → Option Item :=
  toStruct (fun field =>
    match (field "quality").foldlM qualityOver (0, ""), bools (field "allowed") with
    | some (id, name), some allowed =>
      let members := (slices memberOf (field "items")).getD []
      some (if id ≠ 0 ∨ members = [] then .quality id name allowed
        else .group ((ints (field "id")).getD 0) members allowed)
    | _, _ => none)

/-- `json.Unmarshal`. -/
def Decoder.unmarshal : Decoder where
  qualityName s := (read s).bind (toStruct (fun field => (field "quality").foldlM
    (fun old v => v.toStruct (fun field => (field "name").foldlM textOver old)) ""))
  items s := (read s).bind (toSlice itemOf)

end Unmarshal

/-- Columns that hold no JSON. -/
def Decoder.failing : Decoder := ⟨fun _ => none, fun _ => none⟩

/-- The name of a quality column; a missing name decodes as "". -/
def extractQualityName (json : Decoder) (quality : String) : String :=
  match json.qualityName quality with
  | some name => if name ≠ "" then name else "Unknown"
  | none => "Unknown"

structure SourceSeries where
  id : Int
  tvdbID : Int
  title : String
  cleanTitle : String
  status : String
  path : String
  monitored : Bool
  seriesType : String
  added : Int
  deriving DecidableEq, Repr

structure SourceSeason where
  id : Int
  seriesID : Int
  seasonNumber : Int
  monitored : Bool
  deriving DecidableEq, Repr

structure SourceEpisode where
  id : Int
  seriesID : Int
  seasonNumber : Int
  episodeNumber : Int
  absoluteEpisodeNumber : Option Int
  title : String
  overview : String
  airDateUtc : Option Int
  monitored : Bool
  episodeFileID : Option Int
  deriving DecidableEq, Repr

structure SourceEpisodeFile where
  id : Int
  seriesID : Int
  seasonNumber : Int
  relativePath : String
  size : Int
  dateAdded : Int
  releaseGroup : String
  quality : String
  deriving DecidableEq, Repr

structure SourceQualityProfile where
  id : Int
  name : String
  upgradeAllowed : Bool
  cutoff : Int
  items : String
  deriving DecidableEq, Repr

structure SourceIndexer where
  id : Int
  name : String
  implementation : String
  settings : String
  enableRss : Bool
  enableAutomaticSearch : Bool
  enableInteractiveSearch : Bool
  priority : Int
  deriving DecidableEq, Repr

structure SourceDownloadClient where
  id : Int
  name : String
  implementation : String
  settings : String
  enable : Bool
  priority : Int
  deriving DecidableEq, Repr

structure SourceNotification where
  id : Int
  name : String
  implementation : String
  settings : String
  onGrab : Bool
  onDownload : Bool
  onHealthIssue : Bool
  deriving DecidableEq, Repr

structure SourceHistory where
  id : Int
  episodeID : Int
  seriesID : Int
  sourceTitle : String
  quality : String
  date : Int
  eventType : String
  downloadID : String
  data : String
  deriving DecidableEq, Repr

/-! Rows of the tables, column by column, and how each is read. -/

/-- `qualityProfileId` is a column of `Series` that the query does not select. -/
structure SeriesRow where
  id : SqlValue
  tvdbId : SqlValue
  title : SqlValue
  cleanTitle : SqlValue
  status : SqlValue
  path : SqlValue
  monitored : SqlValue
  seriesType : SqlValue
  added : SqlValue
  qualityProfileId : SqlValue

def SeriesRow.scan (r : SeriesRow) : Option SourceSeries := do
  let id ← r.id.scanInt
  let tvdbID ← r.tvdbId.scanInt
  let title ← r.title.scanString
  let cleanTitle ← r.cleanTitle.scanString
  let status ← r.status.scanString
  let path ← r.path.scanString
  let monitored ← r.monitored.scanBool
  let seriesType ← r.seriesType.scanString
  let added ← r.added.scanString
  some { id, tvdbID, title, cleanTitle, status, path, monitored, seriesType
         added := parseSonarrTime added }

structure SeasonRow where
  id : SqlValue
  seriesId : SqlValue
  seasonNumber : SqlValue
  monitored : SqlValue

def SeasonRow.scan (r : SeasonRow) : Option SourceSeason := do
  let id ← r.id.scanInt
  let seriesID ← r.seriesId.scanInt
  let seasonNumber ← r.seasonNumber.scanInt
  let monitored ← r.monitored.scanBool
  some { id, seriesID, seasonNumber, monitored }

structure EpisodeRow where
  id : SqlValue
  seriesId : SqlValue
  seasonNumber : SqlValue
  episodeNumber : SqlValue
  absoluteEpisodeNumber : SqlValue
  title : SqlValue
  overview : SqlValue
  airDateUtc : SqlValue
  monitored : SqlValue
  episodeFileId : SqlValue

/-- 0 stands for no number and for no file. -/
def nonZero (n : Int) : Option Int := if n ≠ 0 then some n else none

/-- An air date that is NULL, empty or not a time is none. -/
def airDate (s : Option String) : Option Int :=
  match s with
  | none => none
  | some s => if s ≠ "" ∧ parseSonarrTime s ≠ Civil.zeroTime then some (parseSonarrTime s) else none

def EpisodeRow.scan (r : EpisodeRow) : Option SourceEpisode := do
  let id ← r.id.scanInt
  let seriesID ← r.seriesId.scanInt
  let seasonNumber ← r.seasonNumber.scanInt
  let episodeNumber ← r.episodeNumber.scanInt
  let absEpNum ← r.absoluteEpisodeNumber.scanInt
  let title ← r.title.scanString
  let overview ← r.overview.scanString
  let monitored ← r.monitored.scanBool
  let episodeFileID ← r.episodeFileId.scanInt
  some { id, seriesID, seasonNumber, episodeNumber, title, overview, monitored
         absoluteEpisodeNumber := nonZero absEpNum
         airDateUtc := airDate r.airDateUtc.scanNullString
         episodeFileID := nonZero episodeFileID }

structure EpisodeFileRow where
  id : SqlValue
  seriesId : SqlValue
  seasonNumber : SqlValue
  relativePath : SqlValue
  size : SqlValue
  dateAdded : SqlValue
  releaseGroup : SqlValue
  quality : SqlValue

def EpisodeFileRow.scan (r : EpisodeFileRow) : Option SourceEpisodeFile := do
  let id ← r.id.scanInt
  let seriesID ← r.seriesId.scanInt
  let seasonNumber ← r.seasonNumber.scanInt
  let relativePath ← r.relativePath.scanString
  let size ← r.size.scanInt
  let dateAdded ← r.dateAdded.scanString
  let releaseGroup ← r.releaseGroup.scanString
  let quality ← r.quality.scanString
  some { id, seriesID, seasonNumber, relativePath, size, releaseGroup, quality
         dateAdded := parseSonarrTime dateAdded }

structure QualityProfileRow where
  id : SqlValue
  name : SqlValue
  upgradeAllowed : SqlValue
  cutoff : SqlValue
  items : SqlValue

def QualityProfileRow.scan (r : QualityProfileRow) : Option SourceQualityProfile := do
  let id ← r.id.scanInt
  let name ← r.name.scanString
  let upgradeAllowed ← r.upgradeAllowed.scanBool
  let cutoff ← r.cutoff.scanInt
  let items ← r.items.scanString
  some { id, name, upgradeAllowed, cutoff, items }

structure IndexerRow where
  id : SqlValue
  name : SqlValue
  implementation : SqlValue
  settings : SqlValue
  enableRss : SqlValue
  enableAutomaticSearch : SqlValue
  enableInteractiveSearch : SqlValue
  priority : SqlValue

def IndexerRow.scan (r : IndexerRow) : Option SourceIndexer := do
  let id ← r.id.scanInt
  let name ← r.name.scanString
  let implementation ← r.implementation.scanString
  let settings ← r.settings.scanString
  let enableRss ← r.enableRss.scanBool
  let enableAutomaticSearch ← r.enableAutomaticSearch.scanBool
  let enableInteractiveSearch ← r.enableInteractiveSearch.scanBool
  let priority ← r.priority.scanInt
  some { id, name, implementation, settings, enableRss, enableAutomaticSearch,
         enableInteractiveSearch, priority }

structure DownloadClientRow where
  id : SqlValue
  name : SqlValue
  implementation : SqlValue
  settings : SqlValue
  enable : SqlValue
  priority : SqlValue

def DownloadClientRow.scan (r : DownloadClientRow) : Option SourceDownloadClient := do
  let id ← r.id.scanInt
  let name ← r.name.scanString
  let implementation ← r.implementation.scanString
  let settings ← r.settings.scanString
  let enable ← r.enable.scanBool
  let priority ← r.priority.scanInt
  some { id, name, implementation, settings, enable, priority }

structure NotificationRow where
  id : SqlValue
  name : SqlValue
  implementation : SqlValue
  settings : SqlValue
  onGrab : SqlValue
  onDownload : SqlValue
  onHealthIssue : SqlValue

def NotificationRow.scan (r : NotificationRow) : Option SourceNotification := do
  let id ← r.id.scanInt
  let name ← r.name.scanString
  let implementation ← r.implementation.scanString
  let settings ← r.settings.scanString
  let onGrab ← r.onGrab.scanBool
  let onDownload ← r.onDownload.scanBool
  let onHealthIssue ← r.onHealthIssue.scanBool
  some { id, name, implementation, settings, onGrab, onDownload, onHealthIssue }

structure HistoryRow where
  id : SqlValue
  episodeId : SqlValue
  seriesId : SqlValue
  sourceTitle : SqlValue
  quality : SqlValue
  date : SqlValue
  eventType : SqlValue
  downloadId : SqlValue
  data : SqlValue

def HistoryRow.scan (r : HistoryRow) : Option SourceHistory := do
  let id ← r.id.scanInt
  let episodeID ← r.episodeId.scanInt
  let seriesID ← r.seriesId.scanInt
  let sourceTitle ← r.sourceTitle.scanString
  let quality ← r.quality.scanString
  let date ← r.date.scanString
  let eventType ← r.eventType.scanString
  let downloadID ← r.downloadId.scanString
  let data ← r.data.scanString
  some { id, episodeID, seriesID, sourceTitle, quality, eventType, downloadID, data
         date := parseSonarrTime date }

/-- A source database: a table that cannot be queried is none, and so is an API
key that `Config` does not have. -/
structure Source where
  apiKey : Option SqlValue
  qualityProfiles : Option (List QualityProfileRow)
  series : Option (List SeriesRow)
  seasons : Option (List SeasonRow)
  episodeFiles : Option (List EpisodeFileRow)
  episodes : Option (List EpisodeRow)
  indexers : Option (List IndexerRow)
  downloadClients : Option (List DownloadClientRow)
  notifications : Option (List NotificationRow)
  history : Option (List HistoryRow)

/-- A reader: the first row that does not scan ends it. -/
def readTable (name : String) (scan : ρ → Option α) (table : Option (List ρ)) :
    Except String (List α) :=
  match table with
  | none => .error ("migrate: query " ++ name)
  | some rows => match rows.mapM scan with
    | none => .error ("migrate: scan " ++ name)
    | some out => .ok out

/-- What the readers answer. -/
structure Reads where
  apiKey : Option String
  qualityProfiles : Except String (List SourceQualityProfile)
  series : Except String (List SourceSeries)
  seasons : Except String (List SourceSeason)
  episodeFiles : Except String (List SourceEpisodeFile)
  episodes : Except String (List SourceEpisode)
  indexers : Except String (List SourceIndexer)
  downloadClients : Except String (List SourceDownloadClient)
  notifications : Except String (List SourceNotification)
  history : Except String (List SourceHistory)

def Source.reads (src : Source) : Reads where
  apiKey := src.apiKey.bind SqlValue.scanString
  qualityProfiles := readTable "QualityProfiles" QualityProfileRow.scan src.qualityProfiles
  series := readTable "Series" SeriesRow.scan src.series
  seasons := readTable "Seasons" SeasonRow.scan src.seasons
  episodeFiles := readTable "EpisodeFiles" EpisodeFileRow.scan src.episodeFiles
  episodes := readTable "Episodes" EpisodeRow.scan src.episodes
  indexers := readTable "Indexers" IndexerRow.scan src.indexers
  downloadClients := readTable "DownloadClients" DownloadClientRow.scan src.downloadClients
  notifications := readTable "Notifications" NotificationRow.scan src.notifications
  history := readTable "History" HistoryRow.scan src.history

/-- The rows of a source that can be read. -/
structure Tables where
  qualityProfiles : List SourceQualityProfile
  series : List SourceSeries
  seasons : List SourceSeason
  episodeFiles : List SourceEpisodeFile
  episodes : List SourceEpisode
  indexers : List SourceIndexer
  downloadClients : List SourceDownloadClient
  notifications : List SourceNotification
  history : List SourceHistory

end Sonarr.Migrate
