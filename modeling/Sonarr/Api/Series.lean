import Sonarr.Library.MonitorMode

namespace Sonarr.Api
open Lib

structure AddOptionsInput where
  monitor : String
  searchForMissingEpisodes : Bool
  deriving DecidableEq, Repr

/-- A body of `POST /api/v3/series`; a season is its number and its flag. -/
structure SeriesInput where
  title : String
  tvdbID : Int
  slug : String
  status : String
  seriesType : String
  path : String
  monitored : Bool
  qualityProfileID : Int
  seasonFolder : Option Bool
  monitorNewItems : String
  seasons : List (Int × Bool)
  addOptions : Option AddOptionsInput
  deriving DecidableEq, Repr

def orDefault (value default : String) : String := if value = "" then default else value

/-- What the handler creates, with its defaults. -/
def SeriesInput.series (input : SeriesInput) : Series where
  id := 0
  title := input.title
  slug := orDefault input.slug (Text.toLower (Text.replaceAll input.title " " "-"))
  path := input.path
  tvdbID := input.tvdbID
  status := orDefault input.status "continuing"
  seriesType := orDefault input.seriesType "standard"
  monitored := input.monitored
  qualityProfileID := input.qualityProfileID
  seasonFolder := input.seasonFolder.getD true
  monitorNewItems := orDefault input.monitorNewItems "all"

inductive Response
  | badRequest (message : String)
  | internalServerError
  | created (series : Series) (seasons : List Season)
  deriving DecidableEq, Repr

/-- The answer to a request, the series for which `SeriesSearch` is enqueued, and
the library that is left. -/
structure Outcome where
  response : Response
  searches : List Nat
  library : Library

/-- The seasons of the request; what the store answers is not looked at. -/
def upsertSeasons (seriesID : Nat) (seasons : List (Int × Bool)) (lib : Library) : Library :=
  seasons.foldl (fun lib s => (lib.upsertSeason ⟨seriesID, toInt32 s.1, s.2⟩).getD lib) lib

def AddOptionsInput.invalid (options : AddOptionsInput) : Bool :=
  (MonitorMode.ofName options.monitor).isNone

/-- `addOptions` after the series is created; a monitor mode that fails is only logged. -/
def applyOptions (now : Int) (seriesID : Nat) (options : Option AddOptionsInput) (lib : Library) :
    List Nat × Library :=
  match options with
  | none => ([], lib)
  | some o => (if o.searchForMissingEpisodes then [seriesID] else [],
      (applyMonitorMode now seriesID o.monitor lib).2)

/-- `seriesHandler.create` for a body that decodes. -/
def create (now : Int) (input : SeriesInput) (lib : Library) : Outcome :=
  match input.addOptions.filter AddOptionsInput.invalid with
  | some o => ⟨.badRequest ("invalid monitor mode: " ++ o.monitor), [], lib⟩
  | none => match lib.createSeries input.series with
    | none => ⟨.internalServerError, [], lib⟩
    | some (s, lib) =>
      let (searches, lib) := applyOptions now s.id input.addOptions
        (upsertSeasons s.id input.seasons lib)
      ⟨.created s (lib.listSeasons s.id), searches, lib⟩

end Sonarr.Api
