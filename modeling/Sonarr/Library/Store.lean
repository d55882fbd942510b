import Sonarr.Commands.Queue
import Sonarr.Lib.StableSort
import Sonarr.Lib.Table
import Sonarr.Lib.Text

namespace Sonarr
open Lib

/-- A row of `series`; quality profile 0 stands for none. -/
structure Series where
  id : Nat
  title : String
  slug : String
  path : String
  tvdbID : Int
  status : String
  seriesType : String
  monitored : Bool
  qualityProfileID : Int
  seasonFolder : Bool
  monitorNewItems : String
  deriving DecidableEq, Repr

/-- A row of `seasons`. -/
structure Season where
  seriesID : Nat
  seasonNumber : Int
  monitored : Bool
  deriving DecidableEq, Repr

/-- A row of `episodes`; air dates and times of writing are seconds. -/
structure Episode where
  id : Nat
  seriesID : Nat
  seasonNumber : Int
  episodeNumber : Int
  absoluteEpisodeNumber : Option Int
  title : String
  overview : String
  airDateUtc : Option Int
  monitored : Bool
  episodeFileID : Option Nat
  updatedAt : Int
  deriving DecidableEq, Repr

/-- A row of `episode_files`. -/
structure EpisodeFile where
  id : Nat
  seriesID : Nat
  seasonNumber : Int
  relativePath : String
  size : Int
  releaseGroup : String
  qualityName : String
  deriving DecidableEq, Repr

instance : Keyed Series := ⟨Series.id⟩
instance : Keyed Episode := ⟨Episode.id⟩
instance : Keyed EpisodeFile := ⟨EpisodeFile.id⟩

/-- The assignments of `UpdateEpisode`. -/
def Episode.assign (now : Int) (ep r : Episode) : Episode :=
  { r with
    absoluteEpisodeNumber := ep.absoluteEpisodeNumber, title := ep.title, overview := ep.overview
    airDateUtc := ep.airDateUtc, monitored := ep.monitored, episodeFileID := ep.episodeFileID
    updatedAt := Commands.sqliteTime now }

theorem Episode.assign_key (now : Int) (ep r : Episode) :
    Keyed.key (ep.assign now r) = Keyed.key r := rfl

structure Library where
  series : Table Series
  seasons : List Season
  episodes : Table Episode
  files : Table EpisodeFile

/-- `ORDER BY title`, by code points. -/
def titleBefore (a b : Series) : Bool :=
  decide (a.title.toList.map Char.toNat < b.title.toList.map Char.toNat)

/-- `ORDER BY season_number, episode_number`. -/
def episodeBefore (a b : Episode) : Bool :=
  decide (a.seasonNumber < b.seasonNumber) ||
    (a.seasonNumber == b.seasonNumber && decide (a.episodeNumber < b.episodeNumber))

def Library.listSeries (lib : Library) : List Series := stableSort titleBefore lib.series.rows

def Library.listForSeries (lib : Library) (seriesID : Nat) : List Episode :=
  stableSort episodeBefore (lib.episodes.rows.filter (fun e => e.seriesID == seriesID))

/-- Title or slug, up to case and surrounding space of the title looked for. -/
def titleMatches (title : String) (s : Series) : Bool :=
  let normalized := Text.toLower (Text.trimSpace title)
  Text.toLower s.title == normalized || Text.toLower s.slug == normalized

/-- `libraryLookup.FindByTitle` on the series it has listed. -/
def findByTitle (all : List Series) (title : String) : Option Nat :=
  (all.find? (titleMatches title)).map Series.id

/-- A series and its first episode, for runs on fixed rows. -/
def breakingBad : Series :=
  ⟨1, "Breaking Bad", "breaking-bad", "/tv/Breaking Bad", 81189, "ended", "standard", true, 1, true,
    "all"⟩

def pilot : Episode := ⟨1, 1, 1, 1, none, "Pilot", "", none, true, none, 0⟩

def breakingBadOnly : Table Series := ⟨[breakingBad], 2, by decide, by decide⟩

def unlinkedPilot : Table Episode := ⟨[pilot], 2, by decide, by decide⟩

end Sonarr
