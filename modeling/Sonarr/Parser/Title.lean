import Sonarr.Parser.Quality

namespace Sonarr.Parser
open Lib Re

/-- The numbering convention; titles that only the fallback reads have none. -/
inductive SeriesType
  | unknown
  | standard
  | daily
  | anime
  deriving DecidableEq, Repr

structure ParsedEpisodeInfo where
  seriesTitle : String
  seriesType : SeriesType
  seasonNumber : Nat
  episodeNumbers : List Nat
  absoluteEpisodeNumbers : List Nat
  /-- Days since 1970-01-01. -/
  airDate : Option Int
  year : Nat
  releaseGroup : String
  quality : ParsedQuality
  releaseTitle : String
  languages : List String
  indexerFlags : List String
  size : Int
  releaseType : String
  deriving DecidableEq, Repr

/-- `[\.\s_-]`. -/
def separator : Re := .set (fun c => c == '.' || isBlank c || c == '_' || c == '-')

def reStandard : Re := seqs
  [.textStart, .group "title" (lazy1 dot), many1 separator,
    ichar 'S', .group "season" (between digit 1 2),
    ichar 'E', .group "episode" (between digit 2 3),
    many (.seq (many1 (.alt (char '-') (ichar 'E'))) (.group "episode2" (between digit 2 3)))]

def reDaily : Re := seqs
  [.textStart, .group "title" (lazy1 dot), many1 separator,
    .group "year" (times digit 4), separator,
    .group "month" (times digit 2), separator,
    .group "day" (times digit 2)]

def reAnime : Re := seqs
  [.textStart, char '[', .group "group" (many1 (.set (· != ']'))), char ']', many blank,
    .group "title" (lazy1 dot), many blank, char '-', many blank,
    .group "episode" (between digit 2 4), opt (.seq (ichar 'v') (many1 digit))]

def reFallbackTitle : Re := seqs
  [.textStart, .group "title" (lazy1 dot), many1 separator,
    alts [.seq (ichar 'S') digit, .seq (ichar 'E') digit,
      seqs [times digit 4, separator, times digit 2], .seq (between digit 3 4) (ichar 'p'),
      word "HDTV", word "WEB", word "BluRay", word "DVD", word "x264", word "x265",
      seqs [ichar 'H', opt (char '.'), word "264"], seqs [ichar 'H', opt (char '.'), word "265"],
      word "AAC", word "AC3", word "DTS", word "PROPER", word "REPACK"]]

def reReleaseGroup : Re := seqs
  [char '-', .group "1" (many1 alnum), opt (seqs [char '[', many dot, char ']']), .textEnd]

/-- Collapses double spaces until there are none; every round shortens the text,
so its length bounds the rounds. -/
def collapseSpaces : Nat → String → String
  | 0, s => s
  | fuel + 1, s =>
    if Text.contains s "  " then collapseSpaces fuel (Text.replaceAll s "  " " ") else s

def cleanTitle (s : String) : String :=
  let t := Text.trimSpace (Text.replaceAll (Text.replaceAll s "." " ") "_" " ")
  collapseSpaces t.toList.length t

def parseReleaseGroup (title : String) : String :=
  match reReleaseGroup.findSubmatch title with
  | none => ""
  | some m => field m "1"

/-- The first result says whether the title is a standard one. A range that runs
backwards leaves no episode, but its title and season stay behind in `info`. -/
def parseStandard (title : String) (info : ParsedEpisodeInfo) : Bool × ParsedEpisodeInfo :=
  match reStandard.findSubmatch title with
  | none => (false, info)
  | some m =>
    let single := (Text.atoi (field m "episode")).toList
    let first := single.headD 0
    let episodes := match Text.atoi (field m "episode2") with
      | none => single
      | some ep2 => if ep2 > 0 then List.range' first (ep2 + 1 - first) else single
    (!episodes.isEmpty,
      { info with
        seriesTitle := cleanTitle (field m "title")
        seasonNumber := (Text.atoi (field m "season")).getD 0
        episodeNumbers := episodes })

/-- Days since 1970-01-01 of a date whose month and day may run over. -/
def dateUTC (year month day : Int) : Int :=
  -- years start in March here, so that the leap day is the last of its year
  let m := month - 3
  let y := year + m / 12
  let monthDays := (153 * (m % 12) + 2) / 5
  365 * y + y / 4 - y / 100 + y / 400 + monthDays + day - 1 - 719468

def parseDaily (title : String) (info : ParsedEpisodeInfo) : Bool × ParsedEpisodeInfo :=
  match reDaily.findSubmatch title with
  | none => (false, info)
  | some m =>
    let year := (Text.atoi (field m "year")).getD 0
    let month := (Text.atoi (field m "month")).getD 0
    let day := (Text.atoi (field m "day")).getD 0
    (true,
      { info with
        seriesTitle := cleanTitle (field m "title")
        year
        airDate := some (dateUTC year month day)
        seasonNumber := year
        episodeNumbers := [month * 100 + day] })

def parseAnime (title : String) (info : ParsedEpisodeInfo) : Bool × ParsedEpisodeInfo :=
  match reAnime.findSubmatch title with
  | none => (false, info)
  | some m =>
    let episodes := info.absoluteEpisodeNumbers ++ (Text.atoi (field m "episode")).toList
    (!episodes.isEmpty,
      { info with
        seriesTitle := cleanTitle (field m "title")
        releaseGroup := Text.trimSpace (field m "group")
        absoluteEpisodeNumbers := episodes })

def emptyInfo (title : String) : ParsedEpisodeInfo :=
  { seriesTitle := "", seriesType := .unknown, seasonNumber := 0, episodeNumbers := []
    absoluteEpisodeNumbers := [], airDate := none, year := 0, releaseGroup := ""
    quality := parseQuality title, releaseTitle := title
    languages := [], indexerFlags := [], size := 0, releaseType := "" }

/-- Daily and anime patterns, and the title alone when none fits. A pattern that fails hands on
what it has written. -/
def afterStandard (title : String) (info : ParsedEpisodeInfo) : ParsedEpisodeInfo :=
  match parseDaily title info with
  | (true, info) => { info with seriesType := .daily, releaseGroup := parseReleaseGroup title }
  | (false, info) => match parseAnime title info with
    | (true, info) => { info with seriesType := .anime }
    | (false, info) =>
      let seriesTitle := match reFallbackTitle.findSubmatch title with
        | some m => cleanTitle (field m "title")
        | none => cleanTitle title
      { info with seriesTitle, releaseGroup := parseReleaseGroup title }

/-- Standard patterns come first. -/
def parseTitle (title : String) : ParsedEpisodeInfo :=
  match parseStandard title (emptyInfo title) with
  | (true, info) => { info with seriesType := .standard, releaseGroup := parseReleaseGroup title }
  | (false, info) => afterStandard title info

end Sonarr.Parser
