import Sonarr.Lib.Text
import Sonarr.Lib.Regex

namespace Sonarr.Parser
open Lib Re

/-- Where the media came from. -/
inductive QualitySource
  | unknown
  | television
  | webDL
  | webRip
  | bluray
  | dvd
  | remux
  deriving DecidableEq, Repr

/-- The value the source code and the quality definitions use. -/
def QualitySource.value : QualitySource → String
  | .unknown => ""
  | .television => "television"
  | .webDL => "webdl"
  | .webRip => "webrip"
  | .bluray => "bluray"
  | .dvd => "dvd"
  | .remux => "remux"

inductive Resolution
  | unknown
  | r480p
  | r576p
  | r720p
  | r1080p
  | r2160p
  deriving DecidableEq, Repr

def Resolution.value : Resolution → String
  | .unknown => ""
  | .r480p => "480p"
  | .r576p => "576p"
  | .r720p => "720p"
  | .r1080p => "1080p"
  | .r2160p => "2160p"

inductive Modifier
  | none
  | proper
  | repack
  | real
  deriving DecidableEq, Repr

structure ParsedQuality where
  source : QualitySource
  resolution : Resolution
  modifier : Modifier
  revision : Nat
  deriving DecidableEq, Repr

/-- `\b` on both sides. -/
def bounded (r : Re) : Re := seqs [.wordBoundary, r, .wordBoundary]

/-- `a[-. ]?b`. -/
def joined (a b : String) : Re := seqs [word a, opt (anyOf "-. "), word b]

def reResolution2160p : Re := bounded (.group "1" (alts [word "2160p", word "4k", word "uhd"]))
def reResolution1080p : Re := bounded (.seq (word "1080") (.alt (ichar 'p') (ichar 'i')))
def reResolution720p : Re := bounded (word "720p")
def reResolution480p : Re := bounded (.seq (word "480") (.alt (ichar 'p') (ichar 'i')))
def reResolution576p : Re := bounded (.seq (word "576") (.alt (ichar 'p') (ichar 'i')))

def reWebDL : Re := bounded (.group "1" (.alt (joined "WEB" "DL") (word "WEBDL")))
def reWebRip : Re := bounded (.group "1" (.alt (joined "WEB" "Rip") (word "WEBRip")))
def reBluray : Re := bounded (.group "1"
  (alts [joined "Blu" "Ray", joined "BD" "Rip", joined "BR" "Rip", word "BDREMUX"]))
def reRemux : Re := bounded (.group "1" (.alt (word "REMUX") (word "BDREMUX")))
def reHDTV : Re := bounded (.group "1" (alts [word "HDTV", word "PDTV", word "DSR", word "DTHD"]))
def reSDTV : Re := bounded (.group "1" (word "SDTV"))
def reDVD : Re := bounded (.group "1" (alts [joined "DVD" "Rip", joined "DVD" "R", word "DVDSCR"]))

def reProper : Re := bounded (word "PROPER")
def reRepack : Re := bounded (word "REPACK")
def reReal : Re := bounded (word "REAL")

/-- No leading `\b`: the version often follows an episode number at once. -/
def reAnimeVersion : Re := seqs [ichar 'v', .group "1" (many1 digit), .wordBoundary]

def parseResolution (title : String) : Resolution :=
  if reResolution2160p.matchString title then .r2160p
  else if reResolution1080p.matchString title then .r1080p
  else if reResolution720p.matchString title then .r720p
  else if reResolution576p.matchString title then .r576p
  else if reResolution480p.matchString title then .r480p
  else .unknown

/-- Remux comes before bluray because `BDREMUX` matches both. -/
def parseSource (title : String) : QualitySource :=
  if reRemux.matchString title then .remux
  else if reWebDL.matchString title then .webDL
  else if reWebRip.matchString title then .webRip
  else if reBluray.matchString title then .bluray
  else if reDVD.matchString title then .dvd
  else if reHDTV.matchString title then .television
  else if reSDTV.matchString title then .television
  else .unknown

def parseModifier (title : String) : Modifier :=
  if reProper.matchString title then .proper
  else if reRepack.matchString title then .repack
  else if reReal.matchString title then .real
  else .none

def parseRevision (title : String) : Nat :=
  match reAnimeVersion.findSubmatch title with
  | none => 1
  | some m => match Text.atoi (field m "1") with
    | none => 1
    | some v => if v > 1 then v else 1

def parseQuality (title : String) : ParsedQuality :=
  ⟨parseSource title, parseResolution title, parseModifier title, parseRevision title⟩

example : parseQuality "Show.S01E01.1080p.WEB-DL.REPACK-GRP" = ⟨.webDL, .r1080p, .repack, 1⟩ := by
  decide

end Sonarr.Parser
