import Sonarr.Lib.Grouping
import Sonarr.DecisionEngine.Specs
import Sonarr.Library.Store
import Sonarr.Providers.Grab

namespace Sonarr.RssSync
open Lib Sonarr.Parser Profiles CustomFormats DecisionEngine Providers

/-- A stored indexer, its settings still JSON text. -/
structure IndexerInstance where
  id : Nat
  name : String
  implementation : String
  settings : String
  enableRss : Bool
  deriving DecidableEq, Repr

/-- By implementation and settings, what `FetchRss` answers. Unknown
implementations, settings that do not decode and failed fetches have no answer. -/
abbrev IndexerRegistry := String → Option (String → Option (Option (List Release)))

/-- Step 1: the releases of all RSS indexers that answer. -/
def fetchAll (registry : IndexerRegistry) (instances : List IndexerInstance) : List Release :=
  instances.flatMap (fun inst =>
    if inst.enableRss then
      match registry inst.implementation with
      | none => []
      | some factory => match factory inst.settings with
        | none => []
        | some fetched => fetched.getD []
    else [])

/-- What one run reads of the library; a failed read has no answer. -/
structure Reads where
  series : Option (List Series)
  episodes : Nat → Option (List Episode)

/-- The reads of a library whose store does not fail. -/
def readsOf (lib : Library) : Reads :=
  ⟨some lib.listSeries, fun id => some (lib.listForSeries id)⟩

/-- Everything a run depends on. -/
structure Inputs where
  compile : Compile
  registry : IndexerRegistry
  indexers : Option (List IndexerInstance)
  qualityDefs : Option (List QualityDefinition)
  customFormats : Option (List CustomFormat)
  /-- The stored quality profile 1. -/
  profile1 : Option QualityProfile
  engine : Engine
  reads : Reads

structure GroupKey where
  seriesID : Nat
  season : Int
  episode : Int
  deriving DecidableEq, Repr

structure Candidate where
  remote : RemoteEpisode
  release : Release
  episodeID : Nat
  deriving DecidableEq, Repr

def resolveQualityID (parsed : ParsedQuality) (defs : List QualityDefinition) : Int :=
  match defs.find? (fun d =>
      d.source == parsed.source.value && d.resolution == parsed.resolution.value) with
  | some d => d.id
  | none => 0

def qualityNameForID (id : Int) (defs : List QualityDefinition) : String :=
  match defs.find? (fun d => d.id == id) with
  | some d => d.name
  | none => ""

def protocolName : DownloadProtocol → String
  | .usenet => "usenet"
  | .torrent => "torrent"

/-- The profile used when profile 1 cannot be loaded. -/
def emptyProfile : QualityProfile :=
  { id := 1, name := "Any", upgradeAllowed := false, cutoff := 0, items := []
    minFormatScore := 0, cutoffFormatScore := 0, formatItems := [] }

namespace Inputs
variable (inp : Inputs)

def profile : QualityProfile := inp.profile1.getD emptyProfile

def releases : List Release :=
  match inp.indexers with
  | none => []
  | some instances => fetchAll inp.registry instances

/-- The release as the decision engine sees it. The fields on the existing file
keep their zero values, whatever file the episode has. -/
def remote (defs : List QualityDefinition) (formats : List CustomFormat) (rel : Release)
    (seriesID episodeID : Nat) : RemoteEpisode :=
  let parsed := parseTitle rel.title
  { release := ⟨rel.title, rel.size, rel.indexer, protocolName rel.protocol⟩
    parsedInfo := parsed
    seriesID
    episodeIDs := [episodeID]
    quality := parsed.quality
    qualityID := resolveQualityID parsed.quality defs
    customFormats := matchedCFIDs inp.compile parsed formats
    cfScore := score inp.compile parsed formats inp.profile
    existingFileQualityID := 0
    existingFileReleaseGroup := "" }

/-- One episode number of a release: the candidate it makes, if the library
monitors such an episode and the engine accepts. -/
def candidate (defs : List QualityDefinition) (formats : List CustomFormat) (rel : Release)
    (seriesID : Nat) (episodes : List Episode) (season epNum : Nat) : Option (GroupKey × Candidate) :=
  match episodes.find? (fun ep =>
      ep.seasonNumber == (season : Int) && ep.episodeNumber == (epNum : Int)) with
  | none => none
  | some ep =>
    let remote := inp.remote defs formats rel seriesID ep.id
    if ep.monitored = false then none
    else match (inp.engine.evaluate remote inp.profile).1 with
      | .reject => none
      | .accept => some (⟨seriesID, season, epNum⟩, ⟨remote, rel, ep.id⟩)

/-- Step 3 for one release. -/
def candidatesOf (defs : List QualityDefinition) (formats : List CustomFormat) (rel : Release) :
    List (GroupKey × Candidate) :=
  let parsed := parseTitle rel.title
  if parsed.seriesTitle = "" then []
  else match inp.reads.series with
    | none => []
    | some all => match findByTitle all parsed.seriesTitle with
      | none => []
      | some seriesID =>
        if parsed.episodeNumbers.isEmpty then []
        else match inp.reads.episodes seriesID with
          | none => []
          | some episodes => parsed.episodeNumbers.filterMap
              (inp.candidate defs formats rel seriesID episodes parsed.seasonNumber)

/-- All accepted candidates in the order of the feeds. -/
def candidates (defs : List QualityDefinition) (formats : List CustomFormat) :
    List (GroupKey × Candidate) :=
  inp.releases.flatMap (inp.candidatesOf defs formats)

/-- The candidate the ranked winner is taken for: the first one of the same
title and score. -/
def winner (best : RemoteEpisode) (group : List Candidate) : Option Candidate :=
  group.find? (fun c =>
    c.remote.release.title == best.release.title && c.remote.cfScore == best.cfScore)

/-- Step 4 for one group: rank it and grab the best. -/
def grabCall (defs : List QualityDefinition) (key : GroupKey) (group : List Candidate) :
    Option GrabCall :=
  match (rank (group.map Candidate.remote) inp.profile).head? with
  | none => none
  | some best => (winner best group).map (fun w =>
      ⟨w.release, key.seriesID, [w.episodeID], qualityNameForID best.qualityID defs⟩)

end Inputs

inductive HandleError
  | listIndexers
  | qualityDefinitions
  | customFormats
  deriving DecidableEq, Repr

/-- The order in which a map is walked: any order of its entries. -/
structure MapOrder (α : Type) where
  walk : List α → List α
  perm : ∀ l, (walk l).Perm l

abbrev Walk := MapOrder (GroupKey × List Candidate)

/-- The map walked in the order of its entries. -/
def inOrder : Walk := ⟨fun l => l, fun _ => .refl _⟩

/-- `Handler.Handle` up to the grabs it decides on, each with its group's key. -/
def Inputs.plan (inp : Inputs) (order : Walk) : Except HandleError (List (GroupKey × GrabCall)) :=
  match inp.indexers with
  | none => .error .listIndexers
  | some _ =>
    if inp.releases.isEmpty then .ok []
    else match inp.qualityDefs with
      | none => .error .qualityDefinitions
      | some defs => match inp.customFormats with
        | none => .error .customFormats
        | some formats =>
          let groups := (Groups.collect (inp.candidates defs formats)).entries
          .ok ((order.walk groups).filterMap (fun g =>
            (inp.grabCall defs g.1 g.2).map (fun call => (g.1, call))))

/-- The grabs one after the other; a failed one is logged and passed over. -/
def grabAll {σ : Type} (clients : Clients σ) (calls : List GrabCall) (w : World σ) : World σ :=
  calls.foldl (fun w call => (grab clients w call).2) w

def handle {σ : Type} (inp : Inputs) (order : Walk) (clients : Clients σ) (w : World σ) :
    Except HandleError Unit × World σ :=
  match inp.plan order with
  | .error e => (.error e, w)
  | .ok calls => (.ok (), grabAll clients (calls.map Prod.snd) w)

end Sonarr.RssSync
