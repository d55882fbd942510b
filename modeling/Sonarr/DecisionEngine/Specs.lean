import Sonarr.DecisionEngine.Engine
import Sonarr.Profiles.CustomFormats

namespace Sonarr.DecisionEngine
open Lib Sonarr.Parser Profiles CustomFormats

/-- Every rejection of these specs is permanent and carries the spec's name. -/
def rejectAs (spec : String) (reason : Reason) : Decision × List Rejection :=
  (.reject, [⟨.permanent, reason, spec⟩])

def acceptIt : Decision × List Rejection := (.accept, [])

def qualityAllowedSpec : Spec where
  name := "QualityAllowed"
  evaluate remote profile :=
    match profile.items.find? (fun it => it.qualityID == remote.qualityID) with
    | some it =>
      if it.allowed then acceptIt else rejectAs "QualityAllowed" (.notAllowed remote.qualityID)
    | none => rejectAs "QualityAllowed" (.notInProfile remote.qualityID)

def customFormatScoreSpec : Spec where
  name := "CustomFormatScore"
  evaluate remote profile :=
    if profile.minFormatScore ≤ remote.cfScore then acceptIt
    else rejectAs "CustomFormatScore" (.formatScoreBelow remote.cfScore profile.minFormatScore)

def upgradeAllowedSpec : Spec where
  name := "UpgradeAllowed"
  evaluate remote profile :=
    if remote.existingFileQualityID = 0 then acceptIt
    else if profile.upgradeAllowed then acceptIt
    else rejectAs "UpgradeAllowed" .upgradeNotAllowed

def profileIndex (qualityID : Int) (profile : QualityProfile) : Nat := profile.index qualityID

def upgradableSpec : Spec where
  name := "Upgradable"
  evaluate remote profile :=
    if remote.existingFileQualityID = 0 then acceptIt
    else if profileIndex remote.existingFileQualityID profile ≤
        profileIndex remote.qualityID profile then
      rejectAs "Upgradable" .notAnUpgrade
    else acceptIt

/-- A whole number of bytes of a size in MB. -/
def bytesOf (mb : ℚ) : Int := Binary64.toInt64 (mb * (1024 * 1024))

def acceptableSizeSpec (qualityDefs : List QualityDefinition) : Spec where
  name := "AcceptableSize"
  evaluate remote _ :=
    let size := remote.release.size
    if size = 0 then acceptIt
    else match qualityDefs.find? (fun d => d.id == remote.qualityID) with
      | none => acceptIt
      | some d =>
        if 0 < bytesOf d.minSize ∧ size < bytesOf d.minSize then
          rejectAs "AcceptableSize" (.belowMinimum size (bytesOf d.minSize) d.name)
        else if 0 < d.maxSize ∧ bytesOf d.maxSize < size then
          rejectAs "AcceptableSize" (.exceedsMaximum size (bytesOf d.maxSize) d.name)
        else acceptIt

def sampleThreshold : Int := 40 * 1024 * 1024

def notSampleSpec : Spec where
  name := "NotSample"
  evaluate remote _ :=
    if 0 < remote.release.size ∧ remote.release.size < sampleThreshold then
      rejectAs "NotSample" (.sample remote.release.size)
    else acceptIt

def repackSpec : Spec where
  name := "Repack"
  evaluate remote _ :=
    if remote.quality.modifier ≠ .repack then acceptIt
    else if remote.existingFileQualityID = 0 then acceptIt
    else if remote.parsedInfo.releaseGroup = remote.existingFileReleaseGroup then acceptIt
    else rejectAs "Repack"
      (.repackGroup remote.parsedInfo.releaseGroup remote.existingFileReleaseGroup)

/-- A stub in the source: it accepts everything. -/
def alreadyImportedSpec : Spec where
  name := "AlreadyImported"
  evaluate _ _ := acceptIt

/-- The columns of the blocklist that matching reads. -/
structure BlocklistEntry where
  seriesID : Nat
  sourceTitle : String
  deriving DecidableEq, Repr

def blocklistMatches (entries : List BlocklistEntry) (seriesID : Nat) (title : String) : Bool :=
  entries.any (fun e => e.seriesID == seriesID && e.sourceTitle == title)

/-- `listBySeries` fails when the store cannot be read, which does not block a grab. -/
def blocklistedSpec (listBySeries : Nat → Option (List BlocklistEntry)) : Spec where
  name := "Blocklisted"
  evaluate remote _ :=
    match listBySeries remote.seriesID with
    | none => acceptIt
    | some entries =>
      if blocklistMatches entries remote.seriesID remote.release.title then
        rejectAs "Blocklisted" (.blocklisted remote.release.title remote.seriesID)
      else acceptIt

structure ReleaseProfile where
  id : Int
  name : String
  enabled : Bool
  required : List String
  ignored : List String
  indexerID : Int
  tags : List Int
  deriving DecidableEq, Repr

section
variable (compile : Compile)

/-- A term in slashes is a pattern, any other a part of the title up to case. -/
def termMatches (term title : String) : Bool :=
  if term = "" then true
  else if 2 ≤ term.toList.length && Text.hasPrefix term "/" && Text.hasSuffix term "/" then
    let pattern := String.ofList (term.toList.drop 1).dropLast
    (compile ("(?i)" ++ pattern)).any (fun re => re title)
  else Text.contains (Text.toLower title) (Text.toLower term)

def ReleaseProfile.isMatch (p : ReleaseProfile) (title : String) : Bool :=
  p.required.all (fun term => termMatches compile term title) &&
    p.ignored.all (fun term => !termMatches compile term title)

def releaseProfileSpec (profiles : Nat → String → Option (List ReleaseProfile)) : Spec where
  name := "ReleaseProfile"
  evaluate remote _ :=
    match profiles remote.seriesID remote.release.indexer with
    | none => acceptIt
    | some ps =>
      match ps.find? (fun p => p.enabled && !p.isMatch compile remote.release.title) with
      | none => acceptIt
      | some p => rejectAs "ReleaseProfile" (.releaseProfile p.name remote.release.title)

/-- What the application wires into its engine: the definitions it loaded, the
blocklist and the release profiles, of which it hands on the global ones. -/
structure Wiring where
  qualityDefs : List QualityDefinition
  blocklist : Nat → Option (List BlocklistEntry)
  releaseProfiles : Option (List ReleaseProfile)

def appEngine (w : Wiring) : Engine :=
  [qualityAllowedSpec, customFormatScoreSpec, upgradeAllowedSpec, upgradableSpec,
    acceptableSizeSpec w.qualityDefs, notSampleSpec, repackSpec, alreadyImportedSpec,
    blocklistedSpec w.blocklist,
    releaseProfileSpec compile (fun _ _ =>
      w.releaseProfiles.map (fun ps => ps.filter (fun p => p.enabled && p.indexerID == 0)))]

end
end Sonarr.DecisionEngine
