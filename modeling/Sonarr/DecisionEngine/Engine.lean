import Sonarr.Lib.StableSort
import Sonarr.Parser.Title
import Sonarr.Profiles.Quality

namespace Sonarr.DecisionEngine
open Lib Sonarr.Parser Profiles

inductive Decision
  | accept
  | reject
  deriving DecidableEq, Repr

inductive RejectionType
  | permanent
  | temporary
  deriving DecidableEq, Repr

/-- The messages of the specs, with what each one mentions. -/
inductive Reason
  | notAllowed (qualityID : Int)
  | notInProfile (qualityID : Int)
  | formatScoreBelow (score minimum : Int)
  | upgradeNotAllowed
  | notAnUpgrade
  | belowMinimum (size minBytes : Int) (quality : String)
  | exceedsMaximum (size maxBytes : Int) (quality : String)
  | sample (size : Int)
  | repackGroup (group existing : String)
  | blocklisted (title : String) (seriesID : Nat)
  | releaseProfile (profile title : String)
  | other (text : String)
  deriving DecidableEq, Repr

structure Rejection where
  type : RejectionType
  reason : Reason
  spec : String
  deriving DecidableEq, Repr

/-- `decisionengine.Release`. -/
structure Candidate where
  title : String
  size : Int
  indexer : String
  protocol : String
  deriving DecidableEq, Repr

/-- A release with what the specs need to know. An existing file of quality zero
stands for no file. -/
structure RemoteEpisode where
  release : Candidate
  parsedInfo : ParsedEpisodeInfo
  seriesID : Nat
  episodeIDs : List Nat
  quality : ParsedQuality
  qualityID : Int
  customFormats : List Int
  cfScore : Int
  existingFileQualityID : Int
  existingFileReleaseGroup : String
  deriving DecidableEq, Repr

structure Spec where
  name : String
  evaluate : RemoteEpisode → QualityProfile → Decision × List Rejection

/-- The specs in the order they run. -/
abbrev Engine := List Spec

/-- Every spec runs, and what the rejecting ones say is collected. -/
def Engine.evaluate (e : Engine) (remote : RemoteEpisode) (profile : QualityProfile) :
    Decision × List Rejection :=
  let rejections := e.flatMap (fun s => match s.evaluate remote profile with
    | (.reject, r) => r
    | (.accept, _) => [])
  if rejections.isEmpty then (.accept, []) else (.reject, rejections)

def qualityIndex (remote : RemoteEpisode) (profile : QualityProfile) : Nat :=
  profile.index remote.qualityID

/-- The order of `Rank`: score, then quality, then size. -/
def preferred (profile : QualityProfile) (a b : RemoteEpisode) : Bool :=
  if a.cfScore ≠ b.cfScore then decide (b.cfScore < a.cfScore)
  else if qualityIndex a profile ≠ qualityIndex b profile then
    decide (qualityIndex a profile < qualityIndex b profile)
  else decide (b.release.size < a.release.size)

/-- Sorts by preference; equally good releases keep their order. -/
def rank (remotes : List RemoteEpisode) (profile : QualityProfile) : List RemoteEpisode :=
  stableSort (preferred profile) remotes

theorem preferred_iff : preferred profile a b = true ↔
    b.cfScore < a.cfScore ∨ (a.cfScore = b.cfScore ∧
      (qualityIndex a profile < qualityIndex b profile ∨
        (qualityIndex a profile = qualityIndex b profile ∧ b.release.size < a.release.size))) := by
  unfold preferred
  split
  · simp only [decide_eq_true_eq]
    omega
  · split
    · simp only [decide_eq_true_eq]
      omega
    · simp only [decide_eq_true_eq]
      omega

theorem preferred_weak (profile : QualityProfile) : WeakOrder (preferred profile) where
  asymm a b h := by
    rw [preferred_iff] at h
    rw [← Bool.not_eq_true, preferred_iff]
    omega
  trans a b c hba hcb := by
    rw [← Bool.not_eq_true, preferred_iff] at hba hcb ⊢
    omega

end Sonarr.DecisionEngine
