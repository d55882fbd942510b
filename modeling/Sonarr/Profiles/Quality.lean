import Mathlib.Data.Rat.Defs

namespace Sonarr.Profiles

/-- The file sizes expected of one source and resolution, in MB per minute. -/
structure QualityDefinition where
  id : Int
  name : String
  source : String
  resolution : String
  minSize : ℚ
  maxSize : ℚ
  preferredSize : ℚ
  deriving DecidableEq, Repr

structure QualityProfileItem where
  qualityID : Int
  allowed : Bool
  deriving DecidableEq, Repr

structure FormatScoreItem where
  formatID : Int
  score : Int
  deriving DecidableEq, Repr

/-- `items` lists the qualities in order of preference, the best first. -/
structure QualityProfile where
  id : Int
  name : String
  upgradeAllowed : Bool
  cutoff : Int
  items : List QualityProfileItem
  minFormatScore : Int
  cutoffFormatScore : Int
  formatItems : List FormatScoreItem
  deriving DecidableEq, Repr

/-- The place of a quality in a profile; one past the end when it has none. -/
def QualityProfile.index (profile : QualityProfile) (qualityID : Int) : Nat :=
  profile.items.findIdx (fun item => item.qualityID == qualityID)

end Sonarr.Profiles
