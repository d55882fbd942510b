import Sonarr.Lib.Binary64
import Sonarr.Parser.Title
import Sonarr.Profiles.Quality

namespace Sonarr.CustomFormats
open Lib Sonarr.Parser Profiles

/-- `regexp.Compile`: nothing for an invalid pattern, else its `MatchString`. -/
abbrev Compile := String → Option (String → Bool)

structure Specification where
  name : String
  implementation : String
  negate : Bool
  required : Bool
  value : String
  deriving DecidableEq, Repr

structure CustomFormat where
  id : Int
  name : String
  includeWhenRenaming : Bool
  specifications : List Specification
  deriving DecidableEq, Repr

/-- What `parseGB` has read: the value so far, and the divisor of the next digit
once it is past the point. -/
structure Reading where
  value : ℚ
  divisor : Option ℚ

/-- One character of `parseGB`; nothing when it is neither a digit nor the point. -/
def Reading.read (r : Reading) (c : Char) : Option Reading :=
  if c = '.' ∧ r.divisor = none then some { r with divisor := some 1 }
  else if c.toNat < 48 ∨ 57 < c.toNat then none
  else
    let digit : ℚ := (c.toNat - 48 : Nat)
    match r.divisor with
    | none => some { r with value := Binary64.round (Binary64.round (r.value * 10) + digit) }
    | some d =>
      let d := Binary64.round (d * 10)
      some ⟨Binary64.round (r.value + Binary64.round (digit / d)), some d⟩

/-- Gigabytes in decimal notation, as bytes. Anything malformed is zero. -/
def parseGB (s : String) : Int :=
  let (sign, digits) := match s.toList with
    | '-' :: ds => ((-1 : Int), ds)
    | ds => (1, ds)
  match digits.foldlM Reading.read ⟨0, none⟩ with
  | none => 0
  | some r => Int.bmod (Binary64.toInt64 (r.value * 2 ^ 30) * sign) (2 ^ 64)

/-- The bounds of `lo-hi`, both zero without a dash. -/
def parseSizeRange (s : String) : Int × Int :=
  match s.toList.span (· != '-') with
  | (_, []) => (0, 0)
  | (lo, _ :: hi) =>
    (parseGB (Text.trimSpace (String.ofList lo)), parseGB (Text.trimSpace (String.ofList hi)))

variable (compile : Compile)

/-- One specification, before negation. Unknown implementations match. -/
def matchSpec (info : ParsedEpisodeInfo) (spec : Specification) : Bool :=
  match spec.implementation with
  | "ReleaseTitleSpecification" => (compile spec.value).any (fun re => re info.releaseTitle)
  | "SourceSpecification" => info.quality.source.value == Text.toLower spec.value
  | "ResolutionSpecification" => info.quality.resolution.value == Text.toLower spec.value
  | "ReleaseGroupSpecification" => (compile spec.value).any (fun re => re info.releaseGroup)
  | "LanguageSpecification" => info.languages.any (fun l => Text.equalFold l spec.value)
  | "IndexerFlagSpecification" => info.indexerFlags.any (fun f => Text.equalFold f spec.value)
  | "SizeSpecification" =>
    let (lo, hi) := parseSizeRange spec.value
    info.size != 0 && decide (lo ≤ info.size) && (hi == 0 || decide (info.size ≤ hi))
  | "ReleaseTypeSpecification" => Text.equalFold info.releaseType spec.value
  | _ => true

/-- A format matches when all its specifications do. -/
def isMatch (info : ParsedEpisodeInfo) (cf : CustomFormat) : Bool :=
  cf.specifications.all (fun spec => matchSpec compile info spec != spec.negate)

/-- The weight a profile gives a format: its last entry for it, else zero. -/
def weight (profile : QualityProfile) (formatID : Int) : Int :=
  match profile.formatItems.reverse.find? (fun item => item.formatID == formatID) with
  | some item => item.score
  | none => 0

def score (info : ParsedEpisodeInfo) (formats : List CustomFormat) (profile : QualityProfile) : Int :=
  (formats.filter (isMatch compile info)).foldl (fun total cf => total + weight profile cf.id) 0

/-- `matchedCFIDs` of the RSS sync. -/
def matchedCFIDs (info : ParsedEpisodeInfo) (formats : List CustomFormat) : List Int :=
  (formats.filter (isMatch compile info)).map CustomFormat.id

end Sonarr.CustomFormats
