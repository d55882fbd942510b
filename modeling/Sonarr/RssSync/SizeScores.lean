import Sonarr.Profiles.SizeFormats
import Sonarr.RssSync.Matching

namespace Sonarr.RssSync
open Lib Sonarr.Parser Profiles CustomFormats DecisionEngine Providers

section Unfilled

/-- Nothing is in the fields of a parsed title that only something besides the title could fill. -/
def Unfilled (info : ParsedEpisodeInfo) : Prop :=
  info.languages = [] ∧ info.indexerFlags = [] ∧ info.size = 0 ∧ info.releaseType = ""

variable {info : ParsedEpisodeInfo}

theorem parseStandard_unfilled (h : Unfilled info) (title : String) :
    Unfilled (parseStandard title info).2 := by
  unfold parseStandard
  split
  · exact h
  · exact ⟨h.1, h.2⟩

theorem parseDaily_unfilled (h : Unfilled info) (title : String) :
    Unfilled (parseDaily title info).2 := by
  unfold parseDaily
  split
  · exact h
  · exact ⟨h.1, h.2⟩

theorem parseAnime_unfilled (h : Unfilled info) (title : String) :
    Unfilled (parseAnime title info).2 := by
  unfold parseAnime
  split
  · exact h
  · exact ⟨h.1, h.2⟩

/-- No pattern fills them. -/
theorem parseTitle_unfilled (title : String) : Unfilled (parseTitle title) := by
  have hempty : Unfilled (emptyInfo title) := ⟨rfl, rfl, rfl, rfl⟩
  have hstandard := parseStandard_unfilled hempty title
  unfold parseTitle
  rcases hs : parseStandard title (emptyInfo title) with ⟨standard, info⟩
  rw [hs] at hstandard
  cases standard with
  | true => exact ⟨hstandard.1, hstandard.2⟩
  | false =>
    have hdaily := parseDaily_unfilled hstandard title
    dsimp only [afterStandard] at hdaily ⊢
    rcases hd : parseDaily title info with ⟨daily, info⟩
    rw [hd] at hdaily
    cases daily with
    | true => exact ⟨hdaily.1, hdaily.2⟩
    | false =>
      have hanime := parseAnime_unfilled hdaily title
      dsimp only at hanime ⊢
      rcases ha : parseAnime title info with ⟨anime, info⟩
      rw [ha] at hanime
      cases anime <;> exact ⟨hanime.1, hanime.2⟩

end Unfilled

/-- The bounds of `lo-hi` in gigabytes, where both are numbers, with or without a point. -/
def sizeBounds (value : String) : Option (ℚ × ℚ) := do
  let (lo, hi) ← halves value
  let lo ← (Decimal.parse lo).filter Decimal.plain
  let hi ← (Decimal.parse hi).filter Decimal.plain
  return (lo.value, hi.value)

/-- The size lies in the range of a well-formed specification. -/
def sizeInRange (value : String) (size : Int) : Bool :=
  (sizeBounds value).any (fun (lo, hi) => lo * 1073741824 ≤ size ∧ size ≤ hi * 1073741824)

section Scores
variable (compile : Compile) (info : ParsedEpisodeInfo) (profile : QualityProfile)

theorem score_eq_sum (formats : List CustomFormat) : score compile info formats profile =
    ((formats.filter (isMatch compile info)).map (fun cf => weight profile cf.id)).sum := by
  rw [score, List.sum_eq_foldl, List.foldl_map]

/-- What one format adds to the score, wherever it stands. -/
theorem score_insert (before after : List CustomFormat) (cf : CustomFormat) :
    score compile info (before ++ cf :: after) profile =
      score compile info (before ++ after) profile +
        if isMatch compile info cf then weight profile cf.id else 0 := by
  simp only [score_eq_sum, List.filter_append, List.filter_cons, List.map_append, List.sum_append]
  cases isMatch compile info cf with
  | true =>
    simp only [if_true, List.map_cons, List.sum_cons]
    ring
  | false => simp

/-- Without a size, a format of one size specification matches no release. -/
theorem isMatch_size_unfilled {cf : CustomFormat} {spec : Specification}
    (hinfo : Unfilled info) (hcf : cf.specifications = [spec])
    (himpl : spec.implementation = "SizeSpecification") (hneg : spec.negate = false) :
    isMatch compile info cf = false := by
  have hspec : matchSpec compile info spec = false := by
    unfold matchSpec
    simp only [himpl, hinfo.2.2.1]
    rfl
  simp [isMatch, hcf, hspec, hneg]

end Scores

/-- A format of one size specification is counted as its range says only where nothing is to be
counted: for a release out of range, or a weight of zero. -/
theorem size_format_counted_iff (inp : Inputs) (defs : List QualityDefinition)
    (before after : List CustomFormat) (cf : CustomFormat) (spec : Specification) (rel : Release)
    (seriesID episodeID : Nat) (hcf : cf.specifications = [spec])
    (himpl : spec.implementation = "SizeSpecification") (hneg : spec.negate = false) :
    (inp.remote defs (before ++ cf :: after) rel seriesID episodeID).cfScore =
        (inp.remote defs (before ++ after) rel seriesID episodeID).cfScore +
          (if sizeInRange spec.value rel.size then weight inp.profile cf.id else 0) ↔
      sizeInRange spec.value rel.size = false ∨ weight inp.profile cf.id = 0 := by
  have hmatch := isMatch_size_unfilled inp.compile (parseTitle rel.title)
    (parseTitle_unfilled rel.title) hcf himpl hneg
  have hscore : (inp.remote defs (before ++ cf :: after) rel seriesID episodeID).cfScore =
      (inp.remote defs (before ++ after) rel seriesID episodeID).cfScore := by
    have hinsert := score_insert inp.compile (parseTitle rel.title) inp.profile before after cf
    rw [hmatch] at hinsert
    simpa [Inputs.remote] using hinsert
  rw [hscore]
  cases sizeInRange spec.value rel.size with
  | true => simp
  | false => simp

section TwoGigabytes

/-- A profile that gives the format 1 a weight of ten. -/
def tenForSize : QualityProfile :=
  { emptyProfile with formatItems := [⟨1, 10⟩] }

def oneAndAHalfToThree : Specification := ⟨"Size", "SizeSpecification", false, true, "1.5-3"⟩

def sizeInputs : Inputs := { noFeeds with profile1 := some tenForSize }

def sizeFormat : CustomFormat := ⟨1, "Size", false, [oneAndAHalfToThree]⟩

def twoGigabytes : Release := ⟨"Show.S01E01", "", 2147483648, "", .usenet⟩

def fourGigabytes : Release := { twoGigabytes with size := 4294967296 }

/-- A release of four gigabytes is out of range, and scored right. -/
theorem larger_release_not_counted :
    (sizeInputs.remote [] ([] ++ sizeFormat :: []) fourGigabytes 1 1).cfScore =
        (sizeInputs.remote [] ([] ++ []) fourGigabytes 1 1).cfScore +
          (if sizeInRange oneAndAHalfToThree.value fourGigabytes.size then
            weight sizeInputs.profile sizeFormat.id else 0) :=
  (size_format_counted_iff sizeInputs [] [] [] sizeFormat oneAndAHalfToThree fourGigabytes 1 1
    rfl rfl rfl).mpr (.inl (by decide +kernel))

/-- One within the range does not get the weight. -/
theorem release_in_range_not_counted :
    sizeInRange oneAndAHalfToThree.value twoGigabytes.size = true ∧
      weight sizeInputs.profile sizeFormat.id = 10 ∧
      (sizeInputs.remote [] [sizeFormat] twoGigabytes 1 1).cfScore = 0 := by
  refine ⟨by decide +kernel, by decide +kernel, ?_⟩
  have hcf : sizeFormat.specifications = [oneAndAHalfToThree] := rfl
  have hmatch := isMatch_size_unfilled sizeInputs.compile (parseTitle twoGigabytes.title)
    (parseTitle_unfilled twoGigabytes.title) hcf rfl rfl
  simp [Inputs.remote, score, hmatch]

end TwoGigabytes

end Sonarr.RssSync
