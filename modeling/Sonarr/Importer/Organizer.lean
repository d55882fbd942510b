import Sonarr.Lib.SlashPath

namespace Sonarr.Organizer
open Lib

structure EpisodeInfo where
  seriesTitle : String
  seasonNumber : Int
  episodeNumber : Int
  episodeTitle : String
  qualityName : String
  releaseGroup : String
  airDate : String
  deriving DecidableEq, Repr

def tokenSeriesTitle : String := "\x7bSeries Title\x7d"
def tokenSeason : String := "\x7bseason:00\x7d"
def tokenEpisode : String := "\x7bepisode:00\x7d"
def tokenEpisodeTitle : String := "\x7bEpisode Title\x7d"
def tokenQualityFull : String := "\x7bQuality Full\x7d"
def tokenReleaseGroup : String := "\x7bRelease Group\x7d"
def tokenAirDate : String := "\x7bAir-Date\x7d"

def defaultEpisodeFormat : String :=
  "\x7bSeries Title\x7d - S\x7bseason:00\x7dE\x7bepisode:00\x7d - \x7bEpisode Title\x7d " ++
    "[\x7bQuality Full\x7d]"

/-- `%02d`: the sign counts as a digit. -/
def twoDigits (n : Int) : String :=
  if 0 ≤ n ∧ n < 10 then "0" ++ Text.decimal n else Text.decimal n

/-- The characters that most file systems do not allow. -/
def illegal : List String := ["/", "\\", ":", "*", "?", "\"", "<", ">", "|"]

def cleanFilename (name : String) : String :=
  Text.trimSpace (illegal.foldl (fun name c => Text.replaceAll name c "") name)

/-- The tokens are replaced one after the other, so a value that contains a later
token has it replaced too. -/
def buildFilename (format : String) (info : EpisodeInfo) : String :=
  let result := Text.replaceAll format tokenSeriesTitle info.seriesTitle
  let result := Text.replaceAll result tokenSeason (twoDigits info.seasonNumber)
  let result := Text.replaceAll result tokenEpisode (twoDigits info.episodeNumber)
  let result := Text.replaceAll result tokenEpisodeTitle info.episodeTitle
  let result := Text.replaceAll result tokenQualityFull info.qualityName
  let result := Text.replaceAll result tokenReleaseGroup info.releaseGroup
  let result := Text.replaceAll result tokenAirDate info.airDate
  cleanFilename result

def buildSeasonFolder (seasonNumber : Int) : String := "Season " ++ twoDigits seasonNumber

theorem twoDigits_chars (n : Int) : ∀ c ∈ (twoDigits n).toList, c.isDigit = true ∨ c = '-' := by
  have hdecimal : ∀ c ∈ (Text.decimal n).toList, c.isDigit = true ∨ c = '-' := by
    intro c hc
    have hdigit : ∀ c ∈ Nat.toDigits 10 n.natAbs, c.isDigit = true ∨ c = '-' := fun c hc =>
      .inl (Nat.isDigit_of_mem_toDigits (by decide) (by decide) hc)
    rw [Text.toList_decimal] at hc
    split at hc
    · rcases List.mem_cons.mp hc with rfl | hc
      · exact .inr rfl
      · exact hdigit c hc
    · exact hdigit c hc
  unfold twoDigits
  split
  · intro c hc
    rw [String.toList_append] at hc
    rcases List.mem_append.mp hc with hc | hc
    · rw [List.mem_singleton.mp hc]
      exact .inl (by decide)
    · exact hdecimal c hc
  · exact hdecimal

theorem twoDigits_noSlash (n : Int) : '/' ∉ (twoDigits n).toList := by
  intro h
  exact absurd (twoDigits_chars n _ h) (by decide)

theorem buildSeasonFolder_plain (n : Int) : SlashPath.Plain (buildSeasonFolder n) := by
  have hl : (buildSeasonFolder n).toList =
      ['S', 'e', 'a', 's', 'o', 'n', ' '] ++ (twoDigits n).toList := by
    unfold buildSeasonFolder
    rw [String.toList_append]
    rfl
  have hne : ∀ s : String, s.toList.length < 7 → buildSeasonFolder n ≠ s := by
    rintro s hs rfl
    rw [hl, List.length_append] at hs
    simp only [List.length_cons] at hs
    omega
  refine ⟨hne "" (by decide), hne "." (by decide), hne ".." (by decide), ?_⟩
  rw [hl]
  simp [twoDigits_noSlash]

end Sonarr.Organizer
