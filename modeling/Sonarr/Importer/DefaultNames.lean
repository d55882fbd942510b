import Mathlib.Data.List.TakeWhile
import Sonarr.Importer.Substitution

namespace Sonarr.Organizer
open Lib Template

def names : List Name :=
  [nameSeriesTitle, nameSeason, nameEpisode, nameEpisodeTitle, nameQualityFull, nameReleaseGroup,
    nameAirDate]

/-- A text in which no token stands. -/
def Tokenless (s : List Char) : Prop := ∀ t ∈ names, ¬ t.text <:+: s

theorem tokenless_of_open (h : '\x7b' ∉ s) : Tokenless s := by
  intro t _ hin
  exact h (hin.subset List.mem_cons_self)

section Numbers

theorem twoDigits_toList (n : Nat) : (twoDigits n).toList =
    if n < 10 then '0' :: Nat.toDigits 10 n else Nat.toDigits 10 n := by
  by_cases hn : n < 10
  · rw [twoDigits, if_pos (by omega), if_pos hn, String.toList_append, Text.toList_decimal_nat]
    rfl
  · rw [twoDigits, if_neg (by omega), if_neg hn, Text.toList_decimal_nat]

theorem value_twoDigits (n : Nat) : Nat.ofDigitChars 10 (twoDigits n).toList 0 = n := by
  rw [twoDigits_toList]
  split
  · exact Nat.ofDigitChars_ten_toDigits
  · exact Nat.ofDigitChars_ten_toDigits

end Numbers

section Default
variable {info : EpisodeInfo}

/-- The default format, piece by piece. -/
theorem defaultEpisodeFormat_toList : defaultEpisodeFormat.toList =
    nameSeriesTitle.text ++ (" - S".toList ++ (nameSeason.text ++ ("E".toList ++
      (nameEpisode.text ++ (" - ".toList ++ (nameEpisodeTitle.text ++ (" [".toList ++
        (nameQualityFull.text ++ "]".toList)))))))) := by
  unfold defaultEpisodeFormat nameSeriesTitle nameSeason nameEpisode nameEpisodeTitle nameQualityFull
  rw [String.toList_append]
  simp only [Token.text]
  repeat rw [String.toList_ofList]
  rfl

/-- A token does not go on over a text that begins with two characters it has nowhere. -/
theorem not_cross {t : Name} {c d : Char}
    (h : (List.range t.text.length).all (fun i => i == 0 ||
      !((t.text.drop i).take 2).isPrefixOf [c, d]) = true) (s : List Char) :
    ∀ x y, t.text = x ++ y → x ≠ [] → y ≠ [] → ¬ y <+: c :: d :: s := by
  intro x y hxy hx hy hpre
  have hlength : x.length < t.text.length := by
    rw [hxy, List.length_append]
    have := List.length_pos_iff.mpr hy
    omega
  have hi := List.all_eq_true.mp h x.length (List.mem_range.mpr hlength)
  have hdrop : t.text.drop x.length = y := by rw [hxy, List.drop_left]
  have htake : y.take 2 <+: [c, d] := by
    have := hpre.take 2
    simpa using this
  rw [hdrop, List.isPrefixOf_iff_prefix.mpr htake] at hi
  simp [hx] at hi

section Pieces
variable {t : Name} {v T E Q : List Char} (ht : t ∈ names)
include ht

theorem replace_title (hT : Tokenless T) (s : List Char) :
    replace t v (T ++ (" - S".toList ++ s)) = T ++ replace t v (" - S".toList ++ s) := by
  have hbreak : ∀ t ∈ names, (List.range t.text.length).all (fun i => i == 0 ||
      !((t.text.drop i).take 2).isPrefixOf [' ', '-']) = true := by decide
  exact replace_append (hT t ht) (not_cross (hbreak t ht) (' ' :: 'S' :: s))

theorem replace_episodeTitle (hE : Tokenless E) (s : List Char) :
    replace t v (E ++ (" [".toList ++ s)) = E ++ replace t v (" [".toList ++ s) := by
  have hbreak : ∀ t ∈ names, (List.range t.text.length).all (fun i => i == 0 ||
      !((t.text.drop i).take 2).isPrefixOf [' ', '[']) = true := by decide
  exact replace_append (hE t ht) (not_cross (hbreak t ht) s)

theorem replace_quality (hQ : Tokenless Q) : replace t v (Q ++ "]".toList) = Q ++ "]".toList := by
  have hbreak : ∀ t ∈ names, ']' ∉ t.text := by decide
  have hcross : ∀ x y, t.text = x ++ y → x ≠ [] → y ≠ [] → ¬ y <+: "]".toList := by
    intro x y hxy _ hy hpre
    obtain ⟨c, hc⟩ := List.exists_mem_of_ne_nil y hy
    have hlast : c = ']' := List.mem_singleton.mp (hpre.subset hc)
    exact hbreak t ht (by rw [hxy, ← hlast]; exact List.mem_append_right x hc)
  have hend : replace t v "]".toList = "]".toList := by
    have hplain := replace_plain (t := t) (v := v) (show '\x7b' ∉ "]".toList by decide) []
    rwa [List.append_nil, replace_eq_nil, List.append_nil] at hplain
  rw [replace_append (hQ t ht) hcross, hend]

end Pieces

/-- The name that the default format stands for, before it is cleaned. -/
def defaultName (info : EpisodeInfo) : List Char :=
  info.seriesTitle.toList ++ (" - S".toList ++ ((twoDigits info.seasonNumber).toList ++ ("E".toList ++
    ((twoDigits info.episodeNumber).toList ++ (" - ".toList ++ (info.episodeTitle.toList ++
      (" [".toList ++ (info.qualityName.toList ++ "]".toList))))))))

/-- Texts without tokens stand in a name as they are. -/
theorem passes_default (hT : Tokenless info.seriesTitle.toList)
    (hE : Tokenless info.episodeTitle.toList) (hQ : Tokenless info.qualityName.toList) :
    passes info.values defaultEpisodeFormat.toList = defaultName info := by
  obtain ⟨hs, _⟩ := bracket_notMem_twoDigits info.seasonNumber
  obtain ⟨he, _⟩ := bracket_notMem_twoDigits info.episodeNumber
  have hS : '\x7b' ∉ " - S".toList := by decide
  have hEp : '\x7b' ∉ "E".toList := by decide
  have hdash : '\x7b' ∉ " - ".toList := by decide
  have hbracket : '\x7b' ∉ " [".toList := by decide
  rw [defaultEpisodeFormat_toList]
  simp only [passes, EpisodeInfo.values, EpisodeInfo.laterValues, List.foldl_cons, List.foldl_nil]
  -- the title's token is the first; the rest of the format has it nowhere
  rw [replace_hit, replace_absent (t := nameSeriesTitle) (by decide +kernel)]
  -- after it, each pass goes over what the earlier ones have put there
  rw [replace_title (t := nameSeason) (by decide) hT, replace_plain hS, replace_hit,
    replace_absent (t := nameSeason) (by decide +kernel)]
  rw [replace_title (t := nameEpisode) (by decide) hT, replace_plain hS, replace_plain hs,
    replace_plain hEp, replace_hit, replace_absent (t := nameEpisode) (by decide +kernel)]
  rw [replace_title (t := nameEpisodeTitle) (by decide) hT, replace_plain hS, replace_plain hs,
    replace_plain hEp, replace_plain he, replace_plain hdash, replace_hit,
    replace_absent (t := nameEpisodeTitle) (by decide +kernel)]
  rw [replace_title (t := nameQualityFull) (by decide) hT, replace_plain hS, replace_plain hs,
    replace_plain hEp, replace_plain he, replace_plain hdash,
    replace_episodeTitle (t := nameQualityFull) (by decide) hE, replace_plain hbracket, replace_hit,
    replace_absent (t := nameQualityFull) (by decide +kernel)]
  have hlast : ∀ t ∈ names, ∀ v, replace t v (defaultName info) = defaultName info := by
    intro t ht v
    unfold defaultName
    rw [replace_title ht hT, replace_plain hS, replace_plain hs, replace_plain hEp,
      replace_plain he, replace_plain hdash, replace_episodeTitle ht hE, replace_plain hbracket,
      replace_quality ht hQ]
  exact (congrArg _ (hlast nameReleaseGroup (by decide) _)).trans (hlast nameAirDate (by decide) _)

/-- What stands before the season in a cleaned name; it depends on the series alone. -/
def namePrefix (title : List Char) : List Char :=
  (title.filter legal ++ " - ".toList).dropWhile Unicode.isSpace

/-- What stands after the episode's number and a space. -/
def nameRest (info : EpisodeInfo) : List Char :=
  "- ".toList ++ (info.episodeTitle.toList.filter legal ++ (" [".toList ++
    (info.qualityName.toList.filter legal ++ "]".toList)))

theorem namePrefix_ne_nil (title : List Char) : namePrefix title ≠ [] := by
  unfold namePrefix
  rw [Ne, List.dropWhile_eq_nil_iff]
  intro h
  exact absurd (h '-' (by simp)) (by decide)

theorem filter_number (n : Int) : (twoDigits n).toList.filter legal = (twoDigits n).toList := by
  rw [List.filter_eq_self]
  intro c hc
  have hlegal : (illegal.flatMap String.toList).all (fun d => !d.isDigit && d != '-') = true := by
    decide
  unfold legal
  rw [List.all_eq_true]
  intro s hs
  rw [bne_iff_ne]
  intro heq
  have hno := List.all_eq_true.mp hlegal c (List.mem_flatMap.mpr ⟨s, hs, by simp [heq]⟩)
  rcases twoDigits_chars n c hc with hdigit | hdash
  · simp [hdigit] at hno
  · simp [hdash] at hno

theorem trimRight_eq_self {l : List Char} (hl : l.getLast? = some c) (hc : Unicode.isSpace c = false) :
    (l.reverse.dropWhile Unicode.isSpace).reverse = l := by
  obtain ⟨l', rfl⟩ := List.getLast?_eq_some_iff.mp hl
  simp [hc]

/-- A cleaned name, up to what comes after its numbers. -/
theorem buildFilename_default (hT : Tokenless info.seriesTitle.toList)
    (hE : Tokenless info.episodeTitle.toList) (hQ : Tokenless info.qualityName.toList) :
    (buildFilename defaultEpisodeFormat info).toList =
      namePrefix info.seriesTitle.toList ++ 'S' :: ((twoDigits info.seasonNumber).toList ++
        'E' :: ((twoDigits info.episodeNumber).toList ++ ' ' :: nameRest info)) := by
  have hS : " - S".toList.filter legal = " - ".toList ++ ['S'] := by decide
  have hEp : "E".toList.filter legal = ['E'] := by decide
  have hdash : " - ".toList.filter legal = ' ' :: "- ".toList := by decide
  have hopen : " [".toList.filter legal = " [".toList := by decide
  have hclose : "]".toList.filter legal = "]".toList := by decide
  have hfilter : (defaultName info).filter legal = (info.seriesTitle.toList.filter legal ++
      " - ".toList) ++ 'S' :: ((twoDigits info.seasonNumber).toList ++
        'E' :: ((twoDigits info.episodeNumber).toList ++ ' ' :: nameRest info)) := by
    simp only [defaultName, nameRest, List.filter_append, filter_number, hS, hEp, hdash, hopen,
      hclose, List.append_assoc, List.cons_append, List.nil_append]
  have hdrop : ((defaultName info).filter legal).dropWhile Unicode.isSpace =
      namePrefix info.seriesTitle.toList ++ 'S' :: ((twoDigits info.seasonNumber).toList ++
        'E' :: ((twoDigits info.episodeNumber).toList ++ ' ' :: nameRest info)) := by
    rw [hfilter, List.dropWhile_append, if_neg]
    · rfl
    · rw [List.isEmpty_iff]
      exact namePrefix_ne_nil info.seriesTitle.toList
  have hlast : (namePrefix info.seriesTitle.toList ++ 'S' ::
      ((twoDigits info.seasonNumber).toList ++ 'E' :: ((twoDigits info.episodeNumber).toList ++
        ' ' :: nameRest info))).getLast? = some ']' := by
    have hclose : "]".toList = [']'] := by decide
    rw [List.getLast?_eq_some_iff]
    unfold nameRest
    rw [hclose]
    refine ⟨namePrefix info.seriesTitle.toList ++ 'S' :: ((twoDigits info.seasonNumber).toList ++
      'E' :: ((twoDigits info.episodeNumber).toList ++ ' ' :: ("- ".toList ++
        (info.episodeTitle.toList.filter legal ++ (" [".toList ++
          info.qualityName.toList.filter legal))))), ?_⟩
    simp
  rw [buildFilename_eq, cleanFilename_toList, String.toList_ofList, passes_default hT hE hQ, hdrop,
    trimRight_eq_self hlast (by decide)]

end Default

end Sonarr.Organizer
