import Sonarr.Importer.Organizer
import Sonarr.Lib.Template

namespace Sonarr.Organizer
open Lib Template

/-- What stands in a format for a value. -/
abbrev Name := Token '\x7b' '\x7d'

def nameSeriesTitle : Name := ⟨"Series Title".toList, by decide, by decide, by decide⟩
def nameSeason : Name := ⟨"season:00".toList, by decide, by decide, by decide⟩
def nameEpisode : Name := ⟨"episode:00".toList, by decide, by decide, by decide⟩
def nameEpisodeTitle : Name := ⟨"Episode Title".toList, by decide, by decide, by decide⟩
def nameQualityFull : Name := ⟨"Quality Full".toList, by decide, by decide, by decide⟩
def nameReleaseGroup : Name := ⟨"Release Group".toList, by decide, by decide, by decide⟩
def nameAirDate : Name := ⟨"Air-Date".toList, by decide, by decide, by decide⟩

/-- The values that come after the season, in the order of the passes. -/
def EpisodeInfo.laterValues (info : EpisodeInfo) : Values '\x7b' '\x7d' :=
  [(nameEpisode, (twoDigits info.episodeNumber).toList),
    (nameEpisodeTitle, info.episodeTitle.toList), (nameQualityFull, info.qualityName.toList),
    (nameReleaseGroup, info.releaseGroup.toList), (nameAirDate, info.airDate.toList)]

def EpisodeInfo.values (info : EpisodeInfo) : Values '\x7b' '\x7d' :=
  (nameSeriesTitle, info.seriesTitle.toList) ::
    (nameSeason, (twoDigits info.seasonNumber).toList) :: info.laterValues

section Passes

/-- One pass after the other. -/
def passes (ps : Values '\x7b' '\x7d') (F : List Char) : List Char :=
  ps.foldl (fun F p => replace p.1 p.2 F) F

theorem buildFilename_eq (format : String) (info : EpisodeInfo) : buildFilename format info =
    cleanFilename (String.ofList (passes info.values format.toList)) := by
  unfold buildFilename
  dsimp only
  refine congrArg cleanFilename ?_
  apply String.toList_injective
  rw [String.toList_ofList, replaceAll_toList _ nameAirDate _ rfl,
    replaceAll_toList _ nameReleaseGroup _ rfl, replaceAll_toList _ nameQualityFull _ rfl,
    replaceAll_toList _ nameEpisodeTitle _ rfl, replaceAll_toList _ nameEpisode _ rfl,
    replaceAll_toList _ nameSeason _ rfl, replaceAll_toList _ nameSeriesTitle _ rfl]
  simp only [passes, EpisodeInfo.values, EpisodeInfo.laterValues, List.foldl_cons, List.foldl_nil]

end Passes

section Cleaning

/-- A character that file systems allow. -/
def legal (c : Char) : Bool := illegal.all (fun s => s.toList != [c])

theorem remove_toList {l : List String} (hl : ∀ s ∈ l, s.toList.length = 1) (name : String) :
    (l.foldl (fun name s => Text.replaceAll name s "") name).toList =
      name.toList.filter (fun c => l.all (fun s => s.toList != [c])) := by
  induction l generalizing name with
  | nil => simp
  | cons s l ih =>
    obtain ⟨d, hd⟩ := List.length_eq_one_iff.mp (hl s List.mem_cons_self)
    rw [List.foldl_cons, ih (fun t ht => hl t (List.mem_cons_of_mem _ ht)),
      Text.replaceAll_remove hd, List.filter_filter]
    apply List.filter_congr
    intro c _
    rw [List.all_cons, hd, Bool.and_comm]
    congr 1
    by_cases hcd : c = d
    · simp [hcd]
    · have hdc : d ≠ c := Ne.symm hcd
      simp [hcd, hdc]

theorem cleanFilename_toList (name : String) : (cleanFilename name).toList =
    (((name.toList.filter legal).dropWhile Unicode.isSpace).reverse.dropWhile
      Unicode.isSpace).reverse := by
  unfold cleanFilename Text.trimSpace
  rw [String.toList_ofList, remove_toList (by decide)]
  rfl

theorem count_dropSpace (hc : Unicode.isSpace c = false) (l : List Char) :
    (l.dropWhile Unicode.isSpace).count c = l.count c := by
  induction l with
  | nil => rfl
  | cons x l ih =>
    rw [List.dropWhile_cons]
    split
    · rename_i hx
      have hne : x ≠ c := by
        rintro rfl
        rw [hc] at hx
        cases hx
      rw [ih, List.count_cons_of_ne hne]
    · rfl

/-- Cleaning a name removes no character that is allowed and no space. -/
theorem count_cleanFilename (hc : legal c = true) (hspace : Unicode.isSpace c = false)
    (name : String) : (cleanFilename name).toList.count c = name.toList.count c := by
  rw [cleanFilename_toList, List.count_reverse, count_dropSpace hspace, List.count_reverse,
    count_dropSpace hspace, List.count_filter hc]

theorem mem_cleanFilename (hc : legal c = true) (hspace : Unicode.isSpace c = false)
    (h : c ∈ name.toList) : c ∈ (cleanFilename name).toList := by
  rw [← List.count_pos_iff, count_cleanFilename hc hspace]
  exact List.count_pos_iff.mpr h

/-- No character is left that file systems do not allow. -/
theorem cleanFilename_legal (name : String) : ∀ c ∈ (cleanFilename name).toList, legal c = true := by
  intro c hc
  have hmem := Text.mem_trimSpace hc
  rw [remove_toList (by decide)] at hmem
  exact (List.mem_filter.mp hmem).2

end Cleaning

section Numbers

theorem bracket_notMem_twoDigits (n : Int) :
    '\x7b' ∉ (twoDigits n).toList ∧ '\x7d' ∉ (twoDigits n).toList := by
  constructor
  · intro h
    exact absurd (twoDigits_chars n _ h) (by decide)
  · intro h
    exact absurd (twoDigits_chars n _ h) (by decide)

end Numbers

end Sonarr.Organizer
