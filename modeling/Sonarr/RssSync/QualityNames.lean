import Sonarr.Importer.Service
import Sonarr.Profiles.Seeds
import Sonarr.RssSync.Handler

namespace Sonarr.RssSync
open Lib Sonarr.Parser Profiles

/-- A media file's name without its extension is the title it was made from. -/
theorem parsedFile_append (title : String) (hx : x ∈ Importer.mediaExtensions) :
    Importer.parsedFile (title ++ x) = parseTitle title := by
  have hext : SlashPath.ext (title ++ x) = x := by
    simp only [Importer.mediaExtensions, List.mem_cons, List.not_mem_nil, or_false] at hx
    rcases hx with rfl | rfl | rfl | rfl | rfl | rfl
    all_goals exact SlashPath.ext_append title rfl (by decide) (by decide)
  rw [Importer.parsedFile, hext, Text.trimSuffix_append]

/-- A seeded definition has the source and the resolution of a parsed quality. -/
def HasDefinition (q : ParsedQuality) : Prop :=
  ∃ d ∈ qualityDefinitions, d.source = q.source.value ∧ d.resolution = q.resolution.value

/-- Both parts are there, and the two of them joined are no definition's name. -/
theorem joined_is_no_name (hd : d ∈ qualityDefinitions) (hd' : d' ∈ qualityDefinitions) :
    d.source ≠ "" ∧ d.resolution ≠ "" ∧ d'.name ≠ Text.join "-" [d.source, d.resolution] := by
  have hall : qualityDefinitions.all (fun d => qualityDefinitions.all (fun d' =>
      d.source ≠ "" ∧ d.resolution ≠ "" ∧
        d'.name ≠ Text.join "-" [d.source, d.resolution])) = true := by decide +kernel
  have hd := List.all_eq_true.mp hall d hd
  simpa only [decide_eq_true_eq] using List.all_eq_true.mp hd d' hd'

theorem qualityFullName_defined (hq : HasDefinition q) (hd' : d' ∈ qualityDefinitions) :
    d'.name ≠ Importer.qualityFullName q := by
  obtain ⟨d, hd, hsource, hres⟩ := hq
  obtain ⟨hs, hr, hname⟩ := joined_is_no_name hd hd'
  rw [hsource] at hs hname
  rw [hres] at hr hname
  simpa [Importer.qualityFullName, hs, hr] using hname

theorem resolveQualityID_eq_zero_iff (q : ParsedQuality) :
    resolveQualityID q (getAll qualityDefinitions) = 0 ↔ ¬ HasDefinition q := by
  rw [getAll_qualityDefinitions]
  unfold resolveQualityID
  cases hfind : qualityDefinitions.find? (fun d =>
      d.source == q.source.value && d.resolution == q.resolution.value) with
  | none =>
    simp only [true_iff]
    intro ⟨d, hd, hs, hr⟩
    exact List.find?_eq_none.mp hfind d hd (by simp [hs, hr])
  | some d =>
    have hmem := List.mem_of_find?_eq_some hfind
    have hpos : qualityDefinitions.all (fun d => d.id ≠ 0) = true := by decide +kernel
    have hid : d.id ≠ 0 := by simpa using List.all_eq_true.mp hpos d hmem
    have hmatch := List.find?_some hfind
    simp only [Bool.and_eq_true, beq_iff_eq] at hmatch
    simp only [hid, false_iff, not_not]
    exact ⟨d, hmem, hmatch⟩

/-- The name the importer stores is the one RSS sync would, and leads back to the definition. -/
def NamedAlike (q : ParsedQuality) (stored : String) : Prop :=
  stored = qualityNameForID (resolveQualityID q (getAll qualityDefinitions))
      (getAll qualityDefinitions) ∧
    ∃ d ∈ getAll qualityDefinitions, d.name = stored ∧
      d.id = resolveQualityID q (getAll qualityDefinitions)

/-- The two names of a quality with a definition are never alike. -/
theorem quality_names_alike_iff (title x : String) (hx : x ∈ Importer.mediaExtensions)
    (series : Series) (number : Nat) (ep : Episode) (size : Int) :
    (resolveQualityID (parseTitle title).quality (getAll qualityDefinitions) ≠ 0 →
      NamedAlike (parseTitle title).quality
        (Importer.fileRow series number ep (title ++ x) size).qualityName) ↔
    ¬ HasDefinition (parseTitle title).quality := by
  rw [ne_eq, resolveQualityID_eq_zero_iff, not_not]
  constructor
  · intro h hq
    obtain ⟨_, d, hd, hname, _⟩ := h hq
    rw [getAll_qualityDefinitions] at hd
    rw [Importer.fileRow, parsedFile_append title hx] at hname
    exact qualityFullName_defined hq hd hname
  · intro hq h
    exact absurd h hq

theorem quality_names_alike_iff_unknown :
    ¬ HasDefinition (parseTitle "Show.S01E01").quality ∧
      (resolveQualityID (parseTitle "Show.S01E01").quality (getAll qualityDefinitions) ≠ 0 →
        NamedAlike (parseTitle "Show.S01E01").quality
          (Importer.fileRow breakingBad 1 pilot ("Show.S01E01" ++ ".mkv") 0).qualityName) := by
  have hnone : ¬ HasDefinition (parseTitle "Show.S01E01").quality := by
    apply (resolveQualityID_eq_zero_iff _).mp
    decide +kernel
  refine ⟨hnone, ?_⟩
  exact (quality_names_alike_iff "Show.S01E01" ".mkv" (by decide) breakingBad 1 pilot 0).mpr hnone

/-- A WEB-DL release in 1080p: `webdl-1080p` here, `WEBDL-1080p` there. -/
theorem webdl_named_twice :
    let q := (parseTitle "Show.S01E01.1080p.WEB-DL-GRP").quality
    resolveQualityID q (getAll qualityDefinitions) = 10 ∧
      (Importer.fileRow breakingBad 1 pilot "Show.S01E01.1080p.WEB-DL-GRP.mkv" 0).qualityName =
        "webdl-1080p" ∧
      qualityNameForID 10 (getAll qualityDefinitions) = "WEBDL-1080p" := by
  decide +kernel

end Sonarr.RssSync
