import Sonarr.Importer.DefaultNames
import Sonarr.Importer.Service

namespace Sonarr.Importer
open Lib Organizer Template

/-- What a name is built of for a file: the series and the episode, and what the file's own name
says. -/
def fileInfo (series : Series) (number : Nat) (ep : Episode) (filename : String) : EpisodeInfo where
  seriesTitle := series.title
  seasonNumber := (parsedFile filename).seasonNumber
  episodeNumber := number
  episodeTitle := ep.title
  qualityName := qualityFullName (parsedFile filename).quality
  releaseGroup := (parsedFile filename).releaseGroup
  airDate := ""

/-- The built part of a file's new name. -/
def builtPart (series : Series) (number : Nat) (ep : Episode) (filename : String) : String :=
  buildFilename defaultEpisodeFormat (fileInfo series number ep filename)

section Parts
variable (series : Series) (number : Nat) (ep : Episode) (filename : String)

theorem builtName_eq : builtName series number ep filename =
    builtPart series number ep filename ++ SlashPath.ext filename := rfl

/-- The format's bracket is in every name, for no token has one. -/
theorem bracket_mem_builtPart : '[' ∈ (builtPart series number ep filename).toList := by
  unfold builtPart
  rw [buildFilename_eq]
  apply mem_cleanFilename (by decide) (by decide)
  rw [String.toList_ofList]
  have hpass : ∀ (ps : Values '\x7b' '\x7d') F, (∀ p ∈ ps, '[' ∉ p.1.text) → '[' ∈ F →
      '[' ∈ passes ps F := by
    intro ps
    induction ps with
    | nil => exact fun F _ h => h
    | cons p ps ih =>
      intro F hps hF
      obtain ⟨hp, hps⟩ := List.forall_mem_cons.mp hps
      exact ih _ hps (mem_replace hp hF)
  apply hpass
  · simp only [EpisodeInfo.values, EpisodeInfo.laterValues, List.forall_mem_cons]
    exact ⟨by decide, by decide, by decide, by decide, by decide, by decide, by decide, by simp⟩
  · unfold defaultEpisodeFormat
    rw [String.toList_append]
    apply List.mem_append_right
    rw [String.toList_ofList]
    decide

theorem builtName_component : SlashPath.Plain (builtName series number ep filename) := by
  have hbracket : '[' ∈ (builtName series number ep filename).toList := by
    rw [builtName_eq, String.toList_append]
    exact List.mem_append_left _ (bracket_mem_builtPart series number ep filename)
  have hne : ∀ s : String, '[' ∉ s.toList → builtName series number ep filename ≠ s := by
    intro s hs he
    exact hs (he ▸ hbracket)
  refine ⟨hne "" (by decide), hne "." (by decide), hne ".." (by decide), ?_⟩
  rw [builtName_eq, String.toList_append]
  intro hslash
  rcases List.mem_append.mp hslash with hslash | hslash
  · exact absurd (cleanFilename_legal _ _ hslash) (by decide)
  · exact SlashPath.ext_noSlash filename hslash

theorem destination_eq : destination series number ep filename =
    ⟨(SlashPath.clean series.path).rooted, (SlashPath.clean series.path).parts ++
      [buildSeasonFolder (parsedFile filename).seasonNumber,
        builtName series number ep filename]⟩ := by
  have hbuilt := builtName_component series number ep filename
  have hseason := buildSeasonFolder_plain (parsedFile filename).seasonNumber
  unfold destination relativePath
  rw [SlashPath.join_plain hseason hbuilt, SlashPath.join_below series.path hseason hbuilt]

end Parts

section Apart

theorem qualityFullName_noBrace (q : Parser.ParsedQuality) :
    '\x7b' ∉ (qualityFullName q).toList := by
  have hsource : '\x7b' ∉ q.source.value.toList := by
    cases q.source <;> (unfold Parser.QualitySource.value; rw [String.toList_ofList]; decide)
  have hresolution : '\x7b' ∉ q.resolution.value.toList := by
    cases q.resolution <;> (unfold Parser.Resolution.value; rw [String.toList_ofList]; decide)
  unfold qualityFullName
  split
  · rw [String.toList_ofList]
    decide
  · by_cases hs : q.source.value = "" <;> by_cases hr : q.resolution.value = "" <;>
      simp [hs, hr, Text.join, hsource, hresolution]

theorem twoDigits_injective {m n : Nat} (h : twoDigits m = twoDigits n) : m = n := by
  rw [← value_twoDigits m, h, value_twoDigits]

theorem letter_notMem_twoDigits (n : Int) :
    'E' ∉ (twoDigits n).toList ∧ ' ' ∉ (twoDigits n).toList := by
  constructor
  · intro h
    exact absurd (twoDigits_chars n _ h) (by decide)
  · intro h
    exact absurd (twoDigits_chars n _ h) (by decide)

theorem builtName_toList {series : Series} (hT : Tokenless series.title.toList)
    (hE : Tokenless ep.title.toList) (number : Nat) (filename : String) :
    (builtName series number ep filename).toList = namePrefix series.title.toList ++ 'S' ::
      ((twoDigits (parsedFile filename).seasonNumber).toList ++ 'E' ::
        ((twoDigits number).toList ++ ' ' :: (nameRest (fileInfo series number ep filename) ++
          (SlashPath.ext filename).toList))) := by
  have hseries : (fileInfo series number ep filename).seriesTitle = series.title := rfl
  have hepisode : (fileInfo series number ep filename).episodeTitle = ep.title := rfl
  have hseason : (fileInfo series number ep filename).seasonNumber =
    (parsedFile filename).seasonNumber := rfl
  have hnumber : (fileInfo series number ep filename).episodeNumber = number := rfl
  have hname : (fileInfo series number ep filename).qualityName =
    qualityFullName (parsedFile filename).quality := by simp only [fileInfo]
  have hquality : '\x7b' ∉ (fileInfo series number ep filename).qualityName.toList := by
    rw [hname]
    exact qualityFullName_noBrace (parsedFile filename).quality
  rw [builtName_eq, String.toList_append, builtPart,
    buildFilename_default (hseries ▸ hT) (hepisode ▸ hE) (tokenless_of_open hquality), hseries,
    hseason, hnumber]
  simp only [List.append_assoc, List.cons_append]

/-- Two names of one series that are equal have the same numbers. -/
theorem number_of_builtName {series : Series} (hT : Tokenless series.title.toList)
    (h₁ : Tokenless ep₁.title.toList) (h₂ : Tokenless ep₂.title.toList)
    (h : builtName series n₁ ep₁ f₁ = builtName series n₂ ep₂ f₂) : n₁ = n₂ := by
  have hlist := congrArg String.toList h
  rw [builtName_toList hT h₁, builtName_toList hT h₂] at hlist
  have htail := (List.cons.inj (List.append_cancel_left hlist)).2
  obtain ⟨_, hepisode⟩ := Text.split_unique (letter_notMem_twoDigits _).1
    (letter_notMem_twoDigits _).1 htail
  obtain ⟨hdigits, _⟩ := Text.split_unique (letter_notMem_twoDigits _).2
    (letter_notMem_twoDigits _).2 hepisode
  exact twoDigits_injective (String.toList_injective hdigits)

theorem buildSeasonFolder_injective {m n : Nat} (h : buildSeasonFolder m = buildSeasonFolder n) :
    m = n := by
  apply twoDigits_injective
  apply String.toList_injective
  have hlist := congrArg String.toList h
  unfold buildSeasonFolder at hlist
  rw [String.toList_append, String.toList_append] at hlist
  exact List.append_cancel_left hlist

end Apart

/-- A file is put two elements below its series, the second of them built without a character that
file systems do not allow; and two files of one series whose titles have no token in them are put in
one place only if their numbers are the same. -/
theorem destinations_confined_and_apart (series : Series) :
    (∀ number ep filename, ∃ built,
      destination series number ep filename = ⟨(SlashPath.clean series.path).rooted,
        (SlashPath.clean series.path).parts ++
          [buildSeasonFolder (parsedFile filename).seasonNumber,
            built ++ SlashPath.ext filename]⟩ ∧
      SlashPath.Plain (built ++ SlashPath.ext filename) ∧
      ∀ s ∈ illegal, Text.contains built s = false) ∧
    (∀ n₁ (ep₁ : Episode) f₁ n₂ (ep₂ : Episode) f₂, Tokenless series.title.toList →
      Tokenless ep₁.title.toList → Tokenless ep₂.title.toList →
      ((parsedFile f₁).seasonNumber, n₁) ≠ ((parsedFile f₂).seasonNumber, n₂) →
      (destination series n₁ ep₁ f₁).render ≠ (destination series n₂ ep₂ f₂).render) := by
  constructor
  · intro number ep filename
    refine ⟨builtPart series number ep filename, ?_, ?_, ?_⟩
    · rw [← builtName_eq]
      exact destination_eq series number ep filename
    · rw [← builtName_eq]
      exact builtName_component series number ep filename
    intro s hs
    rw [Bool.eq_false_iff, ne_eq, Text.contains_iff]
    intro hin
    obtain ⟨c, hc⟩ : ∃ c, s.toList = [c] := by
      have hone : ∀ s ∈ illegal, s.toList.length = 1 := by decide
      exact List.length_eq_one_iff.mp (hone s hs)
    have hlegal := cleanFilename_legal _ c (hin.subset (by simp [hc]))
    simp [legal, List.all_eq_true] at hlegal
    exact hlegal s hs hc
  · intro n₁ ep₁ f₁ n₂ ep₂ f₂ hT h₁ h₂ hne hrender
    obtain ⟨before, hbefore⟩ := SlashPath.render_below (SlashPath.clean series.path).rooted
      (SlashPath.clean series.path).parts
    rw [destination_eq, destination_eq, hbefore, hbefore] at hrender
    have hlist := congrArg String.toList hrender
    have hslash : "/".toList = ['/'] := String.toList_ofList
    simp only [String.toList_append, List.append_assoc, hslash, List.cons_append,
      List.nil_append] at hlist
    have hsplit := List.append_cancel_left hlist
    obtain ⟨hseason, hname⟩ := Text.split_unique
      (buildSeasonFolder_plain _).noSlash (buildSeasonFolder_plain _).noSlash hsplit
    have hs := buildSeasonFolder_injective (String.toList_injective hseason)
    have hn := number_of_builtName hT h₁ h₂ (String.toList_injective hname)
    exact hne (by rw [hs, hn])

/-- The first and the second episode of a series are put in two places. -/
theorem two_episodes_apart :
    (destination breakingBad 1 pilot "a.mkv").render ≠
      (destination breakingBad 2 pilot "a.mkv").render :=
  (destinations_confined_and_apart breakingBad).2 1 pilot "a.mkv" 2 pilot "a.mkv"
    (tokenless_of_open (by decide)) (tokenless_of_open (by decide))
    (tokenless_of_open (by decide)) (by simp)

end Sonarr.Importer
