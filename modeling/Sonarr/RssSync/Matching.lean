import Sonarr.Library.Tables
import Sonarr.RssSync.Plan

namespace Sonarr.RssSync
open Lib Sonarr.Parser Profiles CustomFormats DecisionEngine Providers

namespace Inputs
variable (inp : Inputs)

/-- The series that a title is taken for. -/
def matchedSeries (parsed : ParsedEpisodeInfo) : Option Nat :=
  if parsed.seriesTitle = "" then none
  else inp.reads.series.bind (fun all => findByTitle all parsed.seriesTitle)

/-- The monitored episode under an episode number of a title. -/
def monitoredEpisode (episodes : List Episode) (season epNum : Nat) : Option Episode :=
  (episodes.find? (fun ep =>
    ep.seasonNumber == (season : Int) && ep.episodeNumber == (epNum : Int))).filter Episode.monitored

/-- The episodes that the engine is asked about for a release, each with its group. -/
def considered (rel : Release) : List (GroupKey × Episode) :=
  let parsed := parseTitle rel.title
  match inp.matchedSeries parsed with
  | none => []
  | some seriesID => match inp.reads.episodes seriesID with
    | none => []
    | some episodes => parsed.episodeNumbers.filterMap (fun epNum =>
        (monitoredEpisode episodes parsed.seasonNumber epNum).map
          (fun ep => (⟨seriesID, parsed.seasonNumber, epNum⟩, ep)))

/-- The engine's answer for an episode that a release is considered for. -/
def verdict (defs : List QualityDefinition) (formats : List CustomFormat) (rel : Release)
    (key : GroupKey) (ep : Episode) : Decision :=
  (inp.engine.evaluate (inp.remote defs formats rel key.seriesID ep.id) inp.profile).1

variable {inp} {defs : List QualityDefinition} {formats : List CustomFormat} {rel : Release}

theorem considered_matched (h : (key, ep) ∈ inp.considered rel) :
    inp.matchedSeries (parseTitle rel.title) = some key.seriesID := by
  unfold considered at h
  dsimp only at h
  split at h
  · cases h
  rename_i seriesID hmatch
  split at h
  · cases h
  obtain ⟨n, _, hn⟩ := List.mem_filterMap.mp h
  obtain ⟨_, _, heq⟩ := Option.map_eq_some_iff.mp hn
  cases heq
  exact hmatch

theorem candidate_eq (seriesID : Nat) (episodes : List Episode) (season epNum : Nat) :
    inp.candidate defs formats rel seriesID episodes season epNum =
      ((monitoredEpisode episodes season epNum).map
        (fun ep => ((⟨seriesID, season, epNum⟩ : GroupKey), ep))).bind (fun (key, ep) =>
          match inp.verdict defs formats rel key ep with
          | .reject => none
          | .accept => some (key, ⟨inp.remote defs formats rel seriesID ep.id, rel, ep.id⟩)) := by
  unfold candidate monitoredEpisode verdict
  cases episodes.find? (fun ep =>
    ep.seasonNumber == (season : Int) && ep.episodeNumber == (epNum : Int)) with
  | none => rfl
  | some ep =>
    cases hm : ep.monitored with
    | false => simp [Option.filter, hm]
    | true =>
      cases hv : (inp.engine.evaluate (inp.remote defs formats rel seriesID ep.id) inp.profile).1 <;>
        simp [Option.filter, hm, hv]

/-- The candidates of a release are the episodes considered for it that the engine accepts. -/
theorem mem_candidatesOf_iff : (key, c) ∈ inp.candidatesOf defs formats rel ↔
    ∃ ep, (key, ep) ∈ inp.considered rel ∧ inp.verdict defs formats rel key ep = .accept ∧
      c = ⟨inp.remote defs formats rel key.seriesID ep.id, rel, ep.id⟩ := by
  unfold candidatesOf considered matchedSeries
  by_cases ht : (parseTitle rel.title).seriesTitle = ""
  · simp [ht]
  cases hall : inp.reads.series with
  | none => simp [ht]
  | some all =>
    cases hs : findByTitle all (parseTitle rel.title).seriesTitle with
    | none => simp [ht, hs]
    | some seriesID =>
      cases he : inp.reads.episodes seriesID with
      | none => simp [ht, hs, he]
      | some episodes =>
        by_cases hnums : (parseTitle rel.title).episodeNumbers = []
        · simp [ht, hs, he, hnums]
        · simp only [ht, hs, he, if_false, Option.bind_some, List.isEmpty_iff, hnums,
            List.mem_filterMap, candidate_eq]
          constructor
          · rintro ⟨n, hn, hc⟩
            obtain ⟨⟨k, ep⟩, hm, hv⟩ := Option.bind_eq_some_iff.mp hc
            obtain ⟨ep', _, heq⟩ := Option.map_eq_some_iff.mp hm
            cases heq
            dsimp only at hv
            split at hv
            · cases hv
            · rename_i hacc
              cases hv
              exact ⟨ep, ⟨n, hn, hm⟩, hacc, rfl⟩
          · rintro ⟨ep, ⟨n, hn, hm⟩, hacc, rfl⟩
            refine ⟨n, hn, Option.bind_eq_some_iff.mpr ⟨(key, ep), hm, ?_⟩⟩
            obtain ⟨ep', _, heq⟩ := Option.map_eq_some_iff.mp hm
            cases heq
            dsimp only
            rw [hacc]

theorem mem_accepted_iff : c ∈ inp.accepted key ↔
    ∃ defs formats, inp.qualityDefs = some defs ∧ inp.customFormats = some formats ∧
      ∃ rel ∈ inp.releases, ∃ ep, (key, ep) ∈ inp.considered rel ∧
        inp.verdict defs formats rel key ep = .accept ∧
        c = ⟨inp.remote defs formats rel key.seriesID ep.id, rel, ep.id⟩ := by
  unfold accepted
  cases inp.qualityDefs with
  | none => simp
  | some defs =>
    cases inp.customFormats with
    | none => simp
    | some formats =>
      simp only [Groups.under, candidates, List.mem_map, List.mem_filter, List.mem_flatMap,
        decide_eq_true_eq]
      constructor
      · rintro ⟨⟨k, d⟩, ⟨⟨rel, hrel, hc⟩, rfl⟩, rfl⟩
        exact ⟨defs, formats, rfl, rfl, rel, hrel, mem_candidatesOf_iff.mp hc⟩
      · rintro ⟨_, _, hd, hf, rel, hrel, hc⟩
        cases hd
        cases hf
        exact ⟨(key, c), ⟨⟨rel, hrel, mem_candidatesOf_iff.mpr hc⟩, rfl⟩, rfl⟩

end Inputs

/-- Some run on the library asks the engine about the episode for the release. -/
def Considers (inp : Inputs) (lib : Library) (rel : Release) (e : Episode) : Prop :=
  ∃ key, (key, e) ∈ ({ inp with reads := readsOf lib } : Inputs).considered rel

/-- A monitored episode of the series that the title is taken for. -/
structure Eligible (lib : Library) (parsed : ParsedEpisodeInfo) (e : Episode) : Prop where
  row : e ∈ lib.episodes.rows
  monitored : e.monitored = true
  titled : parsed.seriesTitle ≠ ""
  series : findByTitle lib.listSeries parsed.seriesTitle = some e.seriesID

section Considered
variable {lib : Library}

/-- No two episodes of a series have the same numbers, so a lookup by number finds
the one that has them. -/
theorem monitoredEpisode_eq_some (h : lib.Constraints) :
    Inputs.monitoredEpisode (lib.listForSeries seriesID) season epNum = some e ↔
      e ∈ lib.episodes.rows ∧ e.seriesID = seriesID ∧ e.monitored = true ∧
        e.seasonNumber = season ∧ e.episodeNumber = epNum := by
  unfold Inputs.monitoredEpisode
  rw [Option.filter_eq_some_iff]
  constructor
  · rintro ⟨hf, hm⟩
    obtain ⟨hrow, hs⟩ := Library.mem_listForSeries.mp (List.mem_of_find?_eq_some hf)
    have hn : e.seasonNumber = season ∧ e.episodeNumber = epNum := by
      simpa using List.find?_some hf
    exact ⟨hrow, hs, hm, hn⟩
  · rintro ⟨hrow, hs, hm, hsn, hen⟩
    refine ⟨?_, hm⟩
    have hin := Library.mem_listForSeries.mpr ⟨hrow, hs⟩
    cases hf : (lib.listForSeries seriesID).find? (fun ep =>
        ep.seasonNumber == (season : Int) && ep.episodeNumber == (epNum : Int)) with
    | none =>
      have := List.find?_eq_none.mp hf e hin
      simp [hsn, hen] at this
    | some q =>
      obtain ⟨hq, hqs⟩ := Library.mem_listForSeries.mp (List.mem_of_find?_eq_some hf)
      have hqn : q.seasonNumber = season ∧ q.episodeNumber = epNum := by
        simpa using List.find?_some hf
      have hpair : q.pair = e.pair := by
        unfold Episode.pair
        rw [hqs, hs, hqn.1, hqn.2, hsn, hen]
      rw [h.pairs q hq e hrow hpair]

/-- Of a title only its season and its episode numbers are looked for. -/
theorem considers_iff (h : lib.Constraints) (inp : Inputs) (rel : Release) (e : Episode) :
    Considers inp lib rel e ↔ Eligible lib (parseTitle rel.title) e ∧
      e.seasonNumber = (parseTitle rel.title).seasonNumber ∧
      ∃ n ∈ (parseTitle rel.title).episodeNumbers, e.episodeNumber = (n : Int) := by
  unfold Considers Inputs.considered Inputs.matchedSeries readsOf
  by_cases ht : (parseTitle rel.title).seriesTitle = ""
  · simp only [ht, if_true, List.not_mem_nil, exists_false, false_iff]
    rintro ⟨hel, _⟩
    exact hel.titled ht
  · simp only [ht, if_false, Option.bind_some]
    cases hs : findByTitle lib.listSeries (parseTitle rel.title).seriesTitle with
    | none =>
      simp only [List.not_mem_nil, exists_false, false_iff]
      rintro ⟨hel, _⟩
      rw [hel.series] at hs
      cases hs
    | some seriesID =>
      simp only [List.mem_filterMap, Option.map_eq_some_iff, monitoredEpisode_eq_some h]
      constructor
      · rintro ⟨key, n, hn, ep, ⟨hrow, hid, hm, hsn, hen⟩, heq⟩
        cases heq
        exact ⟨⟨hrow, hm, ht, by rw [hid]; exact hs⟩, hsn, n, hn, hen⟩
      · rintro ⟨hel, hsn, n, hn, hen⟩
        have hid := hel.series
        rw [hs] at hid
        cases hid
        exact ⟨_, n, hn, e, ⟨hel.row, rfl, hel.monitored, hsn, hen⟩, rfl⟩

end Considered

section Numbering
variable {title : String} {info info' : ParsedEpisodeInfo}

theorem parseStandard_true (h : parseStandard title info = (true, info')) :
    ∃ first last : Nat, first ≤ last ∧ ∀ n, n ∈ info'.episodeNumbers ↔ first ≤ n ∧ n ≤ last := by
  unfold parseStandard at h
  split at h
  · cases h
  rename_i m _
  have hone : ∀ ep, ∃ first last : Nat, first ≤ last ∧
      ∀ n, n ∈ [ep] ↔ first ≤ n ∧ n ≤ last := by
    intro ep
    refine ⟨ep, ep, Nat.le_refl _, fun n => ?_⟩
    rw [List.mem_singleton]
    omega
  simp only [Prod.mk.injEq, Bool.not_eq_eq_eq_not, Bool.not_true] at h
  obtain ⟨hne, rfl⟩ := h
  cases he : Text.atoi (Re.field m "episode") with
  | none =>
    cases h2 : Text.atoi (Re.field m "episode2") with
    | none => simp [he, h2] at hne
    | some ep2 =>
      simp only [he, h2, Option.toList_none, List.headD_nil] at hne ⊢
      split
      · refine ⟨0, ep2, Nat.zero_le _, fun n => ?_⟩
        rw [List.mem_range'_1]
        omega
      · rename_i hz
        simp [hz] at hne
  | some ep =>
    cases h2 : Text.atoi (Re.field m "episode2") with
    | none => exact hone ep
    | some ep2 =>
      simp only [he, h2, Option.toList_some, List.headD_cons] at hne ⊢
      split
      · rename_i hpos
        rw [if_pos hpos] at hne
        have hlen : ep2 + 1 - ep ≠ 0 := by
          intro hz
          simp [hz] at hne
        refine ⟨ep, ep2, by omega, fun n => ?_⟩
        rw [List.mem_range'_1]
        omega
      · exact hone ep

/-- A standard pattern that fails leaves no episode numbers behind. -/
theorem parseStandard_false (h : parseStandard title info = (false, info'))
    (hnone : info.episodeNumbers = []) :
    info'.episodeNumbers = [] ∧ info'.seriesType = info.seriesType := by
  unfold parseStandard at h
  split at h
  · cases h
    exact ⟨hnone, rfl⟩
  · simp only [Prod.mk.injEq, Bool.not_eq_eq_eq_not, Bool.not_false, List.isEmpty_iff] at h
    obtain ⟨hempty, rfl⟩ := h
    exact ⟨hempty, rfl⟩

theorem parseDaily_true (h : parseDaily title info = (true, info')) :
    ∃ month day : Nat, info'.airDate = some (dateUTC info'.year month day) ∧
      info'.seasonNumber = info'.year ∧ info'.episodeNumbers = [month * 100 + day] := by
  unfold parseDaily at h
  split at h
  · cases h
  · obtain ⟨_, rfl⟩ := Prod.mk.inj h
    exact ⟨_, _, rfl, rfl, rfl⟩

theorem parseDaily_false (h : parseDaily title info = (false, info')) : info' = info := by
  unfold parseDaily at h
  split at h
  · cases h
    rfl
  · cases h

theorem parseAnime_keeps (title : String) (info : ParsedEpisodeInfo) :
    (parseAnime title info).2.episodeNumbers = info.episodeNumbers ∧
      (parseAnime title info).2.seriesType = info.seriesType := by
  unfold parseAnime
  split <;> exact ⟨rfl, rfl⟩

/-- What stands in the number fields of a parsed title, by its numbering convention. -/
def Numbered (info : ParsedEpisodeInfo) : Prop :=
  match info.seriesType with
  | .standard => ∃ first last : Nat, first ≤ last ∧
      ∀ n, n ∈ info.episodeNumbers ↔ first ≤ n ∧ n ≤ last
  | .daily => ∃ month day : Nat, info.airDate = some (dateUTC info.year month day) ∧
      info.seasonNumber = info.year ∧ info.episodeNumbers = [month * 100 + day]
  | .anime | .unknown => info.episodeNumbers = []

theorem parseTitle_numbered (title : String) : Numbered (parseTitle title) := by
  unfold parseTitle
  rcases hs : parseStandard title (emptyInfo title) with ⟨standard, info⟩
  cases standard with
  | true =>
    have hrange := parseStandard_true hs
    exact hrange
  | false =>
    obtain ⟨hnums, htype⟩ := parseStandard_false hs rfl
    dsimp only [afterStandard]
    rcases hd : parseDaily title info with ⟨daily, info'⟩
    cases daily with
    | true =>
      have hdate := parseDaily_true hd
      exact hdate
    | false =>
      have hsame := parseDaily_false hd
      obtain ⟨hkeep, htype'⟩ := parseAnime_keeps title info'
      dsimp only
      rcases ha : parseAnime title info' with ⟨anime, info''⟩
      rw [ha, hsame] at hkeep htype'
      cases anime with
      | true => exact hkeep.trans hnums
      | false =>
        have hunknown : info''.seriesType = .unknown := htype'.trans htype
        simp only [Numbered, hunknown]
        exact hkeep.trans hnums

end Numbering

/-- The season and one of the episode numbers of a title are the episode's. -/
def HasNumbers (parsed : ParsedEpisodeInfo) (e : Episode) : Prop :=
  e.seasonNumber = parsed.seasonNumber ∧ ∃ n ∈ parsed.episodeNumbers, e.episodeNumber = (n : Int)

/-- A title means an episode by its numbers, by the day it airs on, in UTC, or by its absolute
number, as the type of the series has it. -/
def Means (parsed : ParsedEpisodeInfo) (e : Episode) : Prop :=
  match parsed.seriesType with
  | .standard => HasNumbers parsed e
  | .daily => ∃ d t, parsed.airDate = some d ∧ e.airDateUtc = some t ∧ t / 86400 = d
  | .anime => ∃ n ∈ parsed.absoluteEpisodeNumbers, e.absoluteEpisodeNumber = some (n : Int)
  | .unknown => False

/-- A release is considered for the monitored episodes that its title means, and for no other. -/
def FollowsType (db : Database) (inp : Inputs) (rel : Release) : Prop :=
  ∀ e, Considers inp db.toLibrary rel e ↔
    Eligible db.toLibrary (parseTitle rel.title) e ∧ Means (parseTitle rel.title) e

/-- The library numbers the episodes of a daily series by year and MMDD, just those that air on the
day, and has no episode of an anime series under the absolute number. -/
def NumberedAlike (db : Database) (rel : Release) : Prop :=
  let parsed := parseTitle rel.title
  match parsed.seriesType with
  | .standard | .unknown => True
  | .daily => ∀ e, Eligible db.toLibrary parsed e → (HasNumbers parsed e ↔ Means parsed e)
  | .anime => ∀ e, Eligible db.toLibrary parsed e → ¬ Means parsed e

/-- Standard titles have a range of numbers, daily ones a year and MMDD and anime ones none, and
matching follows the type of the series just where the numbers say the same. -/
theorem matching_follows_type_iff (db : Database) (inp : Inputs) (rel : Release) :
    Numbered (parseTitle rel.title) ∧ (FollowsType db inp rel ↔ NumberedAlike db rel) := by
  have hnums := parseTitle_numbered rel.title
  refine ⟨hnums, ?_⟩
  have hconsiders : ∀ e, Considers inp db.toLibrary rel e ↔
      Eligible db.toLibrary (parseTitle rel.title) e ∧ HasNumbers (parseTitle rel.title) e :=
    considers_iff db.constraints inp rel
  have hno : (parseTitle rel.title).episodeNumbers = [] →
      ∀ e, ¬ Considers inp db.toLibrary rel e := by
    intro hnil e he
    obtain ⟨_, _, n, hn, _⟩ := (hconsiders e).mp he
    rw [hnil] at hn
    cases hn
  unfold Numbered at hnums
  unfold FollowsType NumberedAlike
  dsimp only
  cases htype : (parseTitle rel.title).seriesType with
  | standard =>
    refine iff_of_true (fun e => (hconsiders e).trans ?_) trivial
    simp only [Means, htype]
  | daily =>
    refine forall_congr' fun e => ?_
    rw [hconsiders e]
    constructor
    · intro h hel
      exact ⟨fun hnum => (h.mp ⟨hel, hnum⟩).2, fun hmeans => (h.mpr ⟨hel, hmeans⟩).2⟩
    · intro h
      exact ⟨fun ⟨hel, hnum⟩ => ⟨hel, (h hel).mp hnum⟩, fun ⟨hel, hmeans⟩ => ⟨hel, (h hel).mpr hmeans⟩⟩
  | anime =>
    rw [htype] at hnums
    refine forall_congr' fun e => ?_
    simp only [hno hnums e, false_iff, not_and]
  | unknown =>
    rw [htype] at hnums
    refine iff_of_true (fun e => ?_) trivial
    simp only [hno hnums e, Means, htype, and_false]

section Unlike

theorem not_followsType {db : Database} {inp : Inputs} {rel : Release}
    (hel : Eligible db.toLibrary (parseTitle rel.title) e) (hmeans : Means (parseTitle rel.title) e)
    (hnum : ¬ HasNumbers (parseTitle rel.title) e) : ¬ FollowsType db inp rel := by
  intro h
  have hconsiders : Considers inp db.toLibrary rel e := (h e).mpr ⟨hel, hmeans⟩
  exact hnum ((considers_iff db.constraints inp rel e).mp hconsiders).2

def noFeeds : Inputs where
  compile _ := none
  registry _ := none
  indexers := none
  qualityDefs := none
  customFormats := none
  profile1 := none
  engine := []
  reads := ⟨none, fun _ => none⟩

/-- A series with one episode, of its own season. -/
def oneShow (seriesType : String) (season number : Int) (absolute airDateUtc : Option Int) :
    Database where
  series := ⟨[⟨1, "Show", "show", "/tv/Show", 1, "continuing", seriesType, true, 1, true, "all"⟩], 2,
    List.nodup_singleton _, List.forall_mem_singleton.mpr (Nat.lt_succ_self 1)⟩
  seasons := []
  episodes := ⟨[⟨1, 1, season, number, absolute, "", "", airDateUtc, true, none, 0⟩], 2,
    List.nodup_singleton _, List.forall_mem_singleton.mpr (Nat.lt_succ_self 1)⟩
  files := Table.empty
  constraints := ⟨List.forall_mem_singleton.mpr (List.forall_mem_singleton.mpr fun _ => rfl),
    List.nodup_nil, List.forall_mem_singleton.mpr (List.forall_mem_singleton.mpr fun _ => rfl),
    List.forall_mem_nil _, List.forall_mem_singleton.mpr rfl, List.forall_mem_nil _⟩

/-- Season 29, episode 4, which airs on the 8th of January 2024. -/
def dailyLibrary : Database := oneShow "daily" 29 4 none (some 1704754800)

def dailyRelease : Release := ⟨"Show.2024.01.08.720p", "", 0, "", .torrent⟩

/-- The fifth episode of all. -/
def animeLibrary : Database := oneShow "anime" 1 5 (some 5) none

def animeRelease : Release := ⟨"[Group] Show - 05 [720p]", "", 0, "", .torrent⟩

/-- Neither the day an episode airs on nor its absolute number is looked at. -/
theorem type_not_followed : ¬ FollowsType dailyLibrary noFeeds dailyRelease ∧
    ¬ FollowsType animeLibrary noFeeds animeRelease := by
  constructor
  · have htype : (parseTitle dailyRelease.title).seriesType = .daily := by decide +kernel
    have hdate : (parseTitle dailyRelease.title).airDate = some 19730 := by decide +kernel
    have hseason : (parseTitle dailyRelease.title).seasonNumber = 2024 := by decide +kernel
    have hel : Eligible dailyLibrary.toLibrary (parseTitle dailyRelease.title)
        ⟨1, 1, 29, 4, none, "", "", some 1704754800, true, none, 0⟩ :=
      ⟨List.mem_singleton.mpr rfl, rfl, by decide +kernel, by decide +kernel⟩
    refine not_followsType hel ?_ (fun hnum => ?_)
    · simp only [Means, htype]
      exact ⟨19730, 1704754800, hdate, rfl, rfl⟩
    · rw [HasNumbers, hseason] at hnum
      exact absurd hnum.1 (by decide)
  · have htype : (parseTitle animeRelease.title).seriesType = .anime := by decide +kernel
    have hfive : (parseTitle animeRelease.title).absoluteEpisodeNumbers = [5] := by decide +kernel
    have hnone : (parseTitle animeRelease.title).episodeNumbers = [] := by decide +kernel
    have hel : Eligible animeLibrary.toLibrary (parseTitle animeRelease.title)
        ⟨1, 1, 1, 5, some 5, "", "", none, true, none, 0⟩ :=
      ⟨List.mem_singleton.mpr rfl, rfl, by decide +kernel, by decide +kernel⟩
    refine not_followsType hel ?_ (fun hnum => ?_)
    · simp only [Means, htype, hfive]
      exact ⟨5, List.mem_singleton.mpr rfl, rfl⟩
    · obtain ⟨_, n, hn, _⟩ := hnum
      rw [hnone] at hn
      cases hn

end Unlike

end Sonarr.RssSync
