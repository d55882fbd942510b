import Mathlib.Data.List.Range
import Sonarr.Lib.Captures
import Sonarr.Lib.Civil
import Sonarr.Parser.Title

namespace Sonarr.Parser
open Lib Re

/-! ### What the patterns capture -/

/-- Not too many digits are a number. -/
theorem digits_number (hall : ∀ x ∈ w, (decide (48 ≤ x.toNat) && decide (x.toNat ≤ 57)) = true)
    (hpos : 1 ≤ w.length) (hle : w.length ≤ n) (hn : n ≤ 18) :
    ∃ k, Text.atoi (String.ofList w) = some k ∧ k < Nat.pow 10 n := by
  have hdigits : ∀ c ∈ (String.ofList w).toList, 48 ≤ c.toNat ∧ c.toNat ≤ 57 := by
    simpa using hall
  have hlen : (String.ofList w).toList.length = w.length := by simp
  have hne : (String.ofList w).toList ≠ [] := List.ne_nil_of_length_pos (by omega)
  obtain ⟨k, hk, hlt⟩ := Text.atoi_digits hdigits hne (by omega)
  refine ⟨k, hk, Nat.lt_of_lt_of_le hlt ?_⟩
  rw [hlen]
  exact Nat.pow_le_pow_right (by decide) hle

theorem between_number (h : Consumes (between digit m n) w []) (hmn : m ≤ n) (hm : 1 ≤ m)
    (hn : n ≤ 18) : ∃ k, Text.atoi (String.ofList w) = some k ∧ k < Nat.pow 10 n := by
  obtain ⟨hlow, hhigh, hall⟩ := h.between hmn
  exact digits_number hall (Nat.le_trans hm hlow) hhigh hn

section Standard

/-- What the groups of a standard match stand for. -/
def seasonOf (m : List (String × List Char)) : Nat := (Text.atoi (field m "season")).getD 0

def firstOf (m : List (String × List Char)) : Nat := (Text.atoi (field m "episode")).getD 0

/-- The numbers after the first one, the last one first. -/
def furtherOf (m : List (String × List Char)) : List Nat :=
  m.filterMap (fun g => if g.1 = "episode2" then Text.atoi (String.ofList g.2) else none)

/-- All episode numbers of the matched part. -/
def writtenIn (m : List (String × List Char)) : List Nat :=
  m.filterMap (fun g =>
    if g.1 = "episode" ∨ g.1 = "episode2" then Text.atoi (String.ofList g.2) else none)

/-- The groups of a standard match: the further numbers, the last one first, and what comes
before them. -/
def groups (further : List (List Char)) (episode season title : List Char) :
    List (String × List Char) :=
  further.map (fun x => ("episode2", x)) ++
    [("episode", episode), ("season", season), ("title", title)]

theorem standard_captures (h : reStandard.findSubmatch title = some m) :
    ∃ (ts : List (List Char)) (e s t : List Char), m = groups ts e s t ∧
      (∀ x ∈ ts, Consumes (between digit 2 3) x []) ∧ Consumes (between digit 2 3) e [] ∧
      Consumes (between digit 1 2) s [] := by
  obtain ⟨_, hall⟩ := findSubmatch_consumes h
  obtain ⟨_, htitle⟩ := hall.skip rfl
  obtain ⟨t, _, _, _, hsep, rfl⟩ := htitle.take rfl
  obtain ⟨_, hletterS⟩ := hsep.skip rfl
  obtain ⟨_, hseason⟩ := hletterS.skip rfl
  obtain ⟨s, _, _, hs, hletterE, rfl⟩ := hseason.take rfl
  obtain ⟨_, hepisode⟩ := hletterE.skip rfl
  obtain ⟨e, _, _, he, hrounds, rfl⟩ := hepisode.take rfl
  obtain ⟨ts, rfl, hts⟩ := hrounds.rounds rfl rfl
  exact ⟨ts, e, s, t, by simp [groups], hts, he, hs⟩

theorem lookup_further (ts : List (List Char)) (rest : List (String × List Char))
    (hne : name ≠ "episode2") :
    (ts.map (fun x => ("episode2", x)) ++ rest).lookup name = rest.lookup name := by
  induction ts with
  | nil => rfl
  | cons x ts ih =>
    have : (name == "episode2") = false := by simpa using hne
    rw [List.map_cons, List.cons_append, List.lookup_cons, this]
    exact ih

theorem field_groups_season (ts : List (List Char)) (e s t : List Char) :
    field (groups ts e s t) "season" = String.ofList s := by
  rw [field, groups, lookup_further ts _ (by decide)]
  rfl

theorem field_groups_episode (ts : List (List Char)) (e s t : List Char) :
    field (groups ts e s t) "episode" = String.ofList e := by
  rw [field, groups, lookup_further ts _ (by decide)]
  rfl

theorem furtherOf_groups (ts : List (List Char)) (e s t : List Char) :
    furtherOf (groups ts e s t) = ts.filterMap (fun x => Text.atoi (String.ofList x)) := by
  simp [furtherOf, groups, List.filterMap_append, List.filterMap_map]

theorem mem_writtenIn_groups (he : Text.atoi (String.ofList e) = some k) :
    n ∈ writtenIn (groups ts e s t) ↔ n = k ∨ n ∈ furtherOf (groups ts e s t) := by
  have hwritten : writtenIn (groups ts e s t) =
      ts.filterMap (fun x => Text.atoi (String.ofList x)) ++ [k] := by
    simp [writtenIn, groups, List.filterMap_append, List.filterMap_map, he]
  rw [hwritten, furtherOf_groups, List.mem_append, List.mem_singleton, or_comm]

/-- The numbers of a standard match can all be read. -/
structure StandardMatch (m : List (String × List Char)) : Prop where
  season : Text.atoi (field m "season") = some (seasonOf m)
  season_lt : seasonOf m < 100
  first : Text.atoi (field m "episode") = some (firstOf m)
  last : Text.atoi (field m "episode2") = (furtherOf m).head?
  written : ∀ n, n ∈ writtenIn m ↔ n = firstOf m ∨ n ∈ furtherOf m
  numbers_lt : ∀ n ∈ writtenIn m, n < 1000

theorem standard_match (h : reStandard.findSubmatch title = some m) : StandardMatch m := by
  obtain ⟨ts, e, s, t, rfl, hts, he, hs⟩ := standard_captures h
  obtain ⟨first, hfirst, hfirst_lt⟩ := between_number he (by decide) (by decide) (by decide)
  obtain ⟨season, hseason, hseason_lt⟩ := between_number hs (by decide) (by decide) (by decide)
  have hseasonOf : seasonOf (groups ts e s t) = season := by
    rw [seasonOf, field_groups_season, hseason]
    rfl
  have hfirstOf : firstOf (groups ts e s t) = first := by
    rw [firstOf, field_groups_episode, hfirst]
    rfl
  refine ⟨?_, ?_, ?_, ?_, ?_, ?_⟩
  · rw [field_groups_season, hseason, hseasonOf]
  · rw [hseasonOf]
    exact hseason_lt
  · rw [field_groups_episode, hfirst, hfirstOf]
  · rw [furtherOf_groups]
    cases ts with
    | nil => rfl
    | cons x ts =>
      obtain ⟨n, hn, _⟩ := between_number (hts x (by simp)) (by decide) (by decide) (by decide)
      simp [field, groups, hn]
  · intro n
    rw [mem_writtenIn_groups hfirst, hfirstOf]
  · intro n hn
    rw [mem_writtenIn_groups hfirst, furtherOf_groups, List.mem_filterMap] at hn
    rcases hn with rfl | ⟨x, hx, hn⟩
    · exact hfirst_lt
    · obtain ⟨k, hk, hlt⟩ := between_number (hts x hx) (by decide) (by decide) (by decide)
      rw [hk] at hn
      cases hn
      exact hlt

end Standard

section Daily

/-- The date that a daily title names, possible or not. -/
def dateOf (m : List (String × List Char)) : Civil.DateTime :=
  { year := (Text.atoi (field m "year")).getD 0, month := (Text.atoi (field m "month")).getD 0
    day := (Text.atoi (field m "day")).getD 0, hour := 0, minute := 0, second := 0 }

theorem daily_day_lt (h : reDaily.findSubmatch title = some m) : (dateOf m).day < 100 := by
  obtain ⟨_, hall⟩ := findSubmatch_consumes h
  obtain ⟨_, htitle⟩ := hall.skip rfl
  obtain ⟨t, _, _, _, hsep₁, rfl⟩ := htitle.take rfl
  obtain ⟨_, hyear⟩ := hsep₁.skip rfl
  obtain ⟨y, _, _, _, hsep₂, rfl⟩ := hyear.take rfl
  obtain ⟨_, hmonth⟩ := hsep₂.skip rfl
  obtain ⟨mo, _, _, _, hsep₃, rfl⟩ := hmonth.take rfl
  obtain ⟨d, hday⟩ := hsep₃.skip rfl
  obtain ⟨hd, rfl⟩ := hday.capture rfl
  obtain ⟨hlen, hdigits⟩ := hd.times
  obtain ⟨k, hk, hlt⟩ := digits_number hdigits (by omega) (Nat.le_of_eq hlen) (by decide)
  change (Text.atoi (String.ofList d)).getD 0 < 100
  rw [hk]
  exact hlt

/-- A number of days since 1970 is the day that the calendar calls so. -/
def IsDate (days : Int) (year month day : Nat) : Prop :=
  (⟨year, month, day, 0, 0, 0⟩ : Civil.DateTime).Valid ∧
    ((⟨year, month, day, 0, 0, 0⟩ : Civil.DateTime).dayNumber : Int) - Civil.epoch = days

/-- The source's formula is the calendar's, for a date that exists. -/
theorem dateUTC_valid {t : Civil.DateTime} (h : t.Valid) :
    dateUTC t.year t.month t.day = (t.dayNumber : Int) - Civil.epoch := by
  have hday := h.day_pos
  have hlow := h.month_pos
  have hhigh := h.month_le
  unfold dateUTC Civil.DateTime.dayNumber Civil.epoch
  by_cases hmarch : 3 ≤ t.month
  · have hyears : ((t.month : Int) - 3) / 12 = 0 := by omega
    have hmonths : ((t.month : Int) - 3) % 12 = (t.month - 3 : Nat) := by omega
    have hyear := Civil.daysBeforeYear_march t.year
    have hmonth := Civil.daysBeforeMonth_march (Civil.isLeap t.year) hmarch hhigh
    simp only [hyears, hmonths, Int.add_zero]
    omega
  · have hyears : ((t.month : Int) - 3) / 12 = -1 := by omega
    have hmonths : ((t.month : Int) - 3) % 12 = (t.month + 9 : Nat) := by omega
    have hyear := Civil.daysBeforeYear_january t.year
    have hmonth := Civil.daysBeforeMonth_january (Civil.isLeap t.year) hlow (Nat.lt_of_not_le hmarch)
    simp only [hyears, hmonths]
    rw [show (t.year : Int) + -1 = t.year - 1 from rfl]
    omega

theorem isDate_dateUTC_iff (year month day : Nat) :
    IsDate (dateUTC year month day) year month day ↔
      (⟨year, month, day, 0, 0, 0⟩ : Civil.DateTime).Valid :=
  ⟨fun h => h.1, fun h => ⟨h, (dateUTC_valid h).symm⟩⟩

end Daily

theorem anime_number (h : reAnime.findSubmatch title = some m) :
    ∃ n, Text.atoi (field m "episode") = some n := by
  obtain ⟨_, hall⟩ := findSubmatch_consumes h
  obtain ⟨_, hopen⟩ := hall.skip rfl
  obtain ⟨_, hgroup⟩ := hopen.skip rfl
  obtain ⟨g, _, _, _, hclose, rfl⟩ := hgroup.take rfl
  obtain ⟨_, hblank₁⟩ := hclose.skip rfl
  obtain ⟨_, htitle⟩ := hblank₁.skip rfl
  obtain ⟨t, _, _, _, hblank₂, rfl⟩ := htitle.take rfl
  obtain ⟨_, hdash⟩ := hblank₂.skip rfl
  obtain ⟨_, hblank₃⟩ := hdash.skip rfl
  obtain ⟨_, hepisode⟩ := hblank₃.skip rfl
  obtain ⟨e, _, _, he, hversion, rfl⟩ := hepisode.take rfl
  obtain ⟨n, hn, _⟩ := between_number he (by decide) (by decide) (by decide)
  have hnone := hversion.of_silent rfl
  subst hnone
  exact ⟨n, hn⟩

/-! ### What a title is parsed to -/

/-- What the numbers of a parsed title have to be, by its numbering convention. -/
def WellFormed (title : String) (info : ParsedEpisodeInfo) : Prop :=
  match info.seriesType with
  | .standard => info.episodeNumbers ≠ [] ∧ info.episodeNumbers.IsChain (fun a b => b = a + 1) ∧
      (∀ m, reStandard.findSubmatch title = some m → ∀ n ∈ writtenIn m, n ∈ info.episodeNumbers) ∧
      info.seasonNumber ≤ 99
  | .daily => ∃ days n, info.airDate = some days ∧ info.episodeNumbers = [n] ∧
      IsDate days info.year (n / 100) (n % 100)
  | .anime => (∃ n, info.absoluteEpisodeNumbers = [n]) ∧ info.seasonNumber = 0 ∧
      info.episodeNumbers = []
  | .unknown => info.seasonNumber = 0 ∧ info.episodeNumbers = [] ∧
      info.absoluteEpisodeNumbers = [] ∧ info.airDate = none ∧ info.year = 0

/-- The last number is smaller than the first one, and no zero. -/
def Descending (m : List (String × List Char)) : Prop :=
  ∃ last, (furtherOf m).head? = some last ∧ 0 < last ∧ last < firstOf m

/-- A daily title names a date that exists. -/
def Dated (title : String) : Prop :=
  ∀ m, reDaily.findSubmatch title = some m → (dateOf m).Valid

/-- No number of a standard title lies outside its first and last ones; where the last one is
smaller, or there is no standard title, a date of a daily title exists, and a season without a
date is zero. -/
def Orderly (title : String) : Prop :=
  (∀ m, reStandard.findSubmatch title = some m → ¬ Descending m →
    ∀ last, (furtherOf m).head? = some last → ∀ n ∈ furtherOf m, firstOf m ≤ n ∧ n ≤ last) ∧
  ((∀ m, reStandard.findSubmatch title = some m → Descending m) →
    Dated title ∧ (reDaily.findSubmatch title = none →
      ∀ m, reStandard.findSubmatch title = some m → seasonOf m = 0))

/-- The numbers a standard match is expanded to. -/
def expandedOf (m : List (String × List Char)) : List Nat :=
  match (furtherOf m).head? with
  | none => [firstOf m]
  | some last => if last > 0 then List.range' (firstOf m) (last + 1 - firstOf m) else [firstOf m]

theorem parseStandard_none (h : reStandard.findSubmatch title = none) (info : ParsedEpisodeInfo) :
    parseStandard title info = (false, info) := by
  simp [parseStandard, h]

theorem parseStandard_match (h : reStandard.findSubmatch title = some m)
    (info : ParsedEpisodeInfo) : parseStandard title info =
      (!(expandedOf m).isEmpty,
        { info with
          seriesTitle := cleanTitle (field m "title")
          seasonNumber := seasonOf m
          episodeNumbers := expandedOf m }) := by
  have hm := standard_match h
  unfold parseStandard
  simp only [h, hm.season, hm.first, hm.last, Option.toList_some, List.headD_cons,
    Option.getD_some]
  rfl

theorem expandedOf_eq_nil_iff (m : List (String × List Char)) : expandedOf m = [] ↔ Descending m := by
  unfold expandedOf Descending
  cases (furtherOf m).head? with
  | none => simp
  | some last =>
    by_cases hpos : 0 < last
    · simp [hpos]
      omega
    · simp [hpos]

/-- Nothing but a title and a season, as after a standard attempt that has failed. -/
structure Unread (info : ParsedEpisodeInfo) : Prop where
  type : info.seriesType = .unknown
  episodes : info.episodeNumbers = []
  absolute : info.absoluteEpisodeNumbers = []
  date : info.airDate = none
  year : info.year = 0

theorem daily_wellFormed_iff (h : reDaily.findSubmatch title = some m) (info : ParsedEpisodeInfo) :
    WellFormed title (afterStandard title info) ↔ (dateOf m).Valid := by
  have hday := daily_day_lt h
  have hafter : afterStandard title info =
      { info with
        seriesTitle := cleanTitle (field m "title"), year := (dateOf m).year
        airDate := some (dateUTC (dateOf m).year (dateOf m).month (dateOf m).day)
        seasonNumber := (dateOf m).year
        episodeNumbers := [(dateOf m).month * 100 + (dateOf m).day]
        seriesType := .daily, releaseGroup := parseReleaseGroup title } := by
    simp only [afterStandard, parseDaily, h]
    rfl
  have hmonth : ((dateOf m).month * 100 + (dateOf m).day) / 100 = (dateOf m).month := by omega
  have hday' : ((dateOf m).month * 100 + (dateOf m).day) % 100 = (dateOf m).day := by omega
  have hdated : IsDate (dateUTC (dateOf m).year (dateOf m).month (dateOf m).day) (dateOf m).year
      (dateOf m).month (dateOf m).day ↔ (dateOf m).Valid := isDate_dateUTC_iff _ _ _
  rw [hafter, ← hdated]
  simp only [WellFormed, Option.some.injEq, List.cons.injEq, and_true]
  constructor
  · intro ⟨days, n, hdays, hn, hdate⟩
    rw [← hdays, ← hn, hmonth, hday'] at hdate
    exact hdate
  · intro hdate
    refine ⟨_, _, rfl, rfl, ?_⟩
    rw [hmonth, hday']
    exact hdate

theorem undated_wellFormed_iff (h : reDaily.findSubmatch title = none) (hu : Unread info) :
    WellFormed title (afterStandard title info) ↔ info.seasonNumber = 0 := by
  have hdaily : parseDaily title info = (false, info) := by simp [parseDaily, h]
  simp only [afterStandard, hdaily]
  cases hm : reAnime.findSubmatch title with
  | none =>
    simp [parseAnime, hm, WellFormed, hu.type, hu.episodes, hu.absolute, hu.date, hu.year]
  | some m =>
    obtain ⟨n, hn⟩ := anime_number hm
    simp [parseAnime, hm, hn, WellFormed, hu.episodes, hu.absolute]

theorem afterStandard_wellFormed_iff (hu : Unread info) :
    WellFormed title (afterStandard title info) ↔
      Dated title ∧ (reDaily.findSubmatch title = none → info.seasonNumber = 0) := by
  unfold Dated
  cases hd : reDaily.findSubmatch title with
  | none =>
    rw [undated_wellFormed_iff hd hu]
    simp
  | some m =>
    rw [daily_wellFormed_iff hd]
    simp

/-- A range has all the numbers if they lie between its first and its last one. -/
theorem expandedOf_complete_iff (hm : StandardMatch m) (hasc : ¬ Descending m) :
    (∀ n ∈ writtenIn m, n ∈ expandedOf m) ↔
      ∀ last, (furtherOf m).head? = some last → ∀ n ∈ furtherOf m, firstOf m ≤ n ∧ n ≤ last := by
  simp only [hm.written]
  unfold expandedOf Descending at *
  cases hlast : (furtherOf m).head? with
  | none =>
    have hnil : furtherOf m = [] := List.head?_eq_none_iff.mp hlast
    simp [hnil]
  | some last =>
    have hmem : last ∈ furtherOf m := List.mem_of_head? hlast
    simp only [Option.some.injEq, forall_eq', forall_eq_or_imp]
    by_cases hpos : last > 0
    · have hle : firstOf m ≤ last := by
        by_contra hlt
        exact hasc ⟨last, hlast, hpos, Nat.lt_of_not_le hlt⟩
      simp only [hpos, if_true, List.mem_range'_1]
      constructor
      · intro ⟨_, h⟩ n hn
        have := h n hn
        omega
      · intro h
        refine ⟨by omega, fun n hn => ?_⟩
        have := h n hn
        omega
    · simp only [hpos, if_false, List.mem_singleton, true_and]
      constructor
      · intro h n hn
        have := h n hn
        have := h last hmem
        omega
      · intro h n hn
        have := h n hn
        omega

theorem expandedOf_isChain (m : List (String × List Char)) :
    (expandedOf m).IsChain (fun a b => b = a + 1) := by
  unfold expandedOf
  split
  · exact .singleton _
  · split
    · exact List.isChain_range' _ _ _
    · exact .singleton _

theorem expandedOf_lt (hm : StandardMatch m) (h : n ∈ expandedOf m) : n < 1000 := by
  have hfirst : firstOf m < 1000 := hm.numbers_lt _ ((hm.written _).mpr (.inl rfl))
  unfold expandedOf at h
  split at h
  · rw [List.mem_singleton.mp h]
    exact hfirst
  · rename_i last hlast
    have hlt : last < 1000 :=
      hm.numbers_lt _ ((hm.written _).mpr (.inr (List.mem_of_head? hlast)))
    split at h
    · have := (List.mem_range'_1.mp h).2
      omega
    · rw [List.mem_singleton.mp h]
      exact hfirst

theorem afterStandard_type (h : info.seriesType = .unknown) :
    (afterStandard title info).seriesType ≠ .standard := by
  have hdaily : (parseDaily title info).2.seriesType = .unknown := by
    unfold parseDaily
    split <;> exact h
  unfold afterStandard
  split
  · simp
  · rename_i info' heq
    rw [heq] at hdaily
    have hanime : (parseAnime title info').2.seriesType = .unknown := by
      unfold parseAnime
      split
      · exact hdaily
      · exact hdaily
    split
    · simp
    · rename_i info'' heq'
      rw [heq'] at hanime
      intro hstd
      cases hanime.symm.trans hstd

/-- A title of the standard kind has the numbers of a match. -/
theorem parseTitle_standard (h : (parseTitle title).seriesType = .standard) :
    ∃ m, StandardMatch m ∧ (parseTitle title).seasonNumber = seasonOf m ∧
      (parseTitle title).episodeNumbers = expandedOf m := by
  rw [parseTitle] at h ⊢
  cases hstd : reStandard.findSubmatch title with
  | none =>
    rw [parseStandard_none hstd] at h
    exact absurd h (afterStandard_type rfl)
  | some m =>
    rw [parseStandard_match hstd] at h ⊢
    cases hempty : (expandedOf m).isEmpty with
    | true =>
      rw [hempty] at h
      exact absurd h (afterStandard_type rfl)
    | false => exact ⟨m, standard_match hstd, rfl, rfl⟩

/-- What comes of a title is well formed exactly if the title is orderly. -/
theorem parseTitle_wellFormed_iff (title : String) :
    WellFormed title (parseTitle title) ↔ Orderly title := by
  rw [parseTitle]
  cases hstd : reStandard.findSubmatch title with
  | none =>
    have hu : Unread (emptyInfo title) := ⟨rfl, rfl, rfl, rfl, rfl⟩
    rw [parseStandard_none hstd]
    dsimp only
    rw [afterStandard_wellFormed_iff hu]
    simp [Orderly, hstd, emptyInfo]
  | some m =>
    have hm := standard_match hstd
    rw [parseStandard_match hstd]
    by_cases hdesc : Descending m
    · have hnil := (expandedOf_eq_nil_iff m).mpr hdesc
      simp only [hnil, List.isEmpty_nil, Bool.not_true]
      rw [afterStandard_wellFormed_iff ⟨rfl, rfl, rfl, rfl, rfl⟩]
      simp [Orderly, hstd, hdesc]
    · have hne : expandedOf m ≠ [] := fun h => hdesc ((expandedOf_eq_nil_iff m).mp h)
      have hempty : (expandedOf m).isEmpty = false := by simpa using hne
      simp only [hempty, Bool.not_false]
      simp only [WellFormed, Orderly, hstd, Option.some.injEq, forall_eq', hdesc, not_false_iff,
        forall_const, false_implies, and_true]
      rw [← expandedOf_complete_iff hm hdesc]
      have hseason := hm.season_lt
      constructor
      · intro h
        exact h.2.2.1
      · intro h
        exact ⟨hne, expandedOf_isChain m, h, by omega⟩

/-- A number in the middle is dropped if the last one is smaller; a smaller last number leaves the
season behind; and a thirteenth month becomes a date of the next year. -/
theorem parsed_titles_out_of_order :
    ¬ WellFormed "Show.S01E01E05E03" (parseTitle "Show.S01E01E05E03") ∧
    ¬ WellFormed "Show.S01E05E03" (parseTitle "Show.S01E05E03") ∧
    ¬ WellFormed "Show.2024.13.45" (parseTitle "Show.2024.13.45") := by
  refine ⟨?_, ?_, ?_⟩
  · have htype : (parseTitle "Show.S01E01E05E03").seriesType = .standard := by decide +kernel
    have hnumbers : (parseTitle "Show.S01E01E05E03").episodeNumbers = [1, 2, 3] := by decide +kernel
    have hmatch : (reStandard.findSubmatch "Show.S01E01E05E03").map writtenIn = some [3, 5, 1] := by
      decide +kernel
    intro h
    simp only [WellFormed, htype, hnumbers] at h
    obtain ⟨m, hm, hw⟩ := Option.map_eq_some_iff.mp hmatch
    have h5 := h.2.2.1 m hm 5 (by simp [hw])
    simp at h5
  · have htype : (parseTitle "Show.S01E05E03").seriesType = .unknown := by decide +kernel
    have hseason : (parseTitle "Show.S01E05E03").seasonNumber = 1 := by decide +kernel
    intro h
    simp only [WellFormed, htype, hseason] at h
    exact absurd h.1 (by decide)
  · have htype : (parseTitle "Show.2024.13.45").seriesType = .daily := by decide +kernel
    have hnumbers : (parseTitle "Show.2024.13.45").episodeNumbers = [1345] := by decide +kernel
    intro h
    simp only [WellFormed, htype, hnumbers] at h
    obtain ⟨days, n, _, hn, hdate, _⟩ := h
    have hmonth := hdate.month_le
    simp only [List.cons.injEq, and_true] at hn
    subst hn
    exact absurd hmonth (by decide)

end Sonarr.Parser
