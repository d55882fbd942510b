import Mathlib.Order.WithBot
import Sonarr.Lib.Digits
import Sonarr.Lib.Slices
import Sonarr.Library.History
import Sonarr.Library.Tables

/-! The paged lists of the v3 API: wanted episodes and the history. -/
namespace Sonarr.Api.V3
open Lib Slices

/-- The parameters as they stand in the query, empty when they are not there. -/
structure Query where
  page : String
  pageSize : String
  sortKey : String
  sortDirection : String
  deriving DecidableEq, Repr

/-- A positive number, or the default. -/
def positive (text : String) (fallback : Int) : Int :=
  if text ≠ "" then
    match Digits.parseInt text with
    | some v => if 0 < v then v else fallback
    | none => fallback
  else fallback

structure Paged (ρ : Type) where
  page : Int
  pageSize : Int
  sortKey : String
  sortDirection : String
  totalRecords : Nat
  records : List ρ
  deriving DecidableEq, Repr

variable {α ρ : Type}

/-- The records of a page; `none` is a panic. -/
def pageRecords (all : List α) (page pageSize : Int) : Option (List α) :=
  let total : Int := all.length
  let offset := int64 ((page - 1) * pageSize)
  let offset := if offset ≥ total then total else offset
  let stop := int64 (offset + pageSize)
  let stop := if stop > total then total else stop
  slice all offset stop

/-- A handler of a paged list, which differs from the others in the list and its key. -/
def paged (defaultKey : String) (resource : α → ρ) (all : List α) (q : Query) :
    Option (Paged ρ) :=
  let page := positive q.page 1
  let pageSize := positive q.pageSize 20
  (pageRecords all page pageSize).map (fun records => {
    page, pageSize
    sortKey := if q.sortKey = "" then defaultKey else q.sortKey
    sortDirection := if q.sortDirection = "" then "descending" else q.sortDirection
    totalRecords := all.length
    records := records.map resource })

/-- An episode as the API gives it, with its air date in seconds. -/
structure EpisodeResource where
  id : Nat
  seriesID : Nat
  tvdbID : Nat
  episodeFileID : Nat
  seasonNumber : Int
  episodeNumber : Int
  absoluteEpisodeNumber : Option Int
  title : String
  airDateUtc : Option Int
  overview : String
  hasFile : Bool
  monitored : Bool
  runtime : Nat
  unverifiedSceneNumbering : Bool
  deriving DecidableEq, Repr

def toEpisodeResource (e : Episode) : EpisodeResource where
  id := e.id
  seriesID := e.seriesID
  tvdbID := 0
  episodeFileID := e.episodeFileID.getD 0
  seasonNumber := e.seasonNumber
  episodeNumber := e.episodeNumber
  absoluteEpisodeNumber := e.absoluteEpisodeNumber
  title := e.title
  airDateUtc := e.airDateUtc
  overview := e.overview
  hasFile := e.episodeFileID.isSome
  monitored := e.monitored
  runtime := 0
  unverifiedSceneNumbering := false

/-- An entry as the API gives it, with its date in seconds. -/
structure HistoryResource where
  id : Nat
  episodeID : Nat
  seriesID : Nat
  sourceTitle : String
  qualityName : String
  eventType : History.EventType
  date : Int
  downloadID : String
  data : String
  deriving DecidableEq, Repr

def toHistoryResource (e : History.Entry) : HistoryResource where
  id := e.id
  episodeID := e.episodeID
  seriesID := e.seriesID
  sourceTitle := e.sourceTitle
  qualityName := e.qualityName
  eventType := e.eventType
  date := e.date
  downloadID := e.downloadID
  data := if e.data = "" then "\x7b\x7d" else e.data

/-- No date comes before every date. -/
def airKey : Option Int → WithBot Int
  | none => ⊥
  | some t => t

/-- `ORDER BY air_date_utc ASC`. -/
def airsBefore (a b : Episode) : Bool :=
  match a.airDateUtc, b.airDateUtc with
  | none, t => t.isSome
  | some _, none => false
  | some s, some t => decide (s < t)

def listAll (lib : Library) : List Episode := stableSort airsBefore lib.episodes.rows

def missingEpisodes (lib : Library) : List Episode :=
  (listAll lib).filter (fun ep => ep.monitored && ep.episodeFileID.isNone)

def cutoffEpisodes (lib : Library) : List Episode :=
  (listAll lib).filter (fun ep => ep.monitored && ep.episodeFileID.isSome)

def missing (lib : Library) : Query → Option (Paged EpisodeResource) :=
  paged "airDateUtc" toEpisodeResource (missingEpisodes lib)

def cutoffUnmet (lib : Library) : Query → Option (Paged EpisodeResource) :=
  paged "airDateUtc" toEpisodeResource (cutoffEpisodes lib)

def historyList (store : History.Store) : Query → Option (Paged HistoryResource) :=
  paged "date" toHistoryResource (History.listAll store)

section Arithmetic
variable {all : List α} {offset page pageSize : Int}

/-- The end of a page that begins inside the list. -/
theorem slice_stop (h0 : 0 ≤ offset) (hoffset : offset ≤ all.length) (hsize : 0 < pageSize)
    (hsize' : pageSize < 2 ^ 63) (hlen : all.length < 2 ^ 63) :
    slice all offset (if int64 (offset + pageSize) > all.length then (all.length : Int)
        else int64 (offset + pageSize)) =
      if offset + pageSize < 2 ^ 63 then
        some (positions all offset.toNat (offset + pageSize).toNat)
      else none := by
  by_cases hfits : offset + pageSize < 2 ^ 63
  · rw [int64_of_fits (by omega) hfits, if_pos hfits]
    by_cases hstop : offset + pageSize > all.length
    · rw [if_pos hstop, slice, if_pos (by omega), positions, Int.toNat_natCast,
        List.take_of_length_le (Nat.le_refl _), List.take_of_length_le (by omega)]
    · rw [if_neg hstop, slice, if_pos (by omega), positions]
  · have hneg := int64_neg (n := offset + pageSize) (by omega) (by omega)
    rw [if_neg hfits, if_neg (by omega), slice, if_neg (by omega)]

/-- The numbers stay in 64 bits, or the offset wraps to one behind the list. -/
def Fits (total : Nat) (page pageSize : Int) : Prop :=
  ((page - 1) * pageSize < 2 ^ 63 ∨ (total : Int) ≤ int64 ((page - 1) * pageSize)) ∧
    min ((page - 1) * pageSize) total + pageSize < 2 ^ 63

/-- The positions of a page, in unbounded numbers. -/
def onPage (all : List α) (page pageSize : Int) : List α :=
  positions all ((page - 1) * pageSize).toNat (page * pageSize).toNat

theorem pageRecords_iff (hpage : 0 < page) (hsize : 0 < pageSize) (hsize' : pageSize < 2 ^ 63)
    (hlen : all.length < 2 ^ 63) :
    pageRecords all page pageSize = some (onPage all page pageSize) ↔
      Fits all.length page pageSize := by
  have hstart : 0 ≤ (page - 1) * pageSize := Int.mul_nonneg (by omega) (by omega)
  have hstop : page * pageSize = (page - 1) * pageSize + pageSize := by
    rw [Int.sub_mul, Int.one_mul, Int.sub_add_cancel]
  simp only [pageRecords, onPage, Fits, hstop]
  generalize (page - 1) * pageSize = start at hstart
  by_cases hsmall : start < 2 ^ 63
  · rw [int64_of_fits (by omega) hsmall]
    by_cases hinside : start ≥ all.length
    · -- an empty page behind the list
      rw [if_pos hinside, slice_stop (by omega) (by omega) hsize hsize' hlen,
        positions_of_length_le (by omega), positions_of_length_le (by omega),
        min_eq_right hinside]
      simp only [Option.ite_none_right_eq_some, hsmall, true_or, true_and, and_true]
    · rw [if_neg hinside, slice_stop hstart (by omega) hsize hsize' hlen,
        min_eq_left (by omega)]
      simp only [Option.ite_none_right_eq_some, hsmall, true_or, true_and, and_true]
  · have hempty : positions all start.toNat (start + pageSize).toNat = [] :=
      positions_of_length_le (by omega)
    rw [hempty, min_eq_right (by omega)]
    have hrange := int64_lt start
    generalize int64 start = offset at hrange
    by_cases hbehind : offset ≥ all.length
    · rw [if_pos hbehind, slice_stop (by omega) (by omega) hsize hsize' hlen,
        positions_of_length_le (by omega)]
      simp [hbehind]
    · -- the page of another offset is empty only if there is a panic
      refine iff_of_false ?_ (by omega)
      rw [if_neg hbehind]
      by_cases hneg : offset < 0
      · rw [slice, if_neg (by omega)]
        simp
      · rw [slice_stop (by omega) (by omega) hsize hsize' hlen]
        split
        · intro h
          have hlength := congrArg List.length (Option.some.inj h)
          rw [length_positions, List.length_nil] at hlength
          omega
        · simp

end Arithmetic

/-- A parameter that is taken is a positive 64-bit number. -/
theorem parseInt_lt (h : Digits.parseInt text = some v) : v < 2 ^ 63 := by
  simp only [Digits.parseInt] at h
  split at h
  all_goals
    obtain ⟨n, _, hn⟩ := Option.bind_eq_some_iff.mp h
    split at hn <;> cases hn
    omega

theorem positive_bounds (text : String) {fallback : Int} (h : 0 < fallback) (h' : fallback < 2 ^ 63) :
    0 < positive text fallback ∧ positive text fallback < 2 ^ 63 := by
  unfold positive
  split
  · split
    · rename_i v hv
      split
      · exact ⟨‹_›, parseInt_lt hv⟩
      · exact ⟨h, h'⟩
    · exact ⟨h, h'⟩
  · exact ⟨h, h'⟩

/-- The page with this number, whatever the query asks for. -/
def Query.atPage (q : Query) (k : Nat) : Query := { q with page := Text.decimal (k : Int) }

theorem positive_decimal {k : Nat} (hk : 0 < k) (hk' : k < 2 ^ 63) :
    positive (Text.decimal k) fallback = k := by
  have hparse := Digits.parseInt_decimal (n := k) (by omega)
  have hne : Text.decimal (k : Int) ≠ "" := by
    intro h
    rw [h] at hparse
    cases hparse
  rw [positive, if_pos hne, hparse]
  simp [hk]

/-- The first pages, if none of them panics. -/
def pages (handler : Query → Option (Paged ρ)) (q : Query) : Nat → Option (List (Paged ρ))
  | 0 => some []
  | n + 1 => match pages handler q n, handler (q.atPage (n + 1)) with
    | some rs, some r => some (rs ++ [r])
    | _, _ => none

/-- The handler gives the records of the page, and no others. -/
def Exact (resource : α → ρ) (all : List α) (q : Query) (out : Option (Paged ρ)) : Prop :=
  out.map Paged.records =
    some ((onPage all (positive q.page 1) (positive q.pageSize 20)).map resource)

/-- What the pages of a list are under a handler. -/
structure Paging (resource : α → ρ) (all : List α) (handler : Query → Option (Paged ρ)) :
    Prop where
  exact_iff : ∀ q, Exact resource all q (handler q) ↔
    Fits all.length (positive q.page 1) (positive q.pageSize 20)
  /-- Pages that fit are the whole list, once. -/
  whole : ∀ q n, n < 2 ^ 63 →
    (∀ k : Nat, k < n → Fits all.length (k + 1) (positive q.pageSize 20)) →
    (all.length : Int) ≤ n * positive q.pageSize 20 →
    ∃ rs, pages handler q n = some rs ∧ rs.flatMap Paged.records = all.map resource

section Handler
variable {resource : α → ρ} {all : List α} {key : String} {handler : Query → Option (Paged ρ)}

theorem pageRecords_map (f : α → ρ) (all : List α) (page pageSize : Int) :
    pageRecords (all.map f) page pageSize = (pageRecords all page pageSize).map (List.map f) := by
  simp only [pageRecords, List.length_map, slice_map]

theorem exact_iff (hlen : all.length < 2 ^ 63) (q : Query) :
    Exact resource all q (paged key resource all q) ↔
      Fits all.length (positive q.page 1) (positive q.pageSize 20) := by
  have hrecords : (paged key resource all q).map Paged.records =
      pageRecords (all.map resource) (positive q.page 1) (positive q.pageSize 20) := by
    simp only [paged, pageRecords_map, Option.map_map]
    rfl
  obtain ⟨hpage, _⟩ := positive_bounds q.page (show (0 : Int) < 1 by decide) (by decide)
  obtain ⟨hsize, hsize'⟩ := positive_bounds q.pageSize (show (0 : Int) < 20 by decide) (by decide)
  rw [Exact, hrecords, onPage, ← positions_map, ← onPage,
    pageRecords_iff hpage hsize hsize' (by rwa [List.length_map]), List.length_map]

theorem onPage_succ (all : List α) (k : Nat) (hsize : 0 < size) :
    onPage all ((k : Int) + 1) size = positions all (k * size.toNat) ((k + 1) * size.toNat) := by
  obtain ⟨m, rfl⟩ := Int.eq_ofNat_of_zero_le (Int.le_of_lt hsize)
  rw [onPage, Int.add_sub_cancel, Int.toNat_natCast]
  norm_cast

/-- Pages of one size, one after the other, are what the list begins with. -/
theorem pages_of_exact (hn : n < 2 ^ 63)
    (hexact : ∀ k, k < n → Exact resource all (q.atPage (k + 1)) (handler (q.atPage (k + 1)))) :
    ∃ rs, pages handler q n = some rs ∧ rs.flatMap Paged.records =
      (all.take (n * (positive q.pageSize 20).toNat)).map resource := by
  have hsize := (positive_bounds q.pageSize (show (0 : Int) < 20 by decide) (by decide)).1
  induction n with
  | zero => exact ⟨[], rfl, by simp⟩
  | succ n ih =>
    obtain ⟨rs, hrs, hrecords⟩ := ih (by omega) (fun k hk => hexact k (by omega))
    obtain ⟨r, hr, hlast⟩ := Option.map_eq_some_iff.mp (hexact n (by omega))
    refine ⟨rs ++ [r], by simp only [pages, hrs, hr], ?_⟩
    rw [Query.atPage, positive_decimal (by omega) (by omega)] at hlast
    rw [List.flatMap_append, hrecords, List.flatMap_singleton, hlast, Int.natCast_succ,
      onPage_succ all n hsize, ← List.map_append,
      take_append_positions all (Nat.mul_le_mul_right _ (Nat.le_succ n))]

theorem paging_paged (hlen : all.length < 2 ^ 63) :
    Paging resource all (paged key resource all) where
  exact_iff := exact_iff hlen
  whole := by
    intro q n hn hfits hcover
    have hsize := (positive_bounds q.pageSize (show (0 : Int) < 20 by decide) (by decide)).1
    have hexact : ∀ k, k < n → Exact resource all (q.atPage (k + 1))
        (paged key resource all (q.atPage (k + 1))) := by
      intro k hk
      rw [exact_iff hlen, Query.atPage, positive_decimal (by omega) (by omega)]
      exact_mod_cast hfits k hk
    obtain ⟨rs, hrs, hrecords⟩ := pages_of_exact hn hexact
    refine ⟨rs, hrs, ?_⟩
    rw [hrecords, List.take_of_length_le]
    obtain ⟨m, hm⟩ := Int.eq_ofNat_of_zero_le (Int.le_of_lt hsize)
    rw [hm, Int.toNat_natCast]
    rw [hm] at hcover
    exact_mod_cast hcover

end Handler

theorem length_filter_listAll (lib : Library) (p : Episode → Bool)
    (h : lib.episodes.rows.length < 2 ^ 63) : ((listAll lib).filter p).length < 2 ^ 63 := by
  have hsort : (listAll lib).length = lib.episodes.rows.length := (perm_stableSort _ _).length_eq
  have hfilter := List.length_filter_le p (listAll lib)
  omega

/-- Of each of the three lists a page is the records at its positions just if its numbers fit, and
pages that fit are the whole list. -/
theorem page_arithmetic_iff (lib : Library) (store : History.Store)
    (hlib : lib.episodes.rows.length < 2 ^ 63) (hstore : store.rows.length < 2 ^ 63) :
    Paging toEpisodeResource (missingEpisodes lib) (missing lib) ∧
      Paging toEpisodeResource (cutoffEpisodes lib) (cutoffUnmet lib) ∧
      Paging toHistoryResource (History.listAll store) (historyList store) := by
  refine ⟨paging_paged (length_filter_listAll lib _ hlib),
    paging_paged (length_filter_listAll lib _ hlib), paging_paged ?_⟩
  rw [History.listAll, (perm_stableSort _ _).length_eq]
  exact hstore

/-- A library of one monitored episode without a file. -/
def oneMissing : Library :=
  { Library.empty with
    episodes := Table.insert Table.empty
      (fun id => ⟨id, 1, 1, 1, none, "Pilot", "", some 0, true, none, 0⟩) (fun _ => rfl) }

/-- Two episodes of one season that are missing. -/
def twoMissing : Library :=
  { Library.empty with
    episodes := Table.insert oneMissing.episodes
      (fun id => ⟨id, 1, 1, 2, none, "Second", "", some 604800, true, none, 0⟩) (fun _ => rfl) }

/-- Two entries of the history. -/
def twoGrabs : History.Store :=
  ⟨[⟨1, 1, 1, "Show.S01E01", "HDTV-720p", .grabbed, 100, "", "\x7b\x7d"⟩,
    ⟨2, 2, 1, "Show.S01E02", "HDTV-720p", .grabbed, 200, "", "\x7b\x7d"⟩], 3, by decide, by decide⟩

theorem page_arithmetic_twoMissing :
    twoMissing.episodes.rows.length < 2 ^ 63 ∧ twoGrabs.rows.length < 2 ^ 63 ∧
      Paging toEpisodeResource (missingEpisodes twoMissing) (missing twoMissing) ∧
      Paging toEpisodeResource (cutoffEpisodes twoMissing) (cutoffUnmet twoMissing) ∧
      Paging toHistoryResource (History.listAll twoGrabs) (historyList twoGrabs) :=
  ⟨by decide, by decide, page_arithmetic_iff twoMissing twoGrabs (by decide) (by decide)⟩

/-- The end of a page wraps and the handler panics; the offset of a page far behind the list wraps
and the first page is returned in its place. -/
theorem pages_wrap :
    missing oneMissing ⟨"2", "9223372036854775807", "", ""⟩ = none ∧
      ¬ Exact toEpisodeResource (missingEpisodes oneMissing)
        ⟨"2", "9223372036854775807", "", ""⟩
        (missing oneMissing ⟨"2", "9223372036854775807", "", ""⟩) ∧
      ¬ Exact toEpisodeResource (missingEpisodes oneMissing) ⟨"4611686018427387905", "4", "", ""⟩
        (missing oneMissing ⟨"4611686018427387905", "4", "", ""⟩) := by
  unfold Exact
  decide

end Sonarr.Api.V3
