import Sonarr.Lib.Civil
import Sonarr.Lib.ContentLine
import Sonarr.Library.Store

namespace Sonarr.Api.CalendarFeed
open Lib Lib.ContentLine Lib.Text

/-- `icalEscape`. -/
def icalEscape (s : Bytes) : Bytes :=
  let s := replaceList s [92] [92, 92]
  let s := replaceList s [59] [92, 59]
  let s := replaceList s [44] [92, 44]
  let s := replaceList s [13, 10] [92, 110]
  replaceList s [10] [92, 110]

def limit : Nat := 75

/-- Where the chunk from byte `i` ends. -/
def chunkEnd (b : Bytes) (i : Nat) : Nat := if b.length < i + limit then b.length else i + limit

theorem lt_chunkEnd {b : Bytes} (h : i < b.length) : i < chunkEnd b i := by
  have : 0 < limit := by decide
  unfold chunkEnd
  split <;> omega

/-- The loop of `writeICalLine` from byte `i` on: what it writes before each line break. -/
def physicalLinesFrom (b : Bytes) (i : Nat) : List Bytes :=
  if i < b.length then
    ((if 0 < i then [32] else []) ++ (b.take (chunkEnd b i)).drop i) ::
      physicalLinesFrom b (chunkEnd b i)
  else []
termination_by b.length - i
decreasing_by
  have := lt_chunkEnd (b := b) (i := i) (by assumption)
  omega

def physicalLines (line : Bytes) : List Bytes := physicalLinesFrom line 0

def writeICalLine (sb line : Bytes) : Bytes := sb ++ (physicalLines line).flatMap (· ++ crlf)

section Folding
variable {b : Bytes}

theorem physicalLinesFrom_done (h : b.length ≤ i) : physicalLinesFrom b i = [] := by
  rw [physicalLinesFrom, if_neg (by omega)]

/-- A full chunk, and the loop goes on behind it. -/
theorem physicalLinesFrom_full (h : i + limit ≤ b.length) :
    physicalLinesFrom b i =
      ((if 0 < i then [32] else []) ++ (b.drop i).take limit) ::
        physicalLinesFrom b (i + limit) := by
  have hlimit : limit = 75 := rfl
  have hstop : chunkEnd b i = i + limit := if_neg (by omega)
  rw [physicalLinesFrom, if_pos (by omega), hstop, List.drop_take, Nat.add_sub_cancel_left]

/-- The last chunk is what is left. -/
theorem physicalLinesFrom_last (hi : i < b.length) (h : b.length < i + limit) :
    physicalLinesFrom b i = [(if 0 < i then [32] else []) ++ b.drop i] := by
  have hstop : chunkEnd b i = b.length := if_pos h
  rw [physicalLinesFrom, if_pos hi, hstop, List.take_length,
    physicalLinesFrom_done (Nat.le_refl _)]

/-- A continuation is short enough when what is left fits beside its space. -/
theorem continuation_le_limit_iff (hi : 0 < i) :
    (∀ p ∈ physicalLinesFrom b i, p.length ≤ limit) ↔ b.length < i + limit := by
  have hlimit : limit = 75 := rfl
  constructor
  · intro h
    apply Nat.lt_of_not_le
    intro hfull
    rw [physicalLinesFrom_full hfull, if_pos hi] at h
    have hlen := h _ List.mem_cons_self
    simp only [List.length_append, List.length_singleton, List.length_take, List.length_drop]
      at hlen
    omega
  · intro h p hp
    by_cases hlast : i < b.length
    · rw [physicalLinesFrom_last hlast h, List.mem_singleton, if_pos hi] at hp
      rw [hp, List.length_append, List.length_singleton, List.length_drop]
      omega
    · rw [physicalLinesFrom_done (by omega)] at hp
      cases hp

/-- Every physical line has at most 75 octets, its leading space included, when the
line is shorter than two full chunks. -/
theorem physicalLines_le_limit_iff (line : Bytes) :
    (∀ p ∈ physicalLines line, p.length ≤ 75) ↔ line.length < 150 := by
  have hlimit : limit = 75 := rfl
  unfold physicalLines
  by_cases hfull : 0 + limit ≤ line.length
  · rw [physicalLinesFrom_full hfull, List.forall_mem_cons]
    have hrest := continuation_le_limit_iff (b := line) (i := 0 + limit) (by decide)
    rw [hlimit] at hrest ⊢
    rw [hrest]
    simp
  · have hshort : line.length < 75 := by omega
    constructor
    · omega
    · intro _ p hp
      by_cases hne : 0 < line.length
      · rw [physicalLinesFrom_last hne (by omega), List.mem_singleton] at hp
        rw [hp]
        simp
        omega
      · rw [physicalLinesFrom_done (by omega)] at hp
        cases hp

/-- A line of 150 letters gets a second physical line of 76 octets. -/
theorem physicalLines_too_long :
    ∃ p ∈ physicalLines (List.replicate 150 97), p.length = 76 := by
  refine ⟨[32] ++ List.replicate 75 97, ?_, by simp⟩
  unfold physicalLines
  have hlimit : limit = 75 := rfl
  have hlen : (List.replicate 150 (97 : UInt8)).length = 150 := List.length_replicate
  rw [physicalLinesFrom_full (by omega), physicalLinesFrom_full (by omega)]
  simp [hlimit]

/-- Unfolding joins a continuation, and all after it, to the line break before it. -/
theorem unfold_continuation (hb : 10 ∉ b) (hi : 0 < i) (rest : Bytes) :
    unfold (crlf ++ ((physicalLinesFrom b i).flatMap (· ++ crlf) ++ rest)) =
      b.drop i ++ unfold (crlf ++ rest) := by
  fun_induction physicalLinesFrom b i with
  | case1 i h ih =>
    have hstop := lt_chunkEnd h
    have hchunk : 10 ∉ (b.take (chunkEnd b i)).drop i :=
      fun hm => hb (List.mem_of_mem_take (List.mem_of_mem_drop hm))
    have hjoin : (b.take (chunkEnd b i)).drop i ++ b.drop (chunkEnd b i) = b.drop i := by
      have hlen : chunkEnd b i ≤ b.length := by
        unfold chunkEnd
        split <;> omega
      have hcut : i ≤ (b.take (chunkEnd b i)).length := by
        rw [List.length_take]
        omega
      rw [← List.drop_append_of_le_length hcut, List.take_append_drop]
    rw [if_pos hi, List.flatMap_cons]
    simp only [List.cons_append, List.nil_append, List.append_assoc]
    rw [unfold_crlf_space, ← List.append_assoc, unfold_append hchunk, ih (by omega),
      ← List.append_assoc, hjoin]
  | case2 i h =>
    rw [List.flatMap_nil, List.nil_append, List.drop_eq_nil_of_le (by omega), List.nil_append]

/-- A line without newlines is unfolded to itself and its line break. -/
theorem unfold_writeICalLine (hb : 10 ∉ b) (hne : b ≠ []) (hrest : rest.head? ≠ some 32) :
    unfold (writeICalLine [] b ++ rest) = b ++ crlf ++ unfold rest := by
  have hpos : 0 < b.length := List.length_pos_iff.mpr hne
  have hchunk : 10 ∉ b.take (chunkEnd b 0) := fun hm => hb (List.mem_of_mem_take hm)
  unfold writeICalLine physicalLines
  rw [physicalLinesFrom, if_pos hpos, if_neg (Nat.lt_irrefl 0), List.nil_append, List.flatMap_cons,
    List.nil_append, List.drop_zero, List.append_assoc, List.append_assoc, ← List.append_assoc,
    unfold_append hchunk, unfold_continuation hb (lt_chunkEnd hpos), ← List.append_assoc,
    List.take_append_drop, unfold_crlf hrest, List.append_assoc]

theorem head_writeICalLine (hne : b ≠ []) (rest : Bytes) :
    (writeICalLine [] b ++ rest).head? = b.head? := by
  have hpos : 0 < b.length := List.length_pos_iff.mpr hne
  have hstop := lt_chunkEnd hpos
  unfold writeICalLine physicalLines
  rw [physicalLinesFrom, if_pos hpos, if_neg (Nat.lt_irrefl 0), List.flatMap_cons]
  cases b with
  | nil => exact absurd rfl hne
  | cons c b =>
    obtain ⟨k, hk⟩ := Nat.exists_eq_succ_of_ne_zero (Nat.ne_of_gt hstop)
    rw [hk]
    simp

end Folding

section Escaping

/-- The passes of `icalEscape` do not touch each other's results: without carriage
returns they escape each byte on its own. -/
theorem icalEscape_eq_escape (h : 13 ∉ text) : icalEscape text = escape text := by
  have hcr : 13 ∉ replaceList (replaceList (replaceList text [92] [92, 92]) [59] [92, 59]) [44]
      [92, 44] := by
    simp only [replaceList_single, List.mem_flatMap]
    grind
  show replaceList (replaceList (replaceList (replaceList (replaceList text [92] [92, 92]) [59]
    [92, 59]) [44] [92, 44]) [13, 10] [92, 110]) [10] [92, 110] = _
  rw [replaceList_absent hcr]
  simp only [replaceList_single, List.flatMap_assoc]
  unfold escape
  congr 1
  funext b
  unfold escapeByte
  split
  · simp_all
  · split
    · simp_all
    · split
      · simp_all
      · simp_all

/-- The last pass leaves no newline, whatever the text. -/
theorem newline_notMem_icalEscape (text : Bytes) : 10 ∉ icalEscape text := by
  unfold icalEscape
  rw [replaceList_single]
  intro hm
  obtain ⟨b, _, hb⟩ := List.mem_flatMap.mp hm
  split at hb <;> simp_all

end Escaping

/-- The query parameters; the days are what `strconv.Atoi` returns. -/
structure FeedQuery where
  pastDays : Int
  futureDays : Int
  unmonitored : Bool
  premieresOnly : Bool
  asAllDay : Bool
  tags : String

/-- `parseTagCSV`. -/
def parseTagCSV (s : String) : List String :=
  if trimSpace s = "" then []
  else ((splitBy (· == ',') (trimSpace s).toList).map (fun p => trimSpace (String.ofList p))).filter
    (· ≠ "")

def icalTimestamp (t : Int) : String :=
  let d := Civil.ofSeconds t
  String.ofList (Civil.pad4 d.year ++ Civil.pad2 d.month ++ Civil.pad2 d.day ++ 'T' ::
    (Civil.pad2 d.hour ++ Civil.pad2 d.minute ++ Civil.pad2 d.second ++ ['Z']))

/-- `%02d`. -/
def decimal2 (n : Int) : String := if 0 ≤ n ∧ n < 10 then "0" ++ decimal n else decimal n

/-- The filter of `serve`; `now` is in nanoseconds, air dates are seconds. A tag
filter keeps nothing. -/
def keeps (q : FeedQuery) (now : Int) (ep : Episode) : Bool :=
  let today := now / 86400000000000 * 86400
  let start := today - 86400 * (if q.pastDays = 0 then 7 else q.pastDays)
  let stop := today + 86400 * (if q.futureDays = 0 then 28 else q.futureDays)
  ep.airDateUtc.any (fun air => start ≤ air && air ≤ stop) &&
    (q.unmonitored || ep.monitored) &&
    !(q.premieresOnly && (ep.seasonNumber == 0 || ep.episodeNumber != 1)) &&
    (parseTagCSV q.tags).isEmpty

def airsBefore (a b : Episode) : Bool := decide (a.airDateUtc.getD 0 < b.airDateUtc.getD 0)

def summary (series : Series) (ep : Episode) : String :=
  if equalFold series.seriesType "daily" then series.title ++ " - " ++ ep.title
  else series.title ++ " - " ++ decimal ep.seasonNumber ++ "x" ++ decimal2 ep.episodeNumber ++
    " - " ++ ep.title

/-- What a feed is made from besides the rows: the clock read for the `i`-th
event, and the offset of local time from UTC. -/
structure FeedClock where
  stamp : Nat → Int
  zone : Int → Int

/-- The lines of one event; the filter has left episodes with an air date only. -/
def eventLines (q : FeedQuery) (clock : FeedClock) (i : Nat) (series : Series) (ep : Episode) :
    List Bytes :=
  let air := ep.airDateUtc.getD 0
  let day := Civil.ofSeconds (air + clock.zone air)
  [utf8 "BEGIN:VEVENT",
    utf8 "UID:sonarr2_episode_" ++ utf8 (decimal ep.id),
    utf8 "DTSTAMP:" ++ utf8 (icalTimestamp (clock.stamp i)),
    utf8 "SUMMARY:" ++ icalEscape (utf8 (summary series ep))] ++
  (if ep.overview ≠ "" then [utf8 "DESCRIPTION:" ++ icalEscape (utf8 ep.overview)] else []) ++
  [utf8 (if ep.episodeFileID.any (· ≠ 0) then "STATUS:CONFIRMED" else "STATUS:TENTATIVE")] ++
  (if q.asAllDay then
    [utf8 "DTSTART;VALUE=DATE:" ++
      utf8 (String.ofList (Civil.pad4 day.year ++ Civil.pad2 day.month ++ Civil.pad2 day.day))]
  else
    [utf8 "DTSTART:" ++ utf8 (icalTimestamp air),
      utf8 "DTEND:" ++ utf8 (icalTimestamp (air + 1800))]) ++
  [utf8 "END:VEVENT"]

def calendarStart : List String :=
  ["BEGIN:VCALENDAR", "VERSION:2.0", "PRODID:-//sonarr2//Sonarr2//EN", "CALSCALE:GREGORIAN",
    "NAME:Sonarr TV Schedule", "X-WR-CALNAME:Sonarr TV Schedule"]

/-- The lines `serve` hands to `writeICalLine`; a later row of a series replaces an
earlier one in `seriesByID`, and episodes of unknown series are skipped. -/
def feedLines (q : FeedQuery) (clock : FeedClock) (allSeries : List Series)
    (filtered : List Episode) : List Bytes :=
  calendarStart.map utf8 ++
  filtered.zipIdx.flatMap (fun (ep, i) =>
    match allSeries.reverse.find? (fun s => s.id == ep.seriesID) with
    | none => []
    | some series => eventLines q clock i series ep) ++
  [utf8 "END:VCALENDAR"]

def serve (q : FeedQuery) (clock : FeedClock) (now : Int) (sort : Arrangement airsBefore)
    (eps : List Episode) (allSeries : List Series) : Bytes :=
  (feedLines q clock allSeries (sort.run (eps.filter (keeps q now)))).foldl writeICalLine []

section Feed

/-- A line that no reader can take for a continuation or for two lines. -/
structure Proper (line : Bytes) : Prop where
  ne : line ≠ []
  start : line.head? ≠ some 32
  whole : 10 ∉ line

/-- Fixed text at the start of a line. -/
def isStart (s : String) : Bool :=
  match s.toList with
  | [] => false
  | c :: cs => c.toNat ≤ 127 && c != ' ' && !(c :: cs).contains '\n'

theorem proper_of_isStart (h : isStart s = true) : Proper (utf8 s) := by
  unfold isStart at h
  split at h
  · cases h
  · rename_i c cs hs
    simp only [Bool.and_eq_true, decide_eq_true_eq, bne_iff_ne, ne_eq, Bool.not_eq_true',
      List.contains_eq_mem, decide_eq_false_iff_not] at h
    obtain ⟨⟨hascii, hspace⟩, hline⟩ := h
    have hutf : utf8 s = UInt8.ofNat c.toNat :: cs.flatMap String.utf8EncodeChar := by
      rw [utf8, hs, List.flatMap_cons, utf8EncodeChar_ascii hascii]
      rfl
    refine ⟨by simp [hutf], ?_, newline_notMem_utf8 (by rwa [hs])⟩
    rw [hutf, List.head?_cons]
    intro he
    have hn := congrArg UInt8.toNat (Option.some.inj he)
    rw [UInt8.toNat_ofNat', Nat.mod_eq_of_lt (by omega)] at hn
    exact hspace (Char.toNat_inj.mp hn)

theorem Proper.append (h : Proper l) (hm : 10 ∉ m) : Proper (l ++ m) := by
  obtain ⟨hne, hstart, hwhole⟩ := h
  cases l with
  | nil => exact absurd rfl hne
  | cons b l =>
    refine ⟨by simp, by simpa using hstart, ?_⟩
    rw [List.mem_append, not_or]
    exact ⟨hwhole, hm⟩

/-- The reader gets the lines back that were written. -/
theorem lines_unfold_write {ls : List Bytes} (h : ∀ l ∈ ls, Proper l) :
    lines (unfold (ls.foldl writeICalLine [])) = ls := by
  have hfold : ∀ (ls : List Bytes) (sb : Bytes),
      ls.foldl writeICalLine sb = sb ++ ls.flatMap (writeICalLine []) := by
    intro ls
    induction ls with
    | nil => simp
    | cons l ls ih =>
      intro sb
      rw [List.foldl_cons, ih, List.flatMap_cons]
      simp [writeICalLine]
  rw [hfold, List.nil_append]
  induction ls with
  | nil => rfl
  | cons l ls ih =>
    rw [List.forall_mem_cons] at h
    -- What follows is the next line, and that does not begin with a space.
    have hnext : (ls.flatMap (writeICalLine [])).head? ≠ some 32 := by
      cases ls with
      | nil => simp
      | cons l' ls =>
        have hl' := h.2 l' List.mem_cons_self
        rw [List.flatMap_cons, head_writeICalLine hl'.ne]
        exact hl'.start
    rw [List.flatMap_cons, unfold_writeICalLine h.1.whole h.1.ne hnext, lines_append h.1.whole,
      ih h.2]

theorem newline_ne_digit (n : Nat) : '\n' ≠ Civil.digit n := by
  intro h
  have hd := Civil.digit_isDigit n
  rw [← h] at hd
  exact absurd hd (by decide)

theorem newline_notMem_decimal (n : Int) : '\n' ∉ (decimal n).toList := by
  have hdigits : '\n' ∉ Nat.toDigits 10 n.natAbs := fun hm =>
    absurd (Nat.isDigit_of_mem_toDigits (by decide) (by decide) hm) (by decide)
  rw [toList_decimal]
  split
  · rw [List.mem_cons, not_or]
    exact ⟨by decide, hdigits⟩
  · exact hdigits

theorem newline_notMem_icalTimestamp (t : Int) : '\n' ∉ (icalTimestamp t).toList := by
  simp [icalTimestamp, Civil.pad4, Civil.pad2, newline_ne_digit]

theorem proper_eventLines (q : FeedQuery) (clock : FeedClock) (i : Nat) (series : Series)
    (ep : Episode) : ∀ l ∈ eventLines q clock i series ep, Proper l := by
  have hfixed : ∀ s ∈ ["BEGIN:VEVENT", "UID:sonarr2_episode_", "DTSTAMP:", "SUMMARY:",
      "DESCRIPTION:", "STATUS:CONFIRMED", "STATUS:TENTATIVE", "DTSTART;VALUE=DATE:", "DTSTART:",
      "DTEND:", "END:VEVENT"], Proper (utf8 s) := by
    intro s hs
    apply proper_of_isStart
    revert s
    decide
  simp only [List.forall_mem_cons, List.not_mem_nil, false_imp_iff, implies_true, and_true]
    at hfixed
  obtain ⟨hbegin, huid, hstamp, hsummary, hdescription, hconfirmed, htentative, hday, hstart, hend,
    hclose⟩ := hfixed
  have hdecimal := fun n => newline_notMem_utf8 (newline_notMem_decimal n)
  have htime := fun t => newline_notMem_utf8 (newline_notMem_icalTimestamp t)
  intro l hl
  simp only [eventLines, List.mem_append, List.mem_cons, List.not_mem_nil, or_false] at hl
  rcases hl with ((((rfl | rfl | rfl | rfl) | hl) | rfl) | hl) | rfl
  · exact hbegin
  · exact huid.append (hdecimal _)
  · exact hstamp.append (htime _)
  · exact hsummary.append (newline_notMem_icalEscape _)
  · split at hl
    · rw [List.mem_singleton.mp hl]
      exact hdescription.append (newline_notMem_icalEscape _)
    · cases hl
  · split
    · exact hconfirmed
    · exact htentative
  · split at hl
    · rw [List.mem_singleton.mp hl]
      refine hday.append (newline_notMem_utf8 ?_)
      simp [Civil.pad4, Civil.pad2, newline_ne_digit]
    · simp only [List.mem_cons, List.not_mem_nil, or_false] at hl
      rcases hl with rfl | rfl
      · exact hstart.append (htime _)
      · exact hend.append (htime _)
  · exact hclose

theorem proper_feedLines (q : FeedQuery) (clock : FeedClock) (allSeries : List Series)
    (filtered : List Episode) : ∀ l ∈ feedLines q clock allSeries filtered, Proper l := by
  have hfixed : ∀ s ∈ "END:VCALENDAR" :: calendarStart, Proper (utf8 s) := by
    intro s hs
    apply proper_of_isStart
    revert s
    decide
  intro l hl
  simp only [feedLines, List.mem_append, List.mem_map, List.mem_flatMap, List.mem_singleton] at hl
  rcases hl with (⟨s, hs, rfl⟩ | ⟨⟨ep, i⟩, _, hl⟩) | rfl
  · exact hfixed s (List.mem_cons_of_mem _ hs)
  · dsimp only at hl
    split at hl
    · cases hl
    · exact proper_eventLines q clock i _ ep l hl
  · exact hfixed _ List.mem_cons_self

/-- Unfolding a property and unescaping its value gives the text back, the escaped
value holds no newline, comma or semicolon of its own, and so the lines of a feed
are those `serve` wrote, whatever the titles and overviews. -/
theorem calendar_text_round_trip (name text : Bytes) (hname : name ≠ []) (hline : 10 ∉ name)
    (htext : 13 ∉ text) :
    unfold (writeICalLine [] (name ++ icalEscape text)) = name ++ icalEscape text ++ crlf ∧
      unescape (icalEscape text) = text ∧
      10 ∉ icalEscape text ∧
      44 ∉ unescaped (icalEscape text) ∧ 59 ∉ unescaped (icalEscape text) ∧
      ∀ q clock now sort eps allSeries,
        lines (unfold (serve q clock now sort eps allSeries)) =
          feedLines q clock allSeries (sort.run (eps.filter (keeps q now))) := by
  have hvalue : 10 ∉ name ++ icalEscape text := by
    rw [List.mem_append, not_or]
    exact ⟨hline, newline_notMem_icalEscape text⟩
  have hne : name ++ icalEscape text ≠ [] := by simp [hname]
  refine ⟨?_, ?_, newline_notMem_icalEscape text, ?_, ?_, ?_⟩
  · have h := unfold_writeICalLine hvalue hne (show ([] : Bytes).head? ≠ some 32 by simp)
    rwa [List.append_nil, show unfold [] = [] from rfl, List.append_nil] at h
  · rw [icalEscape_eq_escape htext, unescape_escape]
  · rw [icalEscape_eq_escape htext]
    exact (unescaped_escape text).1
  · rw [icalEscape_eq_escape htext]
    exact (unescaped_escape text).2
  · intro q clock now sort eps allSeries
    exact lines_unfold_write (proper_feedLines q clock allSeries _)

theorem calendar_text_round_trip_title :
    utf8 "SUMMARY:" ≠ [] ∧ 10 ∉ utf8 "SUMMARY:" ∧ 13 ∉ utf8 "Tom, Dick; Ann\n" ∧
      unescape (icalEscape (utf8 "Tom, Dick; Ann\n")) = utf8 "Tom, Dick; Ann\n" :=
  ⟨by decide, by decide, by decide,
    (calendar_text_round_trip (utf8 "SUMMARY:") (utf8 "Tom, Dick; Ann\n") (by decide) (by decide)
      (by decide)).2.1⟩

end Feed
end Sonarr.Api.CalendarFeed
