import Sonarr.Lib.Base64
import Sonarr.Lib.JsonRead
import Sonarr.Lib.Pages
import Sonarr.Library.History
import Sonarr.Library.Store

namespace Sonarr.Api.V6
open Lib

structure Pagination where
  limit : Nat
  nextCursor : String
  hasMore : Bool
  deriving DecidableEq, Repr

structure Page (α : Type) where
  data : List α
  pagination : Pagination

/-- What makes a request a bad one. -/
inductive ParamError
  | limit
  | cursorEncoding
  | cursorPayload
  deriving DecidableEq, Repr

/-- The JSON object inside a cursor. -/
def cursorPayload (lastID : Int) : String := "\x7b\"lastId\":" ++ Text.decimal lastID ++ "\x7d"

/-- A number that fits into 64 bits. -/
def int64Over (old : Int) (v : Json.Value) : Option Int :=
  (v.intOver old).filter (fun n => -9223372036854775808 ≤ n && n < 9223372036854775808)

/-- The number in a payload: any object is read, and one without it gives 0. -/
def parsePayload (s : String) : Option Int :=
  (Json.read s).bind (Json.Value.toStruct (fun field => (field "lastId").foldlM int64Over 0))

def encodeCursor (lastID : Int) : String := Base64.encode (cursorPayload lastID)

def decodeCursor (cursor : String) : Except ParamError Int :=
  if cursor = "" then .ok 0
  else match Base64.decode cursor with
    | none => .error .cursorEncoding
    | some raw => match parsePayload raw with
      | none => .error .cursorPayload
      | some lastID => .ok lastID

def parseLimit (limit : String) : Except ParamError Nat :=
  if limit = "" then .ok 50
  else match Digits.parseInt limit with
    | none => .error .limit
    | some l => if l ≤ 0 then .error .limit else .ok (if l > 500 then 500 else l.toNat)

/-- The parameters as they stand in the query, empty when they are not there. -/
def parsePaginationParams (limit cursor : String) : Except ParamError (Nat × Int) :=
  match parseLimit limit with
  | .error e => .error e
  | .ok n =>
    if cursor ≠ "" then (decodeCursor cursor).map (fun lastID => (n, lastID)) else .ok (n, 0)

variable {α : Type}

/-- The rows after the cursor, as many as fit on a page. -/
def cut (id : α → Int) (all : List α) (limit : Nat) (lastID : Int) : Page α :=
  let filtered := all.filter (fun x => lastID < id x)
  let hasMore := decide (limit < filtered.length)
  let data := if hasMore then filtered.take limit else filtered
  let nextCursor := match data.getLast? with
    | none => ""
    | some last => if hasMore then encodeCursor (id last) else ""
  ⟨data, ⟨limit, nextCursor, hasMore⟩⟩

/-- The listing that both handlers make of all rows. -/
def listPage (id : α → Int) (all : List α) (limit cursor : String) : Except ParamError (Page α) :=
  (parsePaginationParams limit cursor).map (fun (limit, lastID) => cut id all limit lastID)

/-- `GET /api/v6/series`, by the rows its resources are made of. -/
def seriesList (lib : Library) : String → String → Except ParamError (Page Series) :=
  listPage (fun s => s.id) lib.listSeries

/-- `GET /api/v6/history`. -/
def historyList (store : History.Store) : String → String → Except ParamError (Page History.Entry) :=
  listPage (fun e => e.id) (History.listAll store)

/-- A client that asks for the next page until there is none. -/
def follow (list : String → String → Except ParamError (Page α)) (limit : Nat) :
    Nat → String → Option (List α)
  | 0, _ => none
  | requests + 1, cursor => match list (Text.decimal limit) cursor with
    | .error _ => none
    | .ok page =>
      if page.pagination.hasMore then
        (follow list limit requests page.pagination.nextCursor).map (fun r => page.data ++ r)
      else some page.data

/-- The client comes to an end and has received every row once. -/
def Complete (list : String → String → Except ParamError (Page α)) (limit : Nat)
    (rows : List α) : Prop :=
  ∃ requests received, follow list limit requests "" = some received ∧ received.Perm rows

/-- Ids as a sequence of 64-bit integers hands them out. -/
def Sequenced (id : α → Int) (rows : List α) : Prop :=
  ∀ x ∈ rows, 0 < id x ∧ id x < 9223372036854775808

theorem byte_of_mem_toDigits (h : c ∈ Nat.toDigits 10 n) : c.toNat < 256 := by
  have hdigit := Digits.isDigit_of_mem_toDigits h
  simp only [Char.isDigit, Bool.and_eq_true, decide_eq_true_eq] at hdigit
  exact Nat.lt_of_le_of_lt (UInt32.le_iff_toNat_le.mp hdigit.2) (by decide)

theorem toList_cursorPayload (n : Nat) :
    (cursorPayload n).toList = "\x7b\"lastId\":".toList ++ Nat.toDigits 10 n ++ ['\x7d'] := by
  simp only [cursorPayload, String.toList_append, Text.toList_decimal_nat]
  rfl

theorem read_cursorPayload (n : Nat) :
    Json.read (cursorPayload n) = some (.obj [("lastId", .num n)]) := by
  have htext : (cursorPayload n).toList = '\x7b' :: '"' :: ("lastId".toList ++ '"' :: ':' ::
      (Nat.toDigits 10 n ++ ['\x7d'])) := toList_cursorPayload n
  have hkey : "lastId".toList.all (fun c => decide (Json.Plain c)) = true := by decide
  rw [Json.read, htext, Json.readValue_member (by simpa using hkey)]
  rfl

theorem parsePayload_cursorPayload {n : Nat} (h : n < 9223372036854775808) :
    parsePayload (cursorPayload n) = some (n : Int) := by
  have hfound : Text.equalFold "lastId" "lastId" = true := by decide
  have hfits : int64Over 0 (.num n) = some (n : Int) := by
    rw [int64Over, Json.Value.intOver, Option.filter_some, if_pos]
    simp only [Bool.and_eq_true, decide_eq_true_eq]
    omega
  have hfields : Json.Value.named [("lastId", .num n)] "lastId" = [.num n] := by
    rw [Json.Value.named_cons, if_pos hfound, Json.Value.named_nil]
  rw [parsePayload, read_cursorPayload, Option.bind_some, Json.Value.toStruct, hfields,
    List.foldlM_cons, hfits]
  rfl

theorem decodeCursor_encodeCursor {n : Nat} (h : n < 9223372036854775808) :
    decodeCursor (encodeCursor n) = .ok (n : Int) := by
  have hbytes : ∀ c ∈ (cursorPayload n).toList, c.toNat < 256 := by
    rw [toList_cursorPayload]
    simp only [List.mem_append]
    rintro c ((hc | hc) | hc)
    · have hfixed : "\x7b\"lastId\":".toList.all (fun d => d.toNat < 256) = true := by decide
      simpa using List.all_eq_true.mp hfixed c hc
    · exact byte_of_mem_toDigits hc
    · rw [List.mem_singleton.mp hc]
      decide
  have hdecode : Base64.decode (encodeCursor n) = some (cursorPayload n) :=
    Base64.decode_encode hbytes
  have hne : encodeCursor n ≠ "" := by
    intro hempty
    rw [hempty] at hdecode
    have := congrArg (Option.map (fun s => s.toList.length)) hdecode
    simp [toList_cursorPayload, Base64.decode, Base64.decodeBytes] at this
  rw [decodeCursor, if_neg hne, hdecode]
  simp only [parsePayload_cursorPayload h]

theorem decimal_ne_empty (n : Nat) : Text.decimal n ≠ "" := by
  intro h
  have := congrArg String.toList h
  rw [Text.toList_decimal_nat] at this
  exact Nat.toDigits_ne_nil this

theorem parseLimit_decimal {limit : Nat} (hpos : 1 ≤ limit) (hmax : limit ≤ 500) :
    parseLimit (Text.decimal limit) = .ok limit := by
  have hn : ¬ (limit : Int) ≤ 0 := by omega
  have hcap : ¬ (limit : Int) > 500 := by omega
  rw [parseLimit, if_neg (decimal_ne_empty limit), Digits.parseInt_decimal (by omega)]
  simp only [if_neg hn, if_neg hcap, Int.toNat_natCast]

theorem parsePaginationParams_of_limit {limit : Nat} (hpos : 1 ≤ limit) (hmax : limit ≤ 500)
    (h : decodeCursor cursor = .ok lastID) :
    parsePaginationParams (Text.decimal limit) cursor = .ok (limit, lastID) := by
  simp only [parsePaginationParams, parseLimit_decimal hpos hmax]
  split
  · rw [h]
    rfl
  · rename_i hempty
    rw [not_not.mp hempty, decodeCursor, if_pos rfl] at h
    cases h
    rfl

/-- A page that is not the last one ends with the row its cursor is made of. -/
theorem cut_page {id : α → Int} {all : List α} (hlen : before.length + 1 = limit) (hrest : rest ≠ [])
    (h : all.filter (fun x => decide (lastID < id x)) = before ++ last :: rest) :
    cut id all limit lastID = ⟨before ++ [last], ⟨limit, encodeCursor (id last), true⟩⟩ := by
  obtain ⟨hlong, htake⟩ := Pages.take_page last hlen hrest
  simp only [cut, h, hlong, decide_true, if_true, htake, List.getLast?_concat]

theorem cut_last (id : α → Int) {all : List α} (lastID : Int)
    (h : (all.filter (fun x => decide (lastID < id x))).length ≤ limit) :
    (cut id all limit lastID).pagination.hasMore = false ∧
    (cut id all limit lastID).data = all.filter (fun x => decide (lastID < id x)) := by
  simp [cut, Nat.not_lt.mpr h]

/-- Following the cursors is walking over the listing. -/
theorem follow_eq_walk {id : α → Int} {all : List α} (hids : Sequenced id all) {limit : Nat}
    (hpos : 1 ≤ limit) (hmax : limit ≤ 500) (requests : Nat)
    (h : decodeCursor cursor = .ok lastID) :
    follow (listPage id all) limit requests cursor =
      Pages.walk id limit requests (Pages.beyond id lastID all) := by
  induction requests generalizing cursor lastID with
  | zero => rfl
  | succ requests ih =>
    have hpage : listPage id all (Text.decimal limit) cursor = .ok (cut id all limit lastID) := by
      rw [listPage, parsePaginationParams_of_limit hpos hmax h]
      rfl
    simp only [follow, hpage]
    by_cases hlong : limit < (Pages.beyond id lastID all).length
    · obtain ⟨before, last, rest, heq, hlen, hrest, _⟩ := Pages.exists_page hpos hlong
      have hlast : last ∈ Pages.beyond id lastID all := by simp [heq]
      have hafter : lastID < id last := by simpa using (List.mem_filter.mp hlast).2
      have hnext : Pages.beyond id (id last) (Pages.beyond id lastID all) =
          Pages.beyond id (id last) all := by
        simp only [Pages.beyond, List.filter_filter]
        refine List.filter_congr (fun x _ => ?_)
        by_cases hx : id last < id x
        · simp [hx, hafter.trans hx]
        · simp [hx]
      obtain ⟨hzero, hbound⟩ := hids last (List.mem_of_mem_filter hlast)
      have hcursor : decodeCursor (encodeCursor (id last)) = .ok (id last) := by
        have := decodeCursor_encodeCursor (n := (id last).toNat) (by omega)
        rwa [Int.toNat_of_nonneg (by omega)] at this
      rw [cut_page hlen hrest heq, heq, Pages.walk_page hlen hrest, ← heq, hnext, ← ih hcursor]
      simp
    · have hshort := Nat.not_lt.mp hlong
      obtain ⟨hmore, hdata⟩ := cut_last id lastID hshort
      rw [hmore, hdata, Pages.walk_short hshort]
      rfl

theorem decodeCursor_empty : decodeCursor "" = .ok 0 := rfl

/-- A client without a cursor begins with all rows. -/
theorem follow_start {id : α → Int} {all : List α} (hids : Sequenced id all) {limit : Nat}
    (hpos : 1 ≤ limit) (hmax : limit ≤ 500) (requests : Nat) :
    follow (listPage id all) limit requests "" = Pages.walk id limit requests all := by
  have hall : Pages.beyond id 0 all = all :=
    List.filter_eq_self.mpr (fun x hx => by simpa using (hids x hx).1)
  rw [follow_eq_walk hids hpos hmax requests decodeCursor_empty, hall]

theorem follow_ends {id : α → Int} {all : List α} (hids : Sequenced id all) {limit : Nat}
    (hpos : 1 ≤ limit) (hmax : limit ≤ 500) :
    ∃ requests received, follow (listPage id all) limit requests "" = some received := by
  obtain ⟨received, h⟩ := Pages.walk_isSome id hpos (Nat.lt_succ_self all.length)
  exact ⟨all.length + 1, received, by rw [follow_start hids hpos hmax, h]⟩

theorem complete_iff_inStep {id : α → Int} {all rows : List α} (hperm : all.Perm rows)
    (hids : Sequenced id rows) (hnodup : (rows.map id).Nodup) {limit : Nat}
    (hpos : 1 ≤ limit) (hmax : limit ≤ 500) :
    Complete (listPage id all) limit rows ↔ Pages.InStep id limit all := by
  have hids' : Sequenced id all := fun x hx => hids x (hperm.mem_iff.mp hx)
  have hnodup' : (all.map id).Nodup := (hperm.map id).nodup_iff.mpr hnodup
  constructor
  · rintro ⟨requests, received, hfollow, hreceived⟩
    rw [follow_start hids' hpos hmax] at hfollow
    exact (Pages.walk_perm_iff hpos hnodup' hfollow).mp (hreceived.trans hperm.symm)
  · intro hstep
    obtain ⟨requests, received, hfollow⟩ := follow_ends hids' hpos hmax
    refine ⟨requests, received, hfollow, ?_⟩
    rw [follow_start hids' hpos hmax] at hfollow
    exact ((Pages.walk_perm_iff hpos hnodup' hfollow).mpr hstep).trans hperm

theorem nodup_ids [Keyed α] (t : Table α) : (t.rows.map (fun x => (Keyed.key x : Int))).Nodup := by
  have h := t.unique.map (f := fun n : Nat => (n : Int)) (fun _ _ h => Int.ofNat.inj h)
  rwa [List.map_map] at h

theorem series_complete_iff {lib : Library} {limit : Nat}
    (hids : Sequenced (fun s : Series => (s.id : Int)) lib.series.rows) (hpos : 1 ≤ limit)
    (hmax : limit ≤ 500) : Complete (seriesList lib) limit lib.series.rows ↔
      Pages.InStep (fun s : Series => (s.id : Int)) limit lib.listSeries :=
  complete_iff_inStep (List.perm_insertionSort _ _) hids (nodup_ids lib.series) hpos hmax

theorem history_complete_iff {store : History.Store} {limit : Nat}
    (hids : Sequenced (fun e : History.Entry => (e.id : Int)) store.rows) (hpos : 1 ≤ limit)
    (hmax : limit ≤ 500) : Complete (historyList store) limit store.rows ↔
      Pages.InStep (fun e : History.Entry => (e.id : Int)) limit (History.listAll store) :=
  complete_iff_inStep (List.perm_insertionSort _ _) hids (nodup_ids store) hpos hmax

/-- Following the cursors always comes to an end, and gives every row once exactly when
every page but the last ends with a greater id than all rows listed before it and a lesser one
than all rows listed after it. -/
theorem pagination_complete_iff_inStep (lib : Library) (store : History.Store) (limit : Nat)
    (hseries : Sequenced (fun s : Series => (s.id : Int)) lib.series.rows)
    (hentries : Sequenced (fun e : History.Entry => (e.id : Int)) store.rows)
    (hpos : 1 ≤ limit) (hmax : limit ≤ 500) :
    (∃ requests received, follow (seriesList lib) limit requests "" = some received) ∧
    (∃ requests received, follow (historyList store) limit requests "" = some received) ∧
    (Complete (seriesList lib) limit lib.series.rows ↔
      Pages.InStep (fun s : Series => (s.id : Int)) limit lib.listSeries) ∧
    (Complete (historyList store) limit store.rows ↔
      Pages.InStep (fun e : History.Entry => (e.id : Int)) limit (History.listAll store)) := by
  have hperm := List.perm_insertionSort (fun a b => titleBefore b a = false) lib.series.rows
  have hperm' := List.perm_insertionSort (fun a b => History.newer b a = false) store.rows
  refine ⟨follow_ends (fun s hs => hseries s (hperm.mem_iff.mp hs)) hpos hmax,
    follow_ends (fun e he => hentries e (hperm'.mem_iff.mp he)) hpos hmax,
    series_complete_iff hseries hpos hmax, history_complete_iff hentries hpos hmax⟩

def archer : Series :=
  ⟨2, "Archer", "archer", "/tv/Archer", 110381, "ended", "standard", true, 1, true, "all"⟩

/-- A series whose title comes first was added last. -/
def shelf : Library :=
  ⟨⟨[breakingBad, archer], 3, by decide, by decide⟩, [], .empty, .empty⟩

def entry (id : Nat) (date : Int) : History.Entry :=
  ⟨id, 1, 1, "Breaking.Bad.S01E01", "HDTV-720p", .grabbed, date, "", "\x7b\x7d"⟩

/-- Entries in the order in which they happened. -/
def chronicle : History.Store := ⟨[entry 1 100, entry 2 200], 3, by decide, by decide⟩

theorem sequenced_shelf : Sequenced (fun s : Series => (s.id : Int)) shelf.series.rows := by
  unfold Sequenced
  decide

theorem sequenced_chronicle :
    Sequenced (fun e : History.Entry => (e.id : Int)) chronicle.rows := by
  unfold Sequenced
  decide

/-- Series and entries that are listed in the order of their ids. -/
theorem two_pages_complete :
    let lib : Library := ⟨⟨[breakingBad, { archer with title := "Lost" }], 3, by decide, by decide⟩,
      [], .empty, .empty⟩
    let store : History.Store := ⟨[entry 1 200, entry 2 100], 3, by decide, by decide⟩
    Complete (seriesList lib) 1 lib.series.rows ∧ Complete (historyList store) 1 store.rows := by
  intro lib store
  obtain ⟨_, _, hseries, hhistory⟩ := pagination_complete_iff_inStep lib store 1
    (by unfold Sequenced; decide) (by unfold Sequenced; decide) (by decide) (by decide)
  have hlib : lib.listSeries = [breakingBad, { archer with title := "Lost" }] := by decide
  have hstore : History.listAll store = [entry 1 200, entry 2 100] := by decide
  have hpair : ∀ {α : Type} (id : α → Int) (x y : α), id x < id y →
      Pages.InStep id 1 ([] ++ x :: [y]) := by
    intro α id x y h
    exact (Pages.inStep_page rfl (by simp)).mpr
      ⟨by simp, by simpa using h, Pages.inStep_short (by simp)⟩
  rw [hseries, hhistory, hlib, hstore]
  exact ⟨hpair _ _ _ (by decide), hpair _ _ _ (by decide)⟩

/-- With one row on a page, the series and the entry that were first are never received. -/
theorem second_page_lost :
    follow (seriesList shelf) 1 2 "" = some [archer] ∧
    follow (historyList chronicle) 1 2 "" = some [entry 2 200] ∧
    ¬ Complete (seriesList shelf) 1 shelf.series.rows ∧
    ¬ Complete (historyList chronicle) 1 chronicle.rows := by
  have hshelf : shelf.listSeries = [archer, breakingBad] := by decide
  have hchronicle : History.listAll chronicle = [entry 2 200, entry 1 100] := by decide
  refine ⟨?_, ?_, fun h => ?_, fun h => ?_⟩
  · rw [seriesList, hshelf, follow_start (by unfold Sequenced; decide) (by decide) (by decide)]
    decide
  · rw [historyList, hchronicle, follow_start (by unfold Sequenced; decide) (by decide) (by decide)]
    decide
  · have hstep := (series_complete_iff sequenced_shelf (by decide) (by decide)).mp h
    rw [hshelf] at hstep
    have := (hstep [] archer [breakingBad] rfl (by decide) (by decide)).2 breakingBad (by decide)
    exact absurd this (by decide)
  · have hstep := (history_complete_iff sequenced_chronicle (by decide) (by decide)).mp h
    rw [hchronicle] at hstep
    have := (hstep [] (entry 2 200) [entry 1 100] rfl (by decide) (by decide)).2 (entry 1 100)
      (by decide)
    exact absurd this (by decide)

end Sonarr.Api.V6
