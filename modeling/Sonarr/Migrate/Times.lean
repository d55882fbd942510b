import Sonarr.Migrate.Relations

namespace Sonarr.Migrate
open Lib Transfer
open Commands (sqliteTime)

/-- The instant a value of a time column stands for, to the second. -/
def SqlValue.instant : SqlValue → Option Int
  | .text s => Civil.parse s
  | .time t => some t
  | _ => none

/-- The time in the row of a source table that has an id. -/
def instantOf (id time : ρ → SqlValue) (table : Option (List ρ)) (i : Int) : Option Int :=
  ((table.getD []).find? (fun r => (id r).scanInt == some i)).bind (fun r => (time r).instant)

namespace Source
variable (src : Source)

def added : Int → Option Int := instantOf SeriesRow.id SeriesRow.added src.series

def dateAdded : Int → Option Int :=
  instantOf EpisodeFileRow.id EpisodeFileRow.dateAdded src.episodeFiles

def date : Int → Option Int := instantOf HistoryRow.id HistoryRow.date src.history

/-- The source's entries, the newest first. -/
def newer (a b : SourceHistory) : Bool := decide ((src.date b.id).getD 0 < (src.date a.id).getD 0)

def before (cutoff : Int) (h : SourceHistory) : Bool := decide ((src.date h.id).getD 0 < cutoff)

end Source

/-- `ListAll`: `ORDER BY date DESC`. -/
def listAll (t : Table HistoryEntry) : List HistoryEntry :=
  stableSort (fun a b => decide (b.date < a.date)) t.rows

/-- `DeleteBefore`, by which housekeeping trims the history. -/
def deleteBefore (t : Table HistoryEntry) (cutoff : Int) : Table HistoryEntry :=
  t.delete (fun e => decide (e.date < cutoff))

/-- The entries of the source that are migrated. -/
def migratedHistory (opts : Options) (rejects : Entity → Int → Bool) (t : Tables) (m : Migrator) :
    List SourceHistory :=
  (if opts.skipHistory then [] else t.history).filter (fun h =>
    (m.seriesMap h.seriesID).isSome && (m.episodeMap h.episodeID).isSome && !rejects .history h.id)

/-- A migrated entry and its source row, with the same date. -/
def SameEntry (src : Source) (m : Migrator) (e : HistoryEntry) (h : SourceHistory) : Prop :=
  m.seriesMap h.seriesID = some e.seriesID ∧ m.episodeMap h.episodeID = some e.episodeID ∧
    e.sourceTitle = h.sourceTitle ∧ src.date h.id = some e.date

/-- Every migrated row has the time of its source row, so that listing and trimming the
history do with the migrated entries what they do with the source's. -/
structure TimesKept (src : Source) (opts : Options) (rejects : Entity → Int → Bool) (t : Tables)
    (m : Migrator) : Prop where
  added : ∀ i k, m.seriesMap i = some k → src.added i = some (m.dest.added k)
  dateAdded : ∀ i k, m.episodeFileMap i = some k → src.dateAdded i = some (m.dest.dateAdded k)
  date : List.Forall₂ (SameEntry src m) m.dest.history.rows (migratedHistory opts rejects t m)
  listed : List.Forall₂ (SameEntry src m) (listAll m.dest.history)
    (stableSort src.newer (migratedHistory opts rejects t m))
  trimmed : ∀ cutoff, List.Forall₂ (SameEntry src m) (deleteBefore m.dest.history cutoff).rows
    ((migratedHistory opts rejects t m).filter (fun h => !src.before cutoff h))

/-- Whichever rows the stores refuse, and whatever the run returns. -/
def PreservesTimes (json : Decoder) (src : Source) (opts : Options) (now : Entity → Int → Int) : Prop :=
  ∀ rejects configError config, TimesKept src opts rejects src.reads.upToError
    (run json src.reads { opts with dryRun := false } ⟨rejects, now, configError⟩ (fresh config)).2

/-- Every row that can be migrated has the time at which the migration writes it. -/
structure WrittenInTime (src : Source) (opts : Options) (now : Entity → Int → Int) (t : Tables) :
    Prop where
  series : ∀ s ∈ t.series, src.added s.id = some (sqliteTime (now .series s.id))
  episodeFiles : ∀ f ∈ t.episodeFiles, f.seriesID ∈ t.series.map SourceSeries.id →
    src.dateAdded f.id = some (sqliteTime (now .episodeFile f.id))
  history : opts.skipHistory = false → ∀ h ∈ t.history, ∀ s ∈ t.series, s.id = h.seriesID →
    ∀ e ∈ t.episodes, e.id = h.episodeID → ∀ s' ∈ t.series, s'.id = e.seriesID →
    (s = s' ∨ (s.series opts.remaps).clashes (s'.series opts.remaps) = false) →
    src.date h.id = some (sqliteTime (now .history h.id))

/-- Equal dates list and trim alike. -/
theorem timesKept_of_dates {src : Source} {rejects : Entity → Int → Bool}
    (hadded : ∀ i k, m.seriesMap i = some k → src.added i = some (m.dest.added k))
    (hdateAdded : ∀ i k, m.episodeFileMap i = some k → src.dateAdded i = some (m.dest.dateAdded k))
    (hdate : List.Forall₂ (SameEntry src m) m.dest.history.rows (migratedHistory opts rejects t m)) :
    TimesKept src opts rejects t m := by
  refine ⟨hadded, hdateAdded, hdate, ?_, ?_⟩
  · refine forall₂_stableSort ?_ hdate
    intro a h b k ha hb
    simp [Source.newer, ha.2.2.2, hb.2.2.2]
  · intro cutoff
    refine List.rel_filter ?_ hdate
    intro e h he
    simp [Source.before, he.2.2.2]

section CreateHistory
variable {json : Decoder} {env : Env} {seriesMap episodeMap : Int → Option Nat} {h : SourceHistory}
  {d : Table HistoryEntry}

theorem createHistory_refused (hno : ((seriesMap h.seriesID).isSome &&
    (episodeMap h.episodeID).isSome && !env.rejects .history h.id) = false) :
    createHistory json env seriesMap episodeMap h d = none := by
  unfold createHistory
  cases hs : seriesMap h.seriesID with
  | none => rfl
  | some seriesID => cases he : episodeMap h.episodeID with
    | none => rfl
    | some episodeID =>
      have hr : env.rejects .history h.id = true := by simpa [hs, he] using hno
      simp only [hr, if_true]

theorem createHistory_ok (hok : ((seriesMap h.seriesID).isSome &&
    (episodeMap h.episodeID).isSome && !env.rejects .history h.id) = true) :
    ∃ c r, createHistory json env seriesMap episodeMap h d = some c ∧ c.2.rows = d.rows ++ [r] ∧
      HistoryImage json env seriesMap episodeMap h r := by
  simp only [Bool.and_eq_true, Bool.not_eq_true', Option.isSome_iff_exists] at hok
  obtain ⟨⟨⟨seriesID, hs⟩, episodeID, he⟩, hr⟩ := hok
  have hc : ∃ c, createHistory json env seriesMap episodeMap h d = some c := by
    simp [createHistory, hs, he, hr]
  obtain ⟨c, hc⟩ := hc
  obtain ⟨r, hrows, himage⟩ := createHistory_some hc
  exact ⟨c, r, hc, hrows, himage⟩

end CreateHistory

namespace Written
variable {json : Decoder} {opts : Options} {env : Env} {t : Tables} {m' : Migrator}
  {report : Report} {lib₁ lib₂ lib₃ : Library} {config : Option Auth.HostConfig}

/-- The column `added` of a migrated series is the time of its insertion. -/
theorem added_eq (w : Written json opts env t (fresh config) report m' lib₁ lib₂ lib₃)
    (h : t.UniqueIds) (hk : m'.seriesMap i = some k) :
    m'.dest.added k = sqliteTime (env.now .series i) := by
  obtain ⟨s, _, rfl, r, hr, himage⟩ := (w.series_copied h).known i k hk
  obtain ⟨q, _, rfl⟩ := List.mem_map.mp hr
  obtain ⟨hrow, htime⟩ := Prod.mk.inj himage
  rw [← htime, hrow]

theorem dateAdded_eq (w : Written json opts env t (fresh config) report m' lib₁ lib₂ lib₃)
    (h : t.UniqueIds) (hk : m'.episodeFileMap i = some k) :
    m'.dest.dateAdded k = sqliteTime (env.now .episodeFile i) := by
  obtain ⟨f, _, rfl, r, hr, seriesID, _, himage⟩ := (w.episodeFiles_copied h).known i k hk
  obtain ⟨q, _, rfl⟩ := List.mem_map.mp hr
  obtain ⟨hrow, htime⟩ := Prod.mk.inj himage
  rw [← htime, hrow]

/-- The entries of the destination are those of the source that are migrated. -/
theorem history_rows (w : Written json opts env t (fresh config) report m' lib₁ lib₂ lib₃) :
    List.Forall₂ (fun r h => HistoryImage json env m'.seriesMap m'.episodeMap h r)
      m'.dest.history.rows (migratedHistory opts env.rejects t m') := by
  obtain ⟨_, heq⟩ := w.history
  obtain ⟨new, hnew, hall⟩ := transfer_rows heq (fun d => d.rows)
    (HistoryImage json env m'.seriesMap m'.episodeMap)
    (fun h => (m'.seriesMap h.seriesID).isSome && (m'.episodeMap h.episodeID).isSome &&
      !env.rejects .history h.id) (fun _ _ => createHistory_refused) (fun _ _ => createHistory_ok)
  have hrows : m'.dest.history.rows = new := hnew
  rw [hrows]
  exact hall

theorem constraints (w : Written json opts env t (fresh config) report m' lib₁ lib₂ lib₃) :
    lib₁.Constraints := by
  refine transfer_invariant w.series (fun d => d.1.Constraints) ?_ Database.empty.constraints
  intro s d i d' hc hd
  unfold createSeries at hc
  split at hc
  · cases hc
  · split at hc
    · cases hc
    · rename_i row lib hl
      cases hc
      exact hd.createSeries hl

/-- Two migrated series do not clash. -/
theorem apart (w : Written json opts env t (fresh config) report m' lib₁ lib₂ lib₃)
    (h : t.UniqueIds) (hs : s ∈ t.series) (hs' : s' ∈ t.series) (hk : m'.seriesMap s.id = some k)
    (hk' : m'.seriesMap s'.id = some k') :
    s = s' ∨ (s.series opts.remaps).clashes (s'.series opts.remaps) = false := by
  have hrow : ∀ x ∈ t.series, ∀ i, m'.seriesMap x.id = some i →
      { (x.series opts.remaps).stored with id := i } ∈ lib₁.series.rows := by
    intro x hx i hi
    obtain ⟨y, hy, hid, r, hr, himage⟩ := (w.series_copied h).known _ _ hi
    obtain ⟨q, hq, rfl⟩ := List.mem_map.mp hr
    rw [List.inj_on_of_nodup_map h.series hy hx hid] at himage
    have hmem : q ∈ lib₁.series.rows := w.series_eq ▸ hq
    rwa [show q = _ from congrArg Prod.fst himage] at hmem
  cases hclash : (s.series opts.remaps).clashes (s'.series opts.remaps) with
  | false => exact .inr rfl
  | true =>
    have heq := w.constraints.series _ (hrow s hs k hk) _ (hrow s' hs' k' hk') hclash
    have hid : k = k' := congrArg Series.id heq
    subst hid
    exact .inl (List.inj_on_of_nodup_map h.series hs hs' (w.seriesMap_injective _ _ _ hk hk'))

end Written

section Equivalence
variable {json : Decoder} {src : Source} {opts : Options} {now : Entity → Int → Int}

theorem mem_migratedHistory {rejects : Entity → Int → Bool} :
    h ∈ migratedHistory opts rejects t m ↔ opts.skipHistory = false ∧ h ∈ t.history ∧
      (m.seriesMap h.seriesID).isSome = true ∧ (m.episodeMap h.episodeID).isSome = true ∧
      rejects .history h.id = false := by
  unfold migratedHistory
  cases opts.skipHistory <;> simp [and_assoc]

/-- Times that are the times of writing are kept. -/
theorem timesKept_of_written {rejects : Entity → Int → Bool} {configError : Option String}
    (w : Written json { opts with dryRun := false } ⟨rejects, now, configError⟩ t (fresh config)
      report m' lib₁ lib₂ lib₃)
    (h : t.UniqueIds) (htimes : WrittenInTime src opts now t) : TimesKept src opts rejects t m' := by
  apply timesKept_of_dates
  · intro i k hk
    obtain ⟨s, hs, rfl, _⟩ := (w.series_copied h).known i k hk
    rw [htimes.series s hs, w.added_eq h hk]
  · intro i k hk
    obtain ⟨f, hf, rfl, _, _, j, hj, _⟩ := (w.episodeFiles_copied h).known i k hk
    obtain ⟨s, hs, hid, _⟩ := (w.series_copied h).known _ j hj
    rw [htimes.episodeFiles f hf (List.mem_map.mpr ⟨s, hs, hid⟩), w.dateAdded_eq h hk]
  · refine forall₂_imp_mem w.history_rows ?_
    rintro r e he ⟨seriesID, episodeID, hseries, hepisode, himage⟩
    obtain ⟨hskip, hmem, _⟩ := mem_migratedHistory.mp he
    -- The series of the entry and of its episode are both migrated, so they do not clash.
    obtain ⟨s, hs, hid, _⟩ := (w.series_copied h).known _ _ hseries
    obtain ⟨x, hx, hxid, _, _, j, hj, _⟩ := (w.episodes_copied h).known _ _ hepisode
    obtain ⟨s', hs', hid', _⟩ := (w.series_copied h).known _ _ hj
    have hdate := htimes.history hskip e hmem s hs hid x hx hxid s' hs' hid'
      (w.apart h hs hs' (hid.symm ▸ hseries) (hid'.symm ▸ hj))
    rw [himage]
    exact ⟨hseries, hepisode, rfl, hdate⟩

/-- What a run keeps if the stores accept the given rows only. -/
theorem PreservesTimes.only (h : PreservesTimes json src opts now) (ids : Entity → List Int) :
    ∃ config report m lib₁ lib₂ lib₃, Written json { opts with dryRun := false } (Env.only now ids)
        src.reads.upToError (fresh config) report m lib₁ lib₂ lib₃ ∧
      TimesKept src opts (Env.only now ids).rejects src.reads.upToError m := by
  obtain ⟨config, report, lib₁, lib₂, lib₃, w⟩ := written_only json src.reads
    (show { opts with dryRun := false }.dryRun = false from rfl) now ids
  exact ⟨config, report, _, lib₁, lib₂, lib₃, w, h (Env.only now ids).rejects none none⟩

/-- Both series of two ids, in the order of the source. -/
theorem pair_apart {remaps : List PathRemap} {series : List SourceSeries} {s s' : SourceSeries}
    (hnodup : series.Nodup)
    (hapart : s = s' ∨ (s.series remaps).clashes (s'.series remaps) = false) :
    (series.filter (fun x => x = s || x = s')).Pairwise
      (fun a b => (b.series remaps).clashes (a.series remaps) = false) := by
  refine List.Pairwise.imp_of_mem ?_ (hnodup.filter _)
  intro a b ha hb hne
  have ha := (List.mem_filter.mp ha).2
  have hb := (List.mem_filter.mp hb).2
  simp only [Bool.or_eq_true, decide_eq_true_eq] at ha hb
  rcases ha with rfl | rfl <;> rcases hb with rfl | rfl
  · exact absurd rfl hne
  · rw [Series.clashes_comm]
    exact hapart.resolve_left hne
  · exact hapart.resolve_left hne.symm
  · exact absurd rfl hne

theorem writtenInTime_of_preserves (hids : src.reads.upToError.UniqueIds)
    (h : PreservesTimes json src opts now) :
    WrittenInTime src opts now src.reads.upToError := by
  refine ⟨?_, ?_, ?_⟩
  · intro s hs
    obtain ⟨_, _, m, _, _, _, w, hkept⟩ := h.only (fun
      | .series => [s.id]
      | _ => [])
    obtain ⟨k, hk, _⟩ := series_mapped w hids (List.singleton_sublist.mpr hs) rfl
      (List.pairwise_singleton ..) s List.mem_cons_self
    rw [hkept.added s.id k hk, w.added_eq hids hk]
    rfl
  · intro f hf hmem
    obtain ⟨s, hs, hid⟩ := List.mem_map.mp hmem
    obtain ⟨_, _, m, _, _, _, w, hkept⟩ := h.only (fun
      | .series => [s.id]
      | .episodeFile => [f.id]
      | _ => [])
    obtain ⟨k, hk, hhas⟩ := series_mapped w hids (List.singleton_sublist.mpr hs) rfl
      (List.pairwise_singleton ..) s List.mem_cons_self
    obtain ⟨j, hj⟩ := episodeFile_mapped w hids hf rfl (hid ▸ hk) hhas
    rw [hkept.dateAdded f.id j hj, w.dateAdded_eq hids hj]
    rfl
  · intro hskip e he s hs hid x hx hxid s' hs' hid' hapart
    let sub := src.reads.upToError.series.filter (fun y => y = s || y = s')
    let ids : Entity → List Int := fun
      | .series => sub.map SourceSeries.id
      | .episode => [x.id]
      | .history => [e.id]
      | _ => []
    obtain ⟨_, _, m, _, _, _, w, hkept⟩ := h.only ids
    have hmapped := series_mapped w hids List.filter_sublist rfl
      (pair_apart (hids.series.of_map _) hapart)
    obtain ⟨k, hk, _⟩ := hmapped s (List.mem_filter.mpr ⟨hs, by simp⟩)
    obtain ⟨k', hk', hhas⟩ := hmapped s' (List.mem_filter.mpr ⟨hs', by simp⟩)
    obtain ⟨j, hj⟩ := episode_mapped w hids hx rfl (hid' ▸ hk') hhas
    have hacc : (Env.only now ids).rejects .history e.id = false := accepted List.mem_cons_self
    have hmem : e ∈ migratedHistory opts (Env.only now ids).rejects src.reads.upToError m :=
      mem_migratedHistory.mpr ⟨hskip, he, by simp [← hid, hk], by simp [← hxid, hj], hacc⟩
    obtain ⟨r, himage, hsame⟩ := forall₂_both w.history_rows hkept.date hmem
    obtain ⟨_, _, _, _, himage⟩ := himage
    rw [hsame.2.2.2, himage]
    rfl

/-- `CreateSeries`, `CreateEpisodeFile` and `CreateHistoryEntry` leave the time column to its
default, so a migration keeps a row's time only in the second the row tells of. -/
theorem preserves_times_iff (json : Decoder) (src : Source) (opts : Options)
    (now : Entity → Int → Int) (hids : src.reads.upToError.UniqueIds) :
    PreservesTimes json src opts now ↔ WrittenInTime src opts now src.reads.upToError := by
  refine ⟨writtenInTime_of_preserves hids, ?_⟩
  intro htimes rejects configError config
  cases hkey : migrateAPIKey src.reads { opts with dryRun := false } ⟨rejects, now, configError⟩
      (fresh config) with
  | error e =>
    rw [run_error hkey]
    refine timesKept_of_dates (fun i k hk => by cases hk) (fun i k hk => by cases hk) ?_
    have hnone : migratedHistory opts rejects src.reads.upToError (fresh config) = [] := by
      simp [migratedHistory, fresh, Migrator.start]
    rw [hnone]
    exact .nil
  | ok m₁ =>
    obtain ⟨config', rfl⟩ := migrateAPIKey_fresh hkey
    obtain ⟨report, lib₁, lib₂, lib₃, w⟩ := written_of_key rfl hkey
    exact timesKept_of_written w hids htimes

end Equivalence

/-- A source with a series, an episode, its file and an entry of the history, all of the
first of January 2020. -/
def Source.newYear : Source where
  apiKey := none
  qualityProfiles := some []
  series := some [⟨.integer 1, .integer 81189, .text "Breaking Bad", .text "breakingbad",
    .text "ended", .text "/tv/Breaking Bad", .integer 1, .text "standard",
    .text "2020-01-01 00:00:00", .null⟩]
  seasons := some []
  episodeFiles := some [⟨.integer 1, .integer 1, .integer 1, .text "S01E01.mkv", .integer 700,
    .text "2020-01-01 00:00:00", .text "", .text ""⟩]
  episodes := some [⟨.integer 1, .integer 1, .integer 1, .integer 1, .integer 1, .text "Pilot",
    .text "", .null, .integer 1, .integer 1⟩]
  indexers := some []
  downloadClients := some []
  notifications := some []
  history := some [⟨.integer 1, .integer 1, .integer 1, .text "Breaking.Bad.S01E01", .text "",
    .text "2020-01-01 00:00:00", .text "3", .text "", .text ""⟩]

theorem newYear_unique : Source.newYear.reads.upToError.UniqueIds := by
  constructor <;> decide

/-- A migration during that second. -/
theorem newYear_kept : PreservesTimes .failing .newYear ⟨[], false, false⟩
    (fun _ _ => 1577836800000000000) := by
  refine (preserves_times_iff .failing .newYear _ _ newYear_unique).mpr ⟨?_, ?_, ?_⟩
  · decide +kernel
  · decide +kernel
  · decide +kernel

/-- Migrated at any other time, the rows get that time: here ten seconds later. -/
theorem newYear_moved :
    Source.newYear.reads.upToError.UniqueIds ∧
    ¬ PreservesTimes .failing .newYear ⟨[], false, false⟩ (fun _ _ => 1577836810000000000) ∧
    Source.newYear.date 1 = some 1577836800 ∧
    (run .failing Source.newYear.reads ⟨[], false, false⟩
      ⟨fun _ _ => false, fun _ _ => 1577836810000000000, none⟩ (fresh none)).2.dest.history.rows.map
        HistoryEntry.date = [1577836810] := by
  refine ⟨newYear_unique, ?_, by decide +kernel, by decide +kernel⟩
  intro h
  have hseries := (writtenInTime_of_preserves newYear_unique h).series
  revert hseries
  decide +kernel

end Sonarr.Migrate
