import Sonarr.Importer.Service
import Sonarr.Library.Tables
import Sonarr.Parser.WellFormed

namespace Sonarr.Importer
open Lib

/-- The episode is one of those that a file's name has numbers for. -/
def InRange (series : Series) (filename : String) (e : Episode) : Prop :=
  e.seriesID = series.id ∧ e.seasonNumber = (parsedFile filename).seasonNumber ∧
    ∃ n ∈ (parsedFile filename).episodeNumbers, e.episodeNumber = n

/-- Each episode a file is for refers to the file's row and has an entry of its own in the
history. -/
def LinksAll (before after : World) (series : Series) (filename : String) (f : EpisodeFile) :
    Prop :=
  ∀ e ∈ after.lib.episodes.rows, InRange series filename e →
    e.episodeFileID = some f.id ∧
    ∃ h ∈ after.history.rows, h ∉ before.history.rows ∧ h.episodeID = e.id ∧
      h.eventType = .downloadImported

/-- At most one episode of the library is in the range. -/
def AtMostOne (lib : Library) (series : Series) (filename : String) : Prop :=
  ∀ e ∈ lib.episodes.rows, InRange series filename e →
    ∀ e' ∈ lib.episodes.rows, InRange series filename e' → e = e'

section Places

/-- What no import changes of an episode. -/
def place (e : Episode) : Nat × Nat × Int × Int := (e.id, e.pair)

theorem InRange.of_place (h : InRange series filename e) (heq : place e = place e') :
    InRange series filename e' := by
  simp only [place, Episode.pair, Prod.mk.injEq] at heq
  obtain ⟨_, hseries, hseason, hnumber⟩ := heq
  obtain ⟨hs, hn, n, hmem, hen⟩ := h
  exact ⟨hseries.symm.trans hs, hseason.symm.trans hn, n, hmem, hnumber.symm.trans hen⟩

theorem mem_record_episodes {w : World} {series : Series} {number : Nat} {filename : String}
    {size : Int} {downloadID : String} :
    r ∈ (record w series number ep filename size downloadID).lib.episodes.rows ↔
      ∃ q ∈ w.lib.episodes.rows, r =
        if q.id == ep.id then
          Episode.assign w.now { ep with episodeFileID := some w.lib.files.next } q
        else q := by
  rw [record, Table.mem_update]

theorem record_places (w : World) (series : Series) (number : Nat) (ep : Episode)
    (filename : String) (size : Int) (downloadID : String) :
    (record w series number ep filename size downloadID).lib.episodes.rows.map place =
      w.lib.episodes.rows.map place := by
  simp only [record, Table.update, List.map_map]
  apply List.map_congr_left
  intro q _
  rw [Function.comp_apply]
  split <;> rfl

theorem importFile_places (disk : Disk) (folder : String) (series : Series)
    (episodes : List Episode) (downloadID : String) (w : World) (filename : String) :
    (importFile disk folder series episodes downloadID w filename).2.lib.episodes.rows.map place =
      w.lib.episodes.rows.map place := by
  rcases importFile_spec disk folder series episodes downloadID w filename with
    ⟨hsame, _⟩ | ⟨size, number, ep, _, _, _, _, hrec⟩
  · rw [hsame]
  · rw [hrec]
    exact record_places w series number ep filename size downloadID

theorem importEach_places (disk : Disk) (folder : String) (series : Series)
    (episodes : List Episode) (downloadID : String) (files : List DirEntry) (w : World) :
    (importEach disk folder series episodes downloadID files w).lib.episodes.rows.map place =
      w.lib.episodes.rows.map place := by
  induction files generalizing w with
  | nil => rfl
  | cons e files ih =>
    exact (ih _).trans (importFile_places disk folder series episodes downloadID w e.name)

end Places

section Match

theorem int32_of_lt (h : n < 1000) : int32 n = n := toInt32_of_fits (by omega) (by omega)

theorem matchFile_cons (h : (parsedFile filename).episodeNumbers = number :: rest)
    (episodes : List Episode) : matchFile episodes filename =
      (findEpisode episodes (int32 (parsedFile filename).seasonNumber) (int32 number)).map
        (fun ep => (number, ep)) := by
  unfold matchFile
  simp only [h]

/-- The episode that a file is matched with has the first of the file's numbers. -/
theorem matchFile_inRange (hstd : (parsedFile filename).seriesType = .standard)
    (hm : matchFile episodes filename = some (number, ep)) (hs : ep.seriesID = series.id) :
    InRange series filename ep := by
  obtain ⟨m, hmatch, hseason, hnumbers⟩ := Parser.parseTitle_standard hstd
  have hseason_lt : (parsedFile filename).seasonNumber < 1000 := by
    rw [parsedFile, hseason]
    exact Nat.lt_trans hmatch.season_lt (by decide)
  cases hlist : (parsedFile filename).episodeNumbers with
  | nil =>
    unfold matchFile at hm
    simp only [hlist] at hm
    cases hm
  | cons first rest =>
    have hfirst : first ∈ (parsedFile filename).episodeNumbers := by simp [hlist]
    have hfirst_lt : first < 1000 := by
      apply Parser.expandedOf_lt hmatch
      rw [← hnumbers]
      exact hfirst
    rw [matchFile_cons hlist, int32_of_lt hseason_lt, int32_of_lt hfirst_lt] at hm
    obtain ⟨q, hq, hpair⟩ := Option.map_eq_some_iff.mp hm
    cases hpair
    have hfound := List.find?_some hq
    simp only [Bool.and_eq_true, beq_iff_eq] at hfound
    exact ⟨hs, hfound.1, number, hfirst, hfound.2⟩

end Match

section Folder
variable (disk : Disk) (folder : String) (series : Series) (downloadID : String)
  (files : List DirEntry) (start : World) (filename : String)

/-- A folder's first files have been gone through, with the episodes as listed at the start. -/
def reached : World :=
  importEach disk folder series (start.lib.listForSeries series.id) downloadID files start

/-- The next file has been gone through as well. -/
def imported : World :=
  (importFile disk folder series (start.lib.listForSeries series.id) downloadID
    (reached disk folder series downloadID files start) filename).2

theorem imported_places :
    (imported disk folder series downloadID files start filename).lib.episodes.rows.map place =
      start.lib.episodes.rows.map place :=
  (importFile_places disk folder series _ downloadID _ filename).trans
    (importEach_places disk folder series _ downloadID files start)

variable {disk folder series downloadID files start filename}

/-- A new row in `episode_files` comes with a record of the import. -/
theorem imported_record
    (h : (imported disk folder series downloadID files start filename).lib.files.rows =
      (reached disk folder series downloadID files start).lib.files.rows ++ [f]) :
    ∃ size number ep, ep ∈ start.lib.episodes.rows ∧ ep.seriesID = series.id ∧
      matchFile (start.lib.listForSeries series.id) filename = some (number, ep) ∧
      f.id = (reached disk folder series downloadID files start).lib.files.next ∧
      imported disk folder series downloadID files start filename =
        record (reached disk folder series downloadID files start) series number ep filename size
          downloadID := by
  rcases importFile_spec disk folder series (start.lib.listForSeries series.id) downloadID
      (reached disk folder series downloadID files start) filename with
    ⟨hsame, _⟩ | ⟨size, number, ep, _, _, hm, _, hrec⟩
  · rw [imported, hsame] at h
    have := congrArg List.length h
    simp at this
  · obtain ⟨hep, hs⟩ := Library.mem_listForSeries.mp (mem_of_matchFile hm)
    refine ⟨size, number, ep, hep, hs, hm, ?_, hrec⟩
    rw [imported, hrec] at h
    simp only [record, Table.insert, List.append_cancel_left_eq, List.cons.injEq, and_true] at h
    rw [← h]

/-- The entries that a record adds to the history are for its one episode. -/
theorem record_history {w : World}
    (hnew : h ∈ (record w series number ep filename size downloadID).history.rows)
    (hold : h ∉ w.history.rows) : h.episodeID = ep.id := by
  rcases History.mem_create.mp hnew with hmem | rfl
  · exact absurd hmem hold
  · rfl

theorem record_history_entry (w : World) (series : Series) (number : Nat) (ep : Episode)
    (filename : String) (size : Int) (downloadID : String) :
    ∃ h ∈ (record w series number ep filename size downloadID).history.rows,
      h ∉ w.history.rows ∧ h.episodeID = ep.id ∧ h.eventType = .downloadImported := by
  refine ⟨_, History.mem_create.mpr (.inr rfl), ?_, rfl, rfl⟩
  intro hmem
  exact absurd (w.history.below _ hmem) (Nat.lt_irrefl _)

/-- A file of the standard kind that is imported is linked to all its episodes in the library
exactly if there is no more than one. -/
theorem import_links_range_iff (hstd : (parsedFile filename).seriesType = .standard)
    (hfile : (imported disk folder series downloadID files start filename).lib.files.rows =
      (reached disk folder series downloadID files start).lib.files.rows ++ [f]) :
    LinksAll (reached disk folder series downloadID files start)
        (imported disk folder series downloadID files start filename) series filename f ↔
      AtMostOne start.lib series filename := by
  have hplaces := imported_places disk folder series downloadID files start filename
  obtain ⟨size, number, ep, hep, hs, hm, hid, hrec⟩ := imported_record hfile
  have hin : InRange series filename ep := matchFile_inRange hstd hm hs
  constructor
  · intro hall
    -- only the matched episode has an entry, so there is no other one in the range
    have honly : ∀ e ∈ start.lib.episodes.rows, InRange series filename e → e = ep := by
      intro e he hrange
      have hmem : place e ∈ start.lib.episodes.rows.map place := List.mem_map_of_mem he
      rw [← hplaces] at hmem
      obtain ⟨r, hr, hplace⟩ := List.mem_map.mp hmem
      obtain ⟨_, h, hnew, hold, hof, _⟩ := hall r hr (hrange.of_place hplace.symm)
      rw [hrec] at hnew
      have hepisode := record_history hnew hold
      have hsame : r.id = e.id := congrArg Prod.fst hplace
      exact Table.eq_of_key he hep (hsame.symm.trans (hof.symm.trans hepisode))
    intro e he hrange e' he' hrange'
    exact (honly e he hrange).trans (honly e' he' hrange').symm
  · intro hone r hr hrange
    have hmem : place r ∈ start.lib.episodes.rows.map place := by
      rw [← hplaces]
      exact List.mem_map_of_mem hr
    obtain ⟨e, he, hplace⟩ := List.mem_map.mp hmem
    have heq : e = ep := hone e he (hrange.of_place hplace.symm) ep hep hin
    subst heq
    have hsame : e.id = r.id := congrArg Prod.fst hplace
    rw [hrec] at hr ⊢
    refine ⟨?_, ?_⟩
    · obtain ⟨q, _, rfl⟩ := mem_record_episodes.mp hr
      split
      · rw [hid]
        rfl
      · rename_i hother
        simp only [hother] at hsame
        exact absurd hsame.symm (by simpa using hother)
    · rw [← hsame]
      exact record_history_entry _ series number e filename size downloadID

end Folder

/-- A file for two episodes, on a disk that does what it is asked to. -/
def doubleEpisode : String := "Breaking.Bad.S01E01E02.720p.HDTV-GROUP.mkv"

def willing : Disk where
  readDir _ := .ok [⟨doubleEpisode, false⟩]
  stat _ := .ok 500000000
  answer _ _ := .ok ()

def catsInTheBag : Episode := ⟨2, 1, 1, 2, none, "Cat's in the Bag...", "", none, true, none, 0⟩

def pilotOnly : World where
  lib := { series := breakingBadOnly, seasons := [], episodes := unlinkedPilot, files := Table.empty }
  history := Table.empty
  now := 0
  placed := []
  linked := []

def firstTwo : World :=
  { pilotOnly with
    lib := { pilotOnly.lib with episodes := ⟨[pilot, catsInTheBag], 3, by decide, by decide⟩ } }

theorem doubleEpisode_parsed : (parsedFile doubleEpisode).seriesType = .standard ∧
    (parsedFile doubleEpisode).seasonNumber = 1 ∧
    (parsedFile doubleEpisode).episodeNumbers = [1, 2] := by
  decide +kernel

theorem doubleEpisode_matched {episodes : List Episode} (h : episodes.head? = some pilot) :
    matchFile episodes doubleEpisode = some (1, pilot) := by
  obtain ⟨rest, rfl⟩ := List.head?_eq_some_iff.mp h
  obtain ⟨_, hseason, hnumbers⟩ := doubleEpisode_parsed
  rw [matchFile_cons hnumbers, hseason]
  rfl

/-- With the disk willing, the file is recorded for the first episode. -/
theorem doubleEpisode_recorded (start : World)
    (h : (start.lib.listForSeries 1).head? = some pilot) :
    imported willing "/downloads" breakingBad "" [] start doubleEpisode =
      record start breakingBad 1 pilot doubleEpisode 500000000 "" := by
  have hm := doubleEpisode_matched h
  rcases importFile_spec willing "/downloads" breakingBad (start.lib.listForSeries 1) "" start
      doubleEpisode with ⟨_, hno⟩ | ⟨size, number, ep, hstat, _, hf, _, hrec⟩
  · exact absurd rfl (hno 500000000 1 pilot rfl (by decide) hm)
  · cases hstat
    cases hm.symm.trans hf
    exact hrec

theorem import_links_range_iff_pilot : ∃ f,
    LinksAll pilotOnly (imported willing "/downloads" breakingBad "" [] pilotOnly doubleEpisode)
      breakingBad doubleEpisode f := by
  have hone : AtMostOne pilotOnly.lib breakingBad doubleEpisode := by
    intro e he _ e' he' _
    rw [List.mem_singleton.mp he, List.mem_singleton.mp he']
  have hrec := doubleEpisode_recorded pilotOnly (by decide)
  have hfile : ∃ f,
      (imported willing "/downloads" breakingBad "" [] pilotOnly doubleEpisode).lib.files.rows =
        (reached willing "/downloads" breakingBad "" [] pilotOnly).lib.files.rows ++ [f] := by
    rw [hrec]
    exact ⟨_, rfl⟩
  obtain ⟨f, hf⟩ := hfile
  exact ⟨f, (import_links_range_iff doubleEpisode_parsed.1 hf).mpr hone⟩

/-- The second of two episodes keeps no file. -/
theorem second_episode_not_linked : ∃ f,
    (imported willing "/downloads" breakingBad "" [] firstTwo doubleEpisode).lib.files.rows =
      firstTwo.lib.files.rows ++ [f] ∧
    ¬ LinksAll firstTwo (imported willing "/downloads" breakingBad "" [] firstTwo doubleEpisode)
      breakingBad doubleEpisode f := by
  rw [doubleEpisode_recorded firstTwo (by decide)]
  refine ⟨_, rfl, ?_⟩
  intro hall
  have hsecond : catsInTheBag ∈
      (record firstTwo breakingBad 1 pilot doubleEpisode 500000000 "").lib.episodes.rows :=
    mem_record_episodes.mpr ⟨catsInTheBag, by simp [firstTwo], by decide⟩
  obtain ⟨_, hseason, hnumbers⟩ := doubleEpisode_parsed
  have hrange : InRange breakingBad doubleEpisode catsInTheBag := by
    refine ⟨rfl, ?_, 2, ?_, rfl⟩
    · rw [hseason]
      rfl
    · rw [hnumbers]
      decide
  have hfile := (hall catsInTheBag hsecond hrange).1
  cases hfile

end Sonarr.Importer
