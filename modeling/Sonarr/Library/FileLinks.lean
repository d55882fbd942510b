import Sonarr.Commands.RefreshSeries
import Sonarr.Commands.Reconcile
import Sonarr.Importer.Service
import Sonarr.Lib.Machine
import Sonarr.Library.Housekeeping

namespace Sonarr.FileLinks
open Lib Commands Importer

/-- A link is to a file row of the series. -/
def LinkOf (lib : Library) (seriesID : Nat) (link : Option Nat) : Prop :=
  ∀ n, link = some n → ∃ f ∈ lib.files.rows, f.id = n ∧ f.seriesID = seriesID

/-- No episode refers to a file row that is not there or is of another series. -/
def Linked (lib : Library) : Prop :=
  ∀ e ∈ lib.episodes.rows, LinkOf lib e.seriesID e.episodeFileID

section Rows
variable {lib lib' : Library}

theorem LinkOf.mono (hfiles : ∀ f ∈ lib.files.rows, f ∈ lib'.files.rows)
    (h : LinkOf lib seriesID link) : LinkOf lib' seriesID link := by
  intro n hn
  obtain ⟨f, hf, hid⟩ := h n hn
  exact ⟨f, hfiles f hf, hid⟩

theorem linkOf_none (lib : Library) (seriesID : Nat) : LinkOf lib seriesID none := by
  intro n hn
  cases hn

theorem Linked.createSeries (h : Linked lib) (hc : lib.createSeries s = some (s', lib')) :
    Linked lib' := by
  obtain ⟨_, _, hlib, _, _⟩ := Library.createSeries_some hc
  rw [hlib]
  exact h

theorem Linked.createEpisode (h : Linked lib) (hc : lib.createEpisode now e = some lib')
    (hlink : LinkOf lib e.seriesID e.episodeFileID) : Linked lib' := by
  obtain ⟨_, _, _, _, hfil, _, hrows⟩ := Library.createEpisode_some hc
  have hkeep : ∀ f ∈ lib.files.rows, f ∈ lib'.files.rows := fun f hf => hfil ▸ hf
  intro r hr
  rcases (hrows r).mp hr with hr | rfl
  · exact (h r hr).mono hkeep
  · exact hlink.mono hkeep

theorem Linked.createFile (h : Linked lib) (hc : lib.createFile f = some lib') : Linked lib' := by
  obtain ⟨_, hlib, hrows⟩ := Library.createFile_some hc
  have hkeep : ∀ f ∈ lib.files.rows, f ∈ lib'.files.rows := fun f hf => (hrows f).mpr (.inl hf)
  intro r hr
  rw [hlib] at hr
  exact (h r hr).mono hkeep

/-- A written link has to be one of the series of the row that it is written to. -/
theorem Linked.updateEpisode (h : Linked lib)
    (hlink : ∀ q ∈ lib.episodes.rows, q.id = e.id → LinkOf lib q.seriesID e.episodeFileID) :
    Linked (lib.updateEpisode now e) := by
  intro r hr
  obtain ⟨q, hq, rfl⟩ := Library.mem_updateEpisode.mp hr
  split
  · rename_i hid
    exact hlink q hq hid
  · exact h q hq

theorem Linked.deleteFile (h : Linked lib) (hd : lib.deleteFile n = some lib')
    (hfree : ∀ e ∈ lib.episodes.rows, e.episodeFileID ≠ some n) : Linked lib' := by
  obtain ⟨hlib, hrows⟩ := Library.deleteFile_some hd
  intro r hr m hm
  rw [hlib] at hr
  obtain ⟨f, hf, hid, hown⟩ := h r hr m hm
  refine ⟨f, (hrows f).mpr ⟨hf, ?_⟩, hid, hown⟩
  intro hgone
  exact hfree r hr (by rw [hm, ← hid, hgone])

/-- Files of a series that is deleted were linked from its own episodes only. -/
theorem Linked.deleteSeries (h : Linked lib) (n : Nat) : Linked (lib.deleteSeries n) := by
  intro r hr m hm
  obtain ⟨hr, hother⟩ := Table.mem_delete.mp hr
  obtain ⟨f, hf, hid, hown⟩ := h r hr m hm
  refine ⟨f, Table.mem_delete.mpr ⟨hf, ?_⟩, hid, hown⟩
  rw [hown]
  exact hother

theorem Linked.clean (h : Linked lib) (missing : String → Bool)
    (hfree : ∀ s ∈ lib.series.rows, ∀ f ∈ lib.files.rows, f.seriesID = s.id →
      missing (Housekeeping.fullPath s f) = true →
        ∀ e ∈ lib.episodes.rows, e.episodeFileID ≠ some f.id) :
    Linked (Housekeeping.cleanOrphanEpisodeFiles missing lib) := by
  have hclean := Housekeeping.cleaned missing lib
  intro r hr m hm
  rw [hclean.rest] at hr
  obtain ⟨f, hf, hid, hown⟩ := h r hr m hm
  refine ⟨f, ?_, hid, hown⟩
  by_contra hgone
  obtain ⟨s, hs, hfs, hmiss⟩ := hclean.gone f hf hgone
  exact hfree s hs f hf hfs hmiss r hr (by rw [hm, hid])

end Rows

section Refresh
open RefreshSeries
variable {start lib : Library} {existing : List Episode}

/-- A refresh writes back the link that it has read. -/
theorem upsertEpisodes_linked (hstart : Linked start)
    (hex : ∀ old ∈ existing, old ∈ start.episodes.rows ∧ old.seriesID = seriesID)
    (hk : EpisodesKept seriesID start lib) (h : Linked lib) (now : Int)
    (episodes : List EpisodeInfo) :
    Linked (upsertEpisodes now seriesID existing episodes lib) := by
  induction episodes generalizing lib with
  | nil => exact h
  | cons ep episodes ih =>
    refine ih (hk.step hex now ep) ?_
    rcases upsertEpisode_cases now seriesID existing lib ep with ⟨old, hl, hu⟩ | ⟨_, hc | ⟨_, hu⟩⟩
    · obtain ⟨ho, _⟩ := hex old (lookup_some hl).1
      rw [hu]
      refine h.updateEpisode ?_
      intro q hq hid
      have hown : q.seriesID = old.seriesID := congrArg Prod.fst (hk.pair_of_id ho hq hid)
      rw [hown, hk.rest]
      exact hstart old ho
    · exact h.createEpisode hc (linkOf_none _ _)
    · rw [hu]
      exact h

theorem handle_linked (hc : lib.Constraints) (h : Linked lib) (source : Source) (now : Int)
    (seriesID : Nat) : Linked (handle source now seriesID lib).2 := by
  rcases handle_run hc source now seriesID with ⟨_, hsame⟩ | ⟨mid, _, heps, hfil, _, _, hrun⟩
  · rw [hsame]
    exact h
  · have hmid : Linked mid := by
      unfold Linked LinkOf
      rw [heps, hfil]
      exact h
    rw [hrun]
    exact upsertEpisodes_linked hmid (fun old ho => Library.mem_listForSeries.mp ho)
      (EpisodesKept.refl seriesID mid) hmid now _

end Refresh

section Import
variable {start : Library} {w : World} {series : Series} {episodes : List Episode}

/-- The import's two writes to the library are a new file row and an update of the
episode as it was loaded. -/
theorem record_lib (howner : w.lib.hasSeries series.id = true) (number : Nat) (ep : Episode)
    (filename : String) (size : Int) (downloadID : String) :
    ∃ lib, w.lib.createFile (fileRow series number ep filename size) = some lib ∧
      (record w series number ep filename size downloadID).lib =
        lib.updateEpisode w.now { ep with episodeFileID := some w.lib.files.next } := by
  let row := fileRow series number ep filename size
  let files := w.lib.files.insert (fun id => { row with id }) (file_key row)
  refine ⟨{ w.lib with files }, ?_, ?_⟩
  · unfold Library.createFile
    rw [if_pos (show w.lib.hasSeries (fileRow series number ep filename size).seriesID = true
      from howner)]
  · simp only [record, Library.updateEpisode, files, row, fileRow]

/-- What holds of the library while a folder is gone through. -/
structure Importing (start : Library) (series : Series) (lib : Library) : Prop where
  constraints : lib.Constraints
  linked : Linked lib
  owner : lib.hasSeries series.id = true
  rows : ∀ r ∈ lib.episodes.rows, ∃ q ∈ start.episodes.rows, q.id = r.id ∧ q.seriesID = r.seriesID

theorem Importing.record (h : Importing start series w.lib) (hep : ep ∈ start.episodes.rows)
    (hown : ep.seriesID = series.id) (number : Nat) (filename : String) (size : Int)
    (downloadID : String) :
    Importing start series (record w series number ep filename size downloadID).lib := by
  obtain ⟨lib, hc, hrec⟩ := record_lib h.owner number ep filename size downloadID
  obtain ⟨_, hlib, hfiles⟩ := Library.createFile_some hc
  have heps : lib.episodes = w.lib.episodes := by rw [hlib]
  have hnew := (hfiles _).mpr (.inr rfl)
  rw [hrec]
  refine ⟨(h.constraints.createFile hc).updateEpisode, ?_, ?_, ?_⟩
  · refine (h.linked.createFile hc).updateEpisode ?_
    intro q hq hid n hn
    rw [heps] at hq
    obtain ⟨o, ho, hoid, hoser⟩ := h.rows q hq
    have heq : o = ep := Table.eq_of_key ho hep (hoid.trans hid)
    cases hn
    exact ⟨_, hnew, rfl, by rw [← hoser, heq, hown]; rfl⟩
  · rw [hlib]
    exact h.owner
  · intro r hr
    obtain ⟨q, hq, rfl⟩ := Library.mem_updateEpisode.mp hr
    rw [heps] at hq
    obtain ⟨o, ho, hoid, hoser⟩ := h.rows q hq
    refine ⟨o, ho, ?_⟩
    split <;> exact ⟨hoid, hoser⟩

theorem Importing.run (h : Importing start series w.lib)
    (heps : ∀ ep ∈ episodes, ep ∈ start.episodes.rows ∧ ep.seriesID = series.id)
    (disk : Disk) (folder downloadID : String) (files : List DirEntry) :
    Importing start series (importEach disk folder series episodes downloadID files w).lib := by
  induction files generalizing w with
  | nil => exact h
  | cons e files ih =>
    refine ih ?_
    dsimp only
    rcases importFile_spec disk folder series episodes downloadID w e.name with
      ⟨hsame, _⟩ | ⟨size, number, ep, _, _, hm, _, hrec⟩
    · rw [hsame]
      exact h
    · obtain ⟨hep, hown⟩ := heps ep (mem_of_matchFile hm)
      rw [hrec]
      exact h.record hep hown number e.name size downloadID

theorem processFolder_sound (hc : w.lib.Constraints) (h : Linked w.lib) (disk : Disk)
    (folder : String) (seriesID : Nat) (downloadID : String) :
    (processFolder disk w folder seriesID downloadID).2.lib.Constraints ∧
      Linked (processFolder disk w folder seriesID downloadID).2.lib := by
  rcases processFolder_spec disk w folder seriesID downloadID with
    hsame | ⟨entries, series, _, _, hget, hrun⟩
  · rw [hsame]
    exact ⟨hc, h⟩
  · obtain ⟨hm, hid⟩ := Table.get_eq_some.mp hget
    have hid : series.id = seriesID := hid
    have hstart : Importing w.lib series w.lib :=
      ⟨hc, h, Library.hasSeries_iff.mpr ⟨series, hm, rfl⟩, fun r hr => ⟨r, hr, rfl, rfl⟩⟩
    have heps : ∀ ep ∈ w.lib.listForSeries seriesID,
        ep ∈ w.lib.episodes.rows ∧ ep.seriesID = series.id := by
      rw [hid]
      exact fun ep hep => Library.mem_listForSeries.mp hep
    have hend := hstart.run heps disk folder downloadID (mediaFiles entries)
    rw [hrun]
    exact ⟨hend.constraints, hend.linked⟩

end Import

/-- What changes a library; an import comes with what the disk answers, housekeeping
with the paths it finds no file at. -/
inductive Op
  | createSeries (s : Series)
  | createEpisode (now : Int) (e : Episode)
  | createFile (f : EpisodeFile)
  | processFolder (disk : Disk) (history : History.Store) (now : Int) (folder : String)
      (seriesID : Nat) (downloadID : String)
  | refresh (source : RefreshSeries.Source) (now : Int) (seriesID : Nat)
  | deleteFile (n : Nat)
  | housekeeping (missing : String → Bool)
  | deleteSeries (n : Nat)

/-- A write that the schema refuses changes nothing. -/
def step (lib : Library) : Op → Option Library
  | .createSeries s => some ((lib.createSeries s).elim lib Prod.snd)
  | .createEpisode now e => some ((lib.createEpisode now e).getD lib)
  | .createFile f => some ((lib.createFile f).getD lib)
  | .processFolder disk history now folder seriesID downloadID =>
    some (processFolder disk ⟨lib, history, now, [], []⟩ folder seriesID downloadID).2.lib
  | .refresh source now seriesID => some (RefreshSeries.handle source now seriesID lib).2
  | .deleteFile n => some ((lib.deleteFile n).getD lib)
  | .housekeeping missing => some (Housekeeping.cleanOrphanEpisodeFiles missing lib)
  | .deleteSeries n => some (lib.deleteSeries n)

/-- No file row that an episode refers to is deleted, and no episode comes with a
link to anything but a file row of its series. -/
def KeepsLinked (lib : Library) : Op → Prop
  | .createEpisode _ e => LinkOf lib e.seriesID e.episodeFileID
  | .deleteFile n => ∀ e ∈ lib.episodes.rows, e.episodeFileID ≠ some n
  | .housekeeping missing => ∀ s ∈ lib.series.rows, ∀ f ∈ lib.files.rows, f.seriesID = s.id →
      missing (Housekeeping.fullPath s f) = true →
        ∀ e ∈ lib.episodes.rows, e.episodeFileID ≠ some f.id
  | _ => True

theorem step_linked (hg : KeepsLinked lib op) (hs : step lib op = some lib')
    (h : lib.Constraints ∧ Linked lib) : lib'.Constraints ∧ Linked lib' := by
  obtain ⟨hc, hl⟩ := h
  cases op with
  | createSeries s =>
    cases hs
    cases hmade : lib.createSeries s with
    | none => exact ⟨hc, hl⟩
    | some made => exact ⟨hc.createSeries hmade, hl.createSeries hmade⟩
  | createEpisode now e =>
    cases hs
    cases hmade : lib.createEpisode now e with
    | none => exact ⟨hc, hl⟩
    | some made => exact ⟨hc.createEpisode hmade, hl.createEpisode hmade hg⟩
  | createFile f =>
    cases hs
    cases hmade : lib.createFile f with
    | none => exact ⟨hc, hl⟩
    | some made => exact ⟨hc.createFile hmade, hl.createFile hmade⟩
  | processFolder disk history now folder seriesID downloadID =>
    cases hs
    exact processFolder_sound hc hl disk folder seriesID downloadID
  | refresh source now seriesID =>
    cases hs
    exact ⟨RefreshSeries.handle_constraints hc source now seriesID,
      handle_linked hc hl source now seriesID⟩
  | deleteFile n =>
    cases hs
    cases hgone : lib.deleteFile n with
    | none => exact ⟨hc, hl⟩
    | some lib' => exact ⟨hc.deleteFile hgone, hl.deleteFile hgone hg⟩
  | housekeeping missing =>
    cases hs
    exact ⟨(Housekeeping.cleaned missing lib).constraints hc, hl.clean missing hg⟩
  | deleteSeries n =>
    cases hs
    exact ⟨hc.deleteSeries n, hl.deleteSeries n⟩

/-- In a run that deletes no linked file row every link is to a file row of the series. -/
theorem links_kept (h : Path step KeepsLinked Library.empty ops lib) : Linked lib := by
  have hstart : Library.empty.Constraints ∧ Linked Library.empty := by
    refine ⟨Database.empty.constraints, ?_⟩
    intro e he
    cases he
  exact (h.invariant (fun _ _ _ hg hs hi => step_linked hg hs hi) hstart).2

/-- A folder with one file, which can be linked into place. -/
def pilotOnDisk : Disk where
  readDir _ := .ok [⟨"Breaking.Bad.S01E01.720p.HDTV-GROUP.mkv", false⟩]
  stat _ := .ok (500 * 1024 * 1024)
  answer _ _ := .ok ()

/-- A series is added and refreshed, and its one episode imported. -/
def importRun : List Op :=
  [.createSeries ⟨0, "Breaking Bad", "breaking-bad", "/tv/Breaking Bad", 81189, "ended", "standard",
      true, 1, true, "all"⟩,
    .refresh RefreshSeries.pilotOnly 0 1, .processFolder pilotOnDisk Table.empty 0 "/downloads" 1 ""]

theorem links_kept_import :
    ∃ lib, exec step Library.empty importRun = some lib ∧ Linked lib := by
  have hexec : exec step Library.empty importRun = some _ := rfl
  refine ⟨_, hexec, links_kept (Path.of_exec_guarded ?_ hexec)⟩
  intro op hop lib
  simp only [importRun, List.mem_cons, List.not_mem_nil, or_false] at hop
  rcases hop with rfl | rfl | rfl <;> exact trivial

/-- The row of the imported file is deleted, and the episode still refers to it. -/
theorem deleted_file_still_linked :
    ¬ ∀ ops lib, Path step Free Library.empty ops lib → Linked lib := by
  intro h
  have hrun : (exec step Library.empty (importRun ++ [.deleteFile 1])).map (fun lib =>
      (lib.episodes.rows.map Episode.episodeFileID, lib.files.rows)) = some ([some 1], []) := by
    decide +kernel
  obtain ⟨lib, hexec, hlib⟩ := Option.map_eq_some_iff.mp hrun
  obtain ⟨hlinks, hfiles⟩ := Prod.mk.inj hlib
  obtain ⟨e, he, hlink⟩ := List.mem_map.mp (hlinks ▸ List.mem_singleton.mpr rfl)
  obtain ⟨f, hf, _⟩ := h _ lib (Path.of_exec hexec) e he 1 hlink
  rw [hfiles] at hf
  cases hf

end Sonarr.FileLinks
