import Sonarr.Importer.Destinations

namespace Sonarr.Importer
open Lib Organizer

/-- The series title that a file's name is parsed to. -/
def fileTitle (filename : String) : String := (parsedFile filename).seriesTitle

/-- The file's title is that of another series and not that of this one. -/
def Foreign (lib : Library) (series : Series) (filename : String) : Prop :=
  (∃ s ∈ lib.series.rows, s.id ≠ series.id ∧ titleMatches (fileTitle filename) s = true) ∧
    titleMatches (fileTitle filename) series = false

/-- A world in which nothing has been imported yet. -/
def idle (lib : Library) (history : History.Store) (now : Int) : World := ⟨lib, history, now, [], []⟩

/-- No foreign file ends up under the path of the series or with one of its episodes. -/
def OwnFilesOnly (lib : Library) (seriesID : Nat) (w : World) : Prop :=
  ∀ series, lib.series.get seriesID = some series →
    (∀ name dst, (name, dst) ∈ w.placed → (SlashPath.clean series.path).Under dst →
      ¬ Foreign lib series name) ∧
    ∀ name epID, (name, epID) ∈ w.linked →
      (∃ ep ∈ lib.episodes.rows, ep.id = epID ∧ ep.seriesID = series.id) →
        ¬ Foreign lib series name

/-- A media file that is large enough, has the numbers of an episode and can be moved. -/
def Importable (disk : Disk) (folder : String) (series : Series) (episodes : List Episode)
    (e : DirEntry) : Prop :=
  e.isDir = false ∧ isMediaFile e.name = true ∧
    (∃ size, disk.stat (sourcePath folder e.name) = .ok size ∧ minSizeBytes ≤ size) ∧
    ∃ number ep, matchFile episodes e.name = some (number, ep) ∧
      moveFile (disk.answer (sourcePath folder e.name)) (sourcePath folder e.name)
        (destination series number ep e.name).render = .ok ()

/-- Nothing importable in a folder that is not being unpacked is foreign. -/
def NoneForeign (disk : Disk) (lib : Library) (folder : String) (seriesID : Nat) : Prop :=
  ∀ series entries, lib.series.get seriesID = some series → disk.readDir folder = .ok entries →
    entries.any DirEntry.unpacking = false →
      ∀ e ∈ entries, Importable disk folder series (lib.listForSeries seriesID) e →
        ¬ Foreign lib series e.name

/-- Every file is put under the path of its series. -/
theorem destination_under (series : Series) (number : Nat) (ep : Episode) (name : String) :
    (SlashPath.clean series.path).Under (destination series number ep name) := by
  rw [destination_eq]
  exact ⟨rfl, _, List.cons_ne_nil _ _, rfl⟩

section Run
variable (disk : Disk) (folder : String) (series : Series) (episodes : List Episode)
  (downloadID : String)

/-- Everything that importing a media file can do. -/
theorem importFile_cases (w : World) (e : DirEntry) (hd : e.isDir = false)
    (hm : isMediaFile e.name = true) :
    (¬ Importable disk folder series episodes e ∧
      (importFile disk folder series episodes downloadID w e.name).2 = w) ∨
    ∃ number ep, Importable disk folder series episodes e ∧
      matchFile episodes e.name = some (number, ep) ∧
      (importFile disk folder series episodes downloadID w e.name).2.placed =
        w.placed ++ [(e.name, destination series number ep e.name)] ∧
      (importFile disk folder series episodes downloadID w e.name).2.linked =
        w.linked ++ [(e.name, ep.id)] := by
  rcases importFile_spec disk folder series episodes downloadID w e.name with
    ⟨hw, hno⟩ | ⟨size, number, ep, hstat, hbig, hf, hmove, hw⟩
  · refine .inl ⟨?_, hw⟩
    rintro ⟨_, _, ⟨size, hstat, hbig⟩, number, ep, hf, hmove⟩
    exact hno size number ep hstat hbig hf hmove
  · refine .inr ⟨number, ep, ⟨hd, hm, ⟨size, hstat, hbig⟩, number, ep, hf, hmove⟩, hf, ?_, ?_⟩
    · rw [hw, record]
    · rw [hw, record]

/-- A pass over media files puts the importable ones in their places. -/
theorem importEach_placed (files : List DirEntry)
    (hm : ∀ e ∈ files, e.isDir = false ∧ isMediaFile e.name = true) (w : World) :
    p ∈ (importEach disk folder series episodes downloadID files w).placed ↔
      p ∈ w.placed ∨ ∃ e ∈ files, ∃ number ep, Importable disk folder series episodes e ∧
        matchFile episodes e.name = some (number, ep) ∧
        p = (e.name, destination series number ep e.name) := by
  induction files generalizing w with
  | nil => simp [importEach]
  | cons e files ih =>
    obtain ⟨hd, hme⟩ := hm e List.mem_cons_self
    have hrest := ih (fun e he => hm e (List.mem_cons_of_mem _ he))
      (importFile disk folder series episodes downloadID w e.name).2
    refine hrest.trans ?_
    rcases importFile_cases disk folder series episodes downloadID w e hd hme with
      ⟨hno, hw⟩ | ⟨number, ep, hi, hf, hp, _⟩
    · rw [hw]
      simp [hno]
    · rw [hp, List.mem_append, List.mem_singleton, or_assoc]
      simp [hi, hf]

theorem importEach_linked (files : List DirEntry)
    (hm : ∀ e ∈ files, e.isDir = false ∧ isMediaFile e.name = true) (w : World)
    (h : p ∈ (importEach disk folder series episodes downloadID files w).linked) :
    p ∈ w.linked ∨ ∃ e ∈ files, Importable disk folder series episodes e ∧ p.1 = e.name := by
  induction files generalizing w with
  | nil => exact .inl h
  | cons e files ih =>
    obtain ⟨hd, hme⟩ := hm e List.mem_cons_self
    rcases ih (fun e he => hm e (List.mem_cons_of_mem _ he))
      (importFile disk folder series episodes downloadID w e.name).2 h with h | ⟨e', he', hi, hp⟩
    · rcases importFile_cases disk folder series episodes downloadID w e hd hme with
        ⟨_, hw⟩ | ⟨number, ep, hi, _, _, hl⟩
      · rw [hw] at h
        exact .inl h
      · rw [hl, List.mem_append, List.mem_singleton] at h
        rcases h with h | rfl
        · exact .inl h
        · exact .inr ⟨e, List.mem_cons_self, hi, rfl⟩
    · exact .inr ⟨e', List.mem_cons_of_mem _ he', hi, hp⟩

end Run

section Folder
variable (disk : Disk) (lib : Library) (history : History.Store) (now : Int) (folder : String)
  (seriesID : Nat) (downloadID : String)

/-- The name is that of an importable file in a folder that is not being unpacked. -/
def Offered (series : Series) (name : String) : Prop :=
  ∃ entries e, disk.readDir folder = .ok entries ∧ entries.any DirEntry.unpacking = false ∧
    e ∈ entries ∧ Importable disk folder series (lib.listForSeries seriesID) e ∧ e.name = name

theorem placed_offered (hs : lib.series.get seriesID = some series)
    (h : (name, dst) ∈ (processFolder disk (idle lib history now) folder seriesID
      downloadID).2.placed) : Offered disk lib folder seriesID series name := by
  rcases processFolder_spec disk (idle lib history now) folder seriesID downloadID with
    hw | ⟨entries, series', hr, hu, hget, hw⟩
  · rw [hw] at h
    cases h
  obtain rfl : series' = series := Option.some.inj (hget.symm.trans hs)
  rw [hw, importEach_placed _ _ _ _ _ _ (fun e he => (mem_mediaFiles.mp he).2)] at h
  rcases h with h | ⟨e, he, _, _, hi, _, heq⟩
  · cases h
  · exact ⟨entries, e, hr, hu, (mem_mediaFiles.mp he).1, hi, (Prod.mk.inj heq).1.symm⟩

theorem linked_offered (hs : lib.series.get seriesID = some series)
    (h : (name, epID) ∈ (processFolder disk (idle lib history now) folder seriesID
      downloadID).2.linked) : Offered disk lib folder seriesID series name := by
  rcases processFolder_spec disk (idle lib history now) folder seriesID downloadID with
    hw | ⟨entries, series', hr, hu, hget, hw⟩
  · rw [hw] at h
    cases h
  obtain rfl : series' = series := Option.some.inj (hget.symm.trans hs)
  rw [hw] at h
  rcases importEach_linked _ _ _ _ _ _ (fun e he => (mem_mediaFiles.mp he).2) _ h with
    h | ⟨e, he, hi, heq⟩
  · cases h
  · exact ⟨entries, e, hr, hu, (mem_mediaFiles.mp he).1, hi, heq.symm⟩

theorem offered_own (h : NoneForeign disk lib folder seriesID)
    (hs : lib.series.get seriesID = some series)
    (ho : Offered disk lib folder seriesID series name) : ¬ Foreign lib series name := by
  obtain ⟨entries, e, hr, hu, he, hi, rfl⟩ := ho
  exact h series entries hs hr hu e he hi

/-- An importable file of the folder is put in its place. -/
theorem importable_placed (hs : lib.series.get seriesID = some series)
    (hr : disk.readDir folder = .ok entries) (hu : entries.any DirEntry.unpacking = false)
    (he : e ∈ entries) (hi : Importable disk folder series (lib.listForSeries seriesID) e) :
    ∃ dst, (e.name, dst) ∈ (processFolder disk (idle lib history now) folder seriesID
      downloadID).2.placed ∧ (SlashPath.clean series.path).Under dst := by
  have hw : (processFolder disk (idle lib history now) folder seriesID downloadID).2 =
      importEach disk folder series (lib.listForSeries seriesID) downloadID (mediaFiles entries)
        (idle lib history now) := by
    simp [processFolder, hr, hu, hs, idle]
  obtain ⟨hd, hm, _, number, ep, hf, _⟩ := id hi
  refine ⟨destination series number ep e.name, ?_, destination_under series number ep e.name⟩
  rw [hw, importEach_placed _ _ _ _ _ _ (fun e he => (mem_mediaFiles.mp he).2)]
  exact .inr ⟨e, mem_mediaFiles.mpr ⟨he, hd, hm⟩, number, ep, hi, hf, rfl⟩

/-- The importer never looks at a file's series title, so it keeps to the series'
own files exactly when the folder has no importable foreign one. -/
theorem own_files_iff : OwnFilesOnly lib seriesID
      (processFolder disk (idle lib history now) folder seriesID downloadID).2 ↔
    NoneForeign disk lib folder seriesID := by
  constructor
  · intro h series entries hs hr hu e he hi
    obtain ⟨dst, hp, hunder⟩ := importable_placed disk lib history now folder seriesID downloadID
      hs hr hu he hi
    exact (h series hs).1 e.name dst hp hunder
  · intro h series hs
    refine ⟨fun name dst hp _ => ?_, fun name epID hl _ => ?_⟩
    · exact offered_own disk lib folder seriesID h hs
        (placed_offered disk lib history now folder seriesID downloadID hs hp)
    · exact offered_own disk lib folder seriesID h hs
        (linked_offered disk lib history now folder seriesID downloadID hs hl)

end Folder

def twoSeries : Library where
  series := ⟨[⟨1, "Breaking Bad", "breaking-bad", "/tv/Breaking Bad", 81189, "ended", "standard",
      true, 1, true, "all"⟩,
    ⟨2, "Lost", "lost", "/tv/Lost", 73739, "ended", "standard",
      true, 1, true, "all"⟩], 3, by decide, by decide⟩
  seasons := []
  episodes := ⟨[⟨1, 1, 1, 1, none, "Pilot", "", none, true, none, 0⟩,
    ⟨2, 2, 1, 1, none, "Pilot", "", none, true, none, 0⟩], 3, by decide, by decide⟩
  files := Table.empty

/-- A folder that the downloads of all series are put into. -/
def sharedFolder : Disk where
  readDir _ := .ok [⟨"Lost.S01E01.720p.HDTV-GROUP.mkv", false⟩]
  stat _ := .ok 500000000
  answer _ _ := .ok ()

theorem file_of_other_series_imported :
    ¬ OwnFilesOnly twoSeries 1
      (processFolder sharedFolder (idle twoSeries Table.empty 0) "/downloads" 1 "1").2 := by
  intro h
  have hmatch : matchFile (twoSeries.listForSeries 1) "Lost.S01E01.720p.HDTV-GROUP.mkv" =
      some (1, ⟨1, 1, 1, 1, none, "Pilot", "", none, true, none, 0⟩) := by decide
  have hi : Importable sharedFolder "/downloads"
      ⟨1, "Breaking Bad", "breaking-bad", "/tv/Breaking Bad", 81189, "ended", "standard",
        true, 1, true, "all"⟩ (twoSeries.listForSeries 1)
      ⟨"Lost.S01E01.720p.HDTV-GROUP.mkv", false⟩ :=
    ⟨rfl, by decide, ⟨_, rfl, by decide⟩, _, _, hmatch, rfl⟩
  obtain ⟨dst, hp, hu⟩ := importable_placed sharedFolder twoSeries Table.empty 0 "/downloads" 1 "1"
    rfl rfl (by decide) (List.mem_singleton.mpr rfl) hi
  have hother : titleMatches (fileTitle "Lost.S01E01.720p.HDTV-GROUP.mkv")
      ⟨2, "Lost", "lost", "/tv/Lost", 73739, "ended", "standard",
        true, 1, true, "all"⟩ = true := by decide
  have hnot : titleMatches (fileTitle "Lost.S01E01.720p.HDTV-GROUP.mkv")
      ⟨1, "Breaking Bad", "breaking-bad", "/tv/Breaking Bad", 81189, "ended", "standard",
        true, 1, true, "all"⟩ = false := by decide
  exact (h _ rfl).1 _ dst hp hu ⟨⟨_, by decide, by decide, hother⟩, hnot⟩

end Sonarr.Importer
