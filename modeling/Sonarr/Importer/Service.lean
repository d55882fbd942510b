import Sonarr.Importer.Organizer
import Sonarr.Library.History
import Sonarr.Library.Store
import Sonarr.Parser.Title

namespace Sonarr.Importer
open Lib Sonarr.Parser Organizer

def minSizeBytes : Int := 40 * 1024 * 1024

def mediaExtensions : List String := [".mkv", ".mp4", ".avi", ".ts", ".wmv", ".flv"]

def unpackingExtensions : List String := [".rar", ".r00", ".part"]

structure DirEntry where
  name : String
  isDir : Bool
  deriving DecidableEq, Repr

/-- The calls to the operating system that moving a file makes. -/
inductive Syscall
  | mkdirAll (dir : String)
  | link (src dst : String)
  | openFile (src : String)
  | create (path : String)
  | copy (src path : String)
  | close (path : String)
  | rename (path dst : String)
  deriving DecidableEq, Repr

/-- What the operating system answers. No file makes one call twice, so the
answers for a file (the first argument of `answer`) may depend on all that
happened before. -/
structure Disk where
  readDir : String → Except String (List DirEntry)
  stat : String → Except String Int
  answer : String → Syscall → Except String Unit

/-- Copies into a file beside the destination that then takes its place. The file
is removed again when copying or closing fails, whatever comes of that. -/
def copyFile (call : Syscall → Except String Unit) (src dst : String) : Except String Unit := do
  let path := dst ++ ".partial"
  call (.openFile src)
  call (.create path)
  call (.copy src path)
  call (.close path)
  call (.rename path dst)

/-- A hard link if that works, and a copy otherwise. -/
def moveFile (call : Syscall → Except String Unit) (src dst : String) : Except String Unit := do
  call (.mkdirAll (SlashPath.dir dst).render)
  match call (.link src dst) with
  | .ok _ => .ok ()
  | .error _ => copyFile call src dst

def isMediaFile (name : String) : Bool :=
  mediaExtensions.contains (Text.toLower (SlashPath.ext name))

/-- A file that shows that an archive is still being unpacked. -/
def DirEntry.unpacking (e : DirEntry) : Bool :=
  !e.isDir && unpackingExtensions.contains (Text.toLower (SlashPath.ext e.name))

def qualityFullName (q : ParsedQuality) : String :=
  if q.source.value = "" ∧ q.resolution.value = "" then "Unknown"
  else Text.join "-" ([q.source.value, q.resolution.value].filter (fun s => s ≠ ""))

def findEpisode (episodes : List Episode) (season episode : Int) : Option Episode :=
  episodes.find? (fun ep => ep.seasonNumber == season && ep.episodeNumber == episode)

/-- Conversion to 32 bits. -/
def int32 (n : Nat) : Int := Int.bmod n 4294967296

/-- A file's name without its extension, parsed. -/
def parsedFile (filename : String) : ParsedEpisodeInfo :=
  parseTitle (Text.trimSuffix filename (SlashPath.ext filename))

/-- The episode a file is for and its number, by season and first episode number alone. -/
def matchFile (episodes : List Episode) (filename : String) : Option (Nat × Episode) :=
  let parsed := parsedFile filename
  match parsed.episodeNumbers with
  | [] => none
  | number :: _ =>
    (findEpisode episodes (int32 parsed.seasonNumber) (int32 number)).map (fun ep => (number, ep))

/-- The new name of a file: built from the series and the episode, with its own extension. -/
def builtName (series : Series) (number : Nat) (ep : Episode) (filename : String) : String :=
  let parsed := parsedFile filename
  buildFilename defaultEpisodeFormat
    { seriesTitle := series.title, seasonNumber := parsed.seasonNumber, episodeNumber := number
      episodeTitle := ep.title, qualityName := qualityFullName parsed.quality
      releaseGroup := parsed.releaseGroup, airDate := "" } ++ SlashPath.ext filename

def relativePath (series : Series) (number : Nat) (ep : Episode) (filename : String) : String :=
  (SlashPath.join [buildSeasonFolder (parsedFile filename).seasonNumber,
    builtName series number ep filename]).render

def destination (series : Series) (number : Nat) (ep : Episode) (filename : String) : SlashPath :=
  SlashPath.join [series.path, relativePath series number ep filename]

def sourcePath (folder filename : String) : String := (SlashPath.join [folder, filename]).render

/-- The row that is created for a file. -/
def fileRow (series : Series) (number : Nat) (ep : Episode) (filename : String) (size : Int) :
    EpisodeFile where
  id := 0
  seriesID := series.id
  seasonNumber := int32 (parsedFile filename).seasonNumber
  relativePath := relativePath series number ep filename
  size := size
  releaseGroup := (parsedFile filename).releaseGroup
  qualityName := qualityFullName (parsedFile filename).quality

/-- What an import changes. `placed` and `linked` remember the files that were put
somewhere and the episodes they were taken for. -/
structure World where
  lib : Library
  history : History.Store
  now : Int
  placed : List (String × SlashPath)
  linked : List (String × Nat)

/-- A row for the file, a reference to it from the episode as it was loaded, and an
entry in the history. -/
def record (w : World) (series : Series) (number : Nat) (ep : Episode) (filename : String)
    (size : Int) (downloadID : String) : World :=
  let fileID := w.lib.files.next
  { w with
    lib := { w.lib with
      files := w.lib.files.insert
        (fun id => { fileRow series number ep filename size with id }) (fun _ => rfl)
      episodes := w.lib.episodes.update (fun r => r.id == ep.id)
        (Episode.assign w.now { ep with episodeFileID := some fileID }) (Episode.assign_key w.now _) }
    history := History.create w.history w.now
      { id := 0, episodeID := ep.id, seriesID := series.id, sourceTitle := filename
        qualityName := qualityFullName (parsedFile filename).quality
        eventType := .downloadImported, date := 0, downloadID, data := "\x7b\x7d" }
    placed := w.placed ++ [(filename, destination series number ep filename)]
    linked := w.linked ++ [(filename, ep.id)] }

def importFile (disk : Disk) (folder : String) (series : Series) (episodes : List Episode)
    (downloadID : String) (w : World) (filename : String) : Except String Unit × World :=
  let src := sourcePath folder filename
  match disk.stat src with
  | .error e => (.error e, w)
  | .ok size =>
    if size < minSizeBytes then (.ok (), w)
    else match matchFile episodes filename with
      | none => (.ok (), w)
      | some (number, ep) =>
        match moveFile (disk.answer src) src (destination series number ep filename).render with
        | .error e => (.error e, w)
        | .ok _ => (.ok (), record w series number ep filename size downloadID)

/-- The entries that are looked at. -/
def mediaFiles (entries : List DirEntry) : List DirEntry :=
  entries.filter (fun e => !e.isDir && isMediaFile e.name)

/-- One file after the other; one that cannot be imported is logged and passed over. -/
def importEach (disk : Disk) (folder : String) (series : Series) (episodes : List Episode)
    (downloadID : String) (files : List DirEntry) (w : World) : World :=
  files.foldl (fun w e => (importFile disk folder series episodes downloadID w e.name).2) w

inductive ProcessError
  | readDir (folder error : String)
  | getSeries (seriesID : Nat)
  deriving DecidableEq, Repr

/-- `Service.ProcessFolder`. -/
def processFolder (disk : Disk) (w : World) (folder : String) (seriesID : Nat)
    (downloadID : String) : Except ProcessError Unit × World :=
  match disk.readDir folder with
  | .error e => (.error (.readDir folder e), w)
  | .ok entries =>
    if entries.any DirEntry.unpacking then (.ok (), w)
    else match w.lib.series.get seriesID with
      | none => (.error (.getSeries seriesID), w)
      | some series =>
        (.ok (), importEach disk folder series (w.lib.listForSeries seriesID) downloadID
          (mediaFiles entries) w)

/-- A file is recorded if it is big enough, matches an episode and can be moved; otherwise
nothing changes. -/
theorem importFile_spec (disk : Disk) (folder : String) (series : Series) (episodes : List Episode)
    (downloadID : String) (w : World) (filename : String) :
    ((importFile disk folder series episodes downloadID w filename).2 = w ∧
      ∀ size number ep, disk.stat (sourcePath folder filename) = .ok size → minSizeBytes ≤ size →
        matchFile episodes filename = some (number, ep) →
        moveFile (disk.answer (sourcePath folder filename)) (sourcePath folder filename)
          (destination series number ep filename).render ≠ .ok ()) ∨
    ∃ size number ep, disk.stat (sourcePath folder filename) = .ok size ∧ minSizeBytes ≤ size ∧
      matchFile episodes filename = some (number, ep) ∧
      moveFile (disk.answer (sourcePath folder filename)) (sourcePath folder filename)
        (destination series number ep filename).render = .ok () ∧
      (importFile disk folder series episodes downloadID w filename).2 =
        record w series number ep filename size downloadID := by
  unfold importFile
  dsimp only
  cases hstat : disk.stat (sourcePath folder filename) with
  | error e => exact .inl ⟨rfl, fun _ _ _ h => by cases h⟩
  | ok size =>
    dsimp only
    by_cases hsmall : size < minSizeBytes
    · rw [if_pos hsmall]
      refine .inl ⟨rfl, ?_⟩
      intro size' _ _ h hbig
      cases h
      exact absurd hsmall (not_lt.mpr hbig)
    · rw [if_neg hsmall]
      cases hm : matchFile episodes filename with
      | none => exact .inl ⟨rfl, fun _ _ _ _ _ h => by cases h⟩
      | some found =>
        obtain ⟨number, ep⟩ := found
        dsimp only
        cases hmove : moveFile (disk.answer (sourcePath folder filename))
            (sourcePath folder filename) (destination series number ep filename).render with
        | error e =>
          refine .inl ⟨rfl, ?_⟩
          intro size' number' ep' _ _ h hok
          cases h
          rw [hmove] at hok
          cases hok
        | ok _ => exact .inr ⟨size, number, ep, rfl, not_lt.mp hsmall, rfl, hmove, rfl⟩

/-- Either nothing is imported, or the media files of the folder are gone through. -/
theorem processFolder_spec (disk : Disk) (w : World) (folder : String) (seriesID : Nat)
    (downloadID : String) :
    (processFolder disk w folder seriesID downloadID).2 = w ∨
    ∃ entries series, disk.readDir folder = .ok entries ∧
      entries.any DirEntry.unpacking = false ∧ w.lib.series.get seriesID = some series ∧
      (processFolder disk w folder seriesID downloadID).2 =
        importEach disk folder series (w.lib.listForSeries seriesID) downloadID
          (mediaFiles entries) w := by
  unfold processFolder
  split
  · exact .inl rfl
  · rename_i entries hread
    split
    · exact .inl rfl
    · rename_i hpacked
      split
      · exact .inl rfl
      · rename_i series hget
        exact .inr ⟨entries, series, hread, Bool.eq_false_of_not_eq_true hpacked, hget, rfl⟩

theorem mem_of_matchFile (h : matchFile episodes filename = some (number, ep)) : ep ∈ episodes := by
  unfold matchFile at h
  dsimp only at h
  split at h
  · cases h
  · obtain ⟨q, hq, heq⟩ := Option.map_eq_some_iff.mp h
    cases heq
    exact List.mem_of_find?_eq_some hq

theorem mem_mediaFiles : e ∈ mediaFiles entries ↔
    e ∈ entries ∧ e.isDir = false ∧ isMediaFile e.name = true := by
  simp [mediaFiles, List.mem_filter]

end Sonarr.Importer
