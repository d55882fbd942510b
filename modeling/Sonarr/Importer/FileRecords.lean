import Sonarr.Importer.FileTransfer
import Sonarr.Importer.OwnFiles
import Sonarr.Lib.Machine
import Sonarr.Lib.Volume
import Sonarr.Library.Housekeeping

namespace Sonarr.FileRecords
open Lib Importer Sonarr.Parser

/-- What the operating system decides by itself: which calls fail although the files
would allow them, how much a copy that fails has written, and whether it can be removed. -/
structure Faults where
  stat : Option String
  call : Syscall → Option String
  written : Int
  removes : Bool

/-- A link does not take the place of a file. -/
def answer (v : Volume String) (faults : Faults) (call : Syscall) : Except String Unit :=
  match faults.call call with
  | some e => .error e
  | none => match call with
    | .link src dst =>
      if v.file src = none then .error Files.noFile
      else if v.file dst ≠ none then .error "file exists" else .ok ()
    | .openFile src => if v.file src = none then .error Files.noFile else .ok ()
    | _ => .ok ()

/-- The answers for one file, whose folder has been read before. -/
def diskOn (v : Volume String) (faults : Faults) : Disk where
  readDir _ := .ok []
  stat path := match faults.stat, v.sizeAt path with
    | some e, _ => .error e
    | none, none => .error Files.noFile
    | none, some n => .ok n
  answer _ := answer v faults

def discard (v : Volume String) (faults : Faults) (path : String) : Volume String :=
  if faults.removes then v.remove path else v

/-- The volume after `copyFile`. -/
def copyOnto (v : Volume String) (faults : Faults) (src dst : String) : Volume String :=
  let path := dst ++ ".partial"
  match answer v faults (.openFile src) with
  | .error _ => v
  | .ok _ => match answer v faults (.create path) with
    | .error _ => v
    | .ok _ =>
      let made := v.create path
      match answer v faults (.copy src path) with
      | .error _ => discard (made.write path faults.written) faults path
      | .ok _ =>
        let filled := made.write path ((made.sizeAt src).getD 0)
        match answer v faults (.close path) with
        | .error _ => discard filled faults path
        | .ok _ => match answer v faults (.rename path dst) with
          | .error _ => filled
          | .ok _ => filled.rename path dst

/-- The volume after `moveFile`. -/
def moveOnto (v : Volume String) (faults : Faults) (src dst : String) : Volume String :=
  match answer v faults (.mkdirAll (SlashPath.dir dst).render) with
  | .error _ => v
  | .ok _ => match answer v faults (.link src dst) with
    | .ok _ => v.link src dst
    | .error _ => copyOnto v faults src dst

/-- The volume after `importFile`. -/
def importOnto (v : Volume String) (faults : Faults) (folder : String) (series : Series)
    (episodes : List Episode) (filename : String) : Volume String :=
  let src := sourcePath folder filename
  match (diskOn v faults).stat src with
  | .error _ => v
  | .ok size =>
    if size < minSizeBytes then v
    else match matchFile episodes filename with
      | none => v
      | some (number, ep) =>
        moveOnto v faults src (destination series number ep filename).render

section Moving
variable {v : Volume String} {faults : Faults} {src dst q : String} {n : Int}

theorem discard_kept (h : v.Apart path q n) : (discard v faults path).Apart path q n := by
  unfold discard
  split
  · exact h.remove
  · exact h

/-- Copying leaves a file alone that is neither replaced nor the one copied over. -/
theorem copyOnto_kept (h : v.Apart (dst ++ ".partial") q n) (hq : q ≠ dst) :
    (copyOnto v faults src dst).Apart (dst ++ ".partial") q n := by
  unfold copyOnto
  dsimp only
  split
  · exact h
  split
  · exact h
  split
  · exact discard_kept (h.create.write _)
  split
  · exact discard_kept (h.create.write _)
  split
  · exact h.create.write _
  · exact (h.create.write _).rename hq

theorem moveOnto_kept (h : v.Apart (dst ++ ".partial") q n) (hq : q ≠ dst) :
    (moveOnto v faults src dst).Apart (dst ++ ".partial") q n := by
  unfold moveOnto
  split
  · exact h
  split
  · exact h.link (FileTransfer.partial_ne dst).symm hq src
  · exact copyOnto_kept h hq

theorem bind_ok {x : Except String Unit} (h : (x >>= f) = .ok ()) : x = .ok () ∧ f () = .ok () := by
  cases x with
  | error e => cases h
  | ok u => exact ⟨rfl, h⟩

/-- A copy that succeeds has the size of the file that was copied. -/
theorem copyOnto_sized (hok : copyFile (answer v faults) src dst = .ok ())
    (h : v.Apart (dst ++ ".partial") src n) : (copyOnto v faults src dst).sizeAt dst = some n := by
  obtain ⟨hopen, hok⟩ := bind_ok hok
  obtain ⟨hcreate, hok⟩ := bind_ok hok
  obtain ⟨hcopy, hok⟩ := bind_ok hok
  obtain ⟨hclose, hrename⟩ := bind_ok hok
  unfold copyOnto
  simp only [hopen, hcreate, hcopy, hclose, hrename, h.create.1, Option.getD_some]
  rw [Volume.sizeAt_rename, Volume.sizeAt_write (Volume.file_create v _)]

theorem moveOnto_sized (hok : moveFile (answer v faults) src dst = .ok ())
    (h : v.Apart (dst ++ ".partial") src n) : (moveOnto v faults src dst).sizeAt dst = some n := by
  obtain ⟨hdir, hok⟩ := bind_ok hok
  unfold moveOnto
  simp only [hdir]
  split
  · rw [Volume.sizeAt_link]
    exact h.1
  · rename_i e hlink
    simp only [hlink] at hok
    exact copyOnto_sized hok h

end Moving

/-- A call of `ProcessFolder` under way, with the files still to be looked at. -/
structure Run where
  folder : String
  series : Series
  episodes : List Episode
  downloadID : String
  files : List DirEntry
  deriving DecidableEq

structure State where
  world : World
  volume : Volume String
  running : Option Run

inductive Action
  | processFolder (now : Int) (folder : String) (entries : Except String (List DirEntry))
      (seriesID : Nat) (downloadID : String)
  | next (faults : Faults)

/-- What `ProcessFolder` does before it comes to the files. -/
def Run.start (lib : Library) (folder : String) (entries : Except String (List DirEntry))
    (seriesID : Nat) (downloadID : String) : Option Run :=
  match entries with
  | .error _ => none
  | .ok entries =>
    if entries.any DirEntry.unpacking then none
    else (lib.series.get seriesID).map (fun series =>
      { folder, series, episodes := lib.listForSeries seriesID, downloadID
        files := mediaFiles entries })

/-- Calls come one after the other, and a call goes through its files one by one. -/
def step (s : State) : Action → Option State
  | .processFolder now folder entries seriesID downloadID => match s.running with
    | some _ => none
    | none => some { s with
        world := { s.world with now }
        running := Run.start s.world.lib folder entries seriesID downloadID }
  | .next faults => match s.running with
    | none => none
    | some run => match run.files with
      | [] => some { s with running := none }
      | e :: files => some
        { world := (importFile (diskOn s.volume faults) run.folder run.series run.episodes
            run.downloadID s.world e.name).2
          volume := importOnto s.volume faults run.folder run.series run.episodes e.name
          running := some { run with files } }

/-- The file that comes next fares as it does with the answers of `disk`. -/
def Agrees (disk : Disk) (s : State) : Action → Prop
  | .processFolder .. => False
  | .next faults => ∀ run e files, s.running = some run → run.files = e :: files →
      importFile (diskOn s.volume faults) run.folder run.series run.episodes run.downloadID
        s.world e.name =
      importFile disk run.folder run.series run.episodes run.downloadID s.world e.name

section Calls
variable {disk : Disk}

/-- Without a call under way there is no file to go on with. -/
theorem idle_path (h : Path step (Agrees disk) s as t) (hidle : s.running = none) : t = s := by
  cases h with
  | nil => rfl
  | @cons _ a _ _ _ ok hstep rest =>
    cases a with
    | processFolder => exact ok.elim
    | next faults => simp [step, hidle] at hstep

theorem importEach_path (h : Path step (Agrees disk) s as t) (hrun : s.running = some run)
    (hend : t.running = none) :
    t.world = importEach disk run.folder run.series run.episodes run.downloadID run.files
      s.world := by
  induction h generalizing run with
  | nil => rw [hrun] at hend; cases hend
  | @cons s a u _ t ok hstep rest ih =>
    cases a with
    | processFolder => exact ok.elim
    | next faults =>
      cases hfiles : run.files with
      | nil =>
        simp only [step, hrun, hfiles, Option.some.injEq] at hstep
        subst hstep
        rw [idle_path rest rfl]
        rfl
      | cons e files =>
        simp only [step, hrun, hfiles, Option.some.injEq] at hstep
        have hrest : u.running = some { run with files } := by rw [← hstep]
        rw [ih hrest hend, ← hstep, ok run e files hrun hfiles]
        rfl

theorem step_processFolder
    (h : step s (.processFolder now folder entries seriesID downloadID) = some u) :
    u.world = { s.world with now } ∧
      u.running = Run.start s.world.lib folder entries seriesID downloadID := by
  simp only [step] at h
  split at h
  · cases h
  · rw [← Option.some.inj h]
    exact ⟨rfl, rfl⟩

/-- The steps of a call, one file at a time, end with what `processFolder` computes. -/
theorem processFolder_path
    (hcall : step s (.processFolder now folder (disk.readDir folder) seriesID downloadID) = some u)
    (h : Path step (Agrees disk) u as t) (hend : t.running = none) :
    t.world = (processFolder disk { s.world with now } folder seriesID downloadID).2 := by
  obtain ⟨hworld, hstart⟩ := step_processFolder hcall
  unfold processFolder
  unfold Run.start at hstart
  cases hread : disk.readDir folder with
  | error e =>
    rw [hread] at hstart
    rw [idle_path h hstart, hworld]
  | ok entries =>
    rw [hread] at hstart
    dsimp only at hstart ⊢
    split
    · rename_i hunpack
      rw [if_pos hunpack] at hstart
      rw [idle_path h hstart, hworld]
    · rename_i hunpack
      rw [if_neg hunpack] at hstart
      cases hget : s.world.lib.series.get seriesID with
      | none =>
        rw [hget] at hstart
        rw [idle_path h hstart, hworld]
      | some series =>
        rw [hget] at hstart
        rw [importEach_path h hstart hend, hworld]

end Calls

/-- One row for each file, and the file has the size in its row. -/
structure Recorded (lib : Library) (v : Volume String) : Prop where
  once : ∀ f ∈ lib.files.rows, ∀ g ∈ lib.files.rows, f.seriesID = g.seriesID →
    f.relativePath = g.relativePath → f = g
  sized : ∀ s ∈ lib.series.rows, ∀ f ∈ lib.files.rows, f.seriesID = s.id →
    v.sizeAt (Housekeeping.fullPath s f) = some f.size

/-- Nothing is recorded at `dst`, and the name that a copy is made under is not one of
the file itself or of a recorded one. -/
def Clear (lib : Library) (v : Volume String) (src dst : String) : Prop :=
  ¬ v.Shares (dst ++ ".partial") src ∧
    ∀ s ∈ lib.series.rows, ∀ f ∈ lib.files.rows, f.seriesID = s.id →
      Housekeeping.fullPath s f ≠ dst ∧
        ¬ v.Shares (dst ++ ".partial") (Housekeeping.fullPath s f)

instance (lib : Library) (v : Volume String) (src dst : String) : Decidable (Clear lib v src dst) :=
  inferInstanceAs (Decidable (_ ∧ _))

/-- Where the file that comes next is and where it is to be put, if it is one to import. -/
def State.upcoming (s : State) : Option (String × String) := do
  let run ← s.running
  let e ← run.files.head?
  let src := sourcePath run.folder e.name
  let size ← s.volume.sizeAt src
  let (number, ep) ← matchFile run.episodes e.name
  if size < minSizeBytes then none
  else some (src, (destination run.series number ep e.name).render)

/-- No file is imported to where a recorded one is. -/
def Spares (s : State) : Action → Prop
  | .processFolder .. => True
  | .next _ => ∀ m ∈ s.upcoming, Clear s.world.lib s.volume m.1 m.2

instance (s : State) (a : Action) : Decidable (Spares s a) :=
  match a with
  | .processFolder .. => .isTrue trivial
  | .next _ => inferInstanceAs (Decidable (∀ m ∈ s.upcoming, _))

section Import
variable {v : Volume String} {faults : Faults} {w : World} {series : Series} {lib lib' : Library}

theorem stat_diskOn (h : (diskOn v faults).stat path = .ok size) : v.sizeAt path = some size := by
  simp only [diskOn] at h
  split at h
  · cases h
  · cases h
  · rename_i hv
    cases h
    exact hv

/-- Files are touched only for one that is big enough and of an episode. -/
theorem importOnto_cases (v : Volume String) (faults : Faults) (folder : String) (series : Series)
    (episodes : List Episode) (filename : String) :
    importOnto v faults folder series episodes filename = v ∨
    ∃ size number ep, v.sizeAt (sourcePath folder filename) = some size ∧ minSizeBytes ≤ size ∧
      matchFile episodes filename = some (number, ep) ∧
      importOnto v faults folder series episodes filename =
        moveOnto v faults (sourcePath folder filename)
          (destination series number ep filename).render := by
  unfold importOnto
  dsimp only
  split
  · exact .inl rfl
  · rename_i size hstat
    split
    · exact .inl rfl
    · rename_i hbig
      split
      · exact .inl rfl
      · rename_i number ep hm
        exact .inr ⟨size, number, ep, stat_diskOn hstat, not_lt.mp hbig, hm, rfl⟩

/-- They are touched when the file is recorded. -/
theorem importOnto_recorded {folder : String} {episodes : List Episode} {filename : String}
    (hstat : (diskOn v faults).stat (sourcePath folder filename) = .ok size)
    (hbig : minSizeBytes ≤ size) (hm : matchFile episodes filename = some (number, ep)) :
    importOnto v faults folder series episodes filename =
      moveOnto v faults (sourcePath folder filename)
        (destination series number ep filename).render := by
  simp only [importOnto, hstat, if_neg (not_lt.mpr hbig), hm]

theorem mem_record_files {number : Nat} {ep : Episode} {filename : String} {size : Int}
    {downloadID : String} :
    f ∈ (record w series number ep filename size downloadID).lib.files.rows ↔
      f ∈ w.lib.files.rows ∨
        f = { fileRow series number ep filename size with id := w.lib.files.next } := by
  simp only [record, fileRow]
  exact Table.mem_insert

theorem fullPath_fileRow (series : Series) (number : Nat) (ep : Episode) (filename : String)
    (size : Int) (id : Nat) :
    Housekeeping.fullPath series { fileRow series number ep filename size with id } =
      (destination series number ep filename).render := by
  simp only [Housekeeping.fullPath, destination, fileRow]

/-- Where a row's file is depends on the series and the relative path alone. -/
theorem fullPath_congr (h : f.relativePath = g.relativePath) (s : Series) :
    Housekeeping.fullPath s f = Housekeeping.fullPath s g := by
  rw [Housekeeping.fullPath, h, Housekeeping.fullPath]

theorem Recorded.move (h : Recorded lib v) (hclear : Clear lib v src dst) (faults : Faults) :
    Recorded lib (moveOnto v faults src dst) := by
  refine ⟨h.once, ?_⟩
  intro s hs f hf hown
  obtain ⟨hne, hshare⟩ := hclear.2 s hs f hf hown
  exact (moveOnto_kept ⟨h.sized s hs f hf hown, hshare⟩ hne).1

/-- One more row, of a file that is there and has no row yet. -/
theorem Recorded.insert (h : Recorded lib v) (hseries : series ∈ lib.series.rows)
    (hown : row.seriesID = series.id)
    (hfree : ∀ f ∈ lib.files.rows, f.seriesID = series.id →
      Housekeeping.fullPath series f ≠ Housekeeping.fullPath series row)
    (hsize : v.sizeAt (Housekeeping.fullPath series row) = some row.size)
    (hsame : lib'.series = lib.series)
    (hrows : ∀ f, f ∈ lib'.files.rows ↔ f ∈ lib.files.rows ∨ f = row) : Recorded lib' v := by
  -- A row with the new one's path would be at its place.
  have hnew : ∀ f ∈ lib.files.rows, f.seriesID = row.seriesID →
      f.relativePath ≠ row.relativePath := by
    intro f hf hser hpath
    exact hfree f hf (hser.trans hown) (fullPath_congr hpath series)
  refine ⟨?_, ?_⟩
  · intro f hf g hg hser hpath
    rcases (hrows f).mp hf with hf | rfl <;> rcases (hrows g).mp hg with hg | rfl
    · exact h.once f hf g hg hser hpath
    · exact absurd hpath (hnew f hf hser)
    · exact absurd hpath.symm (hnew g hg hser.symm)
    · rfl
  · intro s hs f hf hser
    rw [hsame] at hs
    rcases (hrows f).mp hf with hf | rfl
    · exact h.sized s hs f hf hser
    · have heq : s = series := Table.eq_of_key hs hseries (hser.symm.trans hown)
      rw [heq]
      exact hsize

theorem Recorded.record (h : Recorded w.lib v) (hseries : series ∈ w.lib.series.rows)
    (hfree : ∀ f ∈ w.lib.files.rows, f.seriesID = series.id →
      Housekeeping.fullPath series f ≠ (destination series number ep filename).render)
    (hsize : v.sizeAt (destination series number ep filename).render = some size)
    (downloadID : String) :
    Recorded (record w series number ep filename size downloadID).lib v := by
  have hplace := fullPath_fileRow series number ep filename size w.lib.files.next
  refine h.insert hseries ?_ ?_ ?_ rfl (fun f => mem_record_files)
  · rfl
  · rw [hplace]
    exact hfree
  · rw [hplace]
    exact hsize

end Import

/-- A state between two files: the series of the call under way is still there. -/
structure Sound (s : State) : Prop where
  recorded : Recorded s.world.lib s.volume
  series : ∀ run, s.running = some run → run.series ∈ s.world.lib.series.rows

theorem start_series (h : Run.start lib folder entries seriesID downloadID = some run) :
    run.series ∈ lib.series.rows := by
  unfold Run.start at h
  split at h
  · cases h
  · split at h
    · cases h
    · obtain ⟨series, hget, rfl⟩ := Option.map_eq_some_iff.mp h
      exact (Table.get_eq_some.mp hget).1

/-- The file that comes next may be put where it is to go. -/
theorem Spares.clear (hg : Spares s (.next faults)) (hrun : s.running = some run)
    (hfiles : run.files = e :: files)
    (hsize : s.volume.sizeAt (sourcePath run.folder e.name) = some size)
    (hbig : minSizeBytes ≤ size) (hm : matchFile run.episodes e.name = some (number, ep)) :
    Clear s.world.lib s.volume (sourcePath run.folder e.name)
      (destination run.series number ep e.name).render := by
  refine hg (sourcePath run.folder e.name, (destination run.series number ep e.name).render) ?_
  simp [State.upcoming, hrun, hfiles, hsize, hm, not_lt.mpr hbig]

theorem Sound.next (h : Sound s) (hrun : s.running = some run) (hfiles : run.files = e :: files)
    (hg : Spares s (.next faults)) :
    Sound
      { world := (importFile (diskOn s.volume faults) run.folder run.series run.episodes
          run.downloadID s.world e.name).2
        volume := importOnto s.volume faults run.folder run.series run.episodes e.name
        running := some { run with files } } := by
  have hseries := h.series run hrun
  rcases importFile_spec (diskOn s.volume faults) run.folder run.series run.episodes
      run.downloadID s.world e.name with
    ⟨hw, _⟩ | ⟨size, number, ep, hstat, hbig, hm, hok, hw⟩
  · -- Moving the file may have failed on the way.
    rw [hw]
    refine ⟨?_, fun r hr => by cases hr; exact hseries⟩
    rcases importOnto_cases s.volume faults run.folder run.series run.episodes e.name with
      hv | ⟨size, number, ep, hsize, hbig, hm, hv⟩
    · rw [hv]
      exact h.recorded
    · rw [hv]
      exact h.recorded.move (hg.clear hrun hfiles hsize hbig hm) faults
  · have hsize := stat_diskOn hstat
    have hclear := hg.clear hrun hfiles hsize hbig hm
    rw [hw, importOnto_recorded hstat hbig hm]
    refine ⟨(h.recorded.move hclear faults).record hseries ?_ ?_ _,
      fun r hr => by cases hr; exact hseries⟩
    · intro f hf hown
      exact (hclear.2 _ hseries f hf hown).1
    · exact moveOnto_sized hok ⟨hsize, hclear.1⟩

theorem Sound.step (hg : Spares s a) (hs : step s a = some t) (h : Sound s) : Sound t := by
  cases a with
  | processFolder now folder entries seriesID downloadID =>
    simp only [FileRecords.step] at hs
    split at hs
    · cases hs
    · cases hs
      exact ⟨h.recorded, fun run hrun => start_series hrun⟩
  | next faults =>
    simp only [FileRecords.step] at hs
    split at hs
    · cases hs
    · rename_i run hrun
      split at hs
      · cases hs
        exact ⟨h.recorded, fun run hrun => by cases hrun⟩
      · rename_i e files hfiles
        cases hs
        exact h.next hrun hfiles hg

/-- In a run of imports none of which puts a file where a recorded one is, there is one
row for each file of the library and the file has the size in its row. -/
theorem one_record_each (h : Path step Spares s as t) (hidle : s.running = none)
    (hs : Recorded s.world.lib s.volume) : Recorded t.world.lib t.volume := by
  have hstart : Sound s := ⟨hs, fun run hrun => by rw [hidle] at hrun; cases hrun⟩
  exact (h.invariant (fun _ _ _ hg hstep hi => Sound.step hg hstep hi) hstart).recorded

def noFaults : Faults := ⟨none, fun _ => none, 0, true⟩

/-- A file that is there can be moved anywhere if no call fails by itself. -/
theorem moveFile_noFaults (h : v.sizeAt src = some n) (dst : String) :
    moveFile (answer v noFaults) src dst = .ok () := by
  have hfile : v.file src ≠ none := by
    intro hnone
    simp [Volume.sizeAt, hnone] at h
  by_cases hdst : v.file dst = none
  · simp [moveFile, answer, noFaults, hfile, hdst, bind, Except.bind]
  · simp [moveFile, copyFile, answer, noFaults, hfile, hdst, bind, Except.bind]

section NoFaults
variable {s : State} {run : Run}

/-- Then a file that is big enough and of an episode is recorded. -/
theorem next_noFaults (hrun : s.running = some run) (hfiles : run.files = e :: files)
    (hsize : s.volume.sizeAt (sourcePath run.folder e.name) = some size)
    (hbig : minSizeBytes ≤ size) (hm : matchFile run.episodes e.name = some (number, ep)) :
    ∃ t, step s (.next noFaults) = some t ∧
      t.world = record s.world run.series number ep e.name size run.downloadID ∧
      t.volume = moveOnto s.volume noFaults (sourcePath run.folder e.name)
        (destination run.series number ep e.name).render ∧
      t.running = some { run with files } := by
  have hstat : (diskOn s.volume noFaults).stat (sourcePath run.folder e.name) = .ok size := by
    simp only [diskOn, noFaults, hsize]
  have hmove : moveFile ((diskOn s.volume noFaults).answer (sourcePath run.folder e.name))
      (sourcePath run.folder e.name) (destination run.series number ep e.name).render = .ok () :=
    moveFile_noFaults hsize _
  refine ⟨_, by simp only [step, hrun, hfiles]; rfl, ?_, ?_, rfl⟩
  · simp only [importFile, hstat, if_neg (not_lt.mpr hbig), hm, hmove]
  · simp only [importOnto_recorded hstat hbig hm]

/-- Of two files that are given one name the second takes the place of the first, whose row
stays. -/
theorem replaced_stays_recorded (hrun : s.running = some run) (hfiles : run.files = [e, e'])
    (hseries : run.series ∈ s.world.lib.series.rows)
    (hsize : s.volume.sizeAt (sourcePath run.folder e.name) = some size)
    (hsize' : s.volume.sizeAt (sourcePath run.folder e'.name) = some size')
    (hbig : minSizeBytes ≤ size) (hbig' : minSizeBytes ≤ size') (hdiff : size' ≠ size)
    (hm : matchFile run.episodes e.name = some (number, ep))
    (hm' : matchFile run.episodes e'.name = some (number', ep'))
    (hsame : relativePath run.series number' ep' e'.name =
      relativePath run.series number ep e.name)
    (hpart : s.volume.file
      ((destination run.series number ep e.name).render ++ ".partial") = none)
    (hother : sourcePath run.folder e'.name ≠ (destination run.series number ep e.name).render) :
    ∃ t, exec step s [.next noFaults, .next noFaults] = some t ∧
      (∃ f ∈ t.world.lib.files.rows, ∃ g ∈ t.world.lib.files.rows,
        f.id ≠ g.id ∧ f.seriesID = g.seriesID ∧ f.relativePath = g.relativePath) ∧
      ∃ s ∈ t.world.lib.series.rows, ∃ f ∈ t.world.lib.files.rows, f.seriesID = s.id ∧
        t.volume.sizeAt (Housekeeping.fullPath s f) ≠ some f.size := by
  obtain ⟨u, hstep, hworld, hvolume, hrest⟩ := next_noFaults hrun hfiles hsize hbig hm
  -- The second file is still there, and no copy has been begun.
  have hleft : u.volume.Apart ((destination run.series number ep e.name).render ++ ".partial")
      (sourcePath run.folder e'.name) size' := by
    rw [hvolume]
    exact moveOnto_kept ⟨hsize', fun hshares => hshares.1 hpart⟩ hother
  obtain ⟨t, hstep', hworld', hvolume', _⟩ := next_noFaults hrest rfl hleft.1 hbig' hm'
  have hplace : (destination run.series number' ep' e'.name).render =
      (destination run.series number ep e.name).render := by
    rw [destination, hsame, destination]
  rw [hplace] at hvolume'
  have hnow : t.volume.sizeAt (destination run.series number ep e.name).render = some size' := by
    rw [hvolume']
    exact moveOnto_sized (moveFile_noFaults hleft.1 _) hleft
  have hrow : { fileRow run.series number ep e.name size with id := s.world.lib.files.next } ∈
      t.world.lib.files.rows := by
    rw [hworld', mem_record_files, hworld, mem_record_files]
    exact .inl (.inr rfl)
  have hrow' : { fileRow run.series number' ep' e'.name size' with id := u.world.lib.files.next } ∈
      t.world.lib.files.rows := by
    rw [hworld', mem_record_files]
    exact .inr rfl
  refine ⟨t, by simp only [exec, hstep, hstep'], ⟨_, hrow, _, hrow', ?_, ?_, ?_⟩,
    run.series, ?_, _, hrow, ?_, ?_⟩
  · rw [hworld]
    exact Nat.ne_of_lt (Nat.lt_succ_self _)
  · simp only [fileRow]
  · simp only [fileRow]
    exact hsame.symm
  · rw [hworld', hworld]
    exact hseries
  · simp only [fileRow]
  · rw [fullPath_fileRow, hnow]
    simpa only [fileRow, ne_eq, Option.some.injEq] using hdiff

end NoFaults

/-- Two downloads of the episode, of 50 and of 60 MB. -/
def small : String := "Breaking.Bad.S01E01.720p.HDTV-GROUP.mkv"

def large : String := "breaking.bad.s01e01.720p.hdtv-GROUP.mkv"

def downloads : Volume String where
  file path :=
    if path = "/downloads/Breaking.Bad.S01E01.720p.HDTV-GROUP.mkv" then some 0
    else if path = "/downloads/breaking.bad.s01e01.720p.hdtv-GROUP.mkv" then some 1
    else none
  size i := if i = 0 then 50000000 else 60000000
  next := 2
  made := by
    intro p i h
    split at h
    · cases h; decide
    · split at h
      · cases h; decide
      · cases h

def atFirst : State where
  world :=
    { lib :=
        { series := breakingBadOnly, seasons := [], episodes := unlinkedPilot, files := Table.empty }
      history := Table.empty, now := 0, placed := [], linked := [] }
  volume := downloads
  running := none

def call (files : List DirEntry) : Action := .processFolder 0 "/downloads" (.ok files) 1 ""

def called (files : List DirEntry) : State :=
  { atFirst with running := some ⟨"/downloads", breakingBad, [pilot], "", files⟩ }

/-- A download of the episode: what its name says, and where it is. -/
structure OfPilot (name place : String) : Prop where
  season : (parsedFile name).seasonNumber = 1
  numbers : (parsedFile name).episodeNumbers = [1]
  quality : qualityFullName (parsedFile name).quality = "television-720p"
  group : (parsedFile name).releaseGroup = "GROUP"
  ext : SlashPath.ext name = ".mkv"
  path : sourcePath "/downloads" name = place

theorem OfPilot.of_fields (h : ((parsedFile name).seasonNumber, (parsedFile name).episodeNumbers,
      qualityFullName (parsedFile name).quality, (parsedFile name).releaseGroup,
      SlashPath.ext name, sourcePath "/downloads" name) =
        (1, [1], "television-720p", "GROUP", ".mkv", place)) : OfPilot name place := by
  simp only [Prod.mk.injEq] at h
  exact ⟨h.1, h.2.1, h.2.2.1, h.2.2.2.1, h.2.2.2.2.1, h.2.2.2.2.2⟩

theorem small_ofPilot : OfPilot small "/downloads/Breaking.Bad.S01E01.720p.HDTV-GROUP.mkv" :=
  .of_fields (by decide +kernel)

theorem large_ofPilot : OfPilot large "/downloads/breaking.bad.s01e01.720p.hdtv-GROUP.mkv" :=
  .of_fields (by decide +kernel)

namespace OfPilot

theorem matchFile (h : OfPilot name place) : matchFile [pilot] name = some (1, pilot) := by
  obtain ⟨hseason, hnumbers, -, -, -, -⟩ := h
  unfold Importer.matchFile
  generalize parsedFile name = parsed at hseason hnumbers ⊢
  simp only [hseason, hnumbers]
  decide

theorem relativePath (h : OfPilot name place) (h' : OfPilot name' place') :
    relativePath breakingBad 1 pilot name = relativePath breakingBad 1 pilot name' := by
  simp only [Importer.relativePath, builtName, h.season, h.quality, h.group, h.ext, h'.season,
    h'.quality, h'.group, h'.ext]

theorem isMediaFile (h : OfPilot name place) : isMediaFile name = true := by
  rw [Importer.isMediaFile, h.ext]
  decide

theorem unpacking (h : OfPilot name place) : DirEntry.unpacking ⟨name, false⟩ = false := by
  rw [DirEntry.unpacking, h.ext]
  change (!false && unpackingExtensions.contains (Text.toLower ".mkv")) = false
  decide

end OfPilot

theorem small_size : downloads.sizeAt (sourcePath "/downloads" small) = some 50000000 := by
  rw [small_ofPilot.path]
  rfl

theorem large_size : downloads.sizeAt (sourcePath "/downloads" large) = some 60000000 := by
  rw [large_ofPilot.path]
  simp [downloads, Volume.sizeAt]

theorem step_call (h : ∀ e ∈ files, e.isDir = false ∧ ∃ place, OfPilot e.name place) :
    step atFirst (call files) = some (called files) := by
  have hunpacked : files.any DirEntry.unpacking = false := by
    rw [List.any_eq_false]
    rintro ⟨name, isDir⟩ he
    obtain ⟨hdir, place, hpilot⟩ := h _ he
    cases hdir
    rw [hpilot.unpacking]
    decide
  have hmedia : mediaFiles files = files := by
    apply List.filter_eq_self.mpr
    intro e he
    obtain ⟨hdir, place, hpilot⟩ := h e he
    rw [hdir, hpilot.isMediaFile]
    rfl
  simp only [call, step, Run.start, hunpacked, hmedia]
  rfl

/-- Nothing is left of a copy at first. -/
theorem downloads_nothing_copied (path : String) : downloads.file (path ++ ".partial") = none := by
  have hne : ∀ name : String, name.toList.getLast? = some 'v' → path ++ ".partial" ≠ name := by
    rintro _ h rfl
    rw [String.toList_append, List.getLast?_append] at h
    simp at h
  unfold downloads
  dsimp only
  rw [if_neg (hne _ (by rw [String.toList_ofList]; decide)),
    if_neg (hne _ (by rw [String.toList_ofList]; decide))]

theorem atFirst_recorded : Recorded atFirst.world.lib atFirst.volume := by
  refine ⟨?_, ?_⟩
  · intro f hf
    cases hf
  · intro s _ f hf
    cases hf

theorem one_record_each_one : ∃ t,
    Path step Spares atFirst [call [⟨small, false⟩], .next noFaults] t ∧
      t.world.lib.files.rows.length = 1 ∧ Recorded t.world.lib t.volume := by
  have hcall : step atFirst (call [⟨small, false⟩]) = some (called [⟨small, false⟩]) :=
    step_call (List.forall_mem_singleton.mpr ⟨rfl, _, small_ofPilot⟩)
  have hspares : Spares (called [⟨small, false⟩]) (.next noFaults) := by
    intro m _
    refine ⟨?_, ?_⟩
    · rintro ⟨hsome, _⟩
      exact hsome (downloads_nothing_copied m.2)
    · intro s _ f hf
      cases hf
  obtain ⟨t, hnext, hworld, _, _⟩ := next_noFaults (s := called [⟨small, false⟩]) rfl rfl
    small_size (by decide) small_ofPilot.matchFile
  have hidle : Spares atFirst (call [⟨small, false⟩]) := trivial
  have hpath := Path.cons hidle hcall (.cons hspares hnext .nil)
  exact ⟨t, hpath, by rw [hworld]; rfl, one_record_each hpath rfl atFirst_recorded⟩

/-- The library is not the folder of the downloads. -/
theorem large_ne_destination :
    sourcePath "/downloads" large ≠ (destination breakingBad 1 pilot small).render := by
  obtain ⟨hrooted, rest, _, hparts⟩ := destination_under breakingBad 1 pilot small
  have hclean : SlashPath.clean breakingBad.path = ⟨true, ["tv", "Breaking Bad"]⟩ := by
    decide +kernel
  have hfirst : (sourcePath "/downloads" large).toList[1]? = some 'd' := by
    rw [large_ofPilot.path, String.toList_ofList]
    rfl
  intro heq
  rw [heq, SlashPath.render, hrooted, hparts, hclean, if_pos rfl] at hfirst
  simp [Text.join] at hfirst

theorem replaced_file_stays_recorded : ∃ as t, Path step Free atFirst as t ∧
    Recorded atFirst.world.lib atFirst.volume ∧
    (∃ f ∈ t.world.lib.files.rows, ∃ g ∈ t.world.lib.files.rows,
      f.id ≠ g.id ∧ f.seriesID = g.seriesID ∧ f.relativePath = g.relativePath) ∧
    ∃ s ∈ t.world.lib.series.rows, ∃ f ∈ t.world.lib.files.rows, f.seriesID = s.id ∧
      t.volume.sizeAt (Housekeeping.fullPath s f) ≠ some f.size := by
  have hcall : step atFirst (call [⟨small, false⟩, ⟨large, false⟩]) =
      some (called [⟨small, false⟩, ⟨large, false⟩]) :=
    step_call (List.forall_mem_cons.mpr ⟨⟨rfl, _, small_ofPilot⟩,
      List.forall_mem_singleton.mpr ⟨rfl, _, large_ofPilot⟩⟩)
  obtain ⟨t, hexec, hend⟩ := replaced_stays_recorded
    (s := called [⟨small, false⟩, ⟨large, false⟩]) rfl rfl (.head _) small_size large_size
    (by decide) (by decide) (by decide) small_ofPilot.matchFile large_ofPilot.matchFile
    (large_ofPilot.relativePath small_ofPilot)
    (downloads_nothing_copied _) large_ne_destination
  exact ⟨_, t, .cons trivial hcall (.of_exec hexec), atFirst_recorded, hend⟩

end Sonarr.FileRecords
