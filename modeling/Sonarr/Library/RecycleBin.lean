import Mathlib.Data.List.Sort
import Sonarr.Lib.AbsPath
import Sonarr.Lib.Bytes
import Sonarr.Lib.Machine
import Sonarr.Lib.Tree

namespace Sonarr.RecycleBin
open Lib

abbrev Store := Tree String Bytes

inductive Error
  | permanentDelete
  | mkdir
  | crossFsCopy
  | removeSource
  | permanentDeleteFolder
  | moveFolder
  | stat
  | notDirectory
  | readDir
  | remove (entry : String)
  deriving DecidableEq, Repr

/-- Which system calls fail for reasons that the tree does not show: permissions, a full disk, a
destination on another file system. -/
structure Faults where
  /-- How many levels are there when `MkdirAll` fails. -/
  mkdir : Option Nat := none
  rename : Bool := false
  openSource : Bool := false
  create : Bool := false
  /-- What has been written when copying or syncing fails. -/
  copy : Option Bytes := none
  remove : Bool := false
  /-- What has been removed below a folder when removing it fails. -/
  removed : List (List String) := []
  chtimes : Bool := false

/-- `filepath.Base`. -/
def baseName (path : String) : String :=
  if path = "" then "."
  else match path.toList.reverse.dropWhile (· = '/') with
    | [] => "/"
    | cs => String.ofList (cs.takeWhile (· ≠ '/')).reverse

section Calls

variable (wd : WorkingDir)

/-- Where a path leads. -/
def place (path : String) : List String := (SlashPath.absolute wd.path path).parts

/-- `os.MkdirAll`, and whether it succeeds. -/
def makeDir (fs : Store) (p : List String) (now : Nat) : Option Nat → Store × Bool
  | some levels => ((fs.mkdirAll (p.take levels) now).getD fs, false)
  | none => match fs.mkdirAll p now with
    | none => (fs, false)
    | some fs => (fs, true)

/-- `os.Rename`. The empty path leads nowhere, and a directory is not renamed to the name it has. -/
def rename (fs : Store) (now : Nat) (fault : Bool) (path dest : String) : Option Store :=
  if path = "" ∨ fault = true ∨ (path = dest ∧ fs.isDir (place wd dest) = true) then none
  else fs.rename (place wd path) (place wd dest) now

/-- `copyFile`, and whether it succeeds. The destination has been emptied when the source is read. -/
def copyFile (fs : Store) (now : Nat) (f : Faults) (src dst : String) : Store × Bool :=
  if src = "" ∨ f.openSource = true ∨ fs.node (place wd src) = none then (fs, false)
  else match if f.create then none else fs.create (place wd dst) now with
    | none => (fs, false)
    | some fs => match fs.node (place wd src), f.copy with
      | some (.file content _), none => (fs.put (place wd dst) (.file content now), true)
      | _, written => (fs.put (place wd dst) (.file (written.getD []) now), false)

/-- Only the time of the entry depends on whether `os.Chtimes` succeeds. -/
def stamp (fs : Store) (now : Nat) (f : Faults) (dest : String) : Store :=
  if f.chtimes then fs else fs.touch (place wd dest) now

def fileDest (bin subfolder path : String) : String :=
  SlashPath.joinText [bin, subfolder, baseName path]

def folderDest (bin path : String) : String := SlashPath.joinText [bin, baseName path]

/-- `DeleteFile`. -/
def deleteFile (fs : Store) (now : Nat) (f : Faults) (path bin subfolder : String) :
    Store × Except Error String :=
  if bin = "" then
    if path = "" ∨ fs.node (place wd path) = none then (fs, .ok "")
    else match if f.remove then none else fs.remove (place wd path) now with
      | none => (fs, .error .permanentDelete)
      | some fs => (fs, .ok "")
  else
    let dest := fileDest bin subfolder path
    match makeDir fs (place wd (SlashPath.dir dest).render) now f.mkdir with
    | (fs, false) => (fs, .error .mkdir)
    | (fs, true) => match rename wd fs now f.rename path dest with
      | some fs => (stamp wd fs now f dest, .ok dest)
      | none => match copyFile wd fs now f path dest with
        | (fs, false) => (fs, .error .crossFsCopy)
        | (fs, true) => match if f.remove then none else fs.remove (place wd path) now with
          | none => (fs, .error .removeSource)
          | some fs => (stamp wd fs now f dest, .ok dest)

/-- `DeleteFolder`. -/
def deleteFolder (fs : Store) (now : Nat) (f : Faults) (path bin : String) :
    Store × Except Error String :=
  if bin = "" then
    if path = "" then (fs, .ok "")
    else if f.remove then
      (f.removed.foldl (fun fs p => fs.removeAll (place wd path ++ p) now) fs,
        .error .permanentDeleteFolder)
    else (fs.removeAll (place wd path) now, .ok "")
  else
    let dest := folderDest bin path
    match makeDir fs (place wd (SlashPath.dir dest).render) now f.mkdir with
    | (fs, false) => (fs, .error .mkdir)
    | (fs, true) => match rename wd fs now f.rename path dest with
      | none => (fs, .error .moveFolder)
      | some fs => (stamp wd fs now f dest, .ok dest)

structure CleanupFaults where
  stat : Bool := false
  readDir : Bool := false
  info : String → Bool := fun _ => false
  /-- What has been removed below an entry when removing it fails. -/
  removeAll : String → Option (List (List String)) := fun _ => none

/-- The loop of `Cleanup` over the entries that are left. -/
def purge (now : Nat) (maxAge : Int) (f : CleanupFaults) (bin : List String) (removed : Nat)
    (fs : Store) : List String → Store × Except Error Nat
  | [] => (fs, .ok removed)
  | x :: rest => match fs.node (bin ++ [x]) with
    | none => purge now maxAge f bin removed fs rest
    | some n =>
      if f.info x = true ∨ (now : Int) - maxAge < n.mtime then purge now maxAge f bin removed fs rest
      else match f.removeAll x with
        | some gone =>
          (gone.foldl (fun fs p => fs.removeAll (bin ++ x :: p) now) fs, .error (.remove x))
        | none => purge now maxAge f bin (removed + 1) (fs.removeAll (bin ++ [x]) now) rest

/-- `Cleanup`; directories are read in the order of the names. -/
def cleanup (fs : Store) (now : Nat) (f : CleanupFaults) (bin : String) (maxAge : Int) :
    Store × Except Error Nat :=
  if bin = "" ∨ maxAge ≤ 0 then (fs, .ok 0)
  else if f.stat then (fs, .error .stat)
  else match fs.node (place wd bin) with
    | none => (fs, .ok 0)
    | some (.file ..) => (fs, .error .notDirectory)
    | some (.dir _) =>
      if f.readDir then (fs, .error .readDir)
      else purge now maxAge f (place wd bin) 0 fs
        ((fs.entries (place wd bin)).insertionSort (· ≤ ·))

/-- The maximal age of the scheduled task: days as a duration in nanoseconds, in 64 bits. -/
def cleanupAge (days : Int) : Int := Int.bmod (days * 24 * 3600000000000) 18446744073709551616

end Calls

section Specs

variable {wd : WorkingDir} {fs fs' : Store} {now : Nat} {f : Faults} {path bin sub : String}

theorem makeDir_keeps (h : makeDir fs p now fault = (fs', made)) (q : List String)
    (hq : fs.node q ≠ none) : Tree.Keeps now fs fs' q := by
  have hmk : ∀ p fs', fs.mkdirAll p now = some fs' → Tree.Keeps now fs fs' q :=
    fun p fs' h => Tree.mkdirBelow_keeps h (.inl hq)
  unfold makeDir at h
  split at h
  · cases h
    cases hm : fs.mkdirAll (p.take _) now with
    | none => exact .refl
    | some fs' => exact hmk _ _ hm
  · split at h
    · cases h
      exact .refl
    · rename_i hm
      cases h
      exact hmk _ _ hm

theorem makeDir_ok (h : makeDir fs p now fault = (fs', true)) : fs.mkdirAll p now = some fs' := by
  unfold makeDir at h
  split at h
  · cases h
  · split at h
    · cases h
    · rename_i hm
      cases h
      exact hm

/-- A copy that fails leaves all but its destination as it was. -/
theorem copyFile_failed (h : copyFile wd fs now f src dst = (fs', false)) (hq : q ≠ place wd dst) :
    Tree.Keeps now fs fs' q := by
  unfold copyFile at h
  split at h
  · cases h
    exact .refl
  · split at h
    · cases h
      exact .refl
    · rename_i hc
      rw [Option.ite_none_left_eq_some] at hc
      split at h
      · cases h
      · cases h
        exact (Tree.create_keeps hc.2 hq).trans (Tree.put_keeps hq _)

theorem copyFile_ok (h : copyFile wd fs now f src dst = (fs', true)) : ∃ made content m,
    fs.create (place wd dst) now = some made ∧ made.node (place wd src) = some (.file content m) ∧
      fs' = made.put (place wd dst) (.file content now) := by
  unfold copyFile at h
  split at h
  · cases h
  · split at h
    · cases h
    · rename_i made hc
      rw [Option.ite_none_left_eq_some] at hc
      split at h
      · rename_i content m hfile _
        cases h
        exact ⟨made, content, m, hc.2, hfile, rfl⟩
      · cases h

/-- What a call that recycles `src` has done. -/
structure Recycled (now : Nat) (f : Faults) (fs fs' : Store) (src dest : List String) : Prop where
  moved : Tree.Moved now fs fs' src dest
  stamped : f.chtimes = false → ∀ n, fs'.node dest = some n → n.mtime = now

theorem stamp_recycled (h : Tree.Moved now fs fs' src (place wd dest)) :
    Recycled now f fs (stamp wd fs' now f dest) src (place wd dest) := by
  unfold stamp
  split
  · rename_i hf
    exact ⟨h, fun hc => absurd (hf.symm.trans hc) (by simp)⟩
  · refine ⟨h.keeps (fun q => Tree.touch_keeps ..), ?_⟩
    intro _ n hn
    rw [Tree.touch_node] at hn
    obtain ⟨n', -, rfl⟩ := Option.map_eq_some_iff.mp hn
    cases n' <;> rfl

theorem rename_recycled (h : rename wd fs now fault path dest = some fs')
    (hne : place wd path ≠ place wd dest) :
    Tree.Moved now fs fs' (place wd path) (place wd dest) := by
  unfold rename at h
  rw [Option.ite_none_left_eq_some] at h
  exact Tree.rename_moved h.2 hne

/-- When recycling a file fails, only its destination may have changed. -/
theorem deleteFile_failed (hbin : bin ≠ "") (h : deleteFile wd fs now f path bin sub = (fs', .error e))
    (hq : fs.node q ≠ none) (hdest : q ≠ place wd (fileDest bin sub path)) :
    Tree.Keeps now fs fs' q := by
  unfold deleteFile at h
  rw [if_neg hbin] at h
  dsimp only at h
  split at h
  · rename_i hmk
    cases h
    exact makeDir_keeps hmk q hq
  · rename_i fs₁ hmk
    have h₁ := makeDir_keeps hmk q hq
    split at h
    · cases h
    · split at h
      · rename_i hcopy
        cases h
        exact h₁.trans (copyFile_failed hcopy hdest)
      · rename_i hcopy
        obtain ⟨made, content, m, hmade, -, rfl⟩ := copyFile_ok hcopy
        split at h
        · cases h
          exact h₁.trans ((Tree.create_keeps hmade hdest).trans (Tree.put_keeps hdest _))
        · cases h

/-- The directories that are made are those on the way to the destination. -/
theorem dest_place (wd : WorkingDir) {l : List String} (hl : ∃ e ∈ l, e ≠ "")
    (hname : SlashPath.Plain name) :
    place wd (SlashPath.joinText (l ++ [name])) =
      place wd (SlashPath.dir (SlashPath.joinText (l ++ [name]))).render ++ [name] := by
  unfold place
  rw [SlashPath.absolute_dir_joinText wd.rooted hl hname,
    SlashPath.absolute_joinText_name wd.rooted hl hname]

theorem fileDest_place (wd : WorkingDir) (hbin : bin ≠ "") (sub : String)
    (hbase : SlashPath.Plain (baseName path)) :
    place wd (fileDest bin sub path) =
      place wd (SlashPath.dir (fileDest bin sub path)).render ++ [baseName path] :=
  dest_place wd (l := [bin, sub]) ⟨bin, by simp, hbin⟩ hbase

theorem folderDest_place (wd : WorkingDir) (hbin : bin ≠ "")
    (hbase : SlashPath.Plain (baseName path)) :
    place wd (folderDest bin path) =
      place wd (SlashPath.dir (folderDest bin path)).render ++ [baseName path] :=
  dest_place wd (l := [bin]) ⟨bin, by simp, hbin⟩ hbase

theorem Recycled.after_makeDir (hmk : makeDir fs par now fault = (fs', true))
    (hdest : dest = par ++ [name]) (h : Recycled now f fs' fs'' src dest) :
    Recycled now f fs fs'' src dest := by
  subst hdest
  exact ⟨h.moved.after_mkdirAll (makeDir_ok hmk), h.stamped⟩

theorem deleteFile_ok (hbin : bin ≠ "") (h : deleteFile wd fs now f path bin sub = (fs', .ok dest))
    (hbase : SlashPath.Plain (baseName path)) (hne : place wd path ≠ place wd (fileDest bin sub path)) :
    Recycled now f fs fs' (place wd path) (place wd (fileDest bin sub path)) := by
  unfold deleteFile at h
  rw [if_neg hbin] at h
  dsimp only at h
  split at h
  · cases h
  · rename_i hmk
    apply Recycled.after_makeDir hmk (fileDest_place wd hbin sub hbase)
    split at h
    · rename_i hren
      cases h
      exact stamp_recycled (rename_recycled hren hne)
    · split at h
      · cases h
      · rename_i hcopy
        obtain ⟨made, content, m, hmade, hfile, rfl⟩ := copyFile_ok hcopy
        split at h
        · cases h
        · rename_i hrem
          rw [Option.ite_none_left_eq_some] at hrem
          cases h
          exact stamp_recycled (Tree.copied_moved hmade hfile hrem.2 hne)

/-- A folder that is not moved stays as it is. -/
theorem deleteFolder_failed (hbin : bin ≠ "") (h : deleteFolder wd fs now f path bin = (fs', .error e))
    (hq : fs.node q ≠ none) : Tree.Keeps now fs fs' q := by
  unfold deleteFolder at h
  rw [if_neg hbin] at h
  dsimp only at h
  split at h
  · rename_i hmk
    cases h
    exact makeDir_keeps hmk q hq
  · rename_i hmk
    split at h
    · cases h
      exact makeDir_keeps hmk q hq
    · cases h

theorem deleteFolder_ok (hbin : bin ≠ "") (h : deleteFolder wd fs now f path bin = (fs', .ok dest))
    (hbase : SlashPath.Plain (baseName path)) (hne : place wd path ≠ place wd (folderDest bin path)) :
    Recycled now f fs fs' (place wd path) (place wd (folderDest bin path)) := by
  unfold deleteFolder at h
  rw [if_neg hbin] at h
  dsimp only at h
  split at h
  · cases h
  · rename_i hmk
    apply Recycled.after_makeDir hmk (folderDest_place wd hbin hbase)
    split at h
    · cases h
    · rename_i hren
      cases h
      exact stamp_recycled (rename_recycled hren hne)

theorem foldl_removeAll_keeps {g : List String → List String} (hq : ∀ p, ¬ g p <+: q)
    (gone : List (List String)) :
    Tree.Keeps now fs (gone.foldl (fun fs p => fs.removeAll (g p) now) fs) q := by
  induction gone generalizing fs with
  | nil => exact .refl
  | cons p gone ih => exact (Tree.removeAll_keeps (hq p)).trans ih

/-- An entry whose time is after the cutoff is left alone, with what is below it. -/
theorem purge_keeps (hn : fs.node (root ++ [x]) = some n) (hfresh : since ≤ n.mtime)
    (hage : (now : Int) - maxAge < since) (hnow : since ≤ now) (hq : root ++ [x] <+: q)
    (h : purge now maxAge cf root removed fs es = (fs', res)) : Tree.Keeps now fs fs' q := by
  induction es generalizing fs removed n with
  | nil =>
    cases h
    exact .refl
  | cons y es ih =>
    have hother : ∀ p, y ≠ x → ∀ q, root ++ [x] <+: q → ¬ root ++ y :: p <+: q := by
      intro p hne q hq hp
      have hle : (root ++ [x]).length ≤ (root ++ y :: p).length := by simp
      have hxy := List.prefix_of_prefix_length_le hq hp hle
      rw [List.prefix_append_right_inj, List.cons_prefix_cons] at hxy
      exact hne hxy.1.symm
    unfold purge at h
    split at h
    · exact ih hn hfresh h
    · rename_i n' hn'
      split at h
      · exact ih hn hfresh h
      · rename_i hold
        rw [not_or, not_lt] at hold
        have hyx : y ≠ x := by
          rintro rfl
          rw [hn, Option.some.injEq] at hn'
          subst hn'
          omega
        split at h
        · cases h
          exact foldl_removeAll_keeps (fun p => hother p hyx q hq) _
        · have hx : Tree.Keeps now fs (fs.removeAll (root ++ [y]) now) (root ++ [x]) :=
            Tree.removeAll_keeps (hother [] hyx _ (List.prefix_refl _))
          obtain ⟨m, hm, hfresh'⟩ := hx.mtime_le hn hfresh hnow
          exact (Tree.removeAll_keeps (hother [] hyx q hq)).trans (ih hm hfresh' h)

theorem cleanup_keeps (hn : fs.node (place wd bin ++ [x]) = some n) (hfresh : since ≤ n.mtime)
    (hage : 0 < maxAge → (now : Int) - maxAge < since) (hnow : since ≤ now)
    (hq : place wd bin ++ [x] <+: q) :
    Tree.Keeps now fs (cleanup wd fs now cf bin maxAge).1 q := by
  unfold cleanup
  split
  · exact .refl
  rename_i hskip
  split
  · exact .refl
  split
  · exact .refl
  · exact .refl
  split
  · exact .refl
  rw [not_or, not_le] at hskip
  exact purge_keeps hn hfresh (hage hskip.2) hnow hq rfl

end Specs

/-- A file that was recycled: where it was put, what it holds and when. -/
structure Record where
  place : List String
  content : Bytes
  time : Nat
  deriving DecidableEq, Repr

/-- The files at `p` or below, each with the rest of its path. -/
def filesBelow (fs : Store) (p : List String) : List (List String × Bytes) :=
  fs.paths.filterMap (fun q => if p <+: q then
    match fs.node q with
    | some (.file content _) => some (q.drop p.length, content)
    | _ => none
  else none)

theorem mem_filesBelow {fs : Store} :
    (rest, content) ∈ filesBelow fs p ↔ ∃ m, fs.node (p ++ rest) = some (.file content m) := by
  unfold filesBelow
  rw [List.mem_filterMap]
  constructor
  · rintro ⟨q, -, hq⟩
    rw [Option.ite_none_right_eq_some] at hq
    obtain ⟨⟨rest', rfl⟩, hq⟩ := hq
    rw [List.drop_left] at hq
    split at hq
    · rename_i m hm
      cases hq
      exact ⟨m, hm⟩
    · cases hq
  · rintro ⟨m, hm⟩
    refine ⟨p ++ rest, fs.listed _ (by rw [hm]; simp), ?_⟩
    rw [if_pos (List.prefix_append ..), List.drop_left]
    simp only [hm]

/-- What is on disk, the time, and the files that were recycled and may not be purged yet. -/
structure State where
  fs : Store
  clock : Nat
  recycled : List Record

inductive Action
  | deleteFile (path subfolder : String) (f : Faults)
  | deleteFolder (path : String) (f : Faults)
  | cleanup (maxAge : Int) (f : CleanupFaults)
  | cleanupTask (days : Int) (f : CleanupFaults)
  | advance (d : Nat)

/-- A call that succeeds recycles the files at `src` and below. -/
def State.recycle (s : State) (src dest : List String) : Store × Except Error String → State
  | (fs, .error _) => { s with fs := fs }
  | (fs, .ok _) =>
    { s with
      fs := fs
      recycled := (filesBelow s.fs src).map (fun x => ⟨dest ++ x.1, x.2, s.clock⟩) ++ s.recycled }

/-- A cleanup may purge what was recycled `maxAge` ago or before. -/
def State.purge (s : State) (maxAge : Int) (fs : Store) : State :=
  { s with
    fs := fs
    recycled := s.recycled.filter (fun r => ¬ (0 < maxAge ∧ (r.time : Int) + maxAge ≤ s.clock)) }

variable (wd : WorkingDir) (bin : String)

def step (s : State) : Action → Option State
  | .deleteFile path sub f => some (s.recycle (place wd path) (place wd (fileDest bin sub path))
      (deleteFile wd s.fs s.clock f path bin sub))
  | .deleteFolder path f => some (s.recycle (place wd path) (place wd (folderDest bin path))
      (deleteFolder wd s.fs s.clock f path bin))
  | .cleanup maxAge f => some (s.purge maxAge (cleanup wd s.fs s.clock f bin maxAge).1)
  | .cleanupTask days f =>
    some (s.purge (cleanupAge days) (cleanup wd s.fs s.clock f bin (cleanupAge days)).1)
  | .advance d => some { s with clock := s.clock + d }

/-- Where a recycled file may go: into the bin, where nothing is yet, and so that the entry of the
bin that it is in or below has changed by this. -/
structure Clear (fs : Store) (f : Faults) (src dest : List String) : Prop where
  outside : ¬ place wd bin <+: src
  lands : ∃ x, (dest = place wd bin ++ [x] ∧ fs.node dest = none ∧ f.chtimes = false) ∨
    ∃ y rest, dest = place wd bin ++ x :: y :: rest ∧ fs.node (place wd bin ++ [x, y]) = none

def Orderly (s : State) : Action → Prop
  | .deleteFile path sub f => SlashPath.Plain (baseName path) ∧
      Clear wd bin s.fs f (place wd path) (place wd (fileDest bin sub path))
  | .deleteFolder path f => SlashPath.Plain (baseName path) ∧
      Clear wd bin s.fs f (place wd path) (place wd (folderDest bin path))
  | _ => True

/-- The recycled file is still there, in or below an entry of the bin that has changed since. -/
structure Held (fs : Store) (clock : Nat) (r : Record) : Prop where
  past : r.time ≤ clock
  file : ∃ m, fs.node r.place = some (.file r.content m)
  entry : ∃ x n, place wd bin ++ [x] <+: r.place ∧ fs.node (place wd bin ++ [x]) = some n ∧
    r.time ≤ n.mtime

def Inv (s : State) : Prop := ∀ r ∈ s.recycled, Held wd bin s.fs s.clock r

variable {wd : WorkingDir} {bin : String} {fs fs' : Store} {now : Nat}

/-- It is enough that its entry of the bin is kept with what is below. -/
theorem Held.keeps (h : Held wd bin fs now r)
    (hk : ∀ x n, fs.node (place wd bin ++ [x]) = some n → r.time ≤ n.mtime →
      ∀ q, place wd bin ++ [x] <+: q → fs.node q ≠ none → Tree.Keeps now fs fs' q) :
    Held wd bin fs' now r := by
  obtain ⟨m, hm⟩ := h.file
  obtain ⟨x, n, hx, hn, htime⟩ := h.entry
  have hk := hk x n hn htime
  obtain ⟨n', hn', htime'⟩ := (hk _ (List.prefix_refl _) (by rw [hn]; simp)).mtime_le hn htime h.past
  exact ⟨h.past, (hk _ hx (by rw [hm]; simp)).file hm, x, n', hx, hn', htime'⟩

section Clear

variable {f : Faults} {src dest : List String} (h : Clear wd bin fs f src dest)
include h

theorem Clear.in_bin : place wd bin <+: dest := by
  obtain ⟨x, ⟨rfl, -⟩ | ⟨y, rest, rfl, -⟩⟩ := h.lands
  · exact List.prefix_append ..
  · exact List.prefix_append ..

theorem Clear.free : fs.node dest = none := by
  obtain ⟨x, ⟨-, hnone, -⟩ | ⟨y, rest, rfl, hnone⟩⟩ := h.lands
  · exact hnone
  · exact Tree.node_below_none hnone ⟨rest, by simp⟩

theorem Clear.src_ne : src ≠ dest := by
  rintro rfl
  exact h.outside h.in_bin

end Clear

/-- A call that fails has kept what was recycled before. -/
theorem Inv.failed {s : State} (hinv : Inv wd bin s) (hfree : s.fs.node dest = none)
    (hk : ∀ q, s.fs.node q ≠ none → q ≠ dest → Tree.Keeps s.clock s.fs fs' q) :
    Inv wd bin { s with fs := fs' } := by
  intro r hr
  refine (hinv r hr).keeps (fun x n _ _ q _ hq => hk q hq ?_)
  rintro rfl
  exact hq hfree

theorem Inv.recycled {s : State} {src dest : List String} (hinv : Inv wd bin s)
    (hclear : Clear wd bin s.fs f src dest) (h : Recycled s.clock f s.fs fs' src dest) (d : String) :
    Inv wd bin (s.recycle src dest (fs', .ok d)) := by
  intro r hr
  rcases List.mem_append.mp hr with hr | hr
  · obtain ⟨⟨rest, content⟩, hmem, rfl⟩ := List.mem_map.mp hr
    obtain ⟨m, hm⟩ := mem_filesBelow.mp hmem
    obtain ⟨m', hm'⟩ := h.moved.files rest content m hm
    refine ⟨Nat.le_refl _, ⟨m', hm'⟩, ?_⟩
    obtain ⟨x, ⟨rfl, -, hstamp⟩ | ⟨y, rest', rfl, hnone⟩⟩ := hclear.lands
    · -- The entry of the bin is the recycled one, and its time has been set.
      cases hn : fs'.node (place wd bin ++ [x]) with
      | none =>
        have hbelow := Tree.node_below_none hn (List.prefix_append _ rest)
        rw [hm'] at hbelow
        cases hbelow
      | some n => exact ⟨x, n, List.prefix_append .., hn, (h.stamped hstamp n hn).ge⟩
    · -- The entry of the bin is a directory that got a new entry itself.
      have hdir := h.moved.fresh (place wd bin ++ [x]) y ⟨rest', by simp⟩ (by simpa using hnone)
      exact ⟨x, .dir s.clock, ⟨y :: (rest' ++ rest), by simp⟩, hdir, Nat.le_refl _⟩
  · refine (hinv r hr).keeps (fun x n _ _ q hxq hq => h.moved.others q hq ?_ ?_)
    · -- A source above the bin could not be moved into it.
      intro hsrc
      have hbq : place wd bin <+: q := (List.prefix_append ..).trans hxq
      rcases List.prefix_or_prefix_of_prefix hsrc hbq with hup | hin
      · exact h.moved.apart (hup.trans hclear.in_bin)
      · exact hclear.outside hin
    · exact fun hdest => hq (Tree.node_below_none hclear.free hdest)

theorem Inv.purge {s : State} (hinv : Inv wd bin s) (maxAge : Int) (cf : CleanupFaults) :
    Inv wd bin (s.purge maxAge (cleanup wd s.fs s.clock cf bin maxAge).1) := by
  intro r hr
  obtain ⟨hr, hyoung⟩ := List.mem_filter.mp hr
  rw [decide_eq_true_eq, not_and, not_le] at hyoung
  refine (hinv r hr).keeps (fun x n hn htime q hq _ => ?_)
  refine cleanup_keeps hn htime (fun hpos => ?_) (hinv r hr).past hq
  have := hyoung hpos
  omega

theorem step_inv {s t : State} (hbin : bin ≠ "") (hok : Orderly wd bin s a)
    (h : step wd bin s a = some t) (hinv : Inv wd bin s) : Inv wd bin t := by
  cases a with
  | deleteFile path sub f =>
    obtain ⟨hbase, hclear⟩ := hok
    simp only [step, Option.some.injEq] at h
    rw [← h]
    rcases hres : deleteFile wd s.fs s.clock f path bin sub with ⟨fs', err | dest⟩
    · exact hinv.failed hclear.free (fun q hq hne => deleteFile_failed hbin hres hq hne)
    · exact hinv.recycled hclear (deleteFile_ok hbin hres hbase hclear.src_ne) dest
  | deleteFolder path f =>
    obtain ⟨hbase, hclear⟩ := hok
    simp only [step, Option.some.injEq] at h
    rw [← h]
    rcases hres : deleteFolder wd s.fs s.clock f path bin with ⟨fs', err | dest⟩
    · exact hinv.failed hclear.free (fun q hq _ => deleteFolder_failed hbin hres hq)
    · exact hinv.recycled hclear (deleteFolder_ok hbin hres hbase hclear.src_ne) dest
  | cleanup maxAge cf =>
    cases h
    exact hinv.purge maxAge cf
  | cleanupTask days cf =>
    cases h
    exact hinv.purge (cleanupAge days) cf
  | advance d =>
    cases h
    intro r hr
    obtain ⟨hpast, hfile, hentry⟩ := hinv r hr
    exact ⟨Nat.le_add_right_of_le hpast, hfile, hentry⟩

variable (wd bin) in
/-- A `DeleteFile` that fails leaves the file in place. -/
def SourceStays (s : State) : Action → Prop
  | .deleteFile path sub f => ∀ fs' err content m,
      deleteFile wd s.fs s.clock f path bin sub = (fs', .error err) →
      s.fs.node (place wd path) = some (.file content m) →
      ∃ m', fs'.node (place wd path) = some (.file content m')
  | _ => True

theorem Orderly.sourceStays (hbin : bin ≠ "") (h : Orderly wd bin s a) : SourceStays wd bin s a := by
  cases a with
  | deleteFile path sub f =>
    intro fs' err content m hres hm
    exact (deleteFile_failed hbin hres (by rw [hm]; simp) h.2.src_ne).file hm
  | _ => trivial

def rootDir : WorkingDir := ⟨"/", by decide⟩

/-- Two files of the same name in two folders. -/
def twoFiles : State where
  fs := (((Tree.root 0).put ["a"] (.dir 0)).put ["b"] (.dir 0)).put ["a", "x"] (.file [1] 0)
    |>.put ["b", "x"] (.file [2] 0)
  clock := 1
  recycled := []

theorem orderly_file {s : State} (hbase : baseName path = "x") (f : Faults)
    (h : Clear wd bin s.fs f (place wd path) (place wd (fileDest bin sub path))) :
    Orderly wd bin s (.deleteFile path sub f) :=
  ⟨hbase ▸ ⟨by decide, by decide, by decide, by decide⟩, h⟩

/-- The two go to two folders of the bin and outlast a cleanup. -/
theorem two_folders : ∃ t,
    Path (step rootDir "/bin") (Orderly rootDir "/bin") twoFiles
      [.deleteFile "/a/x" "a" {}, .advance 3, .deleteFile "/b/x" "b" {}, .cleanup 4 {}] t ∧
    t.recycled.length = 2 := by
  refine ⟨_, .cons (orderly_file (by decide +kernel) _ ?_) rfl (.cons trivial rfl
    (.cons (orderly_file (by decide +kernel) _ ?_) rfl (.cons trivial rfl .nil))), ?_⟩
  · exact ⟨by decide +kernel, "a", .inr ⟨"x", [], by decide +kernel, by decide +kernel⟩⟩
  · exact ⟨by decide +kernel, "b", .inr ⟨"x", [], by decide +kernel, by decide +kernel⟩⟩
  · decide +kernel

/-- In a run of orderly calls all files that were recycled and are not too old yet are in the bin,
and no call that fails has cost a file. -/
theorem recycled_files_stay {s t : State} (hbin : bin ≠ "") (hstart : s.recycled = [])
    (h : Path (step wd bin) (Orderly wd bin) s as t) :
    (∀ r ∈ t.recycled, (∃ x, place wd bin ++ [x] <+: r.place) ∧
      ∃ m, t.fs.node r.place = some (.file r.content m)) ∧
    ∀ x ∈ transitions (step wd bin) s as, SourceStays wd bin x.1 x.2 := by
  constructor
  · have hinv : Inv wd bin t := by
      refine h.invariant (fun s a t hok hst hs => step_inv hbin hok hst hs) ?_
      intro r hr
      rw [hstart] at hr
      cases hr
    intro r hr
    obtain ⟨x, n, hx, -, -⟩ := (hinv r hr).entry
    exact ⟨⟨x, hx⟩, (hinv r hr).file⟩
  · intro x hx
    exact (h.transitions_guard x hx).sourceStays hbin

theorem recycled_files_stay_two : ∃ t : State, t.recycled.length = 2 ∧
    ∀ r ∈ t.recycled, (∃ x, place rootDir "/bin" ++ [x] <+: r.place) ∧
      ∃ m, t.fs.node r.place = some (.file r.content m) := by
  obtain ⟨t, hrun, htwo⟩ := two_folders
  exact ⟨t, htwo, (recycled_files_stay (by decide) rfl hrun).1⟩

/-- No file holds `content`. -/
def gone (fs : Store) (content : Bytes) : Bool :=
  fs.paths.all (fun p => match fs.node p with
    | some (.file c _) => c ≠ content
    | _ => true)

theorem gone_spec (h : gone fs content = true) (q : List String) (m : Nat) :
    fs.node q ≠ some (.file content m) := by
  intro hq
  have hmem := fs.listed q (by rw [hq]; simp)
  have hne := List.all_eq_true.mp h q hmem
  simp [hq] at hne

/-- A file of the same name takes the place of the first one; and a cleanup takes a new file
along with the folder that it is two levels below. -/
theorem recycled_files_lost :
    (∃ t r, Path (step rootDir "/bin") Free twoFiles
        [.deleteFile "/a/x" "" {}, .deleteFile "/b/x" "" {}] t ∧
      r ∈ t.recycled ∧ ∀ q m, t.fs.node q ≠ some (.file r.content m)) ∧
    ∃ t r, Path (step rootDir "/bin") Free twoFiles
        [.deleteFile "/a/x" "s/t" {}, .advance 10, .deleteFile "/b/x" "s/t/u" {}, .cleanup 5 {}] t ∧
      r ∈ t.recycled ∧ ∀ q m, t.fs.node q ≠ some (.file r.content m) := by
  refine ⟨⟨_, ⟨["bin", "x"], [1], 1⟩, .of_exec rfl, ?_, ?_⟩,
    ⟨_, ⟨["bin", "s", "t", "u", "x"], [2], 11⟩, .of_exec rfl, ?_, ?_⟩⟩
  · decide +kernel
  · exact gone_spec (by decide +kernel)
  · decide +kernel
  · exact gone_spec (by decide +kernel)

end Sonarr.RecycleBin
