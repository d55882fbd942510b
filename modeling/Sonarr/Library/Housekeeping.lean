import Sonarr.Lib.SlashPath
import Sonarr.Library.Tables

namespace Sonarr.Housekeeping
open Lib

/-- Where the file of a row is looked for. -/
def fullPath (s : Series) (f : EpisodeFile) : String :=
  (SlashPath.join [s.path, f.relativePath]).render

/-- `missing` says for which paths `os.Stat` answers that there is no file. -/
def cleanFile (missing : String → Bool) (s : Series) (lib : Library) (f : EpisodeFile) : Library :=
  if missing (fullPath s f) then (lib.deleteFile f.id).getD lib else lib

def cleanSeries (missing : String → Bool) (lib : Library) (s : Series) : Library :=
  (lib.listFiles s.id).foldl (cleanFile missing s) lib

/-- `Runner.cleanOrphanEpisodeFiles`: the rows whose file is gone are deleted. -/
def cleanOrphanEpisodeFiles (missing : String → Bool) (lib : Library) : Library :=
  lib.listSeries.foldl (cleanSeries missing) lib

/-- What cleaning has done so far: file rows are gone, each of which had lost its file. -/
structure Cleaned (missing : String → Bool) (before after : Library) : Prop where
  rest : after = { before with files := after.files }
  only : ∀ f ∈ after.files.rows, f ∈ before.files.rows
  gone : ∀ f ∈ before.files.rows, f ∉ after.files.rows →
    ∃ s ∈ before.series.rows, f.seriesID = s.id ∧ missing (fullPath s f) = true
  constraints : before.Constraints → after.Constraints

section Cleaning
variable {missing : String → Bool} {before lib : Library} {s : Series}

theorem Cleaned.refl (missing : String → Bool) (lib : Library) : Cleaned missing lib lib :=
  ⟨rfl, fun _ hf => hf, fun _ hf hno => absurd hf hno, fun h => h⟩

theorem Cleaned.file (h : Cleaned missing before lib) (hs : s ∈ before.series.rows)
    (hf : f ∈ before.files.rows) (hown : f.seriesID = s.id) :
    Cleaned missing before (cleanFile missing s lib f) := by
  unfold cleanFile
  split
  · rename_i hmiss
    cases hd : lib.deleteFile f.id with
    | none => exact h
    | some lib' =>
      obtain ⟨hlib, hrows⟩ := Library.deleteFile_some hd
      refine ⟨?_, ?_, ?_, fun hc => (h.constraints hc).deleteFile hd⟩
      · rw [Option.getD_some, hlib, h.rest]
      · intro x hx
        exact h.only x ((hrows x).mp hx).1
      · intro x hx hno
        by_cases hxl : x ∈ lib.files.rows
        · -- The row just deleted is the one whose file is missing.
          have hid : x.id = f.id := by
            by_contra hne
            exact hno ((hrows x).mpr ⟨hxl, hne⟩)
          have heq : x = f := Table.eq_of_key hx hf hid
          subst heq
          exact ⟨s, hs, hown, hmiss⟩
        · exact h.gone x hx hxl
  · exact h

theorem Cleaned.files (h : Cleaned missing before lib) (hs : s ∈ before.series.rows)
    (files : List EpisodeFile)
    (hf : ∀ f ∈ files, f ∈ before.files.rows ∧ f.seriesID = s.id) :
    Cleaned missing before (files.foldl (cleanFile missing s) lib) := by
  induction files generalizing lib with
  | nil => exact h
  | cons f files ih =>
    obtain ⟨hm, hown⟩ := hf f List.mem_cons_self
    exact ih (h.file hs hm hown) (fun x hx => hf x (List.mem_cons_of_mem _ hx))

theorem Cleaned.series (h : Cleaned missing before lib) (all : List Series)
    (hs : ∀ s ∈ all, s ∈ before.series.rows) :
    Cleaned missing before (all.foldl (cleanSeries missing) lib) := by
  induction all generalizing lib with
  | nil => exact h
  | cons s all ih =>
    refine ih ?_ (fun x hx => hs x (List.mem_cons_of_mem _ hx))
    refine h.files (hs s List.mem_cons_self) (lib.listFiles s.id) ?_
    intro f hf
    obtain ⟨hm, hown⟩ := Library.mem_listFiles.mp hf
    exact ⟨h.only f hm, hown⟩

/-- A housekeeping run deletes only rows whose file is missing. -/
theorem cleaned (missing : String → Bool) (lib : Library) :
    Cleaned missing lib (cleanOrphanEpisodeFiles missing lib) :=
  (Cleaned.refl missing lib).series lib.listSeries (fun _ hs => Library.mem_listSeries.mp hs)

end Cleaning

end Sonarr.Housekeeping
