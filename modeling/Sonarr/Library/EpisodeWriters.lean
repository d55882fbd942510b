import Sonarr.Commands.RefreshSeries
import Sonarr.Importer.Service
import Sonarr.Lib.Machine
import Sonarr.Lib.Register

namespace Sonarr.EpisodeWriters
open Lib Commands.RefreshSeries Importer

/-- How often each episode's flag and file had been written when something was read. -/
structure Seen where
  flags : Nat → Nat
  files : Nat → Nat

/-- Step 7 of a refresh; the steps before it do not touch episodes. -/
inductive Refresh
  | waiting
  | running (existing : List Episode) (left : List EpisodeInfo) (seen : Seen)

/-- `episodeHandler.update`, with the flag of the request. -/
inductive Put
  | waiting
  | read (existing : Episode) (monitored : Bool) (seen : Seen)
  | done

/-- `SetMonitored`, which looks its episode up first. -/
inductive Call
  | waiting
  | found (episodeID : Nat) (monitored : Bool)
  | done

/-- `importFile`, from the listing of the episodes on. -/
inductive Import
  | waiting
  | listed (series : Series) (filename : String) (number : Nat) (ep : Episode) (seen : Seen)
  | filed (ep : Episode) (fileID : Nat) (seen : Seen)
  | done (episodeID fileID : Nat)

/-- The four kinds of writers at work. The registers say which flag and which file were
last written by a writer that meant to. -/
structure State where
  lib : Library
  refresh : Refresh
  put : Put
  calls : Nat → Call
  importer : Import
  flags : Register Bool
  files : Register (Option Nat)

def start (lib : Library) : State where
  lib := lib
  refresh := .waiting
  put := .waiting
  calls := fun _ => .waiting
  importer := .waiting
  flags := ⟨fun n => ((lib.episodes.get n).map Episode.monitored).getD false, fun _ => 0⟩
  files := ⟨fun n => (lib.episodes.get n).bind Episode.episodeFileID, fun _ => 0⟩

def State.seen (s : State) : Seen := ⟨s.flags.writes, s.files.writes⟩

/-- The id of the row that a refresh creates for an episode, if it does. -/
def createdID (now : Int) (seriesID : Nat) (existing : List Episode) (lib : Library)
    (ep : EpisodeInfo) : Option Nat :=
  match lookup existing ep with
  | some _ => none
  | none => (lib.createEpisode now (created seriesID ep)).map (fun _ => lib.episodes.next)

/-- A created episode is monitored and has no file. -/
def State.begin (s : State) : Option Nat → State
  | none => s
  | some n => { s with flags := s.flags.write n true, files := s.files.write n none }

inductive Action
  | refreshList (episodes : List EpisodeInfo)
  | refreshNext (now : Int)
  | putGet (episodeID : Nat) (monitored : Bool)
  | putWrite (now : Int)
  | callFind (i episodeID : Nat) (monitored : Bool)
  | callWrite (i : Nat) (now : Int)
  | importList (filename : String)
  | importCreate (size : Int)
  | importWrite (now : Int)

/-- A store step of one of the writers on a series. -/
def step (seriesID : Nat) (s : State) : Action → Option State
  | .refreshList episodes => match s.refresh with
    | .waiting => some { s with refresh := .running (s.lib.listForSeries seriesID) episodes s.seen }
    | _ => none
  | .refreshNext now => match s.refresh with
    | .running existing (ep :: left) seen =>
      some ({ s with
        lib := upsertEpisode now seriesID existing s.lib ep
        refresh := .running existing left seen }.begin (createdID now seriesID existing s.lib ep))
    | _ => none
  | .putGet n monitored => match s.put with
    | .waiting => (s.lib.episodes.get n).map (fun e => { s with put := .read e monitored s.seen })
    | _ => none
  | .putWrite now => match s.put with
    | .read e monitored _ => some { s with
        lib := s.lib.updateEpisode now { e with monitored }
        put := .done
        flags := s.flags.write e.id monitored }
    | _ => none
  | .callFind i n monitored => match s.calls i with
    | .waiting => (s.lib.episodes.get n).map (fun _ =>
        { s with calls := Function.update s.calls i (.found n monitored) })
    | _ => none
  | .callWrite i now => match s.calls i with
    | .found n monitored => some { s with
        lib := s.lib.writeMonitored now n monitored
        calls := Function.update s.calls i .done
        flags := s.flags.write n monitored }
    | _ => none
  | .importList filename => match s.importer with
    | .waiting => (s.lib.series.get seriesID).bind (fun series =>
        (matchFile (s.lib.listForSeries seriesID) filename).map (fun (number, ep) =>
          { s with importer := .listed series filename number ep s.seen }))
    | _ => none
  | .importCreate size => match s.importer with
    | .listed series filename number ep seen =>
      (s.lib.createFile (fileRow series number ep filename size)).map (fun lib =>
        { s with lib, importer := .filed ep s.lib.files.next seen })
    | _ => none
  | .importWrite now => match s.importer with
    | .filed ep fileID _ => some { s with
        lib := s.lib.updateEpisode now { ep with episodeFileID := some fileID }
        importer := .done ep.id fileID
        files := s.files.write ep.id (some fileID) }
    | _ => none

/-- Flag and file of every episode are those last written by a writer that meant to. -/
def Intended (s : State) : Prop :=
  ∀ e ∈ s.lib.episodes.rows,
    e.monitored = s.flags.value e.id ∧ e.episodeFileID = s.files.value e.id

/-- Between its reading of an episode and its write nobody else has written what the
writer writes back: flag and file for a refresh, the file for the request, the flag for
the import. -/
def Undisturbed (s : State) : Action → Prop
  | .refreshNext _ => ∀ existing ep left seen old, s.refresh = .running existing (ep :: left) seen →
      lookup existing ep = some old →
        s.flags.writes old.id = seen.flags old.id ∧ s.files.writes old.id = seen.files old.id
  | .putWrite _ => ∀ e monitored seen, s.put = .read e monitored seen →
      s.files.writes e.id = seen.files e.id
  | .importWrite _ => ∀ ep fileID seen, s.importer = .filed ep fileID seen →
      s.flags.writes ep.id = seen.flags ep.id
  | _ => True

section Copies

def Refresh.copies : Refresh → List (Episode × Seen)
  | .waiting => []
  | .running existing _ seen => existing.map (fun e => (e, seen))

def Put.copies : Put → List (Episode × Seen)
  | .read e _ seen => [(e, seen)]
  | _ => []

def Import.copies : Import → List (Episode × Seen)
  | .listed _ _ _ ep seen | .filed ep _ seen => [(ep, seen)]
  | _ => []

/-- The episodes that writers have read and not yet written back. -/
def State.copies (s : State) : List (Episode × Seen) :=
  s.refresh.copies ++ s.put.copies ++ s.importer.copies

/-- The copy of an episode is right as of when it was made. -/
structure State.Holds (s : State) (e : Episode) (seen : Seen) : Prop where
  flag : s.flags.Holds seen.flags e.id e.monitored
  file : s.files.Holds seen.files e.id e.episodeFileID
  known : e.id < s.lib.episodes.next

structure Sound (s : State) : Prop where
  rows : Intended s
  held : ∀ c ∈ s.copies, s.Holds c.1 c.2
  imported : ∀ n fileID, s.importer = .done n fileID →
    s.files.value n = some fileID ∧ n < s.lib.episodes.next

variable {s s' : State}

theorem Intended.copy (h : Intended s) (he : e ∈ s.lib.episodes.rows) : s.Holds e s.seen where
  flag := .copy (h e he).1
  file := .copy (h e he).2
  known := s.lib.episodes.below e he

theorem mem_copies : c ∈ s.copies ↔
    c ∈ s.refresh.copies ∨ c ∈ s.put.copies ∨ c ∈ s.importer.copies := by
  unfold State.copies
  rw [List.mem_append, List.mem_append, or_assoc]

theorem start_sound (lib : Library) : Sound (start lib) where
  rows := by
    intro e he
    have hget : lib.episodes.get e.id = some e := Table.get_eq_some.mpr ⟨he, rfl⟩
    simp [start, hget]
  held := by
    intro c hc
    cases hc
  imported := by
    intro n fileID h
    cases h

/-- A step that only reads. -/
theorem Sound.read (h : Sound s) (hlib : s'.lib = s.lib) (hflags : s'.flags = s.flags)
    (hfiles : s'.files = s.files) (himp : ∀ n f, s'.importer = .done n f → s.importer = .done n f)
    (hcopies : ∀ c ∈ s'.copies, c ∈ s.copies ∨ (c.1 ∈ s.lib.episodes.rows ∧ c.2 = s.seen)) :
    Sound s' where
  rows := by
    unfold Intended
    rw [hlib, hflags, hfiles]
    exact h.rows
  held := by
    intro c hc
    have hold : s.Holds c.1 c.2 := by
      rcases hcopies c hc with hc | ⟨hrow, hseen⟩
      · exact h.held c hc
      · rw [hseen]
        exact h.rows.copy hrow
    exact ⟨hflags ▸ hold.flag, hfiles ▸ hold.file, hlib ▸ hold.known⟩
  imported := by
    intro n f hn
    rw [hlib, hfiles]
    exact h.imported n f (himp n f hn)

theorem Sound.refreshList (h : Sound s) (hs : step seriesID s (.refreshList eps) = some s') :
    Sound s' := by
  simp only [step] at hs
  split at hs
  · cases hs
    refine h.read rfl rfl rfl (fun _ _ h => h) ?_
    intro c hc
    rcases mem_copies.mp hc with hc | hc
    · obtain ⟨e, he, rfl⟩ := List.mem_map.mp hc
      exact .inr ⟨(Library.mem_listForSeries.mp he).1, rfl⟩
    · exact .inl (mem_copies.mpr (.inr hc))
  · cases hs

theorem Sound.putGet (h : Sound s) (hs : step seriesID s (.putGet n m) = some s') : Sound s' := by
  simp only [step] at hs
  split at hs
  · obtain ⟨e, he, rfl⟩ := Option.map_eq_some_iff.mp hs
    refine h.read rfl rfl rfl (fun _ _ h => h) ?_
    intro c hc
    rcases mem_copies.mp hc with hc | hc | hc
    · exact .inl (mem_copies.mpr (.inl hc))
    · rw [List.mem_singleton.mp hc]
      exact .inr ⟨(Table.get_eq_some.mp he).1, rfl⟩
    · exact .inl (mem_copies.mpr (.inr (.inr hc)))
  · cases hs

theorem Sound.callFind (h : Sound s) (hs : step seriesID s (.callFind i n m) = some s') :
    Sound s' := by
  simp only [step] at hs
  split at hs
  · obtain ⟨e, _, rfl⟩ := Option.map_eq_some_iff.mp hs
    exact h.read rfl rfl rfl (fun _ _ h => h) (fun _ hc => .inl hc)
  · cases hs

theorem Sound.importList (h : Sound s) (hs : step seriesID s (.importList filename) = some s') :
    Sound s' := by
  simp only [step] at hs
  split at hs
  · obtain ⟨series, _, hs⟩ := Option.bind_eq_some_iff.mp hs
    obtain ⟨⟨number, ep⟩, hm, rfl⟩ := Option.map_eq_some_iff.mp hs
    refine h.read rfl rfl rfl ?_ ?_
    · intro n f hn
      cases hn
    · intro c hc
      rcases mem_copies.mp hc with hc | hc | hc
      · exact .inl (mem_copies.mpr (.inl hc))
      · exact .inl (mem_copies.mpr (.inr (.inl hc)))
      · rw [List.mem_singleton.mp hc]
        exact .inr ⟨(Library.mem_listForSeries.mp (mem_of_matchFile hm)).1, rfl⟩
  · cases hs

theorem Sound.importCreate (h : Sound s) (hs : step seriesID s (.importCreate size) = some s') :
    Sound s' := by
  simp only [step] at hs
  split at hs
  · rename_i series filename number ep seen hi
    obtain ⟨lib, hlib, rfl⟩ := Option.map_eq_some_iff.mp hs
    obtain ⟨_, heq, _⟩ := Library.createFile_some hlib
    have heps : lib.episodes = s.lib.episodes := by rw [heq]
    refine ⟨?_, ?_, ?_⟩
    · intro e he
      exact h.rows e (heps ▸ he)
    · intro c hc
      have hc' : c ∈ s.copies := by
        refine mem_copies.mpr ((mem_copies.mp hc).imp_right (Or.imp_right fun hc => ?_))
        rw [hi]
        exact hc
      have hold := h.held c hc'
      exact ⟨hold.flag, hold.file, heps ▸ hold.known⟩
    · intro n f hn
      cases hn
  · cases hs

end Copies

section Writes
variable {s s' : State} {flags : Register Bool} {files : Register (Option Nat)}

/-- A whole row is written as the registers say, and they say the same of all others. -/
theorem intended_updateEpisode (h : Intended s) (hm : x.monitored = flags.value x.id)
    (hf : x.episodeFileID = files.value x.id)
    (hother : ∀ n, n ≠ x.id →
      flags.value n = s.flags.value n ∧ files.value n = s.files.value n) :
    ∀ r ∈ (s.lib.updateEpisode now x).episodes.rows,
      r.monitored = flags.value r.id ∧ r.episodeFileID = files.value r.id := by
  intro r hr
  obtain ⟨q, hq, rfl⟩ := Library.mem_updateEpisode.mp hr
  split
  · rename_i hid
    have hrow : (Episode.assign now x q).id = x.id := hid
    rw [hrow]
    exact ⟨hm, hf⟩
  · rename_i hid
    obtain ⟨hfl, hfi⟩ := hother q.id hid
    rw [hfl, hfi]
    exact h q hq

theorem Sound.putWrite (h : Sound s) (hg : Undisturbed s (.putWrite now))
    (hs : step seriesID s (.putWrite now) = some s') : Sound s' := by
  simp only [step] at hs
  split at hs
  · rename_i e m seen hp
    cases hs
    have hcopy : (e, seen) ∈ s.copies := by
      refine mem_copies.mpr (.inr (.inl ?_))
      rw [hp]
      exact List.mem_singleton.mpr rfl
    refine ⟨?_, ?_, h.imported⟩
    · refine intended_updateEpisode h.rows ?_ ?_ ?_
      · exact (Register.value_write_self s.flags e.id m).symm
      · exact (h.held _ hcopy).file.current (hg e m seen hp)
      · intro n hn
        exact ⟨Register.value_write_of_ne hn m, rfl⟩
    · intro c hc
      have hold : s.Holds c.1 c.2 := by
        refine h.held c (mem_copies.mpr ?_)
        rcases mem_copies.mp hc with hc | hc | hc
        · exact .inl hc
        · cases hc
        · exact .inr (.inr hc)
      exact ⟨hold.flag.write _ _, hold.file, hold.known⟩
  · cases hs

theorem Sound.callWrite (h : Sound s) (hs : step seriesID s (.callWrite i now) = some s') :
    Sound s' := by
  simp only [step] at hs
  split at hs
  · rename_i n m hp
    cases hs
    refine ⟨?_, ?_, h.imported⟩
    · intro r hr
      obtain ⟨q, hq, rfl⟩ := Library.mem_writeMonitored.mp hr
      split
      · rename_i hid
        refine ⟨?_, (h.rows q hq).2⟩
        simp only [hid]
        exact (Register.value_write_self s.flags n m).symm
      · rename_i hid
        refine ⟨?_, (h.rows q hq).2⟩
        exact (h.rows q hq).1.trans (Register.value_write_of_ne hid m).symm
    · intro c hc
      have hold := h.held c hc
      exact ⟨hold.flag.write _ _, hold.file, hold.known⟩
  · cases hs

theorem Sound.importWrite (h : Sound s) (hg : Undisturbed s (.importWrite now))
    (hs : step seriesID s (.importWrite now) = some s') : Sound s' := by
  simp only [step] at hs
  split at hs
  · rename_i ep fileID seen hp
    cases hs
    have hcopy : (ep, seen) ∈ s.copies := by
      refine mem_copies.mpr (.inr (.inr ?_))
      rw [hp]
      exact List.mem_singleton.mpr rfl
    refine ⟨?_, ?_, ?_⟩
    · refine intended_updateEpisode h.rows ?_ ?_ ?_
      · exact (h.held _ hcopy).flag.current (hg ep fileID seen hp)
      · exact (Register.value_write_self s.files ep.id (some fileID)).symm
      · intro n hn
        exact ⟨rfl, Register.value_write_of_ne hn (some fileID)⟩
    · intro c hc
      have hold : s.Holds c.1 c.2 := by
        refine h.held c (mem_copies.mpr ?_)
        rcases mem_copies.mp hc with hc | hc | hc
        · exact .inl hc
        · exact .inr (.inl hc)
        · cases hc
      exact ⟨hold.flag, hold.file.write _ _, hold.known⟩
    · intro n f hn
      cases hn
      exact ⟨Register.value_write_self s.files ep.id (some fileID), (h.held _ hcopy).known⟩
  · cases hs

/-- A refresh that finds the episode writes the copy it has listed over the row. -/
theorem Sound.refreshUpdate (h : Sound s) (hr : s.refresh = .running existing (ep :: left) seen)
    (hl : lookup existing ep = some old)
    (hflag : s.flags.writes old.id = seen.flags old.id)
    (hfile : s.files.writes old.id = seen.files old.id) :
    Sound { s with
      lib := s.lib.updateEpisode now (refreshed ep old)
      refresh := .running existing left seen } := by
  have hcopy : (old, seen) ∈ s.copies := by
    refine mem_copies.mpr (.inl ?_)
    rw [hr]
    exact List.mem_map.mpr ⟨old, (lookup_some hl).1, rfl⟩
  have hold := h.held _ hcopy
  refine ⟨?_, ?_, h.imported⟩
  · exact intended_updateEpisode h.rows (hold.flag.current hflag) (hold.file.current hfile)
      (fun _ _ => ⟨rfl, rfl⟩)
  · intro c hc
    have hc' : c ∈ s.copies := by
      refine mem_copies.mpr ((mem_copies.mp hc).imp_left fun hc => ?_)
      rw [hr]
      exact hc
    have hold := h.held c hc'
    exact ⟨hold.flag, hold.file, hold.known⟩

theorem Sound.refreshCreate (h : Sound s) (hr : s.refresh = .running existing (ep :: left) seen)
    (hc : s.lib.createEpisode now (created seriesID ep) = some lib) :
    Sound ({ s with lib, refresh := .running existing left seen }.begin
      (some s.lib.episodes.next)) := by
  obtain ⟨_, _, _, _, _, hnext, hrows⟩ := Library.createEpisode_some hc
  refine ⟨?_, ?_, ?_⟩
  · intro r hr
    rcases (hrows r).mp hr with hr | rfl
    · have hne : r.id ≠ s.lib.episodes.next := Nat.ne_of_lt (s.lib.episodes.below r hr)
      exact ⟨(h.rows r hr).1.trans (Register.value_write_of_ne hne true).symm,
        (h.rows r hr).2.trans (Register.value_write_of_ne hne none).symm⟩
    · exact ⟨(Register.value_write_self s.flags s.lib.episodes.next true).symm,
        (Register.value_write_self s.files s.lib.episodes.next none).symm⟩
  · intro c hcop
    have hc' : c ∈ s.copies := by
      refine mem_copies.mpr ((mem_copies.mp hcop).imp_left fun hcop => ?_)
      rw [hr]
      exact hcop
    have hold := h.held c hc'
    refine ⟨hold.flag.write _ _, hold.file.write _ _, ?_⟩
    exact Nat.lt_of_lt_of_le hold.known (hnext ▸ Nat.le_succ _)
  · intro n f hn
    obtain ⟨hv, hlt⟩ := h.imported n f hn
    refine ⟨(Register.value_write_of_ne (Nat.ne_of_lt hlt) none).trans hv, ?_⟩
    exact Nat.lt_of_lt_of_le hlt (hnext ▸ Nat.le_succ _)

theorem Sound.refreshNext (h : Sound s) (hg : Undisturbed s (.refreshNext now))
    (hs : step seriesID s (.refreshNext now) = some s') : Sound s' := by
  simp only [step] at hs
  split at hs
  · rename_i existing ep left seen hr
    cases hs
    rcases upsertEpisode_cases now seriesID existing s.lib ep with ⟨old, hl, hu⟩ | ⟨hl, hc | ⟨hno, hu⟩⟩
    · obtain ⟨hflag, hfile⟩ := hg existing ep left seen old hr hl
      simp only [createdID, hl, hu, State.begin]
      exact h.refreshUpdate hr hl hflag hfile
    · simp only [createdID, hl, hc, Option.map_some]
      exact h.refreshCreate hr hc
    · simp only [createdID, hl, hno, hu, Option.map_none, State.begin]
      refine h.read rfl rfl rfl (fun _ _ h => h) ?_
      intro c hc
      refine .inl (mem_copies.mpr ((mem_copies.mp hc).imp_left fun hc => ?_))
      rw [hr]
      exact hc
  · cases hs

theorem Sound.step (hg : Undisturbed s a) (hs : step seriesID s a = some s') (h : Sound s) :
    Sound s' := by
  cases a with
  | refreshList episodes => exact h.refreshList hs
  | refreshNext now => exact h.refreshNext hg hs
  | putGet n m => exact h.putGet hs
  | putWrite now => exact h.putWrite hg hs
  | callFind i n m => exact h.callFind hs
  | callWrite i now => exact h.callWrite hs
  | importList filename => exact h.importList hs
  | importCreate size => exact h.importCreate hs
  | importWrite now => exact h.importWrite hg hs

end Writes

/-- In a run in which no writer is disturbed between its reading and its write, every
episode has the flag that was written last on purpose and the file of the import. -/
theorem no_lost_updates (lib : Library)
    (h : Path (step seriesID) Undisturbed (start lib) actions s) :
    Intended s ∧ ∀ e ∈ s.lib.episodes.rows, ∀ fileID, s.importer = .done e.id fileID →
      e.episodeFileID = some fileID := by
  have hend := h.invariant (fun _ _ _ hg hs hi => Sound.step hg hs hi) (start_sound lib)
  refine ⟨hend.rows, ?_⟩
  intro e he fileID hdone
  rw [(hend.rows e he).2]
  exact (hend.imported e.id fileID hdone).1

/-- A series with one episode that has no file yet. -/
def oneEpisode : Library where
  series := breakingBadOnly
  seasons := []
  episodes := unlinkedPilot
  files := Table.empty

/-- An import up to its write to the episode. -/
def importSteps : List Action :=
  [.importList "Breaking.Bad.S01E01.720p.HDTV-GROUP.mkv", .importCreate 500000000]

/-- An update of the flag has read the episode and waits. -/
theorem no_lost_updates_import : ∃ s, Path (step 1) Undisturbed (start oneEpisode)
      (.putGet 1 false :: importSteps ++ [.importWrite 0]) s ∧
      s.importer = .done 1 1 ∧ ∀ e ∈ s.lib.episodes.rows, e.id = 1 → e.episodeFileID = some 1 := by
  have hrun : (exec (step 1) (start oneEpisode) (.putGet 1 false :: importSteps)).map (fun s =>
      match s.importer with
      | .filed ep fileID seen => (ep.id, fileID, seen.flags ep.id, s.flags.writes ep.id)
      | _ => (0, 0, 0, 1)) = some (1, 1, 0, 0) := by
    decide +kernel
  obtain ⟨t, hexec, ht⟩ := Option.map_eq_some_iff.mp hrun
  have hlisted : Path (step 1) Undisturbed (start oneEpisode) (.putGet 1 false :: importSteps) t := by
    refine .of_exec_guarded ?_ hexec
    intro a ha s
    simp only [importSteps, List.mem_cons, List.not_mem_nil, or_false] at ha
    rcases ha with rfl | rfl | rfl <;> exact trivial
  split at ht
  · rename_i ep fileID seen hfiled
    simp only [Prod.mk.injEq] at ht
    obtain ⟨hid, rfl, hseen, hwrites⟩ := ht
    have hguard : Undisturbed t (.importWrite 0) := by
      intro ep' _ seen' hi
      rw [hfiled] at hi
      cases hi
      rw [hseen, hwrites]
    have hstep : step 1 t (.importWrite 0) = some { t with
        lib := t.lib.updateEpisode 0 { ep with episodeFileID := some 1 }
        importer := .done ep.id 1
        files := t.files.write ep.id (some 1) } := by
      simp only [step, hfiled]
    have hpath := hlisted.snoc hguard hstep
    refine ⟨_, hpath, by rw [hid], ?_⟩
    intro e he hone
    exact (no_lost_updates oneEpisode hpath).2 e he 1 (by rw [hone, hid])
  · simp at ht

/-- The refresh lists the episode, the import links its file, and the refresh writes the
episode back as it was. -/
def lostFile : List Action :=
  .refreshList [⟨1, 1, none, "Pilot", "", none⟩] :: importSteps ++ [.importWrite 0, .refreshNext 0]

theorem imported_file_lost :
    ¬ ∀ lib actions s, Path (step 1) Free (start lib) actions s → Intended s := by
  intro h
  have hrun : (exec (step 1) (start oneEpisode) lostFile).map (fun s =>
      (s.lib.episodes.rows.map (fun e => (e.id, e.episodeFileID)), s.files.value 1)) =
        some ([(1, none)], some 1) := by
    decide +kernel
  obtain ⟨s, hexec, hs⟩ := Option.map_eq_some_iff.mp hrun
  obtain ⟨hrows, hvalue⟩ := Prod.mk.inj hs
  obtain ⟨e, he, hpair⟩ := List.mem_map.mp (hrows ▸ List.mem_singleton.mpr rfl)
  obtain ⟨hid, hnone⟩ := Prod.mk.inj hpair
  have hlink := (h oneEpisode lostFile s (Path.of_exec hexec) e he).2
  rw [hid, hnone, hvalue] at hlink
  cases hlink

end Sonarr.EpisodeWriters
