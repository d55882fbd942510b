import Mathlib.Algebra.Ring.Int.Defs
import Sonarr.Lib.Derived
import Sonarr.Lib.Machine
import Sonarr.Library.Tables

namespace Sonarr.Statistics
open Lib Derived

/-- The figures of a row of `series_statistics`. -/
structure Row where
  episodeCount : Int
  episodeFileCount : Int
  monitoredEpisodeCount : Int
  sizeOnDisk : Int
  deriving DecidableEq, Repr

/-- `CountForSeries`: the episodes and the monitored ones. -/
def countForSeries (seriesID : Nat) (lib : Library) : Int × Int :=
  (lib.episodes.rows.countP (fun e => e.seriesID == seriesID),
    lib.episodes.rows.countP (fun e => e.seriesID == seriesID && e.monitored))

/-- `SumSizesForSeries`: the files and their size. -/
def sumSizesForSeries (seriesID : Nat) (lib : Library) : Int × Int :=
  (lib.files.rows.countP (fun f => f.seriesID == seriesID),
    ((lib.files.rows.filter (fun f => f.seriesID == seriesID)).map EpisodeFile.size).sum)

/-- What `derive` makes of its two readings. -/
def derive (counts sums : Int × Int) : Row :=
  ⟨toInt32 counts.1, toInt32 sums.1, toInt32 counts.2, sums.2⟩

/-- The figures that the rows of the series have. -/
def actual (seriesID : Nat) (lib : Library) : Row :=
  ⟨(countForSeries seriesID lib).1, (sumSizesForSeries seriesID lib).1,
    (countForSeries seriesID lib).2, (sumSizesForSeries seriesID lib).2⟩

inductive Change
  | createEpisode (now : Int) (e : Episode)
  | updateEpisode (now : Int) (e : Episode)
  | setMonitored (now : Int) (episodeID : Nat) (monitored : Bool)
  | deleteEpisode (episodeID : Nat)
  | createFile (f : EpisodeFile)
  | deleteFile (fileID : Nat)

def Change.onFiles : Change → Bool
  | .createFile _ | .deleteFile _ => true
  | _ => false

/-- The write is to a row of the series; one that another operation has deleted in the
meantime belongs to none. -/
def Change.concerns (seriesID : Nat) (lib : Library) : Change → Bool
  | .createEpisode _ e => e.seriesID == seriesID
  | .updateEpisode _ e =>
    e.seriesID == seriesID && lib.episodes.rows.all (fun r => r.id != e.id || r.seriesID == seriesID)
  | .setMonitored _ n _ | .deleteEpisode n =>
    lib.episodes.rows.all (fun r => r.id != n || r.seriesID == seriesID)
  | .createFile f => f.seriesID == seriesID
  | .deleteFile n => lib.files.rows.all (fun r => r.id != n || r.seriesID == seriesID)

/-- The write of an operation; none if the schema refuses it. -/
def Change.apply (lib : Library) : Change → Option Library
  | .createEpisode now e => lib.createEpisode now e
  | .updateEpisode now e => some (lib.updateEpisode now e)
  | .setMonitored now n m => some (lib.writeMonitored now n m)
  | .deleteEpisode n => some { lib with episodes := lib.episodes.delete (fun r => r.id == n) }
  | .createFile f => lib.createFile f
  | .deleteFile n => some { lib with files := lib.files.delete (fun r => r.id == n) }

/-- How far an operation is: before its write, after it, after each of the two readings
of its `Recompute`, and done. A reading comes with the number of writes that it has seen. -/
inductive Phase
  | waiting
  | written
  | counted (counts : Int × Int) (seen : Nat)
  | summed (counts : Int × Int) (seen : Nat) (sums : Int × Int) (seenFiles : Nat)
  | done
  deriving DecidableEq, Repr

/-- The numbers of writes, and of those that the row has seen, are kept for the proofs. -/
structure State where
  lib : Library
  row : Option Row
  ops : Nat → Phase
  episodeWrites : Nat
  fileWrites : Nat
  seen : Option (Nat × Nat)

/-- Any library and row before any operation. -/
def start (lib : Library) (row : Option Row) : State := ⟨lib, row, fun _ => .waiting, 0, 0, none⟩

def State.setOp (s : State) (i : Nat) (p : Phase) : State :=
  { s with ops := Function.update s.ops i p }

theorem State.setOp_self (s : State) (i : Nat) (p : Phase) : (s.setOp i p).ops i = p := by
  simp [setOp]

theorem State.setOp_of_ne {s : State} (hj : j ≠ i) (p : Phase) : (s.setOp i p).ops j = s.ops j := by
  simp [setOp, Function.update_of_ne hj]

inductive Action
  | write (i : Nat) (change : Change)
  | readCounts (i : Nat)
  | readSums (i : Nat)
  | upsert (i : Nat)

/-- A step of one of the operations on the series. -/
def step (seriesID : Nat) (s : State) : Action → Option State
  | .write i change => match s.ops i with
    | .waiting =>
      if change.concerns seriesID s.lib then
        (change.apply s.lib).map (fun lib =>
          if change.onFiles then { s with lib, fileWrites := s.fileWrites + 1 }.setOp i .written
          else { s with lib, episodeWrites := s.episodeWrites + 1 }.setOp i .written)
      else none
    | _ => none
  | .readCounts i => match s.ops i with
    | .written => some (s.setOp i (.counted (countForSeries seriesID s.lib) s.episodeWrites))
    | _ => none
  | .readSums i => match s.ops i with
    | .counted counts seen =>
      some (s.setOp i (.summed counts seen (sumSizesForSeries seriesID s.lib) s.fileWrites))
    | _ => none
  | .upsert i => match s.ops i with
    | .summed counts seen sums seenFiles =>
      some ({ s with row := some (derive counts sums), seen := some (seen, seenFiles) }.setOp i .done)
    | _ => none

/-- The row that an upsert replaces is not from readings that have seen more writes, and
the counts that it stores are 32-bit numbers. -/
def NotOvertaking (s : State) : Action → Prop
  | .upsert i => ∀ counts seen sums seenFiles, s.ops i = .summed counts seen sums seenFiles →
      (∀ n m, s.seen = some (n, m) → n ≤ seen ∧ m ≤ seenFiles) ∧
        toInt32 counts.1 = counts.1 ∧ toInt32 counts.2 = counts.2 ∧ toInt32 sums.1 = sums.1
  | _ => True

section Sources

def Phase.ofCounts : Phase → Proc (Int × Int)
  | .waiting => .waiting
  | .written => .pending
  | .counted counts seen | .summed counts seen _ _ => .holding seen counts
  | .done => .finished

def Phase.ofSums : Phase → Proc (Int × Int)
  | .waiting => .waiting
  | .written | .counted _ _ => .pending
  | .summed _ _ sums seen => .holding seen sums
  | .done => .finished

/-- The counts in the row as a value derived from the episodes. -/
def State.counts (s : State) (seriesID : Nat) : Cache (Int × Int) where
  current := countForSeries seriesID s.lib
  version := s.episodeWrites
  stored := s.seen.bind (fun seen =>
    s.row.map (fun r => (seen.1, r.episodeCount, r.monitoredEpisodeCount)))
  procs := fun i => (s.ops i).ofCounts

/-- The file figures in the row as a value derived from the files. -/
def State.sums (s : State) (seriesID : Nat) : Cache (Int × Int) where
  current := sumSizesForSeries seriesID s.lib
  version := s.fileWrites
  stored := s.seen.bind (fun seen =>
    s.row.map (fun r => (seen.2, r.episodeFileCount, r.sizeOnDisk)))
  procs := fun i => (s.ops i).ofSums

variable {s s' : State}

theorem counts_setOp (s : State) (seriesID i : Nat) (p : Phase) :
    (s.setOp i p).counts seriesID = (s.counts seriesID).setProc i p.ofCounts := by
  simp only [State.counts, State.setOp, Cache.setProc, Cache.mk.injEq, true_and]
  exact Function.comp_update Phase.ofCounts s.ops i p

theorem sums_setOp (s : State) (seriesID i : Nat) (p : Phase) :
    (s.setOp i p).sums seriesID = (s.sums seriesID).setProc i p.ofSums := by
  simp only [State.sums, State.setOp, Cache.setProc, Cache.mk.injEq, true_and]
  exact Function.comp_update Phase.ofSums s.ops i p

theorem apply_episode (hk : change.onFiles = false) (h : Change.apply lib change = some lib') :
    lib'.files = lib.files := by
  cases change with
  | createEpisode now e =>
    obtain ⟨_, _, _, _, hfil, _⟩ := Library.createEpisode_some h
    exact hfil
  | updateEpisode now e => cases h; rfl
  | setMonitored now n m => cases h; rfl
  | deleteEpisode n => cases h; rfl
  | createFile f => cases hk
  | deleteFile n => cases hk

theorem apply_file (hk : change.onFiles = true) (h : Change.apply lib change = some lib') :
    lib'.episodes = lib.episodes := by
  cases change with
  | createFile f =>
    obtain ⟨_, hlib, _⟩ := Library.createFile_some h
    rw [hlib]
  | deleteFile n => cases h; rfl
  | createEpisode now e => cases hk
  | updateEpisode now e => cases hk
  | setMonitored now n m => cases hk
  | deleteEpisode n => cases hk

/-- Both parts of the row follow their table. -/
structure Follows (seriesID : Nat) (s : State) : Prop where
  counts : (s.counts seriesID).Sound
  sums : (s.sums seriesID).Sound

theorem Follows.write (h : Follows seriesID s) (hs : step seriesID s (.write i change) = some s') :
    Follows seriesID s' := by
  simp only [step] at hs
  split at hs
  · split at hs
    · obtain ⟨lib, hlib, rfl⟩ := Option.map_eq_some_iff.mp hs
      cases hk : change.onFiles with
      | true =>
        -- The episodes are as before, and the files are changed.
        have heps := apply_file hk hlib
        simp only [if_true]
        refine ⟨?_, ?_⟩
        · rw [counts_setOp]
          have hsame := h.counts.announce i
          unfold State.counts countForSeries at hsame ⊢
          rw [heps]
          exact hsame
        · rw [sums_setOp]
          exact h.sums.change i (sumSizesForSeries seriesID lib)
      | false =>
        have hfiles := apply_episode hk hlib
        simp only [Bool.false_eq_true, if_false]
        refine ⟨?_, ?_⟩
        · rw [counts_setOp]
          exact h.counts.change i (countForSeries seriesID lib)
        · rw [sums_setOp]
          have hsame := h.sums.announce i
          unfold State.sums sumSizesForSeries at hsame ⊢
          rw [hfiles]
          exact hsame
    · cases hs
  · cases hs

theorem Follows.readCounts (h : Follows seriesID s)
    (hs : step seriesID s (.readCounts i) = some s') : Follows seriesID s' := by
  simp only [step] at hs
  split at hs
  · cases hs
    refine ⟨?_, ?_⟩
    · rw [counts_setOp]
      exact h.counts.read i
    · rw [sums_setOp]
      exact h.sums.announce i
  · cases hs

theorem Follows.readSums (h : Follows seriesID s)
    (hs : step seriesID s (.readSums i) = some s') : Follows seriesID s' := by
  simp only [step] at hs
  split at hs
  · rename_i counts seen hi
    cases hs
    refine ⟨?_, ?_⟩
    · have hheld : (s.counts seriesID).procs i = .holding seen counts := congrArg Phase.ofCounts hi
      rw [counts_setOp]
      exact (Cache.setProc_eq_self hheld).symm ▸ h.counts
    · rw [sums_setOp]
      exact h.sums.read i
  · cases hs

theorem Follows.upsert (h : Follows seriesID s) (hg : NotOvertaking s (.upsert i))
    (hs : step seriesID s (.upsert i) = some s') : Follows seriesID s' := by
  simp only [step] at hs
  split at hs
  · rename_i counts seen sums seenFiles hi
    cases hs
    obtain ⟨hnew, hc, hm, hn⟩ := hg counts seen sums seenFiles hi
    have hrow : derive counts sums = ⟨counts.1, sums.1, counts.2, sums.2⟩ := by
      unfold derive
      rw [hc, hm, hn]
    have hcounts : (s.counts seriesID).procs i = .holding seen counts := congrArg Phase.ofCounts hi
    have hsums : (s.sums seriesID).procs i = .holding seenFiles sums := congrArg Phase.ofSums hi
    refine ⟨?_, ?_⟩
    · rw [counts_setOp, hrow]
      refine h.counts.store hcounts ?_
      intro n v hst
      obtain ⟨⟨n', m'⟩, hseen, hv⟩ := Option.bind_eq_some_iff.mp hst
      obtain ⟨r, _, hr⟩ := Option.map_eq_some_iff.mp hv
      cases hr
      exact (hnew n' m' hseen).1
    · rw [sums_setOp, hrow]
      refine h.sums.store hsums ?_
      intro n v hst
      obtain ⟨⟨n', m'⟩, hseen, hv⟩ := Option.bind_eq_some_iff.mp hst
      obtain ⟨r, _, hr⟩ := Option.map_eq_some_iff.mp hv
      cases hr
      exact (hnew n' m' hseen).2
  · cases hs

theorem Follows.step (hg : NotOvertaking s a) (hs : step seriesID s a = some s')
    (h : Follows seriesID s) : Follows seriesID s' := by
  cases a with
  | write i change => exact h.write hs
  | readCounts i => exact h.readCounts hs
  | readSums i => exact h.readSums hs
  | upsert i => exact h.upsert hg hs

end Sources

/-- In a run in which no upsert replaces a row of later readings, the row is right once
every operation that has begun is done. -/
theorem statistics_converge (lib : Library) (row : Option Row)
    (h : Path (step seriesID) NotOvertaking (start lib row) actions s)
    (hrest : ∀ i, s.ops i = .waiting ∨ s.ops i = .done) (hdone : s.ops j = .done) :
    s.row = some (actual seriesID s.lib) := by
  have hstart : Follows seriesID (start lib row) := ⟨Cache.Sound.start _, Cache.Sound.start _⟩
  have hend := h.invariant (fun _ _ _ hg hs hi => Follows.step hg hs hi) hstart
  have hcounts : ∃ n, (s.counts seriesID).stored = some (n, countForSeries seriesID s.lib) := by
    refine hend.counts.settled (fun i => ?_) (congrArg Phase.ofCounts hdone)
    exact (hrest i).imp (congrArg Phase.ofCounts) (congrArg Phase.ofCounts)
  have hsums : ∃ n, (s.sums seriesID).stored = some (n, sumSizesForSeries seriesID s.lib) := by
    refine hend.sums.settled (fun i => ?_) (congrArg Phase.ofSums hdone)
    exact (hrest i).imp (congrArg Phase.ofSums) (congrArg Phase.ofSums)
  obtain ⟨n, hc⟩ := hcounts
  obtain ⟨m, hs⟩ := hsums
  obtain ⟨seen, hseen, hrow⟩ := Option.bind_eq_some_iff.mp hc
  obtain ⟨r, hr, heq⟩ := Option.map_eq_some_iff.mp hrow
  simp only [State.sums, hseen, hr, Option.bind_some, Option.map_some, Option.some.injEq,
    Prod.mk.injEq] at hs
  obtain ⟨_, hcount⟩ := Prod.mk.inj heq
  rw [hr]
  unfold actual
  rw [← hcount, ← hs.2]

section Runs
variable {s s' : State}

def Action.op : Action → Nat
  | .write i _ | .readCounts i | .readSums i | .upsert i => i

/-- An operation gets on by its own steps only. -/
theorem step_others (hs : step seriesID s a = some s') (hj : j ≠ a.op) : s'.ops j = s.ops j := by
  cases a with
  | write i change =>
    simp only [step] at hs
    split at hs
    · split at hs
      · obtain ⟨lib, _, rfl⟩ := Option.map_eq_some_iff.mp hs
        split <;> exact State.setOp_of_ne hj _
      · cases hs
    · cases hs
  | readCounts i =>
    simp only [step] at hs
    split at hs <;> cases hs
    exact State.setOp_of_ne hj _
  | readSums i =>
    simp only [step] at hs
    split at hs <;> cases hs
    exact State.setOp_of_ne hj _
  | upsert i =>
    simp only [step] at hs
    split at hs <;> cases hs
    exact State.setOp_of_ne hj _

theorem path_others {guard : State → Action → Prop} (h : Path (step seriesID) guard s actions s')
    (hj : j ∉ actions.map Action.op) : s'.ops j = s.ops j := by
  induction h with
  | nil => rfl
  | cons _ hs _ ih =>
    rw [List.map_cons, List.mem_cons, not_or] at hj
    rw [ih hj.2, step_others hs hj.1]

/-- Two operations that are done are all that a run of theirs has begun. -/
theorem two_settled {guard : State → Action → Prop}
    (h : Path (step seriesID) guard (start lib row) actions s)
    (hops : ∀ i ∈ actions.map Action.op, i = 0 ∨ i = 1) (h0 : s.ops 0 = .done)
    (h1 : s.ops 1 = .done) (i : Nat) : s.ops i = .waiting ∨ s.ops i = .done := by
  by_cases hi : i ∈ actions.map Action.op
  · rcases hops i hi with rfl | rfl
    · exact .inr h0
    · exact .inr h1
  · exact .inl (path_others h hi)

end Runs

/-- A series that has no episodes. -/
def oneSeries : Library where
  series := breakingBadOnly
  seasons := []
  episodes := Table.empty
  files := Table.empty

/-- The creation of a monitored episode of season 1. -/
def addEpisode (n : Int) : Change := .createEpisode 0 ⟨0, 1, 1, n, none, "", "", none, true, none, 0⟩

/-- Two episodes are created, and the statistics of each operation are stored in turn. -/
def inTurn : List Action :=
  [.write 0 (addEpisode 1), .readCounts 0, .write 1 (addEpisode 2), .readCounts 1, .readSums 1,
    .readSums 0, .upsert 0, .upsert 1]

def notOvertakingCheck (s : State) : Action → Bool
  | .upsert i => match s.ops i with
    | .summed counts seen sums seenFiles =>
      s.seen.all (fun (n, m) => n ≤ seen ∧ m ≤ seenFiles) &&
        decide (toInt32 counts.1 = counts.1 ∧ toInt32 counts.2 = counts.2 ∧ toInt32 sums.1 = sums.1)
    | _ => true
  | _ => true

theorem notOvertaking_of_check (s : State) (a : Action) (h : notOvertakingCheck s a = true) :
    NotOvertaking s a := by
  cases a with
  | upsert i =>
    intro counts seen sums seenFiles hi
    simp only [notOvertakingCheck, hi, Bool.and_eq_true, decide_eq_true_eq] at h
    refine ⟨fun n m hseen => ?_, h.2⟩
    simpa [hseen] using h.1
  | _ => trivial

theorem statistics_converge_two :
    ∃ s, Path (step 1) NotOvertaking (start oneSeries none) inTurn s ∧
      s.row = some ⟨2, 0, 2, 0⟩ ∧ s.row = some (actual 1 s.lib) := by
  have hrun : (exec (fun s a => if notOvertakingCheck s a then step 1 s a else none)
      (start oneSeries none) inTurn).map (fun s => (s.ops 0, s.ops 1, s.row)) =
      some (.done, .done, some ⟨2, 0, 2, 0⟩) := by decide
  obtain ⟨s, hexec, hs⟩ := Option.map_eq_some_iff.mp hrun
  simp only [Prod.mk.injEq] at hs
  obtain ⟨h0, h1, hrow⟩ := hs
  have path := Path.of_exec_checked notOvertaking_of_check hexec
  exact ⟨s, path, hrow,
    statistics_converge oneSeries none path (two_settled path (by decide) h0 h1) h1⟩

/-- Two episodes are created, and the statistics of the first one's operation are stored
last. -/
def staleRun : List Action :=
  [.write 0 (addEpisode 1), .readCounts 0, .readSums 0, .write 1 (addEpisode 2), .readCounts 1,
    .readSums 1, .upsert 1, .upsert 0]

theorem stale_statistics_stay :
    ¬ ∀ lib row actions s j, Path (step 1) Free (start lib row) actions s →
      (∀ i, s.ops i = .waiting ∨ s.ops i = .done) → s.ops j = .done →
        s.row = some (actual 1 s.lib) := by
  intro h
  have hrun : (exec (step 1) (start oneSeries none) staleRun).map
      (fun s => (s.ops 0, s.ops 1, s.row, actual 1 s.lib)) =
        some (.done, .done, some ⟨1, 0, 1, 0⟩, ⟨2, 0, 2, 0⟩) := by decide
  obtain ⟨s, hexec, hs⟩ := Option.map_eq_some_iff.mp hrun
  simp only [Prod.mk.injEq] at hs
  obtain ⟨h0, h1, hrow, hactual⟩ := hs
  have path : Path (step 1) Free (start oneSeries none) staleRun s := .of_exec hexec
  have hright := h oneSeries none staleRun s 0 path (two_settled path (by decide) h0 h1) h0
  rw [hrow, hactual] at hright
  cases hright

end Sonarr.Statistics
