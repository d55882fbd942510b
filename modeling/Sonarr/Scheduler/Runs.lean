import Sonarr.Commands.Dedup
import Sonarr.Lib.Spacing
import Sonarr.Scheduler.Tasks

namespace Sonarr.Scheduler
open Lib Commands

/-- Where the tick loop stands. A tick goes through the due tasks it has read: it looks
for a duplicate, enqueues, reads the clock and writes the next execution. -/
inductive Phase
  | idle
  | tasks (left : List ScheduledTask)
  | enqueue (task : ScheduledTask) (left : List ScheduledTask)
  | clock (task : ScheduledTask) (left : List ScheduledTask)
  | update (task : ScheduledTask) (next : Int) (left : List ScheduledTask)

/-- The tasks the tick still works on. -/
def Phase.open : Phase → List ScheduledTask
  | .idle => []
  | .tasks left => left
  | .enqueue task left | .clock task left | .update task _ left => task :: left

/-- The tasks it has not enqueued yet. -/
def Phase.ahead : Phase → List ScheduledTask
  | .idle => []
  | .tasks left | .clock _ left | .update _ _ left => left
  | .enqueue task left => task :: left

/-- How a write ends. After a `lost` one the statement took effect, but `Write` returned
an error. -/
inductive Outcome
  | ok
  | failed
  | lost
  deriving DecidableEq, Repr

/-- A command the scheduler has enqueued: the time and the interval that were read for
it, when it was enqueued, and whether the next execution was written after it. -/
structure Firing where
  typeName : String
  scheduled : Int
  firedAt : Int
  interval : Int
  settled : Bool
  deriving DecidableEq, Repr

/-- The second before which the task should not fire again. -/
def Firing.bound (f : Firing) : Int := sqliteTime (f.firedAt + f.interval)

def Firing.settle (f : Firing) : Firing := { f with settled := true }

/-- `log` has every firing, the newest first. -/
structure State where
  tasks : Tasks
  db : Db
  now : Int
  phase : Phase
  log : List Firing

def start (now : Int) : State := ⟨.empty, .empty, now, .idle, []⟩

inductive Action
  | advance (ns : Nat)
  | call (c : Call)
  | upsert (typeName : String) (intervalSecs nextExecution : Int)
  | getDueTasks (ok : Bool)
  | findDuplicate (ok : Bool)
  | enqueue (outcome : Outcome)
  | readClock
  | updateExecution (outcome : Outcome)
  | sweepExpiredLeases (ok : Bool)
  | stop

def settleNewest : List Firing → List Firing
  | [] => []
  | f :: log => f.settle :: log

/-- The scheduler's steps, in any order with the calls of everyone else who uses the
queue, with the tasks registered at a start and with a stop at any point. -/
def step (s : State) : Action → Option State
  | .advance ns => some { s with now := s.now + ns }
  | .call c => some { s with db := Db.call s.db s.now c }
  | .upsert typeName intervalSecs nextExecution =>
    some { s with tasks := s.tasks.upsert typeName intervalSecs nextExecution }
  | .getDueTasks ok => match s.phase with
    | .idle => some { s with phase := .tasks (if ok then s.tasks.getDueTasks s.now else []) }
    | _ => none
  | .findDuplicate ok => match s.phase with
    | .tasks (task :: left) =>
      -- neither a failed read nor a duplicate moves the next execution
      if ok = true ∧ Db.findDuplicate s.db task.typeName = none then
        some { s with phase := .enqueue task left }
      else some { s with phase := .tasks left }
    | _ => none
  | .enqueue outcome => match s.phase with
    | .enqueue task left =>
      let fired := { s with
        db := Db.call s.db s.now (Dedup.Work.task task.typeName).call
        log := ⟨task.typeName, task.nextExecution, s.now, task.interval, false⟩ :: s.log }
      match outcome with
      | .ok => some { fired with phase := .clock task left }
      | .failed => some { s with phase := .tasks left }
      | .lost => some { fired with phase := .tasks left }
    | _ => none
  | .readClock => match s.phase with
    | .clock task left => some { s with phase := .update task (s.now + task.interval) left }
    | _ => none
  | .updateExecution outcome => match s.phase with
    | .update task next left =>
      if outcome = .failed then some { s with phase := .tasks left }
      else some { s with
        tasks := s.tasks.updateExecution s.now task.typeName next
        log := settleNewest s.log
        phase := .tasks left }
    | _ => none
  | .sweepExpiredLeases ok => match s.phase with
    | .tasks [] => some { s with
        db := if ok then Db.call s.db s.now .sweepExpiredLeases else s.db, phase := .idle }
    | _ => none
  | .stop => some { s with phase := .idle }

/-- All that a step can do. -/
inductive Moves (s : State) : Action → State → Prop
  | wait {t : State} (hnow : s.now ≤ t.now) (htasks : t.tasks = s.tasks) (hlog : t.log = s.log)
      (hphase : t.phase = s.phase) : Moves s a t
  | upsert : Moves s (.upsert name secs next) { s with tasks := s.tasks.upsert name secs next }
  | read (hidle : s.phase = .idle) : Moves s (.getDueTasks ok)
      { s with phase := .tasks (if ok then s.tasks.getDueTasks s.now else []) }
  | vacant {task : ScheduledTask} (hphase : s.phase = .tasks (task :: left)) :
      Moves s (.findDuplicate true) { s with phase := .enqueue task left }
  | skip {task : ScheduledTask} (hphase : s.phase = .tasks (task :: left))
      (hdup : ok = true → Db.findDuplicate s.db task.typeName ≠ none) :
      Moves s (.findDuplicate ok) { s with phase := .tasks left }
  | fire {task : ScheduledTask} (hphase : s.phase = .enqueue task left)
      (hnext : next = .clock task left ∨ next = .tasks left) :
      Moves s (.enqueue o) { s with
        db := Db.call s.db s.now (Dedup.Work.task task.typeName).call
        log := ⟨task.typeName, task.nextExecution, s.now, task.interval, false⟩ :: s.log, phase := next }
  | unfired {task : ScheduledTask} (hphase : s.phase = .enqueue task left) :
      Moves s (.enqueue .failed) { s with phase := .tasks left }
  | clock {task : ScheduledTask} (hphase : s.phase = .clock task left) :
      Moves s .readClock { s with phase := .update task (s.now + task.interval) left }
  | settle {task : ScheduledTask} (hphase : s.phase = .update task next left) :
      Moves s (.updateExecution o) { s with
        tasks := s.tasks.updateExecution s.now task.typeName next
        log := settleNewest s.log, phase := .tasks left }
  | unsettled {task : ScheduledTask} (hphase : s.phase = .update task next left) :
      Moves s (.updateExecution .failed) { s with phase := .tasks left }
  | sweep (hphase : s.phase = .tasks []) :
      Moves s (.sweepExpiredLeases ok) { s with db := db, phase := .idle }
  | stop : Moves s .stop { s with phase := .idle }

variable {s t u : State} {a : Action} {task : ScheduledTask} {left : List ScheduledTask} {began : Int}

theorem step_moves (h : step s a = some t) : Moves s a t := by
  cases a with
  | advance ns =>
    cases h
    exact .wait (Int.le_add_of_nonneg_right (Int.natCast_nonneg ns)) rfl rfl rfl
  | call c =>
    cases h
    exact .wait (Int.le_refl _) rfl rfl rfl
  | upsert name secs next =>
    cases h
    exact .upsert
  | getDueTasks ok =>
    simp only [step] at h
    split at h <;> cases h
    rename_i hidle
    exact .read hidle
  | findDuplicate ok =>
    simp only [step] at h
    split at h
    · rename_i task left hphase
      split at h
      · rename_i hdup
        cases h
        rw [hdup.1]
        exact .vacant hphase
      · rename_i hdup
        cases h
        exact .skip hphase (fun hok hnone => hdup ⟨hok, hnone⟩)
    · cases h
  | enqueue outcome =>
    simp only [step] at h
    split at h
    · rename_i task left hphase
      cases outcome with
      | ok =>
        cases h
        exact .fire hphase (.inl rfl)
      | failed =>
        cases h
        exact .unfired hphase
      | lost =>
        cases h
        exact .fire hphase (.inr rfl)
    · cases h
  | readClock =>
    simp only [step] at h
    split at h <;> cases h
    rename_i hphase
    exact .clock hphase
  | updateExecution outcome =>
    simp only [step] at h
    split at h
    · rename_i task next left hphase
      split at h
      · rename_i hfailed
        cases h
        rw [hfailed]
        exact .unsettled hphase
      · cases h
        exact .settle hphase
    · cases h
  | sweepExpiredLeases ok =>
    simp only [step] at h
    split at h <;> cases h
    rename_i hphase
    exact .sweep hphase
  | stop =>
    cases h
    exact .stop

theorem sqliteTime_mono {x y : Int} (h : x ≤ y) : sqliteTime x ≤ sqliteTime y :=
  Int.ediv_le_ediv (by omega) h

/-- A firing keeps the interval of every earlier one after which the next execution
was written. -/
def Firing.Spaced (newer older : Firing) : Prop :=
  older.typeName = newer.typeName → older.settled = true → older.bound ≤ sqliteTime newer.firedAt

/-- The firing whose next execution is being written. -/
def Current (log : List Firing) : Phase → Prop
  | .clock task _ => ∃ f rest, log = f :: rest ∧ f.settled = false ∧
      f.typeName = task.typeName ∧ f.interval = task.interval
  | .update task next _ => ∃ f rest, log = f :: rest ∧ f.settled = false ∧
      f.typeName = task.typeName ∧ f.bound ≤ sqliteTime next
  | _ => True

/-- A firing was due, and once it is settled its task is not due before its bound. -/
structure Firing.Kept (began : Int) (s : State) (f : Firing) : Prop where
  punctual : f.scheduled ≤ sqliteTime f.firedAt
  since : began ≤ f.firedAt
  past : f.firedAt ≤ s.now
  known : f.typeName ∈ s.tasks.names
  held : f.settled = true → ∀ r ∈ s.tasks.rows, r.typeName = f.typeName →
    f.bound ≤ r.nextExecution ∨ f.bound ≤ sqliteTime s.now

/-- A task that the tick works on is due, and so are the bounds of its firings. -/
structure Ripe (s : State) (task : ScheduledTask) : Prop where
  due : task.nextExecution ≤ sqliteTime s.now
  known : task.typeName ∈ s.tasks.names
  bounds : ∀ f ∈ s.log, f.settled = true → f.typeName = task.typeName → f.bound ≤ sqliteTime s.now

structure Inv (began : Int) (s : State) : Prop where
  spaced : s.log.Pairwise Firing.Spaced
  firings : ∀ f ∈ s.log, f.Kept began s
  ripe : ∀ task ∈ s.phase.open, Ripe s task
  distinct : (s.phase.open.map ScheduledTask.typeName).Nodup
  current : Current s.log s.phase
  ticking : began ≤ s.now

theorem inv_start (now : Int) : Inv now (start now) := by
  refine ⟨.nil, ?_, ?_, ?_, trivial, Int.le_refl _⟩ <;> simp [start, Phase.open]

/-- Time may pass and tasks may be registered, and no stored time moves. -/
structure Later (s t : State) : Prop where
  now : s.now ≤ t.now
  names : ∀ n ∈ s.tasks.names, n ∈ t.tasks.names
  rows : ∀ r ∈ t.tasks.rows, r.typeName ∈ s.tasks.names →
    ∃ q ∈ s.tasks.rows, q.typeName = r.typeName ∧ q.nextExecution = r.nextExecution

theorem Later.of_eq (hnow : s.now ≤ t.now) (htasks : t.tasks = s.tasks) : Later s t :=
  ⟨hnow, fun _ hn => htasks ▸ hn, fun r hr _ => ⟨r, htasks ▸ hr, rfl, rfl⟩⟩

theorem Firing.Kept.later {f : Firing} (h : f.Kept began s) (hl : Later s t) : f.Kept began t where
  punctual := h.punctual
  since := h.since
  past := Int.le_trans h.past hl.now
  known := hl.names _ h.known
  held hs r hr hn := by
    obtain ⟨q, hq, hname, hnext⟩ := hl.rows r hr (hn ▸ h.known)
    rw [← hnext]
    rcases h.held hs q hq (hname.trans hn) with hle | hle
    · exact .inl hle
    · exact .inr (Int.le_trans hle (sqliteTime_mono hl.now))

theorem Ripe.later (h : Ripe s task) (hl : Later s t)
    (hlog : ∀ f ∈ t.log, f.settled = true → f ∈ s.log) : Ripe t task where
  due := Int.le_trans h.due (sqliteTime_mono hl.now)
  known := hl.names _ h.known
  bounds f hf hs hn := Int.le_trans (h.bounds f (hlog f hf hs) hs hn) (sqliteTime_mono hl.now)

/-- The tick may also let go of tasks. -/
theorem Inv.later (h : Inv began s) (hl : Later s t) (hlog : t.log = s.log)
    (hopen : t.phase.open <:+ s.phase.open) (hcurrent : Current t.log t.phase) : Inv began t where
  spaced := hlog ▸ h.spaced
  firings f hf := (h.firings f (hlog ▸ hf)).later hl
  ripe task ht := (h.ripe task (hopen.subset ht)).later hl (fun _ hf _ => hlog ▸ hf)
  distinct := h.distinct.sublist (hopen.sublist.map _)
  current := hcurrent
  ticking := Int.le_trans h.ticking hl.now

theorem Inv.narrow (h : Inv began s) {phase : Phase} (hopen : phase.open <:+ s.phase.open)
    (hcurrent : Current s.log phase) : Inv began { s with db := db, phase := phase } :=
  h.later (.of_eq (Int.le_refl _) rfl) rfl hopen hcurrent

theorem Inv.upsert (h : Inv began s) : Inv began { s with tasks := s.tasks.upsert name secs next } :=
  h.later ⟨Int.le_refl _, fun _ hn => s.tasks.names_upsert hn, fun _ hr hn => Tasks.mem_upsert hr hn⟩
    rfl List.suffix_rfl h.current

theorem Inv.read (h : Inv began s) :
    Inv began { s with phase := .tasks (s.tasks.getDueTasks s.now) } := by
  refine ⟨h.spaced, fun f hf => (h.firings f hf).later (.of_eq (Int.le_refl _) rfl), ?_,
    s.tasks.nodup_getDueTasks s.now, trivial, h.ticking⟩
  intro task ht
  obtain ⟨hrow, hdue⟩ := Tasks.mem_getDueTasks.mp ht
  refine ⟨hdue, List.mem_map_of_mem hrow, fun f hf hs hn => ?_⟩
  rcases (h.firings f hf).held hs task hrow hn.symm with hle | hle
  · exact Int.le_trans hle hdue
  · exact hle

/-- A firing waits for the bound of each settled one before it. -/
theorem Inv.fire (h : Inv began s) (hphase : s.phase = .enqueue task left)
    (hnext : next = .clock task left ∨ next = .tasks left) :
    Inv began { s with
      db := db, log := ⟨task.typeName, task.nextExecution, s.now, task.interval, false⟩ :: s.log, phase := next } := by
  have hopen : next.open <:+ s.phase.open := by
    rw [hphase]
    rcases hnext with rfl | rfl
    · exact List.suffix_rfl
    · exact List.suffix_cons _ _
  have hripe := h.ripe task (by simp [hphase, Phase.open])
  refine ⟨List.pairwise_cons.mpr ⟨?_, h.spaced⟩, ?_, ?_, h.distinct.sublist (hopen.sublist.map _), ?_,
    h.ticking⟩
  · intro f hf hn hs
    exact hripe.bounds f hf hs hn
  · intro f hf
    rcases List.mem_cons.mp hf with rfl | hf
    · exact ⟨hripe.due, h.ticking, Int.le_refl _, hripe.known, nofun⟩
    · exact (h.firings f hf).later (.of_eq (Int.le_refl _) rfl)
  · intro other ho
    refine (h.ripe other (hopen.subset ho)).later (.of_eq (Int.le_refl _) rfl) (fun f hf hs => ?_)
    rcases List.mem_cons.mp hf with rfl | hf
    · cases hs
    · exact hf
  · rcases hnext with rfl | rfl
    · exact ⟨_, _, rfl, rfl, rfl, rfl⟩
    · trivial

theorem Inv.clock (h : Inv began s) (hphase : s.phase = .clock task left) :
    Inv began { s with phase := .update task (s.now + task.interval) left } := by
  refine h.narrow (by rw [hphase]; exact List.suffix_rfl) ?_
  have hcurrent := h.current
  rw [hphase] at hcurrent
  obtain ⟨f, rest, hlog, hs, hn, hi⟩ := hcurrent
  refine ⟨f, rest, hlog, hs, hn, sqliteTime_mono ?_⟩
  have := (h.firings f (by simp [hlog])).past
  omega

/-- Writing the next execution settles the newest firing: its row now holds the bound. -/
theorem Inv.settle (h : Inv began s) (hphase : s.phase = .update task next left) :
    Inv began { s with
      tasks := s.tasks.updateExecution s.now task.typeName next
      log := settleNewest s.log, phase := .tasks left } := by
  have hcurrent := h.current
  rw [hphase] at hcurrent
  obtain ⟨f, rest, hlog, _, hfn, hfb⟩ := hcurrent
  have hf := h.firings f (by simp [hlog])
  have hopen : task :: left = s.phase.open := by rw [hphase]; rfl
  have hripe := h.ripe task (by simp [← hopen])
  have hdistinct := h.distinct
  rw [← hopen, List.map_cons, List.nodup_cons] at hdistinct
  have hnames : (s.tasks.updateExecution s.now task.typeName next).names = s.tasks.names :=
    Tasks.names_set
  have hspaced := h.spaced
  rw [hlog] at hspaced
  obtain ⟨hnewest, hrest⟩ := List.pairwise_cons.mp hspaced
  simp only [hlog, settleNewest]
  refine ⟨List.pairwise_cons.mpr ⟨hnewest, hrest⟩, ?_, ?_, hdistinct.2, trivial, h.ticking⟩
  · intro g hg
    rcases List.mem_cons.mp hg with rfl | hg
    · refine ⟨hf.punctual, hf.since, hf.past, hnames ▸ hf.known, fun _ r hr hn => .inl ?_⟩
      obtain ⟨q, hq, rfl⟩ := Tasks.mem_updateExecution.mp hr
      by_cases hqn : q.typeName = task.typeName
      · rw [if_pos hqn]
        exact hfb
      · rw [if_neg hqn] at hn
        exact absurd (hn.trans hfn) hqn
    · have hmem : g ∈ s.log := by simp [hlog, hg]
      have hg := h.firings g hmem
      refine ⟨hg.punctual, hg.since, hg.past, hnames ▸ hg.known, fun hs r hr hn => ?_⟩
      obtain ⟨q, hq, rfl⟩ := Tasks.mem_updateExecution.mp hr
      by_cases hqn : q.typeName = task.typeName
      · rw [if_pos hqn] at hn
        exact .inr (hripe.bounds g hmem hs (hn.symm.trans hqn))
      · rw [if_neg hqn] at hn ⊢
        exact hg.held hs q hq hn
  · intro other ho
    have hother := h.ripe other (hopen ▸ List.mem_cons_of_mem _ ho)
    refine ⟨hother.due, hnames ▸ hother.known, fun g hg hs hn => ?_⟩
    rcases List.mem_cons.mp hg with rfl | hg
    · -- the settled task stands before the others and is none of them
      exact absurd (List.mem_map.mpr ⟨other, ho, hn.symm.trans hfn⟩) hdistinct.1
    · exact hother.bounds g (by simp [hlog, hg]) hs hn

theorem Inv.step (h : Inv began s) (ht : step s a = some t) : Inv began t := by
  cases step_moves ht with
  | wait hnow htasks hlog hphase =>
    exact h.later (.of_eq hnow htasks) hlog (hphase ▸ List.suffix_rfl)
      (by rw [hlog, hphase]; exact h.current)
  | upsert => exact h.upsert
  | @read ok _ =>
    cases ok with
    | true => exact h.read
    | false => exact h.narrow List.nil_suffix trivial
  | vacant hphase => exact h.narrow (by rw [hphase]; exact List.suffix_rfl) trivial
  | skip hphase _ | unfired hphase | unsettled hphase =>
    exact h.narrow (by rw [hphase]; exact List.suffix_cons _ _) trivial
  | fire hphase hnext => exact h.fire hphase hnext
  | clock hphase => exact h.clock hphase
  | settle hphase => exact h.settle hphase
  | sweep _ | stop => exact h.narrow List.nil_suffix trivial

theorem inv_of_path (h : Path step Free (start now) as s) : Inv now s :=
  h.invariant (fun _ _ _ _ ht hs => hs.step ht) (inv_start now)

/-- The firings of a task after which the next execution was written. -/
def settledFirings (name : String) (log : List Firing) : List Firing :=
  log.filter (fun f => f.settled && f.typeName == name)

theorem mem_settledFirings : f ∈ settledFirings name log ↔
    f ∈ log ∧ f.settled = true ∧ f.typeName = name := by
  simp [settledFirings]

/-- Firings of one task whose interval is at least `secs` are that many seconds apart. -/
theorem settledFirings_spaced (h : log.Pairwise Firing.Spaced)
    (hint : ∀ f ∈ log, f.typeName = name → secs * 1000000000 ≤ f.interval) :
    ((settledFirings name log).map (fun f => sqliteTime f.firedAt)).Pairwise
      (fun newer older => older + secs ≤ newer) := by
  rw [List.pairwise_map]
  refine (h.sublist List.filter_sublist).imp_of_mem ?_
  intro newer older hnew hold hspaced
  obtain ⟨_, _, hn⟩ := mem_settledFirings.mp hnew
  obtain ⟨hmem, hs, ho⟩ := mem_settledFirings.mp hold
  have hle := hspaced (ho.trans hn.symm) hs
  have hlong := hint older hmem ho
  simp only [Firing.bound, sqliteTime] at hle ⊢
  omega

/-- In every run, a task is never enqueued before its next execution, nor sooner than
its interval after an enqueue that was followed by the write of the next execution; so
those number at most one for each interval that has passed, and one more. -/
theorem enqueues_once_per_interval (h : Path step Free (start now) as s) :
    (∀ f ∈ s.log, f.scheduled ≤ sqliteTime f.firedAt) ∧ s.log.Pairwise Firing.Spaced ∧
    ∀ name secs, 0 ≤ secs →
      (∀ f ∈ s.log, f.typeName = name → secs * 1000000000 ≤ f.interval) →
      (settledFirings name s.log).length * secs ≤ sqliteTime s.now - sqliteTime now + secs := by
  have hinv := inv_of_path h
  refine ⟨fun f hf => (hinv.firings f hf).punctual, hinv.spaced, fun name secs hsecs hint => ?_⟩
  have hlen := length_of_spaced (sqliteTime now) (sqliteTime s.now)
    (settledFirings_spaced hinv.spaced hint) hsecs ?_ ?_ (sqliteTime_mono hinv.ticking)
  · rwa [List.length_map] at hlen
  · intro t ht
    obtain ⟨f, hf, rfl⟩ := List.mem_map.mp ht
    exact sqliteTime_mono (hinv.firings f (mem_settledFirings.mp hf).1).since
  · intro t ht
    obtain ⟨f, hf, rfl⟩ := List.mem_map.mp ht
    exact sqliteTime_mono (hinv.firings f (mem_settledFirings.mp hf).1).past

/-- One task that is due every 15 minutes, with a worker that finishes it in between. -/
def twoTicks : List Action :=
  [.upsert "RssSync" 900 900000000000, .advance 900000000000,
    .getDueTasks true, .findDuplicate true, .enqueue .ok, .readClock, .updateExecution .ok,
    .sweepExpiredLeases true, .call (.claim "worker-0" 60000000000), .call (.complete 1 10 "" ""),
    .advance 900000000000,
    .getDueTasks true, .findDuplicate true, .enqueue .ok, .readClock, .updateExecution .ok]

theorem two_ticks_two_enqueues :
    ∃ s, Path step Free (start 0) twoTicks s ∧ (settledFirings "RssSync" s.log).length = 2 ∧
      (settledFirings "RssSync" s.log).length * 900 ≤ sqliteTime s.now - sqliteTime 0 + 900 := by
  have hrun : (exec step (start 0) twoTicks).map State.log =
      some [⟨"RssSync", 1800, 1800000000000, 900000000000, true⟩,
        ⟨"RssSync", 900, 900000000000, 900000000000, true⟩] := by decide
  obtain ⟨s, hs, hlog⟩ := Option.map_eq_some_iff.mp hrun
  have hpath := Path.of_exec hs
  refine ⟨s, hpath, by rw [hlog]; rfl, ?_⟩
  refine (enqueues_once_per_interval hpath).2.2 "RssSync" 900 (by omega) ?_
  rw [hlog]
  simp

end Sonarr.Scheduler
