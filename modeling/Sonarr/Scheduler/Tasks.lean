import Sonarr.Commands.Queue
import Sonarr.Lib.Slices

namespace Sonarr.Scheduler
open Lib Commands

/-- A row of `scheduled_tasks`. Stored times are whole seconds. -/
structure ScheduledTask where
  typeName : String
  intervalSecs : Int
  lastExecution : Option Int
  nextExecution : Int
  deriving DecidableEq, Repr

namespace ScheduledTask

/-- `next_execution <= datetime('now')`. -/
def due (now : Int) (t : ScheduledTask) : Bool := decide (t.nextExecution ≤ sqliteTime now)

/-- `ORDER BY next_execution ASC`. -/
def sooner (a b : ScheduledTask) : Bool := decide (a.nextExecution < b.nextExecution)

/-- `time.Duration(task.IntervalSecs) * time.Second`. -/
def interval (t : ScheduledTask) : Int := Slices.int64 (t.intervalSecs * 1000000000)

/-- The assignments of `UpdateTaskExecution`. -/
def executed (now nextExecution : Int) (t : ScheduledTask) : ScheduledTask :=
  { t with lastExecution := some (sqliteTime now), nextExecution := sqliteTime nextExecution }

@[simp] theorem executed_typeName : (executed now next t).typeName = t.typeName := rfl

end ScheduledTask

/-- The table `scheduled_tasks`, of which `type_name` is the primary key. -/
structure Tasks where
  rows : List ScheduledTask
  unique : (rows.map ScheduledTask.typeName).Nodup

namespace Tasks

def empty : Tasks := ⟨[], by simp⟩

def getDueTasks (ts : Tasks) (now : Int) : List ScheduledTask :=
  stableSort ScheduledTask.sooner (ts.rows.filter (fun t => t.due now))

theorem mem_getDueTasks {ts : Tasks} :
    t ∈ ts.getDueTasks now ↔ t ∈ ts.rows ∧ t.nextExecution ≤ sqliteTime now := by
  rw [getDueTasks, (perm_stableSort _ _).mem_iff, List.mem_filter, ScheduledTask.due,
    decide_eq_true_eq]

theorem nodup_getDueTasks (ts : Tasks) (now : Int) :
    ((ts.getDueTasks now).map ScheduledTask.typeName).Nodup := by
  have hp := (perm_stableSort ScheduledTask.sooner (ts.rows.filter (fun t => t.due now))).map
    ScheduledTask.typeName
  exact hp.nodup_iff.mpr (ts.unique.sublist (List.filter_sublist.map _))

theorem names_assign {rows : List ScheduledTask} {f : ScheduledTask → ScheduledTask}
    (hf : ∀ t, (f t).typeName = t.typeName) :
    (rows.map (fun t => if t.typeName = name then f t else t)).map ScheduledTask.typeName =
      rows.map ScheduledTask.typeName := by
  rw [List.map_map]
  refine List.map_congr_left (fun t _ => ?_)
  simp only [Function.comp]
  split <;> simp [hf]

/-- An assignment to the row of one task, which does not rename it. -/
def set (ts : Tasks) (typeName : String) (f : ScheduledTask → ScheduledTask)
    (hf : ∀ t, (f t).typeName = t.typeName) : Tasks where
  rows := ts.rows.map (fun t => if t.typeName = typeName then f t else t)
  unique := by
    rw [names_assign hf]
    exact ts.unique

def names (ts : Tasks) : List String := ts.rows.map ScheduledTask.typeName

@[simp] theorem names_set {ts : Tasks} {f : ScheduledTask → ScheduledTask} {hf} :
    (ts.set name f hf).names = ts.names := names_assign hf

theorem mem_set {ts : Tasks} {f : ScheduledTask → ScheduledTask} {hf} :
    t ∈ (ts.set typeName f hf).rows ↔
      ∃ q ∈ ts.rows, t = if q.typeName = typeName then f q else q := by
  simp only [set, List.mem_map]
  exact exists_congr fun q => and_congr_right fun _ => eq_comm

def updateExecution (ts : Tasks) (now : Int) (typeName : String) (nextExecution : Int) : Tasks :=
  ts.set typeName (ScheduledTask.executed now nextExecution)
    (fun _ => ScheduledTask.executed_typeName)

theorem mem_updateExecution {ts : Tasks} :
    t ∈ (ts.updateExecution now typeName next).rows ↔
      ∃ q ∈ ts.rows, t = if q.typeName = typeName then q.executed now next else q :=
  mem_set

/-- On conflict only the interval is written. -/
def upsert (ts : Tasks) (typeName : String) (intervalSecs nextExecution : Int) : Tasks :=
  if h : typeName ∈ ts.names then
    ts.set typeName (fun t => { t with intervalSecs }) (fun _ => rfl)
  else
    { rows := ts.rows ++ [⟨typeName, intervalSecs, none, sqliteTime nextExecution⟩]
      unique := by
        rw [List.map_append, List.nodup_append]
        refine ⟨ts.unique, by simp, ?_⟩
        intro a ha b hb he
        subst he
        have hb' : a = typeName := by simpa using hb
        exact h (hb' ▸ ha) }

/-- All that `Upsert` does: a known task keeps its times, an unknown one is added. -/
theorem upsert_cases (ts : Tasks) (typeName : String) (intervalSecs nextExecution : Int) :
    (typeName ∈ ts.names ∧
      ∀ t, t ∈ (ts.upsert typeName intervalSecs nextExecution).rows ↔ ∃ q ∈ ts.rows,
        t = if q.typeName = typeName then { q with intervalSecs } else q) ∨
    (typeName ∉ ts.names ∧
      (ts.upsert typeName intervalSecs nextExecution).rows =
        ts.rows ++ [⟨typeName, intervalSecs, none, sqliteTime nextExecution⟩]) := by
  by_cases h : typeName ∈ ts.names
  · refine .inl ⟨h, fun t => ?_⟩
    rw [upsert, dif_pos h, mem_set]
  · exact .inr ⟨h, by rw [upsert, dif_neg h]⟩

theorem names_upsert (ts : Tasks) (h : n ∈ ts.names) : n ∈ (ts.upsert name secs next).names := by
  unfold upsert
  split
  · rwa [names_set]
  · rw [names, List.map_append]
    exact List.mem_append_left _ h

/-- Registering a task leaves the stored times of the tasks that are there. -/
theorem mem_upsert {ts : Tasks} (hr : r ∈ (ts.upsert name secs next).rows)
    (hknown : r.typeName ∈ ts.names) :
    ∃ q ∈ ts.rows, q.typeName = r.typeName ∧ q.nextExecution = r.nextExecution := by
  rcases ts.upsert_cases name secs next with ⟨_, hrows⟩ | ⟨hnew, hrows⟩
  · obtain ⟨q, hq, rfl⟩ := (hrows r).mp hr
    refine ⟨q, hq, ?_⟩
    split <;> exact ⟨rfl, rfl⟩
  · rw [hrows] at hr
    rcases List.mem_append.mp hr with hr | hr
    · exact ⟨r, hr, rfl, rfl⟩
    · rw [List.mem_singleton.mp hr] at hknown
      exact absurd hknown hnew

end Tasks
end Sonarr.Scheduler
