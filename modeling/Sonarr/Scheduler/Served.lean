import Sonarr.Scheduler.Runs

namespace Sonarr.Scheduler
open Lib Commands

variable {s t u v : State} {a : Action} {task : ScheduledTask} {left : List ScheduledTask}

/-- A tick in which no read fails, no enqueue fails and the loop is not stopped. -/
def Succeeds (_ : State) : Action → Prop
  | .getDueTasks ok | .findDuplicate ok => ok = true
  | .enqueue outcome => outcome = .ok
  | .stop => False
  | _ => True

/-- A command of this task is queued or running. -/
def Active (db : Db) (typeName : String) : Prop :=
  ∃ r ∈ db.rows, r.active = true ∧ r.dedupKey = typeName

theorem active_of_findDuplicate {db : Db} (h : Db.findDuplicate db k ≠ none) : Active db k := by
  obtain ⟨id, hid⟩ := Option.ne_none_iff_exists'.mp h
  obtain ⟨r, hfind, _⟩ := Option.map_eq_some_iff.mp hid
  have hr := List.find?_some hfind
  simp only [Bool.and_eq_true, beq_iff_eq] at hr
  exact ⟨r, List.mem_of_find?_eq_some hfind, hr.2, hr.1⟩

theorem active_of_enqueue (db : Db) (now : Int) (name : String) :
    Active (Db.call db now (Dedup.Work.task name).call) name := by
  have hmem : Db.newCommand now name "" priorityNormal .scheduled name db.next ∈
      (Db.call db now (Dedup.Work.task name).call).rows := by
    simp [Dedup.Work.call, Db.call, Db.enqueue, Table.mem_insert]
  exact ⟨_, hmem, rfl, rfl⟩

/-- One step that succeeds leaves a task ahead, or its command is there before or after
the step. -/
theorem ahead_step (h : step s a = some t) (hok : Succeeds s a) (hahead : task ∈ s.phase.ahead) :
    task ∈ t.phase.ahead ∨ Active s.db task.typeName ∨ Active t.db task.typeName := by
  cases step_moves h with
  | wait _ _ _ hphase => exact .inl (hphase ▸ hahead)
  | upsert => exact .inl hahead
  | read hidle => simp [hidle, Phase.ahead] at hahead
  | sweep hphase => simp [hphase, Phase.ahead] at hahead
  | vacant hphase | clock hphase | settle hphase | unsettled hphase =>
    rw [hphase] at hahead
    exact .inl hahead
  | skip hphase hdup =>
    rw [hphase] at hahead
    rcases List.mem_cons.mp hahead with rfl | hahead
    · exact .inr (.inl (active_of_findDuplicate (hdup hok)))
    · exact .inl hahead
  | fire hphase hnext =>
    rw [hphase] at hahead
    rcases List.mem_cons.mp hahead with rfl | hahead
    · exact .inr (.inr (active_of_enqueue _ _ _))
    · rcases hnext with rfl | rfl <;> exact .inl hahead
  | unfired _ | stop => cases hok

/-- On the way to where a task is no longer ahead, its command was there. -/
theorem active_on_path (h : Path step Succeeds s as u) (hahead : task ∈ s.phase.ahead)
    (hdone : task ∉ u.phase.ahead) :
    ∃ before after v, as = before ++ after ∧ Path step Succeeds s before v ∧
      Path step Succeeds v after u ∧ Active v.db task.typeName := by
  induction h with
  | nil => exact absurd hahead hdone
  | @cons s a t as u hok hnext hrest ih =>
    rcases ahead_step hnext hok hahead with hahead' | hactive | hactive
    · obtain ⟨before, after, v, has, hb, ha, hv⟩ := ih hahead' hdone
      exact ⟨a :: before, after, v, by rw [has]; rfl, .cons hok hnext hb, ha, hv⟩
    · exact ⟨[], a :: as, s, rfl, .nil, .cons hok hnext hrest, hactive⟩
    · exact ⟨[a], as, t, rfl, .cons hok hnext .nil, hrest, hactive⟩

/-- The task is still there with the times it had. -/
def Unmoved (r : ScheduledTask) (ts : Tasks) : Prop :=
  ∃ q ∈ ts.rows, q.typeName = r.typeName ∧ q.lastExecution = r.lastExecution ∧
    q.nextExecution = r.nextExecution

theorem Unmoved.upsert {ts : Tasks} (h : Unmoved r ts) : Unmoved r (ts.upsert name secs next) := by
  obtain ⟨q, hq, htimes⟩ := h
  rcases ts.upsert_cases name secs next with ⟨_, hrows⟩ | ⟨_, hrows⟩
  · refine ⟨_, (hrows _).mpr ⟨q, hq, rfl⟩, ?_⟩
    split <;> exact htimes
  · exact ⟨q, by rw [hrows]; exact List.mem_append_left _ hq, htimes⟩

theorem Unmoved.updateExecution {ts : Tasks} (h : Unmoved r ts) (hne : name ≠ r.typeName) :
    Unmoved r (ts.updateExecution now name next) := by
  obtain ⟨q, hq, hn, htimes⟩ := h
  have hqne : q.typeName ≠ name := fun he => hne (he.symm.trans hn)
  exact ⟨q, Tasks.mem_updateExecution.mpr ⟨q, hq, by rw [if_neg hqne]⟩, hn, htimes⟩

/-- Since the firings were `base`, only a further one of the task itself has moved it. -/
structure Since (base : List Firing) (r : ScheduledTask) (s : State) (new : List Firing) : Prop where
  log : s.log = new ++ base
  current : ∀ task left, s.phase = .clock task left ∨ (∃ next, s.phase = .update task next left) →
    ∃ f rest, new = f :: rest ∧ f.typeName = task.typeName
  unmoved : (∀ f ∈ new, f.typeName ≠ r.typeName) → Unmoved r s.tasks

theorem Since.step (h : Since base r s new) (ht : step s a = some t) :
    ∃ new', Since base r t new' := by
  cases step_moves ht with
  | wait _ htasks hlog hphase =>
    exact ⟨new, hlog ▸ h.log, hphase ▸ h.current, htasks ▸ h.unmoved⟩
  | upsert => exact ⟨new, h.log, h.current, fun hne => (h.unmoved hne).upsert⟩
  | read | vacant | skip | unfired | unsettled | sweep | stop =>
    exact ⟨new, h.log, by simp, h.unmoved⟩
  | @fire left next o fired hphase hnext =>
    refine ⟨_ :: new, by rw [h.log]; rfl, ?_, fun hne => h.unmoved fun f hf => hne f (by simp [hf])⟩
    intro task left'
    rcases hnext with rfl | rfl
    · intro hp
      simp only [Phase.clock.injEq, reduceCtorEq, exists_false, or_false] at hp
      exact ⟨_, new, rfl, by rw [hp.1]⟩
    · simp
  | clock hphase =>
    refine ⟨new, h.log, ?_, h.unmoved⟩
    intro task left' hp
    simp only [reduceCtorEq, Phase.update.injEq, false_or] at hp
    obtain ⟨next, rfl, rfl, rfl⟩ := hp
    exact h.current _ _ (.inl hphase)
  | settle hphase =>
    obtain ⟨f, rest, rfl, hfn⟩ := h.current _ _ (.inr ⟨_, hphase⟩)
    refine ⟨f.settle :: rest, by rw [h.log]; rfl, by simp, ?_⟩
    intro hne
    have hmoved := h.unmoved fun g hg => by
      rcases List.mem_cons.mp hg with rfl | hg
      · exact hne g.settle (by simp)
      · exact hne g (by simp [hg])
    exact hmoved.updateExecution (hfn ▸ hne f.settle (by simp))

theorem since_of_path (h : Path step Free s as u) (hidle : s.phase = .idle) (hr : r ∈ s.tasks.rows) :
    ∃ new, Since s.log r u new := by
  refine h.invariant (P := fun u => ∃ new, Since s.log r u new) ?_ ?_
  · intro t a v _ ht hs
    obtain ⟨new, hnew⟩ := hs
    exact hnew.step ht
  · exact ⟨[], rfl, by simp [hidle], fun _ => ⟨r, hr, rfl, rfl, rfl⟩⟩

/-- No due task is passed over. In a tick whose reads and enqueues succeed, with whatever
else happens on the queue, each due task has an active command at some point of the tick.
And whatever fails, the stored times of a task move only after an enqueue of that task, so
one that is passed over is still due at the next tick. -/
theorem due_tasks_served :
    (∀ s as u, Path step Succeeds s (.getDueTasks true :: as) u → u.phase = .tasks [] →
      ∀ r ∈ s.tasks.rows, r.nextExecution ≤ sqliteTime s.now →
        ∃ before after v, as = before ++ after ∧
          Path step Succeeds s (.getDueTasks true :: before) v ∧ Path step Succeeds v after u ∧
          Active v.db r.typeName) ∧
    ∀ s as u, Path step Free s as u → s.phase = .idle → ∀ r ∈ s.tasks.rows,
      ∃ new, u.log = new ++ s.log ∧
        ((∀ f ∈ new, f.typeName ≠ r.typeName) → Unmoved r u.tasks) := by
  constructor
  · intro s as u h hdone r hr hdue
    cases h with
    | @cons _ _ t _ _ hok hnext hrest =>
      have hahead : r ∈ t.phase.ahead := by
        simp only [step] at hnext
        split at hnext
        · cases hnext
          exact Tasks.mem_getDueTasks.mpr ⟨hr, hdue⟩
        · cases hnext
      obtain ⟨before, after, v, has, hb, ha, hv⟩ :=
        active_on_path hrest hahead (by simp [hdone, Phase.ahead])
      exact ⟨before, after, v, has, .cons hok hnext hb, ha, hv⟩
  · intro s as u h hidle r hr
    obtain ⟨new, hnew⟩ := since_of_path h hidle hr
    exact ⟨new, hnew.log, hnew.unmoved⟩

/-- The registered task, at the time it is due. -/
def dueState : State :=
  { start 900000000000 with tasks := Tasks.empty.upsert "RssSync" 900 900000000000 }

/-- A tick during which someone else enqueues a command. -/
def oneTick : List Action :=
  [.findDuplicate true, .call (.enqueue "RefreshSeries" "" 2 .manual ""), .enqueue .ok, .readClock,
    .updateExecution .ok]

theorem one_tick_served : ∃ u before after v,
    Path step Succeeds dueState (.getDueTasks true :: oneTick) u ∧ oneTick = before ++ after ∧
      Path step Succeeds dueState (.getDueTasks true :: before) v ∧ Path step Succeeds v after u ∧
      Active v.db "RssSync" := by
  have hrun : exec step dueState (.getDueTasks true :: oneTick) = some
      { dueState with
        tasks := dueState.tasks.updateExecution 900000000000 "RssSync" 1800000000000
        db := Db.call (Db.call .empty 900000000000 (.enqueue "RefreshSeries" "" 2 .manual ""))
          900000000000 (Dedup.Work.task "RssSync").call
        phase := .tasks []
        log := [⟨"RssSync", 900, 900000000000, 900000000000, true⟩] } := rfl
  have hok : ∀ a ∈ Action.getDueTasks true :: oneTick, ∀ s, Succeeds s a := by
    simp [oneTick, Succeeds]
  have hpath : Path step Succeeds _ _ _ := Path.of_exec_guarded hok hrun
  obtain ⟨before, after, v, has, hb, ha, hv⟩ := due_tasks_served.1 _ _ _ hpath rfl
    ⟨"RssSync", 900, none, 900⟩ (by decide) (by decide)
  exact ⟨_, before, after, v, hpath, has, hb, ha, hv⟩

end Sonarr.Scheduler
