import Sonarr.Lib.Table
import Sonarr.Lib.StableSort

namespace Sonarr.Commands
open Lib

/-- Clock readings are nanoseconds; `sqliteTimeLayout` and `datetime('now')`
keep whole seconds. -/
def sqliteTime (t : Int) : Int := t / 1000000000

theorem lt_of_sqliteTime_lt {t u : Int} (h : sqliteTime t < sqliteTime u) : t < u := by
  unfold sqliteTime at h
  omega

inductive Status
  | queued
  | running
  | completed
  | failed
  deriving DecidableEq, Repr

inductive Trigger
  | manual
  | scheduled
  deriving DecidableEq, Repr

def priorityNormal : Int := 2

/-- One row of the `commands` table. Stored times are whole seconds. -/
structure Command where
  id : Nat
  name : String
  body : String
  priority : Int
  status : Status
  queuedAt : Int
  startedAt : Option Int
  endedAt : Option Int
  durationMs : Option Int
  exception : String
  trigger : Trigger
  message : String
  result : String
  workerID : String
  leaseUntil : Option Int
  dedupKey : String
  deriving DecidableEq, Repr

instance : Keyed Command := ⟨Command.id⟩

@[simp] theorem key_command (r : Command) : Keyed.key r = r.id := rfl

/-- `status IN ('queued', 'running')`. -/
def Command.active (r : Command) : Bool := r.status == .queued || r.status == .running

/-- What `Complete` and `Fail` record about a finished command. -/
def Command.outcome (r : Command) : Option Int × Option Int × String × String × String :=
  (r.endedAt, r.durationMs, r.exception, r.result, r.message)

namespace Command

/-- The assignments of `MarkCommandRunning`. -/
def markRunning (now : Int) (workerID : String) (leaseUntil : Int) (r : Command) : Command :=
  { r with
    status := .running, workerID, startedAt := some (sqliteTime now),
    leaseUntil := some leaseUntil }

/-- The assignments of `CompleteCommand`. -/
def complete (now durationMs : Int) (result message : String) (r : Command) : Command :=
  { r with
    status := .completed, endedAt := some (sqliteTime now), durationMs := some durationMs,
    result, message }

/-- The assignments of `FailCommand`. -/
def fail (now durationMs : Int) (exception message : String) (r : Command) : Command :=
  { r with
    status := .failed, endedAt := some (sqliteTime now), durationMs := some durationMs,
    exception, message }

/-- The assignment of `RefreshLease`. -/
def refresh (leaseUntil : Int) (r : Command) : Command := { r with leaseUntil := some leaseUntil }

/-- The assignments of `SweepExpiredLeases`. -/
def requeue (r : Command) : Command :=
  { r with status := .queued, workerID := "", startedAt := none, leaseUntil := none }

/-- `status = 'running' AND lease_until < datetime('now')`; a null lease never expires. -/
def expired (now : Int) (r : Command) : Bool :=
  r.status == .running && r.leaseUntil.any (fun l => decide (l < sqliteTime now))

/-- `status IN ('completed', 'failed') AND ended_at < ?`. -/
def deletable (olderThan : Int) (r : Command) : Bool :=
  (r.status == .completed || r.status == .failed) &&
    r.endedAt.any (fun e => decide (e < sqliteTime olderThan))

/-- The `ORDER BY priority ASC, queued_at ASC` of `SelectNextQueuedCommand`. Rows
it leaves tied come in row order, as in the partial index it reads. -/
def claimOrder (a b : Command) : Bool :=
  decide (a.priority < b.priority) || (a.priority == b.priority && decide (a.queuedAt < b.queuedAt))

theorem claimOrder_weak : WeakOrder claimOrder where
  asymm a b h := by
    simp only [claimOrder, Bool.or_eq_true, Bool.and_eq_true, decide_eq_true_eq, beq_iff_eq,
      Bool.or_eq_false_iff, Bool.and_eq_false_imp, decide_eq_false_iff_not] at h ⊢
    omega
  trans a b c hba hcb := by
    simp only [claimOrder, Bool.or_eq_false_iff, Bool.and_eq_false_imp, decide_eq_false_iff_not,
      beq_iff_eq] at hba hcb ⊢
    omega

@[simp] theorem markRunning_id : (markRunning n w l r).id = r.id := rfl
@[simp] theorem markRunning_status : (markRunning n w l r).status = .running := rfl
@[simp] theorem markRunning_worker : (markRunning n w l r).workerID = w := rfl
@[simp] theorem markRunning_lease : (markRunning n w l r).leaseUntil = some l := rfl
@[simp] theorem complete_id : (complete n d res m r).id = r.id := rfl
@[simp] theorem complete_status : (complete n d res m r).status = .completed := rfl
@[simp] theorem fail_id : (fail n d e m r).id = r.id := rfl
@[simp] theorem fail_status : (fail n d e m r).status = .failed := rfl
@[simp] theorem refresh_id : (refresh l r).id = r.id := rfl
@[simp] theorem refresh_status : (refresh l r).status = r.status := rfl
@[simp] theorem refresh_worker : (refresh l r).workerID = r.workerID := rfl
@[simp] theorem refresh_lease : (refresh l r).leaseUntil = some l := rfl
@[simp] theorem requeue_id : (requeue r).id = r.id := rfl
@[simp] theorem requeue_status : (requeue r).status = .queued := rfl

theorem markRunning_key (r : Command) : Keyed.key (markRunning n w l r) = Keyed.key r := rfl
theorem complete_key (r : Command) : Keyed.key (complete n d res m r) = Keyed.key r := rfl
theorem fail_key (r : Command) : Keyed.key (fail n d e m r) = Keyed.key r := rfl
theorem refresh_key (r : Command) : Keyed.key (refresh l r) = Keyed.key r := rfl
theorem requeue_key (r : Command) : Keyed.key (requeue r) = Keyed.key r := rfl

theorem expired_iff :
    expired now r = true ↔ r.status = .running ∧ ∃ l, r.leaseUntil = some l ∧ l < sqliteTime now := by
  simp [expired, Option.any_eq_true]

end Command

abbrev Db := Table Command

/-- The write operations of `Queue`. A lease refresh reads its clock (`issued`)
before its write callback runs; every other operation inside it. -/
inductive Call
  | enqueue (name body : String) (priority : Int) (trigger : Trigger) (dedupKey : String)
  | claim (workerID : String) (leaseDuration : Int)
  | refreshLease (id : Nat) (issued leaseDuration : Int)
  | complete (id : Nat) (durationMs : Int) (result message : String)
  | fail (id : Nat) (durationMs : Int) (exception message : String)
  | sweepExpiredLeases
  | deleteOldCompleted (olderThan : Int)
  deriving DecidableEq, Repr

namespace Db

/-- The row `EnqueueCommand` inserts: the columns it does not name take their defaults. -/
def newCommand (now : Int) (name body : String) (priority : Int) (trigger : Trigger)
    (dedupKey : String) (id : Nat) : Command :=
  { id, name, body, priority, trigger, dedupKey
    status := .queued, queuedAt := sqliteTime now
    startedAt := none, endedAt := none, durationMs := none
    exception := "", message := "", result := "\x7b\x7d", workerID := "", leaseUntil := none }

theorem newCommand_key (id : Nat) : Keyed.key (newCommand now name body p tr k id) = id := rfl

def enqueue (db : Db) (now : Int) (name body : String) (priority : Int) (trigger : Trigger)
    (dedupKey : String) : Db :=
  db.insert (newCommand now name body priority trigger dedupKey) newCommand_key

/-- `SelectNextQueuedCommand`. -/
def nextQueued (db : Db) : Option Command :=
  (stableSort Command.claimOrder (db.rows.filter (fun r => r.status == .queued))).head?

def markCommandRunning (db : Db) (now : Int) (workerID : String) (leaseUntil : Int) (id : Nat) :
    Db :=
  db.update (fun r => r.id == id) (Command.markRunning now workerID leaseUntil)
    Command.markRunning_key

/-- `sqliteQueue.Claim`: select, mark and reload, in one write callback. -/
def claim (db : Db) (now : Int) (workerID : String) (leaseDuration : Int) : Option Command × Db :=
  match (nextQueued db).map Command.id with
  | none => (none, db)
  | some id =>
    let leaseUntil := sqliteTime (now + leaseDuration)
    let marked := markCommandRunning db now workerID leaseUntil id
    (marked.get id, marked)

def complete (db : Db) (now : Int) (id : Nat) (durationMs : Int) (result message : String) : Db :=
  db.update (fun r => r.id == id) (Command.complete now durationMs result message)
    Command.complete_key

def fail (db : Db) (now : Int) (id : Nat) (durationMs : Int) (exception message : String) : Db :=
  db.update (fun r => r.id == id) (Command.fail now durationMs exception message)
    Command.fail_key

/-- The only report whose statement looks at the status. -/
def refreshLease (db : Db) (id : Nat) (issued leaseDuration : Int) : Db :=
  db.update (fun r => r.id == id && r.status == .running)
    (Command.refresh (sqliteTime (issued + leaseDuration))) Command.refresh_key

def sweepExpiredLeases (db : Db) (now : Int) : Db :=
  db.update (Command.expired now) Command.requeue Command.requeue_key

def findDuplicate (db : Db) (dedupKey : String) : Option Nat :=
  (db.rows.find? (fun r => r.dedupKey == dedupKey && r.active)).map Command.id

def deleteOldCompleted (db : Db) (olderThan : Int) : Db := db.delete (Command.deletable olderThan)

def call (db : Db) (now : Int) : Call → Db
  | .enqueue name body priority trigger dedupKey => enqueue db now name body priority trigger dedupKey
  | .claim workerID leaseDuration => (claim db now workerID leaseDuration).2
  | .refreshLease id issued leaseDuration => refreshLease db id issued leaseDuration
  | .complete id durationMs result message => complete db now id durationMs result message
  | .fail id durationMs exception message => fail db now id durationMs exception message
  | .sweepExpiredLeases => sweepExpiredLeases db now
  | .deleteOldCompleted olderThan => deleteOldCompleted db olderThan

/-- The row a claim takes is queued and no queued row comes before it. -/
theorem nextQueued_spec {db : Db} (h : nextQueued db = some r) :
    r ∈ db.rows ∧ r.status = .queued ∧
      ∀ q ∈ db.rows, q.status = .queued → Command.claimOrder q r = false := by
  have hf := head_stableSort Command.claimOrder_weak _ h
  obtain ⟨hm, hs⟩ := List.mem_filter.mp hf.mem
  refine ⟨hm, by simpa using hs, ?_⟩
  intro q hq hqs
  exact hf.unbeaten Command.claimOrder_weak q (List.mem_filter.mpr ⟨hq, by simp [hqs]⟩)

/-- Everything a claim can do: nothing, or hand out the next queued row. -/
theorem claim_cases (db : Db) (now : Int) (w : String) (d : Int) :
    (nextQueued db = none ∧ claim db now w d = (none, db)) ∨
    ∃ r, nextQueued db = some r ∧
      claim db now w d = (some (r.markRunning now w (sqliteTime (now + d))),
        markCommandRunning db now w (sqliteTime (now + d)) r.id) := by
  cases hn : nextQueued db with
  | none => exact .inl ⟨rfl, by simp [claim, hn]⟩
  | some r =>
    refine .inr ⟨r, rfl, ?_⟩
    have hr := (nextQueued_spec hn).1
    have hg : (markCommandRunning db now w (sqliteTime (now + d)) r.id).get r.id =
        some (r.markRunning now w (sqliteTime (now + d))) := by
      rw [Table.get_eq_some, markCommandRunning, Table.mem_update]
      exact ⟨⟨r, hr, by simp⟩, rfl⟩
    simp [claim, hn, hg]

end Db

/-- All that one call can do to a row that is there before and after it. -/
inductive RowChange (now : Int) : Call → Command → Command → Prop
  | same : RowChange now c r r
  | claim (queued : r.status = .queued) :
      RowChange now (.claim w d) r (r.markRunning now w (sqliteTime (now + d)))
  | complete : RowChange now (.complete r.id d res m) r (r.complete now d res m)
  | fail : RowChange now (.fail r.id d e m) r (r.fail now d e m)
  | refresh (running : r.status = .running) :
      RowChange now (.refreshLease r.id t d) r (r.refresh (sqliteTime (t + d)))
  | sweep (expired : r.expired now = true) : RowChange now .sweepExpiredLeases r r.requeue

theorem RowChange.id_eq (h : RowChange now c r r') : r'.id = r.id := by
  cases h <;> rfl

/-- The `WHERE` clause of a report statement, for the calls that are reports. -/
def Call.reportsOn : Call → Command → Bool
  | .complete id _ _ _, r => r.id == id
  | .fail id _ _ _, r => r.id == id
  | .refreshLease id _ _, r => r.id == id && r.status == .running
  | _, _ => false

/-- The calls that take a running row away from its claim. -/
inductive Releases (now : Int) (r : Command) : Call → Prop
  | complete : Releases now r (.complete r.id d res m)
  | fail : Releases now r (.fail r.id d e m)
  | sweep (expired : r.expired now = true) : Releases now r .sweepExpiredLeases

/-- A settled row changes only by a further report on it. -/
theorem RowChange.settled (h : RowChange now c r r') (hs : r.active = false)
    (hc : c.reportsOn r = false) : r' = r := by
  cases h with
  | same => rfl
  | claim hq => simp [Command.active, hq] at hs
  | complete | fail => simp [Call.reportsOn] at hc
  | refresh hq => simp [Command.active, hq] at hs
  | sweep he => simp [Command.active, (Command.expired_iff.mp he).1] at hs

/-- A running row stays running under its claim unless the call releases it. -/
theorem RowChange.running (h : RowChange now c r r') (hs : r.status = .running)
    (hc : ¬ Releases now r c) : r'.status = .running ∧ r'.workerID = r.workerID := by
  cases h with
  | same => exact ⟨hs, rfl⟩
  | claim hq => simp [hs] at hq
  | complete => exact absurd .complete hc
  | fail => exact absurd .fail hc
  | refresh _ => exact ⟨hs, rfl⟩
  | sweep he => exact absurd (.sweep he) hc

namespace Db

/-- A row goes through one `RowChange`, unless the cleanup deletes it. -/
theorem call_forward {db : Db} (hr : r ∈ db.rows) (now : Int) (c : Call) :
    (∃ r' ∈ (call db now c).rows, RowChange now c r r') ∨
    ∃ t, c = .deleteOldCompleted t ∧ r.deletable t = true := by
  cases c with
  | enqueue name body p tr k =>
    refine .inl ⟨r, ?_, .same⟩
    simp [call, enqueue, Table.mem_insert, hr]
  | claim w d =>
    rcases claim_cases db now w d with ⟨_, hc⟩ | ⟨q, hq, hc⟩
    · exact .inl ⟨r, by simpa [call, hc] using hr, .same⟩
    · obtain ⟨hqm, hqs, _⟩ := nextQueued_spec hq
      simp only [call, hc, markCommandRunning, Table.mem_update]
      by_cases he : r.id = q.id
      · have hrq : r = q := Table.eq_of_key hr hqm he
        subst hrq
        exact .inl ⟨_, ⟨r, hr, by simp⟩, .claim hqs⟩
      · exact .inl ⟨r, ⟨r, hr, by simp [he]⟩, .same⟩
  | refreshLease id t d =>
    simp only [call, refreshLease, Table.mem_update]
    by_cases he : r.id = id ∧ r.status = .running
    · obtain ⟨rfl, hs⟩ := he
      exact .inl ⟨_, ⟨r, hr, by simp [hs]⟩, .refresh hs⟩
    · exact .inl ⟨r, ⟨r, hr, by simp_all⟩, .same⟩
  | complete id d res m =>
    simp only [call, complete, Table.mem_update]
    by_cases he : r.id = id
    · subst he
      exact .inl ⟨_, ⟨r, hr, by simp⟩, .complete⟩
    · exact .inl ⟨r, ⟨r, hr, by simp [he]⟩, .same⟩
  | fail id d e m =>
    simp only [call, fail, Table.mem_update]
    by_cases he : r.id = id
    · subst he
      exact .inl ⟨_, ⟨r, hr, by simp⟩, .fail⟩
    · exact .inl ⟨r, ⟨r, hr, by simp [he]⟩, .same⟩
  | sweepExpiredLeases =>
    simp only [call, sweepExpiredLeases, Table.mem_update]
    cases he : r.expired now with
    | true => exact .inl ⟨_, ⟨r, hr, by simp [he]⟩, .sweep he⟩
    | false => exact .inl ⟨r, ⟨r, hr, by simp [he]⟩, .same⟩
  | deleteOldCompleted t =>
    cases hd : r.deletable t with
    | true => exact .inr ⟨t, rfl, hd⟩
    | false => exact .inl ⟨r, Table.mem_delete.mpr ⟨hr, hd⟩, .same⟩

/-- The row a call inserts, if it inserts one. -/
def inserted (db : Db) (now : Int) : Call → Option Command
  | .enqueue name body priority trigger dedupKey =>
    some (newCommand now name body priority trigger dedupKey db.next)
  | _ => none

theorem inserted_fresh {db : Db} (h : inserted db now c = some r) : ¬ r.id < db.next := by
  cases c <;> simp [inserted] at h
  simp [← h, newCommand]

theorem call_rows_origin {db : Db} (hr : r' ∈ (call db now c).rows) :
    (∃ r ∈ db.rows, r.id = r'.id) ∨ inserted db now c = some r' := by
  cases c with
  | enqueue name body p tr k =>
    simp only [call, enqueue, Table.mem_insert] at hr
    rcases hr with h | h
    · exact .inl ⟨r', h, rfl⟩
    · exact .inr (by rw [h]; rfl)
  | claim w d =>
    rcases claim_cases db now w d with ⟨_, hc⟩ | ⟨q, hq, hc⟩
    · exact .inl ⟨r', by simpa [call, hc] using hr, rfl⟩
    · simp only [call, hc, markCommandRunning, Table.mem_update] at hr
      obtain ⟨r, hm, rfl⟩ := hr
      exact .inl ⟨r, hm, by split <;> rfl⟩
  | refreshLease id t d | complete id d res m | fail id d e m | sweepExpiredLeases =>
    simp only [call, refreshLease, complete, fail, sweepExpiredLeases, Table.mem_update] at hr
    obtain ⟨r, hm, rfl⟩ := hr
    exact .inl ⟨r, hm, by split <;> rfl⟩
  | deleteOldCompleted t => exact .inl ⟨r', (Table.mem_delete.mp hr).1, rfl⟩

/-- Every row after a call is a changed old row or the inserted one. -/
theorem call_backward {db : Db} (hr : r' ∈ (call db now c).rows) :
    (∃ r ∈ db.rows, RowChange now c r r') ∨ inserted db now c = some r' := by
  rcases call_rows_origin hr with ⟨r, hm, hid⟩ | h
  · rcases call_forward hm now c with ⟨q, hq, hc⟩ | ⟨t, rfl, hd⟩
    · have he : q = r' := Table.eq_of_key hq hr (hc.id_eq.trans hid)
      exact .inl ⟨r, hm, he ▸ hc⟩
    · obtain ⟨hr', hk⟩ := Table.mem_delete.mp hr
      have he : r = r' := Table.eq_of_key hm hr' hid
      rw [he, hk] at hd
      cases hd
  · exact .inr h

/-- The cleanup never takes a row that is queued or running. -/
theorem call_active {db : Db} (hr : r ∈ db.rows) (ha : r.active = true) (now : Int) (c : Call) :
    ∃ r' ∈ (call db now c).rows, RowChange now c r r' := by
  rcases call_forward hr now c with h | ⟨t, _, hd⟩
  · exact h
  · cases hs : r.status <;> simp [Command.active, Command.deletable, hs] at ha hd

theorem call_running {db : Db} (hr : r ∈ db.rows) (hs : r.status = .running)
    (hc : ¬ Releases now r c) :
    ∃ r' ∈ (call db now c).rows, r'.id = r.id ∧ r'.status = .running ∧ r'.workerID = r.workerID := by
  obtain ⟨r', hm, hch⟩ := call_active hr (by simp [Command.active, hs]) now c
  exact ⟨r', hm, hch.id_eq, hch.running hs hc⟩

theorem call_next_le (db : Db) (now : Int) (c : Call) : db.next ≤ (call db now c).next := by
  cases c with
  | enqueue name body p tr k => exact Nat.le_succ _
  | claim w d =>
    rcases claim_cases db now w d with ⟨_, hc⟩ | ⟨q, _, hc⟩
    · simp [call, hc]
    · simp [call, hc, markCommandRunning, Table.update]
  | refreshLease id t d | complete id d res m | fail id d e m | sweepExpiredLeases
  | deleteOldCompleted t => exact Nat.le_refl _

end Db
end Sonarr.Commands
