import Sonarr.Db.ClaimReports

namespace Sonarr.Commands.Handout
open Lib Sonarr.Sqlite

/-- What the queue is for, whatever keeps its rows: who has which command. -/
structure Job where
  status : Status
  worker : String
  deriving DecidableEq, Repr

def Job.settled (j : Job) : Prop := j.status = .completed ∨ j.status = .failed

/-- Ids are handed out in order. -/
@[ext] structure Queue where
  jobs : Nat → Option Job
  next : Nat
  below : ∀ k, jobs k ≠ none → k < next

/-- What the users of a queue see of one of its calls. -/
inductive Event
  | quiet
  | enqueued (id : Nat)
  | claimed (id : Nat) (worker : String)
  | finished (ids : List Nat) (status : Status)
  | requeued (ids : List Nat)
  | deleted (ids : List Nat)
  deriving DecidableEq, Repr

/-- The jobs with these ids change. -/
def Queue.set (q : Queue) (ids : List Nat) (f : Job → Option Job) : Queue where
  jobs := fun k => if k ∈ ids then (q.jobs k).bind f else q.jobs k
  next := q.next
  below k hk := q.below k (fun hnone => hk (by simp [hnone]))

/-- A new job waits. -/
def Queue.push (q : Queue) : Queue where
  jobs := Function.update q.jobs q.next (some ⟨.queued, ""⟩)
  next := q.next + 1
  below k hk := by
    by_cases he : k = q.next
    · simp [he]
    · rw [Function.update_of_ne he] at hk
      exact Nat.lt_succ_of_lt (q.below k hk)

/-- A claim hands out some queued command. Only running ones return to the queue, and
only settled ones are deleted. -/
inductive Step (q : Queue) : Event → Queue → Prop
  | quiet : Step q .quiet q
  | enqueued : Step q (.enqueued q.next) q.push
  | claimed (hk : q.jobs k = some ⟨.queued, w₀⟩) :
      Step q (.claimed k w) (q.set [k] (fun _ => some ⟨.running, w⟩))
  | finished (hs : st = .completed ∨ st = .failed) :
      Step q (.finished ks st) (q.set ks (fun j => some { j with status := st }))
  | requeued (hk : ∀ k ∈ ks, ∃ w, q.jobs k = some ⟨.running, w⟩) :
      Step q (.requeued ks) (q.set ks (fun _ => some ⟨.queued, ""⟩))
  | deleted (hk : ∀ k ∈ ks, ∃ j, q.jobs k = some j ∧ j.settled) :
      Step q (.deleted ks) (q.set ks (fun _ => none))

inductive Run : Queue → List Event → Queue → Prop
  | nil : Run q [] q
  | cons (first : Step q e r) (rest : Run r es t) : Run q (e :: es) t

/-- Between two claims of a command it has been returned to the queue. -/
def Exclusive (es : List Event) : Prop :=
  ∀ pre mid post k w w', es = pre ++ .claimed k w :: (mid ++ .claimed k w' :: post) →
    ∃ ks, .requeued ks ∈ mid ∧ k ∈ ks

/-- No job is waiting under this id, and none will be enqueued under it. -/
def Taken (q : Queue) (k : Nat) : Prop :=
  k < q.next ∧ ∀ j, q.jobs k = some j → j.status ≠ .queued

theorem set_jobs {q : Queue} (k : Nat) :
    (q.set ks f).jobs k = if k ∈ ks then (q.jobs k).bind f else q.jobs k := rfl

theorem set_some {q : Queue} : q.set ks some = q := by
  simp [Queue.set]

/-- A set that leaves no queued job under `k` keeps it taken. -/
theorem taken_set {q : Queue} (h : Taken q k)
    (hf : k ∈ ks → ∀ j j', f j = some j' → j.status ≠ .queued → j'.status ≠ .queued) :
    Taken (q.set ks f) k := by
  refine ⟨h.1, fun j' hj' => ?_⟩
  rw [set_jobs] at hj'
  split at hj'
  · rename_i hmem
    obtain ⟨j, hj, he⟩ := Option.bind_eq_some_iff.mp hj'
    exact hf hmem j j' he (h.2 j hj)
  · exact h.2 j' hj'

theorem Taken.step (h : Taken q k) (hs : Step q e r) (he : ∀ ks, e = .requeued ks → k ∉ ks) :
    Taken r k := by
  cases hs with
  | quiet => exact h
  | enqueued =>
    refine ⟨Nat.lt_succ_of_lt h.1, fun j hj => h.2 j ?_⟩
    simpa only [Queue.push, Function.update_of_ne (Nat.ne_of_lt h.1)] using hj
  | claimed hk =>
    refine taken_set h (fun _ j j' hj' _ => ?_)
    cases hj'
    exact nofun
  | finished hst =>
    refine taken_set h (fun _ j j' hj' _ => ?_)
    cases hj'
    rcases hst with rfl | rfl <;> exact nofun
  | requeued _ => exact taken_set h (fun hmem => absurd hmem (he _ rfl))
  | deleted _ => exact taken_set h (fun _ j j' hj' => nomatch hj')

theorem taken_of_claimed (hs : Step q (.claimed k w) r) : Taken r k := by
  cases hs with
  | claimed hk =>
    refine ⟨q.below k (by simp [hk]), fun j hj => ?_⟩
    simp only [set_jobs, List.mem_singleton, if_true, hk, Option.bind_some, Option.some.injEq] at hj
    rw [← hj]
    exact nofun

/-- What is taken is not claimed before it is returned. -/
theorem claim_after_requeue (h : Run q (mid ++ .claimed k w :: post) t) (hk : Taken q k) :
    ∃ ks, .requeued ks ∈ mid ∧ k ∈ ks := by
  induction mid generalizing q with
  | nil =>
    cases h with
    | cons first rest =>
      cases first with
      | claimed hq => exact absurd rfl (hk.2 _ hq)
  | cons e mid ih =>
    cases h with
    | cons first rest =>
      by_cases he : ∃ ks, e = .requeued ks ∧ k ∈ ks
      · obtain ⟨ks, rfl, hmem⟩ := he
        exact ⟨ks, List.mem_cons_self, hmem⟩
      · obtain ⟨ks, hmem, hks⟩ := ih rest
          (hk.step first (fun ks hks hmem => he ⟨ks, hks, hmem⟩))
        exact ⟨ks, List.mem_cons_of_mem _ hmem, hks⟩

theorem run_exclusive (h : Run q es t) : Exclusive es := by
  intro pre mid post k w w' he
  subst he
  induction pre generalizing q with
  | nil =>
    cases h with
    | cons first rest => exact claim_after_requeue rest (taken_of_claimed first)
  | cons e pre ih =>
    cases h with
    | cons _ rest => exact ih rest

/-- The jobs of a table of commands. -/
def job (r : Command) : Job := ⟨r.status, r.workerID⟩

def view (db : Db) : Queue where
  jobs := fun k => (db.get k).map job
  next := db.next
  below k hk := by
    obtain ⟨r, hr⟩ := Option.ne_none_iff_exists'.mp (mt (congrArg (Option.map job)) hk)
    obtain ⟨hmem, hkey⟩ := Table.get_eq_some.mp hr
    exact hkey ▸ db.below r hmem

theorem view_insert {db : Db} {make : Nat → Command} (hk : ∀ n, Keyed.key (make n) = n)
    (hm : job (make db.next) = ⟨.queued, ""⟩) :
    Step (view db) (.enqueued db.next) (view (db.insert make hk)) := by
  have he : view (db.insert make hk) = (view db).push := by
    refine Queue.ext (funext fun k => ?_) rfl
    simp only [view, Queue.push]
    rw [Table.get_insert]
    by_cases hk : k = db.next
    · subst hk
      simp [hm]
    · simp [hk, Function.update_of_ne]
  rw [he]
  exact .enqueued

/-- A table that differs in the rows with the keys `ks`. -/
theorem view_set {db db' : Db} {f : Command → Option Command} (hnext : db'.next = db.next)
    (hget : ∀ k, db'.get k = if k ∈ ks then (db.get k).bind f else db.get k)
    (hg : ∀ r ∈ db.rows, r.id ∈ ks → (f r).map job = g (job r)) :
    view db' = (view db).set ks g := by
  refine Queue.ext (funext fun k => ?_) hnext
  simp only [view, set_jobs]
  rw [hget]
  split
  · rename_i hk
    cases hr : db.get k with
    | none => rfl
    | some r =>
      obtain ⟨hmem, rfl⟩ := Table.get_eq_some.mp hr
      exact hg r hmem hk
  · rfl

theorem jobs_of_mem {db : Db} (hr : r ∈ db.rows) (hs : r.status = st) :
    (view db).jobs r.id = some ⟨st, r.workerID⟩ := by
  have hget : db.get r.id = some r := Table.get_eq_some.mpr ⟨hr, rfl⟩
  simp [view, hget, job, hs]

/-- What a call other than an enqueue is to the users of the queue, if it writes the rows `ks`. -/
def committed (c : Call) (ks : List Nat) : Event :=
  match c with
  | .claim w _ => match ks with
    | k :: _ => .claimed k w
    | [] => .quiet
  | .complete .. => .finished ks .completed
  | .fail .. => .finished ks .failed
  | .sweepExpiredLeases => .requeued ks
  | .deleteOldCompleted _ => .deleted ks
  | .enqueue .. | .refreshLease .. => .quiet

/-- What it makes of a job. -/
def effect (c : Call) (j : Job) : Option Job :=
  match c with
  | .claim w _ => some ⟨.running, w⟩
  | .complete .. => some { j with status := .completed }
  | .fail .. => some { j with status := .failed }
  | .sweepExpiredLeases => some ⟨.queued, ""⟩
  | .deleteOldCompleted _ => none
  | .enqueue .. | .refreshLease .. => some j

/-- The jobs it may write. -/
def Fits (q : Queue) (c : Call) (k : Nat) : Prop :=
  match c with
  | .claim .. => ∃ w, q.jobs k = some ⟨.queued, w⟩
  | .sweepExpiredLeases => ∃ w, q.jobs k = some ⟨.running, w⟩
  | .deleteOldCompleted _ => ∃ j, q.jobs k = some j ∧ j.settled
  | _ => True

/-- A call that writes such jobs by its effect is a step of the queue. -/
theorem committed_step {db db' : Db} {f : Command → Option Command} (c : Call)
    (hnext : db'.next = db.next)
    (hget : ∀ k, db'.get k = if k ∈ ks then (db.get k).bind f else db.get k)
    (hjob : ∀ r ∈ db.rows, r.id ∈ ks → (f r).map job = effect c (job r))
    (hfits : ∀ k ∈ ks, Fits (view db) c k) (hone : ∀ w d, c = .claim w d → ks.length ≤ 1) :
    Step (view db) (committed c ks) (view db') := by
  rw [view_set hnext hget hjob]
  cases c with
  | enqueue | refreshLease =>
    have hsame : (view db).set ks some = view db := set_some
    exact hsame.symm ▸ .quiet
  | claim w d =>
    match ks, hone w d rfl with
    | [], _ => exact .quiet
    | [k], _ =>
      obtain ⟨w₀, hk⟩ := hfits k (List.mem_singleton_self k)
      exact .claimed hk
  | complete => exact .finished (.inl rfl)
  | fail => exact .finished (.inr rfl)
  | sweepExpiredLeases => exact .requeued hfits
  | deleteOldCompleted => exact .deleted hfits

/-- The step of the queue that a call on the table is. -/
def event (db : Db) (now : Int) : Call → Event
  | .enqueue .. => .enqueued db.next
  | .claim w d => match (Db.claim db now w d).1 with
    | none => .quiet
    | some cmd => .claimed cmd.id w
  | .refreshLease .. => .quiet
  | .complete id .. => .finished [id] .completed
  | .fail id .. => .finished [id] .failed
  | .sweepExpiredLeases => .requeued ((db.rows.filter (Command.expired now)).map Command.id)
  | .deleteOldCompleted olderThan =>
    .deleted ((db.rows.filter (Command.deletable olderThan)).map Command.id)

section Keys
variable {db : Db} {p : Command → Bool} {ks : List Nat}

theorem update_step (c : Call) (f : Command → Command) (hf : ∀ r, Keyed.key (f r) = Keyed.key r)
    (hks : ∀ r ∈ db.rows, p r = true ↔ r.id ∈ ks) (hjob : ∀ r, some (job (f r)) = effect c (job r))
    (hfits : ∀ k ∈ ks, Fits (view db) c k) (hone : ∀ w d, c = .claim w d → ks.length ≤ 1) :
    Step (view db) (committed c ks) (view (db.update p f hf)) := by
  refine committed_step c rfl (fun k => ?_) (f := some ∘ f) (fun r _ _ => hjob r) hfits hone
  rw [Table.get_update]
  cases hr : db.get k with
  | none => simp
  | some r =>
    obtain ⟨hmem, rfl⟩ := Table.get_eq_some.mp hr
    by_cases hp : p r = true
    · simp [hp, (hks r hmem).mp hp]
    · simp [hp, mt (hks r hmem).mpr hp]

theorem get_delete_keys (hks : ∀ r ∈ db.rows, p r = true ↔ r.id ∈ ks) (k : Nat) :
    (db.delete p).get k = if k ∈ ks then (db.get k).bind (fun _ => none) else db.get k := by
  apply Option.ext
  intro r
  rw [Table.get_eq_some, Table.mem_delete]
  by_cases hk : k ∈ ks
  · simp only [if_pos hk, Option.bind_fun_none, reduceCtorEq, iff_false]
    rintro ⟨⟨hmem, hp⟩, hkey⟩
    have hkey : r.id = k := hkey
    rw [(hks r hmem).mpr (hkey ▸ hk)] at hp
    cases hp
  · rw [if_neg hk, Table.get_eq_some]
    constructor
    · rintro ⟨⟨hmem, _⟩, hkey⟩
      exact ⟨hmem, hkey⟩
    · rintro ⟨hmem, hkey⟩
      have hkey' : r.id = k := hkey
      exact ⟨⟨hmem, Bool.eq_false_iff.mpr (fun hp => hk (hkey' ▸ (hks r hmem).mp hp))⟩, hkey⟩

theorem mem_ids_iff : ∀ r ∈ db.rows, p r = true ↔ r.id ∈ (db.rows.filter p).map Command.id := by
  intro r hr
  rw [List.mem_map]
  constructor
  · intro hp
    exact ⟨r, List.mem_filter.mpr ⟨hr, hp⟩, rfl⟩
  · rintro ⟨q, hq, hkey⟩
    obtain ⟨hqm, hqp⟩ := List.mem_filter.mp hq
    rwa [Table.eq_of_key hr hqm hkey.symm]

end Keys

theorem call_step (db : Db) (now : Int) (c : Call) :
    Step (view db) (event db now c) (view (Db.call db now c)) := by
  cases c with
  | enqueue name body p tr k => exact view_insert Db.newCommand_key rfl
  | claim w d =>
    rcases Db.claim_cases db now w d with ⟨_, hc⟩ | ⟨r, hr, hc⟩
    · simp only [event, Db.call, hc]
      exact .quiet
    · obtain ⟨hmem, hq, _⟩ := Db.nextQueued_spec hr
      simp only [event, Db.call, hc, Command.markRunning_id]
      refine update_step (.claim w d) (.markRunning now w _) (fun _ => rfl) (by simp) (fun _ => rfl)
        (fun k (hk : k ∈ [r.id]) => ?_) (fun _ _ _ => Nat.le_refl _)
      rw [List.mem_singleton.mp hk]
      exact ⟨_, jobs_of_mem hmem hq⟩
  | refreshLease id t d =>
    exact update_step (.refreshLease id t d) (.refresh _) (fun _ => rfl) mem_ids_iff (fun _ => rfl)
      (fun _ _ => trivial) (fun _ _ h => by cases h)
  | complete id d res m =>
    exact update_step (.complete id d res m) (.complete now d res m) (fun _ => rfl) (by simp)
      (fun _ => rfl) (fun _ _ => trivial) (fun _ _ h => by cases h)
  | fail id d e m =>
    exact update_step (.fail id d e m) (.fail now d e m) (fun _ => rfl) (by simp) (fun _ => rfl)
      (fun _ _ => trivial) (fun _ _ h => by cases h)
  | sweepExpiredLeases =>
    refine update_step .sweepExpiredLeases .requeue (fun _ => rfl) mem_ids_iff (fun _ => rfl)
      (fun k hk => ?_) (fun _ _ h => by cases h)
    obtain ⟨r, hr, rfl⟩ := List.mem_map.mp hk
    obtain ⟨hmem, he⟩ := List.mem_filter.mp hr
    exact ⟨_, jobs_of_mem hmem (Command.expired_iff.mp he).1⟩
  | deleteOldCompleted olderThan =>
    refine committed_step (.deleteOldCompleted olderThan) rfl (get_delete_keys mem_ids_iff)
      (fun _ _ _ => rfl) (fun k hk => ?_) (fun _ _ h => by cases h)
    obtain ⟨r, hr, rfl⟩ := List.mem_map.mp hk
    obtain ⟨hmem, hd⟩ := List.mem_filter.mp hr
    refine ⟨_, jobs_of_mem hmem rfl, ?_⟩
    simpa [Command.deletable, Job.settled] using (Bool.and_eq_true_iff.mp hd).1

/-- Who calls `Write`: the queue, or a store that leaves the commands alone. -/
inductive Caller (τ : Type)
  | queue (now : Int) (call : Call)
  | other (callback : Callback (Db × τ))
      (leaves : ∀ db, callback.Steps (fun db db' => db'.1 = db.1) db)

variable {τ : Type}

def Caller.callback : Caller τ → Callback (Db × τ)
  | .queue now call => queueCallback now call
  | .other callback _ => callback

def Caller.event (db : Db) : Caller τ → Event
  | .queue now call => Handout.event db now call
  | .other .. => .quiet

/-- The callback of a caller changes the table by a step of the queue. -/
theorem callback_steps (c : Caller τ) (db : Db × τ) :
    c.callback.Steps (fun db db' => Step (view db.1) (c.event db.1) (view db'.1)) db := by
  cases c with
  | queue now call =>
    refine (queueCallback_steps now call db).mono (fun db db' heq => ?_)
    rw [heq]
    exact call_step db.1 now call
  | other callback leaves =>
    refine (leaves db).mono (fun db db' heq => ?_)
    rw [heq]
    exact .quiet

/-- What a step of the writer is to the users of the queue. -/
def seen (callers : Nat → Caller τ) (s : Pool (Db × τ)) (a : Pool.Action) : Event :=
  match s.effect a with
  | none => .quiet
  | some i => (callers i).event s.db.1

/-- The events of a run of the writer. -/
def trace (callers : Nat → Caller τ) (s : Pool (Db × τ)) (as : List Pool.Action) : List Event :=
  (transitions (Pool.step (fun i => (callers i).callback)) s as).map
    (fun t => seen callers t.1 t.2)

/-- A run of the writer is one of the queue, if a callback that is running began where the
database now is. -/
theorem run_of_path {callers : Nat → Caller τ} {s t : Pool (Db × τ)} {as : List Pool.Action}
    (h : Path (Pool.step (fun i => (callers i).callback)) Free s as t)
    (hs : Pool.Stepping (fun i db db' => Step (view db.1) ((callers i).event db.1) (view db'.1)) s) :
    Run (view s.db.1) (trace callers s as) (view t.db.1) := by
  induction h with
  | nil => exact .nil
  | @cons s a u as t _ hstep _ ih =>
    simp only [trace, transitions, hstep, List.map_cons]
    have hturn := Pool.turn_of_step hstep
    refine .cons ?_ (ih (hturn.stepping (fun i => callback_steps (callers i)) hs))
    simp only [seen]
    obtain ⟨heffect, hdb⟩ | ⟨i, _, heffect, _, hchange⟩ := hturn.changed hs
    · rw [heffect, hdb]
      exact .quiet
    · rw [heffect]
      exact hchange

/-- Whatever the schedule of the calls, of cancelled contexts, of statements that fail or are
interrupted, and of `Close`: each statement that changes the commands is a step of the queue,
though a claim selects before it marks, and a command is handed out again only after it has
been returned to the queue. -/
theorem writer_hands_out_once (callers : Nat → Caller τ) {db₀ : Db × τ} {as : List Pool.Action}
    {s : Pool (Db × τ)}
    (path : Path (Pool.step (fun i => (callers i).callback)) Free (Pool.start db₀) as s) :
    Run (view db₀.1) (trace callers (Pool.start db₀) as) (view s.db.1) ∧
      Exclusive (trace callers (Pool.start db₀) as) := by
  have hrun := run_of_path path (Pool.stepping_start _)
  exact ⟨hrun, run_exclusive hrun⟩

/-- A worker claims a command and does not live to hear of it; a sweep a minute later returns it. -/
def lateWorker : Nat → Caller Unit
  | 0 => .queue 0 (.enqueue "RefreshSeries" "\x7b\x7d" priorityNormal .manual "")
  | 1 => .queue 1000000000 (.claim "worker-0" 60000000000)
  | 2 => .queue 70000000000 .sweepExpiredLeases
  | _ => .queue 71000000000 (.claim "worker-1" 60000000000)

def lateWorkerRun : List Pool.Action :=
  [.write 0, .handOver 0, .statement, .report, .receive 0,
    .write 1, .write 3, .handOver 1, .statement, .statement, .cancel 1, .abandon 1, .statement,
    .report, .write 2, .handOver 2, .statement, .report,
    .handOver 3, .statement, .statement, .statement, .report, .receive 3]

theorem claimed_swept_claimed : ∃ s, Path (Pool.step (fun i => (lateWorker i).callback)) Free
      (Pool.start (.empty, ())) lateWorkerRun s ∧
    (trace lateWorker (Pool.start (.empty, ())) lateWorkerRun).filter (fun e => e ≠ .quiet) =
      [.enqueued 1, .claimed 1 "worker-0", .requeued [1], .claimed 1 "worker-1"] ∧
    Exclusive (trace lateWorker (Pool.start (.empty, ())) lateWorkerRun) := by
  have hexec : (exec (Pool.step (fun i => (lateWorker i).callback)) (Pool.start (.empty, ()))
      lateWorkerRun).isSome = true := by
    decide
  obtain ⟨s, hs⟩ := Option.isSome_iff_exists.mp hexec
  exact ⟨s, .of_exec hs, by decide, (writer_hands_out_once lateWorker (.of_exec hs)).2⟩

end Sonarr.Commands.Handout
