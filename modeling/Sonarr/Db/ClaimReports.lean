import Sonarr.Db.Writer

namespace Sonarr.Sqlite
open Lib Commands

variable {τ : Type}

/-- The callback of `sqliteQueue.Claim`, in a database that holds more than the queue: select,
mark and reload. -/
def claimCallback (now : Int) (workerID : String) (leaseDuration : Int) :
    Callback (Commands.Db × τ) :=
  .query "commands: claim select: " (fun db => match (Db.nextQueued db.1).map Command.id with
    | none => .ret none
    | some id => .exec "commands: claim mark running: "
        (fun db => .ok (Db.markCommandRunning db.1 now workerID
          (sqliteTime (now + leaseDuration)) id, db.2))
        (fun _ => .query "commands: claim get: " (fun db => match db.1.get id with
          | none => .ret (some "commands: claim get: sql: no rows in result set")
          | some _ => .ret none)))

/-- The callbacks of the queue; all but the claim's are one statement. -/
def queueCallback (now : Int) : Commands.Call → Callback (Commands.Db × τ)
  | .claim workerID leaseDuration => claimCallback now workerID leaseDuration
  | call => .exec "" (fun db => .ok (Db.call db.1 now call, db.2)) (fun _ => .ret none)

/-- Every statement of the queue that changes the database is a whole call. -/
theorem queueCallback_steps (now : Int) (call : Commands.Call) (db : Commands.Db × τ) :
    (queueCallback now call).Steps (fun db db' => db' = (Db.call db.1 now call, db.2)) db := by
  cases call with
  | claim workerID leaseDuration =>
    simp only [queueCallback, claimCallback, Callback.Steps]
    cases hnext : Db.nextQueued db.1 with
    | none => trivial
    | some r =>
      intro db' hwrite
      cases hwrite
      refine ⟨by simp [Db.call, Db.claim, hnext], ?_⟩
      simp only [Callback.Steps]
      split <;> trivial
  | _ =>
    intro db' hwrite
    cases hwrite
    exact ⟨rfl, trivial⟩

/-- As a whole, the claim's callback does what a claim does. -/
theorem run_claimCallback (db : Commands.Db × τ) (now : Int) (workerID : String)
    (leaseDuration : Int) : (claimCallback now workerID leaseDuration).run db =
      (none, ((Db.claim db.1 now workerID leaseDuration).2, db.2)) := by
  cases hnext : Db.nextQueued db.1 with
  | none => simp [claimCallback, Callback.run, Db.claim, hnext]
  | some r =>
    obtain ⟨hr, _⟩ := Db.nextQueued_spec hnext
    have hget : (Db.markCommandRunning db.1 now workerID (sqliteTime (now + leaseDuration))
        r.id).get r.id = some (Command.markRunning now workerID
          (sqliteTime (now + leaseDuration)) r) :=
      Table.get_eq_some.mpr ⟨Table.mem_update.mpr ⟨r, hr, by simp⟩, rfl⟩
    simp [claimCallback, Callback.run, Db.claim, hnext, hget]

/-- No command is running on behalf of a worker. -/
def Unclaimed (workerID : String) (db : Commands.Db × τ) : Prop :=
  ∀ r ∈ db.1.rows, r.status = .running → r.workerID ≠ workerID

/-- An update keeps it that makes no row running for the worker. -/
theorem unclaimed_update {db : Commands.Db × τ} {f : Command → Command}
    (hf : ∀ r, Keyed.key (f r) = Keyed.key r) (h : Unclaimed workerID db)
    (hrow : ∀ r, (r.status = .running → r.workerID ≠ workerID) → p r = true →
      (f r).status = .running → (f r).workerID ≠ workerID) :
    Unclaimed workerID (db.1.update p f hf, db.2) := by
  intro r hr hrunning
  dsimp only at hr
  obtain ⟨q, hq, rfl⟩ := Table.mem_update.mp hr
  by_cases hp : p q = true
  · rw [if_pos hp] at hrunning ⊢
    exact hrow q (h q hq) hp hrunning
  · rw [if_neg hp] at hrunning ⊢
    exact h q hq hrunning

/-- Only a claim of the worker's own makes a command run on its behalf. -/
theorem unclaimed_call {db : Commands.Db × τ} (now : Int) {call : Commands.Call}
    (hcall : ∀ leaseDuration, call ≠ .claim workerID leaseDuration) (h : Unclaimed workerID db) :
    Unclaimed workerID (Db.call db.1 now call, db.2) := by
  cases call with
  | claim other leaseDuration =>
    have hother : other ≠ workerID := fun heq => hcall leaseDuration (heq ▸ rfl)
    simp only [Db.call, Db.claim]
    split
    · exact h
    · exact unclaimed_update Command.markRunning_key h (fun _ _ _ _ => hother)
  | enqueue name body priority trigger dedupKey =>
    intro r hr hrunning
    simp only [Db.call, Db.enqueue] at hr
    obtain hr | rfl := Table.mem_insert.mp hr
    · exact h r hr hrunning
    · cases hrunning
  | refreshLease id issued leaseDuration =>
    exact unclaimed_update Command.refresh_key h (fun r hr _ => hr)
  | complete id durationMs result message =>
    exact unclaimed_update Command.complete_key h (fun r _ _ hrunning => by cases hrunning)
  | fail id durationMs exception message =>
    exact unclaimed_update Command.fail_key h (fun r _ _ hrunning => by cases hrunning)
  | sweepExpiredLeases =>
    exact unclaimed_update Command.requeue_key h (fun r _ _ hrunning => by cases hrunning)
  | deleteOldCompleted olderThan => exact fun r hr => h r (Table.mem_delete.mp hr).1

/-- In a run in which no context ends between the first change of its callback and the return
of its `Write`, and no callback fails once it has written, every `Write` reports what happened.
A claim that returns an error then leaves no command running on behalf of its worker, if no
other call does. -/
theorem write_reports_what_happened (callbacks : Nat → Callback (Commands.Db × τ))
    {db₀ : Commands.Db × τ} {as : List Pool.Action} {s : Pool (Commands.Db × τ)}
    (path : Path (Pool.step callbacks) Pool.Careful (Pool.start db₀) as s) :
    Pool.Truthful callbacks db₀ s ∧
    ∀ i now workerID leaseDuration e, callbacks i = claimCallback now workerID leaseDuration →
      Unclaimed workerID db₀ →
      (∀ j, j ≠ i → ∀ db, (callbacks j).Steps
        (fun db db' => Unclaimed workerID db → Unclaimed workerID db') db) →
      s.calls i = .returned (some e) → Unclaimed workerID s.db :=
  ⟨(Pool.inv_of_path path).truthful, fun _ _ _ _ _ _ hdb hothers hfailed =>
    Pool.preserved_of_failed path hdb hothers hfailed⟩

/-- A queue with one command. -/
def oneQueued : Commands.Db × Unit :=
  (Db.enqueue .empty 0 "RefreshSeries" "\x7b\x7d" priorityNormal .manual "", ())

/-- Two workers that claim. -/
def claims (i : Nat) : Callback (Commands.Db × Unit) :=
  claimCallback 0 (if i = 0 then "worker-0" else "worker-1") 60000000000

/-- The context of the first worker ends while the writer has its request, and the statement that
would mark the command is refused; the second worker gets it. -/
def refused : List Pool.Action :=
  [.write 0, .write 1, .handOver 0, .statement, .cancel 0, .abandon 0, .statement, .report,
    .handOver 1, .statement, .statement, .statement, .report, .receive 1]

/-- The context of the first worker ends once its command is marked. -/
def marked : List Pool.Action :=
  [.write 0, .handOver 0, .statement, .statement, .cancel 0, .abandon 0, .statement, .report]

/-- Whether a step is a careful one. -/
def carefulCheck {σ : Type} (s : Pool σ) : Pool.Action → Bool
  | .cancel i =>
    (match s.writer with
      | .running j wrote _ => !(j == i && wrote)
      | _ => true) &&
    !(s.calls i == .answered none && s.log.contains (i, true))
  | .interrupt => false
  | .report => match s.writer with
    | .running _ wrote (.ret (some _)) => !wrote
    | _ => true
  | _ => true

theorem careful_of_check {σ : Type} (s : Pool σ) (a : Pool.Action) (h : carefulCheck s a = true) :
    Pool.Careful s a := by
  cases a with
  | cancel i =>
    simp only [carefulCheck, Bool.and_eq_true] at h
    refine ⟨fun rest hrun => ?_, fun hcall hmem => ?_⟩
    · simp [hrun] at h
    · simp [hcall, hmem] at h
  | interrupt => cases h
  | report =>
    intro i wrote e hrun
    simpa [carefulCheck, hrun] using h
  | _ => trivial

/-- Whether the writer has nothing to do. -/
def Writer.idle {σ : Type} : Writer σ → Bool
  | .waiting => true
  | _ => false

theorem refused_then_claimed :
    ∃ s, Path (Pool.step claims) Pool.Careful (Pool.start oneQueued) refused s ∧
      s.calls 0 = .returned (some "context canceled") ∧ s.calls 1 = .returned none ∧
      Unclaimed "worker-0" s.db ∧ s.db = Pool.replay claims s.log oneQueued := by
  have hexec : (exec (fun s a => if carefulCheck s a then Pool.step claims s a else none)
      (Pool.start oneQueued) refused).map (fun s => (s.calls 0, s.calls 1, s.writer.idle)) =
      some (.returned (some "context canceled"), .returned none, true) := by
    decide
  obtain ⟨s, hs, heq⟩ := Option.map_eq_some_iff.mp hexec
  obtain ⟨hfirst, hsecond, hwriter⟩ : s.calls 0 = .returned (some "context canceled") ∧
      s.calls 1 = .returned none ∧ s.writer.idle = true := by
    simpa only [Prod.mk.injEq] using heq
  have path := Path.of_exec_checked careful_of_check hs
  have hothers : ∀ j, j ≠ 0 → ∀ db, (claims j).Steps
      (fun db db' => Unclaimed "worker-0" db → Unclaimed "worker-0" db') db := by
    intro j hj db
    have hclaim : claims j = queueCallback 0 (.claim "worker-1" 60000000000) := by
      simp [claims, queueCallback, hj]
    rw [hclaim]
    refine (queueCallback_steps 0 _ db).mono (fun db db' heq hdb => ?_)
    rw [heq]
    exact unclaimed_call 0 (by simp) hdb
  obtain ⟨htruthful, hclaim⟩ := write_reports_what_happened claims path
  refine ⟨s, path, hfirst, hsecond, hclaim 0 0 "worker-0" 60000000000 _ rfl (by
    unfold Unclaimed
    decide) hothers hfirst, htruthful.settled (fun i rest hrun => ?_)⟩
  simp [hrun, Writer.idle] at hwriter

theorem marked_after_error : ∃ s, Path (Pool.step claims) Free (Pool.start oneQueued) marked s ∧
    s.calls 0 = .returned (some "context canceled") ∧
    s.db.1.rows.map (fun r => (r.status, r.workerID)) = [(.running, "worker-0")] := by
  have hexec : (exec (Pool.step claims) (Pool.start oneQueued) marked).map
      (fun s => (s.calls 0, s.db.1.rows.map (fun r => (r.status, r.workerID)))) =
      some (.returned (some "context canceled"), [(.running, "worker-0")]) := by
    decide
  obtain ⟨s, hs, heq⟩ := Option.map_eq_some_iff.mp hexec
  exact ⟨s, .of_exec hs, (Prod.mk.inj heq).1, (Prod.mk.inj heq).2⟩

end Sonarr.Sqlite
