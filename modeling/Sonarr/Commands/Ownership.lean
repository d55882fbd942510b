import Sonarr.Lib.Machine
import Sonarr.Commands.Queue

namespace Sonarr.Commands.Ownership
open Lib

/-- The queue as its workers use it. `holding w` is the command that worker `w`
has claimed and not yet reported on. -/
structure State where
  db : Db
  now : Int
  holding : String → Option Nat

def start (now : Int) : State := ⟨.empty, now, fun _ => none⟩

inductive Step
  | advance (ns : Nat)
  | enqueue (name body : String) (priority : Int) (trigger : Trigger) (dedupKey : String)
  | claim (w : String) (leaseDuration : Int)
  | refreshLease (w : String) (issued leaseDuration : Int)
  | complete (w : String) (durationMs : Int) (result message : String)
  | fail (w : String) (durationMs : Int) (exception message : String)
  | sweepExpiredLeases
  | deleteOldCompleted (olderThan : Int)
  deriving DecidableEq, Repr

/-- The queue call a step makes: a worker reports on the command it holds and
claims only when it holds none. -/
def State.callOf (s : State) : Step → Option Call
  | .advance _ => none
  | .enqueue name body priority trigger dedupKey => some (.enqueue name body priority trigger dedupKey)
  | .claim w d => if s.holding w = none then some (.claim w d) else none
  | .refreshLease w issued d =>
    if issued ≤ s.now then (s.holding w).map (fun id => .refreshLease id issued d) else none
  | .complete w d result message => (s.holding w).map (fun id => .complete id d result message)
  | .fail w d exception message => (s.holding w).map (fun id => .fail id d exception message)
  | .sweepExpiredLeases => some .sweepExpiredLeases
  | .deleteOldCompleted olderThan => some (.deleteOldCompleted olderThan)

/-- The bookkeeping of the worker loop: `Claim` hands it a command, a final
report ends its turn with it. -/
def State.holdingAfter (s : State) : Step → String → Option Nat
  | .claim w d => Function.update s.holding w
      ((Db.claim s.db s.now w d).1.map Command.id)
  | .complete w _ _ _ | .fail w _ _ _ => Function.update s.holding w none
  | _ => s.holding

def step (s : State) : Step → Option State
  | .advance ns => some { s with now := s.now + ns }
  | a => (s.callOf a).map (fun c =>
      { s with db := Db.call s.db s.now c, holding := s.holdingAfter a })

/-- The worker a step acts for. -/
def Step.worker : Step → Option String
  | .claim w _ | .refreshLease w _ _ | .complete w _ _ _ | .fail w _ _ _ => some w
  | _ => none

/-- The lifecycle of `Queue`, with the way back that the sweep adds. -/
inductive Moves : Step → Status → Status → Prop
  | same : Moves a st st
  | claim : Moves (.claim w d) .queued .running
  | complete : Moves (.complete w d res m) .running .completed
  | fail : Moves (.fail w d e m) .running .failed
  | sweep : Moves .sweepExpiredLeases .running .queued

/-- One step respects ownership: its report statement selects a row only under
the reporting worker's own claim, rows follow the lifecycle, and a finished row
keeps its status and outcome. -/
structure Owned (s : State) (a : Step) (t : State) : Prop where
  report : ∀ c w, s.callOf a = some c → a.worker = some w → ∀ r ∈ s.db.rows,
    c.reportsOn r = true → r.status = .running ∧ r.workerID = w
  moves : ∀ r ∈ s.db.rows, ∀ r' ∈ t.db.rows, r'.id = r.id → Moves a r.status r'.status
  final : ∀ r ∈ s.db.rows, ∀ r' ∈ t.db.rows, r'.id = r.id →
    r.status = .completed ∨ r.status = .failed → r'.status = r.status ∧ r'.outcome = r.outcome

/-- No sweep finds the lease of a command expired while its worker has yet to
report on it. Other steps are free. -/
def LeasesKept (s : State) (a : Step) : Prop :=
  a = .sweepExpiredLeases →
    ∀ w id, s.holding w = some id → ∀ r ∈ s.db.rows, r.id = id → r.expired s.now = false

/-- Whoever holds a command has it running under their own name. -/
def Held (s : State) : Prop :=
  ∀ w id, s.holding w = some id →
    ∃ r ∈ s.db.rows, r.id = id ∧ r.status = .running ∧ r.workerID = w

variable {s t : State} {a : Step} {c : Call} {r : Command} {w : String} {id : Nat}

theorem step_cases (h : step s a = some t) :
    (∃ ns, a = .advance ns ∧ t = { s with now := s.now + ns }) ∨
    ∃ c, s.callOf a = some c ∧
      t = { s with db := Db.call s.db s.now c, holding := s.holdingAfter a } := by
  cases a with
  | advance ns => exact .inl ⟨ns, rfl, (Option.some.inj h).symm⟩
  | _ =>
    simp only [step, Option.map_eq_some_iff] at h
    obtain ⟨c, hc, he⟩ := h
    exact .inr ⟨c, hc, he.symm⟩

theorem step_call (hc : s.callOf a = some c) :
    step s a = some { s with db := Db.call s.db s.now c, holding := s.holdingAfter a } := by
  cases a with
  | advance ns => cases hc
  | _ => simp only [step, hc, Option.map_some]

theorem callOf_refresh (h : s.callOf (.refreshLease w i d) = some c) :
    ∃ id, s.holding w = some id ∧ c = .refreshLease id i d := by
  simp only [State.callOf] at h
  split at h
  · obtain ⟨id, hi, rfl⟩ := Option.map_eq_some_iff.mp h
    exact ⟨id, hi, rfl⟩
  · cases h

theorem callOf_complete (h : s.callOf (.complete w d res m) = some c) :
    ∃ id, s.holding w = some id ∧ c = .complete id d res m := by
  obtain ⟨id, hi, rfl⟩ := Option.map_eq_some_iff.mp h
  exact ⟨id, hi, rfl⟩

theorem callOf_fail (h : s.callOf (.fail w d e m) = some c) :
    ∃ id, s.holding w = some id ∧ c = .fail id d e m := by
  obtain ⟨id, hi, rfl⟩ := Option.map_eq_some_iff.mp h
  exact ⟨id, hi, rfl⟩

/-- The row of a held command is the holder's. -/
theorem Held.row (hs : Held s) (hw : s.holding w = some id) (hr : r ∈ s.db.rows)
    (hid : r.id = id) : r.status = .running ∧ r.workerID = w := by
  obtain ⟨q, hq, hqid, hqs, hqw⟩ := hs w id hw
  have he : r = q := Table.eq_of_key hr hq (hid.trans hqid.symm)
  subst he
  exact ⟨hqs, hqw⟩

/-- Reports select only rows under the reporter's claim. -/
theorem Held.report (hs : Held s) (hc : s.callOf a = some c) (hw : a.worker = some w)
    (hr : r ∈ s.db.rows) (hrep : c.reportsOn r = true) :
    r.status = .running ∧ r.workerID = w := by
  cases a with
  | refreshLease v i d =>
    obtain ⟨id, hi, rfl⟩ := callOf_refresh hc
    cases hw
    simp only [Call.reportsOn, Bool.and_eq_true, beq_iff_eq] at hrep
    exact hs.row hi hr hrep.1
  | complete v d res m =>
    obtain ⟨id, hi, rfl⟩ := callOf_complete hc
    cases hw
    exact hs.row hi hr (by simpa [Call.reportsOn] using hrep)
  | fail v d e m =>
    obtain ⟨id, hi, rfl⟩ := callOf_fail hc
    cases hw
    exact hs.row hi hr (by simpa [Call.reportsOn] using hrep)
  | claim v d =>
    simp only [State.callOf] at hc
    split at hc
    · cases hc; simp [Call.reportsOn] at hrep
    · cases hc
  | advance | enqueue | sweepExpiredLeases | deleteOldCompleted => cases hw

/-- A call that reports on some row is made by a worker. -/
theorem reporter (hc : s.callOf a = some c) (hrep : c.reportsOn r = true) :
    ∃ w, a.worker = some w := by
  cases a with
  | claim w | refreshLease w | complete w | fail w => exact ⟨w, rfl⟩
  | advance => cases hc
  | enqueue | sweepExpiredLeases | deleteOldCompleted =>
    cases hc
    simp [Call.reportsOn] at hrep

theorem Held.keep {v : String} (hs : Held s) (hv : s.holding v = some id)
    (hc : ∀ r ∈ s.db.rows, r.id = id → ¬ Releases s.now r c) :
    ∃ r ∈ (Db.call s.db s.now c).rows, r.id = id ∧ r.status = .running ∧ r.workerID = v := by
  obtain ⟨r, hr, hid, hst, hw⟩ := hs v id hv
  obtain ⟨r', hr', hid', hst', hw'⟩ := Db.call_running hr hst (hc r hr hid)
  exact ⟨r', hr', hid'.trans hid, hst', hw'.trans hw⟩

/-- A final report by one worker leaves the commands of all others alone, since
their rows carry another name. -/
theorem Held.report_other {v : String} (hs : Held s) (hw : s.holding w = some id)
    (hv : s.holding v = some id) : v = w := by
  obtain ⟨r, hr, hid, _, hrw⟩ := hs v id hv
  exact hrw.symm.trans (hs.row hw hr hid).2

theorem Held.claim (hs : Held s) (hc : s.callOf (.claim w d) = some c) :
    Held { s with db := Db.call s.db s.now c, holding := s.holdingAfter (.claim w d) } := by
  simp only [State.callOf] at hc
  split at hc
  · cases hc
    intro v id hv
    by_cases he : v = w
    · subst he
      simp only [State.holdingAfter, Function.update_self] at hv
      rcases Db.claim_cases s.db s.now v d with ⟨_, hcl⟩ | ⟨q, hq, hcl⟩
      · simp [hcl] at hv
      · simp only [hcl, Option.map_some, Option.some.injEq] at hv
        refine ⟨q.markRunning s.now v (sqliteTime (s.now + d)), ?_, hv, rfl, rfl⟩
        simp only [Db.call, hcl, Db.markCommandRunning, Table.mem_update]
        exact ⟨q, (Db.nextQueued_spec hq).1, by simp⟩
    · simp only [State.holdingAfter, Function.update_of_ne he] at hv
      exact hs.keep hv (fun r _ _ hrel => by cases hrel)
  · cases hc

theorem Held.step (hs : Held s) (hk : LeasesKept s a) (h : step s a = some t) : Held t := by
  rcases step_cases h with ⟨ns, rfl, rfl⟩ | ⟨c, hc, rfl⟩
  · exact hs
  · cases a with
    | advance ns => cases hc
    | claim w d => exact hs.claim hc
    | enqueue name body p tr k =>
      cases hc
      exact fun v id hv => hs.keep hv (fun r _ _ hrel => by cases hrel)
    | deleteOldCompleted t =>
      cases hc
      exact fun v id hv => hs.keep hv (fun r _ _ hrel => by cases hrel)
    | refreshLease w i d =>
      obtain ⟨j, _, rfl⟩ := callOf_refresh hc
      exact fun v id hv => hs.keep hv (fun r _ _ hrel => by cases hrel)
    | sweepExpiredLeases =>
      cases hc
      intro v id hv
      refine hs.keep hv (fun r hr hid hrel => ?_)
      cases hrel with
      | sweep he => simp [hk rfl v id hv r hr hid] at he
    | complete w d res m =>
      obtain ⟨j, hj, rfl⟩ := callOf_complete hc
      intro v id hv
      by_cases he : v = w
      · simp [State.holdingAfter, he] at hv
      · simp only [State.holdingAfter, Function.update_of_ne he] at hv
        refine hs.keep hv (fun r _ hid hrel => ?_)
        cases hrel
        exact he (hs.report_other (hid ▸ hj) hv)
    | fail w d e m =>
      obtain ⟨j, hj, rfl⟩ := callOf_fail hc
      intro v id hv
      by_cases he : v = w
      · simp [State.holdingAfter, he] at hv
      · simp only [State.holdingAfter, Function.update_of_ne he] at hv
        refine hs.keep hv (fun r _ hid hrel => ?_)
        cases hrel
        exact he (hs.report_other (hid ▸ hj) hv)

/-- Where every holder's row is its own, the row changes of a step follow the
lifecycle. -/
theorem Held.moves (hs : Held s) (hc : s.callOf a = some c) (hr : r ∈ s.db.rows)
    (h : RowChange s.now c r r') : Moves a r.status r'.status := by
  cases h with
  | same => exact .same
  | claim hq =>
    have ha : ∃ w d, a = .claim w d := by
      cases a <;> simp_all [State.callOf]
    obtain ⟨w, d, rfl⟩ := ha
    rw [hq]
    exact .claim
  | complete =>
    obtain ⟨w, hw⟩ := reporter (r := r) hc (by simp [Call.reportsOn])
    rw [(hs.report hc hw hr (by simp [Call.reportsOn])).1]
    cases a <;> simp_all [State.callOf]
    exact .complete
  | fail =>
    obtain ⟨w, hw⟩ := reporter (r := r) hc (by simp [Call.reportsOn])
    rw [(hs.report hc hw hr (by simp [Call.reportsOn])).1]
    cases a <;> simp_all [State.callOf]
    exact .fail
  | refresh _ => exact .same
  | sweep he =>
    rw [(Command.expired_iff.mp he).1]
    cases a <;> simp_all [State.callOf]
    exact .sweep

/-- A row that is there before and after a step went through one change of the
step's call. -/
theorem step_row (h : Ownership.step s a = some t) (hr : r ∈ s.db.rows) (hr' : r' ∈ t.db.rows)
    (hid : r'.id = r.id) : r' = r ∨ ∃ c, s.callOf a = some c ∧ RowChange s.now c r r' := by
  rcases step_cases h with ⟨ns, rfl, rfl⟩ | ⟨c, hc, rfl⟩
  · exact .inl (Table.eq_of_key hr' hr hid)
  · rcases Db.call_backward hr' with ⟨q, hq, hch⟩ | hins
    · have he : q = r := Table.eq_of_key hq hr (hch.id_eq.symm.trans hid)
      exact .inr ⟨c, hc, he ▸ hch⟩
    · exact absurd (s.db.below r hr) (by rw [key_command, ← hid]; exact Db.inserted_fresh hins)

theorem Held.owned (hs : Held s) (h : Ownership.step s a = some t) : Owned s a t := by
  refine ⟨fun c w hc hw r hr hrep => hs.report hc hw hr hrep, ?_, ?_⟩
  · intro r hr r' hr' hid
    rcases step_row h hr hr' hid with rfl | ⟨c, hc, hch⟩
    · exact .same
    · exact hs.moves hc hr hch
  · intro r hr r' hr' hid hfin
    rcases step_row h hr hr' hid with rfl | ⟨c, hc, hch⟩
    · exact ⟨rfl, rfl⟩
    · have hact : r.active = false := by rcases hfin with h | h <;> simp [Command.active, h]
      have hno : c.reportsOn r = false := by
        by_contra hrep
        simp only [Bool.not_eq_false] at hrep
        obtain ⟨w, hw⟩ := reporter hc hrep
        simp [Command.active, (hs.report hc hw hr hrep).1] at hact
      rw [hch.settled hact hno]
      exact ⟨rfl, rfl⟩

theorem path_held (h : Path step LeasesKept (start now) as s) : Held s :=
  h.invariant (fun _ _ _ hk ht hs => hs.step hk ht) (fun w id hw => by cases hw)

/-- A sweep that takes a held command away leaves its worker with a report that
selects a row nobody runs. -/
theorem swept_report (hk : ¬ LeasesKept s .sweepExpiredLeases) :
    ∃ t w u, step s .sweepExpiredLeases = some t ∧ step t (.complete w 0 "" "ok") = some u ∧
      ¬ Owned t (.complete w 0 "" "ok") u := by
  simp only [LeasesKept, forall_const, not_forall, Bool.not_eq_false] at hk
  obtain ⟨w, id, hw, r, hr, hid, he⟩ := hk
  have hc : State.callOf
      { s with
        db := Db.call s.db s.now .sweepExpiredLeases,
        holding := s.holdingAfter .sweepExpiredLeases } (.complete w 0 "" "ok") =
      some (.complete id 0 "" "ok") := by
    simp [State.callOf, State.holdingAfter, hw]
  refine ⟨_, w, _, rfl, step_call hc, ?_⟩
  intro ho
  have hm : r.requeue ∈ (Db.call s.db s.now .sweepExpiredLeases).rows := by
    simp only [Db.call, Db.sweepExpiredLeases, Table.mem_update]
    exact ⟨r, hr, by simp [he]⟩
  simpa using (ho.report _ w hc rfl _ hm (by simp [Call.reportsOn, hid])).1

/-- In a run whose sweeps leave held commands alone every step respects
ownership; the first sweep that does not opens the way to a report that does not. -/
theorem owned_while_leases_kept (h : Path step LeasesKept (start now) as s) :
    (∀ a t, LeasesKept s a → step s a = some t → Owned s a t) ∧
    (¬ LeasesKept s .sweepExpiredLeases →
      ∃ t w u, step s .sweepExpiredLeases = some t ∧ step t (.complete w 0 "" "ok") = some u ∧
        ¬ Owned t (.complete w 0 "" "ok") u) :=
  ⟨fun _ _ _ ht => (path_held h).owned ht, swept_report⟩

/-- A worker outlives its lease, the command is swept and claimed again, and the
first worker's late report completes it under the second. -/
def lateReport : List Step :=
  [.enqueue "RssSync" "" 2 .manual "", .claim "worker-1-0" 300000000000, .advance 301000000000,
    .sweepExpiredLeases, .claim "worker-1-1" 300000000000, .complete "worker-1-0" 301000 "" "ok"]

/-- After the late report the second worker's failure rewrites a completed row. -/
theorem late_report_breaks_ownership :
    ¬ ∀ now as s a t, Path step Free (start now) as s → step s a = some t → Owned s a t := by
  intro h
  have hrun : ((exec step (start 0) lateReport).map
      (fun s => (s.db.rows.map (fun r => (r.id, r.status)), s.holding "worker-1-1"))) =
      some ([(1, .completed)], some 1) := by decide
  obtain ⟨s, hs, he⟩ := Option.map_eq_some_iff.mp hrun
  simp only [Prod.mk.injEq] at he
  obtain ⟨hrows, hw⟩ := he
  obtain ⟨r, hr, hrs⟩ := List.mem_map.mp (hrows ▸ List.mem_singleton.mpr rfl)
  simp only [Prod.mk.injEq] at hrs
  have hc : s.callOf (.fail "worker-1-1" 5000 "boom" "handler error") =
      some (.fail 1 5000 "boom" "handler error") := by simp [State.callOf, hw]
  have ho := h 0 lateReport s _ _ (Path.of_exec hs) (step_call hc)
  have := (ho.report _ "worker-1-1" hc rfl r hr (by simp [Call.reportsOn, hrs.1])).1
  simp [hrs.2] at this

/-- A run with a refresh and a sweep in it that keeps its lease. -/
def refreshedRun : List Step :=
  [.enqueue "RssSync" "" 2 .manual "", .claim "worker-1-0" 300000000000, .advance 150000000000,
    .refreshLease "worker-1-0" 150000000000 300000000000, .advance 200000000000]

theorem refreshed_run_owned :
    ∃ s t, Path step LeasesKept (start 0) refreshedRun s ∧ s.holding "worker-1-0" = some 1 ∧
      step s .sweepExpiredLeases = some t ∧ Owned s .sweepExpiredLeases t := by
  have hrun : ((exec step (start 0) refreshedRun).map
      (fun s => (s.db.rows.all (fun r => !r.expired s.now), s.holding "worker-1-0"))) =
      some (true, some 1) := by decide
  obtain ⟨s, hs, he⟩ := Option.map_eq_some_iff.mp hrun
  simp only [Prod.mk.injEq, List.all_eq_true, Bool.not_eq_true'] at he
  have hp : Path step LeasesKept (start 0) refreshedRun s :=
    .of_exec_guarded (by simp [refreshedRun, LeasesKept]) hs
  exact ⟨s, _, hp, he.2, rfl,
    (owned_while_leases_kept hp).1 _ _ (fun _ _ _ _ r hr _ => he.1 r hr) rfl⟩

end Sonarr.Commands.Ownership
