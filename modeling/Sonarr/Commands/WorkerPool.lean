import Sonarr.Lib.Machine
import Sonarr.Commands.Queue

namespace Sonarr.Commands.WorkerPool
open Lib

def defaultLeaseDuration : Int := 300000000000

/-- How a dispatch ended. -/
inductive Outcome
  | ok
  | error (exception : String)
  | panicked (exception : String)
  | noHandler
  deriving DecidableEq, Repr

inductive Event
  | commandStarted (id : Nat) (name : String)
  | commandCompleted (id : Nat) (name : String) (durationMs : Int)
  | commandFailed (id : Nat) (name exception : String)
  deriving DecidableEq, Repr

/-- The report `dispatch` makes on its way out. -/
def Outcome.call (id : Nat) (durationMs : Int) : Outcome → Call
  | .ok => .complete id durationMs "" "ok"
  | .error exception => .fail id durationMs exception "handler error"
  | .panicked exception => .fail id durationMs exception "panic"
  | .noHandler => .fail id durationMs "no handler registered" "no handler registered"

/-- The event it publishes after the report, whatever became of the report. -/
def Outcome.event (cmd : Command) (durationMs : Int) : Outcome → Event
  | .ok => .commandCompleted cmd.id cmd.name durationMs
  | .error exception | .panicked exception => .commandFailed cmd.id cmd.name exception
  | .noHandler => .commandFailed cmd.id cmd.name "no handler registered"

/-- Where a worker stands in `run` and `dispatch`. -/
inductive Phase
  | idle
  | claiming
  | claimed (cmd : Command)
  | running (cmd : Command)
  | returned (cmd : Command) (outcome : Outcome)
  | reported (cmd : Command) (outcome : Outcome) (durationMs : Int)
  | exited
  deriving DecidableEq, Repr

/-- The command a worker has claimed and not yet reported on. -/
def Phase.holds : Phase → Option Command
  | .claimed cmd | .running cmd | .returned cmd _ => some cmd
  | _ => none

/-- A pool of `n` workers over the table. `stopping` is the cancelled context.
Of the past only this is remembered: the events, which commands have had a
handler return nil, and which completed rows the cleanup has taken. -/
structure State (n : Nat) where
  db : Db
  now : Int
  pid : Nat
  stopping : Bool
  phase : Fin n → Phase
  events : List Event
  succeeded : List Nat
  cleaned : List Nat

def start (n : Nat) (now : Int) (pid : Nat) : State n :=
  ⟨.empty, now, pid, false, fun _ => .idle, [], [], []⟩

inductive Step (n : Nat)
  | advance (ns : Nat)
  | enqueue (name body : String) (priority : Int) (trigger : Trigger) (dedupKey : String)
  | refreshLease (id : Nat) (issued : Int)
  | sweepExpiredLeases
  | deleteOldCompleted (olderThan : Int)
  | stop
  | restart (pid : Nat)
  | check (i : Fin n)
  | claim (i : Fin n)
  | dispatch (i : Fin n)
  | handlerReturns (i : Fin n) (outcome : Outcome)
  | report (i : Fin n) (durationMs : Int)
  | publish (i : Fin n)
  deriving DecidableEq, Repr

namespace State
variable {n : Nat}

def workerID (s : State n) (i : Fin n) : String :=
  "worker-" ++ Nat.repr s.pid ++ "-" ++ Nat.repr i.val

def setPhase (s : State n) (i : Fin n) (p : Phase) : State n :=
  { s with phase := Function.update s.phase i p }

/-- The completed rows a call deletes. -/
def cleanedBy (s : State n) : Call → List Nat
  | .deleteOldCompleted t =>
    (s.db.rows.filter (fun r => r.deletable t && r.status == .completed)).map Command.id
  | _ => []

def apply (s : State n) (c : Call) : State n :=
  { s with db := Db.call s.db s.now c, cleaned := s.cleaned ++ s.cleanedBy c }

/-- `Claim` in the worker loop: a command, or nothing to do. -/
def claim (s : State n) (i : Fin n) : State n :=
  let phase := match (Db.claim s.db s.now (s.workerID i) defaultLeaseDuration).1 with
    | none => .idle
    | some cmd => .claimed cmd
  (s.apply (.claim (s.workerID i) defaultLeaseDuration)).setPhase i phase

/-- `dispatch` up to the call of the handler. -/
def dispatch (registered : String → Bool) (s : State n) (i : Fin n) (cmd : Command) : State n :=
  let started := { s with events := s.events ++ [Event.commandStarted cmd.id cmd.name] }
  started.setPhase i (if registered cmd.name then .running cmd else .returned cmd .noHandler)

end State

/-- One step of a worker, of `Stop`, of a restart, or of the queue's other users.
`database/sql` refuses a statement whose context is cancelled and the pool drops
that error, so with `stopping` set a worker's statements change nothing. -/
def step {n : Nat} (registered : String → Bool) (s : State n) : Step n → Option (State n)
  | .advance ns => some { s with now := s.now + ns }
  | .enqueue name body priority trigger dedupKey =>
    some (s.apply (.enqueue name body priority trigger dedupKey))
  | .refreshLease id issued =>
    if s.stopping then some s
    else if issued ≤ s.now then some (s.apply (.refreshLease id issued defaultLeaseDuration))
    else none
  | .sweepExpiredLeases => some (s.apply .sweepExpiredLeases)
  | .deleteOldCompleted olderThan => some (s.apply (.deleteOldCompleted olderThan))
  | .stop => some { s with stopping := true }
  | .restart pid =>
    -- `Stop` waits for the workers before the process ends
    if s.stopping = true ∧ ∀ i, s.phase i = .exited then
      some { s with pid, stopping := false, phase := fun _ => .idle }
    else none
  | .check i => match s.phase i with
    | .idle => some (s.setPhase i (if s.stopping then .exited else .claiming))
    | _ => none
  | .claim i => match s.phase i with
    | .claiming => some (if s.stopping then s.setPhase i .exited else s.claim i)
    | _ => none
  | .dispatch i => match s.phase i with
    -- the "worker shutdown before dispatch" report is refused as well
    | .claimed cmd => some (if s.stopping then s.setPhase i .exited else s.dispatch registered i cmd)
    | _ => none
  | .handlerReturns i outcome => match s.phase i with
    | .running cmd =>
      if outcome = .noHandler then none
      else some { s.setPhase i (.returned cmd outcome) with
        succeeded := if outcome = .ok then cmd.id :: s.succeeded else s.succeeded }
    | _ => none
  | .report i durationMs => match s.phase i with
    | .returned cmd outcome =>
      let t := if s.stopping then s else s.apply (outcome.call cmd.id durationMs)
      some (t.setPhase i (.reported cmd outcome durationMs))
    | _ => none
  | .publish i => match s.phase i with
    | .reported cmd outcome durationMs =>
      some { s.setPhase i .idle with events := s.events ++ [outcome.event cmd durationMs] }
    | _ => none

/-- The command is recorded as completed, or was until the cleanup took its row. -/
def Durable {n : Nat} (s : State n) (id : Nat) : Prop :=
  (∃ r ∈ s.db.rows, r.id = id ∧ r.status = .completed) ∨ id ∈ s.cleaned

/-- What shutdown must not lose: a nil return is recorded by the report that
follows it, the command does not go to a worker again, and `CommandCompleted`
speaks only of recorded completions. -/
structure Survives {n : Nat} (s : State n) : Prop where
  recorded : ∀ id ∈ s.succeeded,
    Durable s id ∨ ∃ i cmd, s.phase i = .returned cmd .ok ∧ cmd.id = id
  once : ∀ i cmd, s.phase i = .claimed cmd ∨ s.phase i = .running cmd → cmd.id ∉ s.succeeded
  published : ∀ id name d, .commandCompleted id name d ∈ s.events → Durable s id

/-- `Stop` does not fall between a handler's nil return and its `Complete`, no
handler returns nil after it, and no sweep finds the lease of a command expired
while its worker has yet to report on it. -/
def Graceful {n : Nat} (s : State n) : Step n → Prop
  | .stop => ∀ i cmd, s.phase i ≠ .returned cmd .ok
  | .handlerReturns _ .ok => s.stopping = false
  | .sweepExpiredLeases => ∀ i cmd, (s.phase i).holds = some cmd →
      ∀ r ∈ s.db.rows, r.id = cmd.id → r.expired s.now = false
  | _ => True

structure Inv {n : Nat} (s : State n) : Prop where
  held : ∀ i cmd, (s.phase i).holds = some cmd → ∃ r ∈ s.db.rows, r.id = cmd.id ∧ r.status = .running
  alone : ∀ i j c d, (s.phase i).holds = some c → (s.phase j).holds = some d → c.id = d.id → i = j
  gone : ∀ id ∈ s.cleaned, id < s.db.next ∧ ∀ r ∈ s.db.rows, r.id ≠ id
  succeeded : ∀ id ∈ s.succeeded,
    Durable s id ∨ ∃ i cmd, s.phase i = .returned cmd .ok ∧ cmd.id = id
  reported : ∀ i cmd d, s.phase i = .reported cmd .ok d → Durable s cmd.id
  published : ∀ id name d, .commandCompleted id name d ∈ s.events → Durable s id
  quiet : s.stopping = true → ∀ i cmd, s.phase i ≠ .returned cmd .ok

variable {n : Nat} {s t : State n} {c : Call} {r r' : Command} {i : Fin n} {id : Nat}
  {registered : String → Bool}

@[simp] theorem setPhase_db (p : Phase) : (s.setPhase i p).db = s.db := rfl
@[simp] theorem setPhase_cleaned (p : Phase) : (s.setPhase i p).cleaned = s.cleaned := rfl
@[simp] theorem setPhase_events (p : Phase) : (s.setPhase i p).events = s.events := rfl
@[simp] theorem setPhase_succeeded (p : Phase) : (s.setPhase i p).succeeded = s.succeeded := rfl
@[simp] theorem setPhase_stopping (p : Phase) : (s.setPhase i p).stopping = s.stopping := rfl
@[simp] theorem apply_phase : (s.apply c).phase = s.phase := rfl
@[simp] theorem apply_events : (s.apply c).events = s.events := rfl
@[simp] theorem apply_succeeded : (s.apply c).succeeded = s.succeeded := rfl
@[simp] theorem apply_stopping : (s.apply c).stopping = s.stopping := rfl

theorem setPhase_self (p : Phase) : (s.setPhase i p).phase i = p := Function.update_self ..

theorem setPhase_of_ne (h : j ≠ i) (p : Phase) : (s.setPhase i p).phase j = s.phase j :=
  Function.update_of_ne h ..

/-- A recorded completion outlasts every call that does not report on it. -/
theorem Durable.apply (h : Durable s id)
    (hc : ∀ r ∈ s.db.rows, r.id = id → r.status = .completed → c.reportsOn r = false) :
    Durable (s.apply c) id := by
  rcases h with ⟨r, hr, rfl, hs⟩ | h
  · rcases Db.call_forward hr s.now c with ⟨r', hm, hch⟩ | ⟨t, rfl, hd⟩
    · have he := hch.settled (by simp [Command.active, hs]) (hc r hr rfl hs)
      exact .inl ⟨r', hm, by rw [he], by rw [he, hs]⟩
    · refine .inr (List.mem_append_right _ ?_)
      exact List.mem_map.mpr ⟨r, List.mem_filter.mpr ⟨hr, by simp [hd, hs]⟩, rfl⟩
  · exact .inr (List.mem_append_left _ h)

/-- Ids are never handed out twice, so what is cleaned up stays away. -/
theorem gone_apply (h : ∀ id ∈ s.cleaned, id < s.db.next ∧ ∀ r ∈ s.db.rows, r.id ≠ id) :
    ∀ id ∈ (s.apply c).cleaned,
      id < (s.apply c).db.next ∧ ∀ r ∈ (s.apply c).db.rows, r.id ≠ id := by
  intro id hid
  have hnext : s.db.next ≤ (s.apply c).db.next := Db.call_next_le s.db s.now c
  rcases List.mem_append.mp hid with hid | hid
  · obtain ⟨hlt, hno⟩ := h id hid
    refine ⟨by omega, ?_⟩
    intro r hr he
    rcases Db.call_rows_origin hr with ⟨q, hq, hqid⟩ | hins
    · exact hno q hq (hqid.trans he)
    · exact Db.inserted_fresh hins (by omega)
  · cases c with
    | deleteOldCompleted t =>
      obtain ⟨q, hq, rfl⟩ := List.mem_map.mp hid
      obtain ⟨hqm, hqd⟩ := List.mem_filter.mp hq
      have hlt : q.id < s.db.next := s.db.below q hqm
      refine ⟨by omega, ?_⟩
      intro r hr he
      obtain ⟨hrm, hrd⟩ := Table.mem_delete.mp hr
      rw [← Table.eq_of_key hrm hqm he, hrd] at hqd
      simp at hqd
    | _ => cases hid

/-- A command that some worker still holds is not recorded as completed. -/
theorem Inv.not_durable (h : Inv s) (hi : (s.phase i).holds = some cmd) : ¬ Durable s cmd.id := by
  obtain ⟨r, hr, hid, hs⟩ := h.held i cmd hi
  rintro (⟨q, hq, hqid, hqs⟩ | hc)
  · rw [Table.eq_of_key hq hr (hqid.trans hid.symm), hs] at hqs
    cases hqs
  · exact (h.gone _ hc).2 r hr hid

theorem Inv.survives (h : Inv s) : Survives s := by
  refine ⟨h.succeeded, ?_, h.published⟩
  intro i cmd hi hmem
  have hh : (s.phase i).holds = some cmd := by rcases hi with hi | hi <;> simp [hi, Phase.holds]
  rcases h.succeeded _ hmem with hd | ⟨j, cmd', hj, hid⟩
  · exact h.not_durable hh hd
  · have hij := h.alone i j cmd cmd' hh (by simp [hj, Phase.holds]) hid.symm
    subst hij
    rcases hi with hi | hi <;> simp [hi] at hj

/-- Calls of the queue's other users: they release no held row and report on no
completed one. -/
theorem Inv.apply (h : Inv s)
    (hrel : ∀ i cmd, (s.phase i).holds = some cmd → ∀ r ∈ s.db.rows, r.id = cmd.id →
      ¬ Releases s.now r c)
    (hrep : ∀ r, c.reportsOn r = true → r.status = .running) : Inv (s.apply c) := by
  have hdur : ∀ id, Durable s id → Durable (s.apply c) id := by
    intro id hd
    refine hd.apply (fun r _ _ hs => ?_)
    by_contra hne
    simp [hrep r (by simpa using hne)] at hs
  refine ⟨?_, h.alone, gone_apply h.gone, ?_, ?_, ?_, h.quiet⟩
  · intro i cmd hi
    obtain ⟨r, hr, hid, hs⟩ := h.held i cmd hi
    obtain ⟨r', hm, hid', hs', _⟩ := Db.call_running hr hs (hrel i cmd hi r hr hid)
    exact ⟨r', hm, hid'.trans hid, hs'⟩
  · intro id hid
    exact (h.succeeded id hid).imp_left (hdur id)
  · exact fun i cmd d hi => hdur _ (h.reported i cmd d hi)
  · exact fun id name d he => hdur _ (h.published id name d he)

/-- A worker that moves on without touching the table, and not away from an
unrecorded nil return. -/
theorem Inv.setPhase (h : Inv s) (hold : ∀ cmd, s.phase i ≠ .returned cmd .ok)
    (hholds : ∀ cmd, p.holds = some cmd → (s.phase i).holds = some cmd)
    (hret : ∀ cmd, p ≠ .returned cmd .ok)
    (hrep : ∀ cmd d, p = .reported cmd .ok d → Durable s cmd.id) : Inv (s.setPhase i p) := by
  have hback : ∀ j cmd, ((s.setPhase i p).phase j).holds = some cmd →
      (s.phase j).holds = some cmd := by
    intro j cmd hj
    by_cases he : j = i
    · rw [he, setPhase_self] at hj
      exact he ▸ hholds cmd hj
    · rwa [setPhase_of_ne he] at hj
  refine ⟨?_, ?_, h.gone, ?_, ?_, h.published, ?_⟩
  · exact fun j cmd hj => h.held j cmd (hback j cmd hj)
  · exact fun j k c d hj hk => h.alone j k c d (hback j c hj) (hback k d hk)
  · intro id hid
    rcases h.succeeded id hid with hd | ⟨j, cmd, hj, hjid⟩
    · exact .inl hd
    · have he : j ≠ i := fun he => hold cmd (he ▸ hj)
      exact .inr ⟨j, cmd, by rw [setPhase_of_ne he]; exact hj, hjid⟩
  · intro j cmd d hj
    by_cases he : j = i
    · rw [he, setPhase_self] at hj
      exact hrep cmd d hj
    · rw [setPhase_of_ne he] at hj
      exact h.reported j cmd d hj
  · intro hs j cmd hj
    by_cases he : j = i
    · rw [he, setPhase_self] at hj
      exact hret cmd hj
    · rw [setPhase_of_ne he] at hj
      exact h.quiet hs j cmd hj

theorem Inv.event (h : Inv s) (he : ∀ id name d, e = .commandCompleted id name d → Durable s id) :
    Inv { s with events := s.events ++ [e] } := by
  refine ⟨h.held, h.alone, h.gone, h.succeeded, h.reported, ?_, h.quiet⟩
  intro id name d hm
  rcases List.mem_append.mp hm with hm | hm
  · exact h.published id name d hm
  · exact he id name d (List.mem_singleton.mp hm).symm

theorem Inv.claim_none (h : Inv s) (hi : s.phase i = .claiming)
    (hc : (Db.claim s.db s.now (s.workerID i) defaultLeaseDuration).1 = none) :
    Inv (s.claim i) := by
  have ha : Inv (s.apply (.claim (s.workerID i) defaultLeaseDuration)) :=
    h.apply (fun _ _ _ _ _ _ hrel => by cases hrel) (fun _ hrep => by cases hrep)
  simp only [State.claim, hc]
  apply ha.setPhase
  · intro cmd hcmd
    simp [hi] at hcmd
  · intro cmd hcmd
    cases hcmd
  · intro cmd hcmd
    cases hcmd
  · intro cmd d hcmd
    cases hcmd

/-- A claimed row was queued, so no other worker holds it. -/
theorem Inv.claim_some (h : Inv s) (hi : s.phase i = .claiming)
    (hc : (Db.claim s.db s.now (s.workerID i) defaultLeaseDuration).1 = some cmd) :
    Inv (s.claim i) := by
  have ha : Inv (s.apply (.claim (s.workerID i) defaultLeaseDuration)) :=
    h.apply (fun _ _ _ _ _ _ hrel => by cases hrel) (fun _ hrep => by cases hrep)
  rcases Db.claim_cases s.db s.now (s.workerID i) defaultLeaseDuration with
    ⟨_, hcl⟩ | ⟨q, hq, hcl⟩
  · simp [hcl] at hc
  obtain ⟨hqm, hqs, _⟩ := Db.nextQueued_spec hq
  have hid : cmd.id = q.id := by
    simp only [hcl, Option.some.injEq] at hc
    rw [← hc]
    rfl
  have hfree : ∀ j d, (s.phase j).holds = some d → d.id ≠ cmd.id := by
    intro j d hj he
    obtain ⟨r, hr, hrid, hrs⟩ := h.held j d hj
    rw [Table.eq_of_key hr hqm (hrid.trans (he.trans hid)), hqs] at hrs
    cases hrs
  simp only [State.claim, hc]
  refine ⟨?_, ?_, ha.gone, ?_, ?_, ha.published, ?_⟩
  · intro j d hj
    by_cases he : j = i
    · rw [he, setPhase_self] at hj
      cases hj
      refine ⟨q.markRunning s.now (s.workerID i) (sqliteTime (s.now + defaultLeaseDuration)), ?_,
        hid.symm, rfl⟩
      simp only [setPhase_db, State.apply, Db.call, hcl, Db.markCommandRunning, Table.mem_update]
      exact ⟨q, hqm, by simp⟩
    · rw [setPhase_of_ne he] at hj
      exact ha.held j d hj
  · intro j k c d hj hk hcd
    by_cases hji : j = i <;> by_cases hki : k = i
    · rw [hji, hki]
    · rw [hji, setPhase_self] at hj
      rw [setPhase_of_ne hki] at hk
      cases hj
      exact absurd hcd.symm (hfree k d hk)
    · rw [hki, setPhase_self] at hk
      rw [setPhase_of_ne hji] at hj
      cases hk
      exact absurd hcd (hfree j c hj)
    · rw [setPhase_of_ne hji] at hj
      rw [setPhase_of_ne hki] at hk
      exact ha.alone j k c d hj hk hcd
  · intro id hid
    rcases ha.succeeded id hid with hd | ⟨j, d, hj, hjid⟩
    · exact .inl hd
    · have he : j ≠ i := by
        rintro rfl
        simp [hi] at hj
      exact .inr ⟨j, d, by rw [setPhase_of_ne he]; exact hj, hjid⟩
  · intro j d dur hj
    by_cases he : j = i
    · rw [he, setPhase_self] at hj
      cases hj
    · rw [setPhase_of_ne he] at hj
      exact ha.reported j d dur hj
  · intro hs j d hj
    by_cases he : j = i
    · rw [he, setPhase_self] at hj
      cases hj
    · rw [setPhase_of_ne he] at hj
      exact ha.quiet hs j d hj

/-- A nil return is remembered and waits for its report. -/
theorem Inv.returned_ok (h : Inv s) (hi : s.phase i = .running cmd) (hs : s.stopping = false) :
    Inv { s.setPhase i (.returned cmd .ok) with succeeded := cmd.id :: s.succeeded } := by
  have hback : ∀ j d, ((s.setPhase i (.returned cmd .ok)).phase j).holds = some d →
      (s.phase j).holds = some d := by
    intro j d hj
    by_cases he : j = i
    · rw [he, setPhase_self] at hj
      rw [he, hi]
      exact hj
    · rwa [setPhase_of_ne he] at hj
  refine ⟨?_, ?_, h.gone, ?_, ?_, h.published, ?_⟩
  · exact fun j d hj => h.held j d (hback j d hj)
  · exact fun j k c d hj hk => h.alone j k c d (hback j c hj) (hback k d hk)
  · intro id hid
    rcases List.mem_cons.mp hid with rfl | hid
    · exact .inr ⟨i, cmd, setPhase_self _, rfl⟩
    · rcases h.succeeded id hid with hd | ⟨j, d, hj, hjid⟩
      · exact .inl hd
      · have he : j ≠ i := by
          rintro rfl
          simp [hi] at hj
        exact .inr ⟨j, d, (setPhase_of_ne he _).trans hj, hjid⟩
  · intro j d dur hj
    by_cases he : j = i
    · subst he
      cases (setPhase_self _).symm.trans hj
    · exact h.reported j d dur ((setPhase_of_ne he _).symm.trans hj)
  · intro hstop
    rw [show s.stopping = true from hstop] at hs
    cases hs

/-- A report acts on no row but its own. -/
theorem Outcome.call_reportsOn (o : Outcome) (h : (o.call id d).reportsOn r = true) : r.id = id := by
  cases o <;> simpa [Outcome.call, Call.reportsOn] using h

theorem Outcome.call_releases (o : Outcome) (h : Releases now r (o.call id d)) : r.id = id := by
  cases o <;> simp only [Outcome.call] at h <;> cases h <;> rfl

/-- What an accepted `Complete` leaves behind. -/
theorem complete_durable (hr : r ∈ s.db.rows) : Durable (s.apply (.complete r.id d res m)) r.id := by
  refine .inl ⟨r.complete s.now d res m, ?_, rfl, rfl⟩
  simp only [State.apply, Db.call, Db.complete, Table.mem_update]
  exact ⟨r, hr, by simp⟩

theorem Inv.report (h : Inv s) (hi : s.phase i = .returned cmd o) :
    Inv ((s.apply (o.call cmd.id d)).setPhase i (.reported cmd o d)) := by
  have hh : (s.phase i).holds = some cmd := by simp [hi, Phase.holds]
  obtain ⟨r, hr, hid, hrs⟩ := h.held i cmd hh
  have hdur : ∀ id, Durable s id → Durable (s.apply (o.call cmd.id d)) id := by
    intro id hd
    refine hd.apply (fun q hq hqid hqs => ?_)
    by_contra hne
    have he := o.call_reportsOn (by simpa using hne)
    exact h.not_durable hh (.inl ⟨q, hq, he, hqs⟩)
  have hown : o = .ok → Durable (s.apply (o.call cmd.id d)) cmd.id := by
    rintro rfl
    rw [← hid]
    exact complete_durable hr
  refine ⟨?_, ?_, gone_apply h.gone, ?_, ?_, ?_, ?_⟩
  · intro j e hj
    have he : j ≠ i := by
      rintro rfl
      rw [setPhase_self] at hj
      cases hj
    rw [setPhase_of_ne he] at hj
    obtain ⟨q, hq, hqid, hqs⟩ := h.held j e hj
    -- the others hold other commands, so the report does not release theirs
    have hnot : ¬ Releases s.now q (o.call cmd.id d) := fun hrel =>
      he (h.alone j i e cmd hj hh (hqid.symm.trans (o.call_releases hrel)))
    obtain ⟨q', hm, hid', hs', _⟩ := Db.call_running hq hqs hnot
    exact ⟨q', hm, hid'.trans hqid, hs'⟩
  · intro j k c e hj hk
    have hji : j ≠ i := by
      rintro rfl
      rw [setPhase_self] at hj
      cases hj
    have hki : k ≠ i := by
      rintro rfl
      rw [setPhase_self] at hk
      cases hk
    rw [setPhase_of_ne hji] at hj
    rw [setPhase_of_ne hki] at hk
    exact h.alone j k c e hj hk
  · intro id hm
    rcases h.succeeded id hm with hd | ⟨j, e, hj, rfl⟩
    · exact .inl (hdur id hd)
    · by_cases he : j = i
      · subst he
        rw [hi] at hj
        cases hj
        exact .inl (hown rfl)
      · exact .inr ⟨j, e, (setPhase_of_ne he _).trans hj, rfl⟩
  · intro j e dur hj
    by_cases he : j = i
    · subst he
      rw [setPhase_self] at hj
      cases hj
      exact hown rfl
    · rw [setPhase_of_ne he] at hj
      exact hdur _ (h.reported j e dur hj)
  · exact fun id name dur hm => hdur _ (h.published id name dur hm)
  · intro hs j e hj
    by_cases he : j = i
    · subst he
      rw [setPhase_self] at hj
      cases hj
    · rw [setPhase_of_ne he] at hj
      exact h.quiet hs j e hj

theorem Inv.refused_report (h : Inv s) (hi : s.phase i = .returned cmd o) (hs : s.stopping = true) :
    Inv (s.setPhase i (.reported cmd o d)) := by
  have ho : o ≠ .ok := by
    rintro rfl
    exact h.quiet hs i cmd hi
  apply h.setPhase
  · exact h.quiet hs i
  · intro e he
    cases he
  · intro e he
    cases he
  · intro e d he
    cases he
    exact absurd rfl ho

/-- A worker that holds nothing goes on to a phase in which it holds nothing. -/
theorem Inv.walk (h : Inv s) (hi : s.phase i = .idle ∨ s.phase i = .claiming)
    (hp : p = .idle ∨ p = .claiming ∨ p = .exited) : Inv (s.setPhase i p) := by
  apply h.setPhase
  · intro cmd hcmd
    rcases hi with hi | hi <;> simp [hi] at hcmd
  · intro cmd hcmd
    rcases hp with rfl | rfl | rfl <;> cases hcmd
  · intro cmd hcmd
    rcases hp with rfl | rfl | rfl <;> cases hcmd
  · intro cmd d hcmd
    rcases hp with rfl | rfl | rfl <;> cases hcmd

theorem Inv.dispatch (h : Inv s) (hi : s.phase i = .claimed cmd) :
    Inv (s.dispatch registered i cmd) := by
  have he : Inv { s with events := s.events ++ [Event.commandStarted cmd.id cmd.name] } :=
    h.event (fun _ _ _ he => by cases he)
  apply he.setPhase
  · intro d hd
    simp [hi] at hd
  · intro d hd
    split at hd <;> simpa [hi, Phase.holds] using hd
  · intro d hd
    split at hd <;> cases hd
  · intro d dur hd
    split at hd <;> cases hd

theorem Inv.publish (h : Inv s) (hi : s.phase i = .reported cmd o d) :
    Inv { s.setPhase i .idle with events := s.events ++ [o.event cmd d] } := by
  have hp : Inv (s.setPhase i .idle) := by
    apply h.setPhase
    · intro e he
      simp [hi] at he
    · intro e he
      cases he
    · intro e he
      cases he
    · intro e dur he
      cases he
  apply hp.event
  intro id name dur he
  cases o with
  | ok =>
    cases he
    exact h.reported i cmd d hi
  | error | panicked | noHandler => cases he

theorem Inv.failed_return (h : Inv s) (hi : s.phase i = .running cmd) (ho : o ≠ .ok) :
    Inv (s.setPhase i (.returned cmd o)) := by
  apply h.setPhase
  · intro d hd
    simp [hi] at hd
  · intro d hd
    simpa [hi, Phase.holds] using hd
  · intro d hd
    cases hd
    exact ho rfl
  · intro d dur hd
    cases hd

theorem Inv.leave (h : Inv s) (hi : s.phase i = .claimed cmd) : Inv (s.setPhase i .exited) := by
  apply h.setPhase
  · intro d hd
    simp [hi] at hd
  · intro d hd
    cases hd
  · intro d hd
    cases hd
  · intro d dur hd
    cases hd

/-- Once all workers have left, a restart has nothing in its hands. -/
theorem Inv.restart (h : Inv s) (hx : ∀ i, s.phase i = .exited) :
    Inv { s with pid, stopping := false, phase := fun _ : Fin n => .idle } := by
  refine ⟨fun _ _ hh => (nomatch hh), fun _ _ _ _ hh => (nomatch hh), h.gone, ?_,
    fun _ _ _ hh => (nomatch hh), h.published, fun hs => (nomatch hs)⟩
  intro id hid
  rcases h.succeeded id hid with hd | ⟨i, cmd, hi, _⟩
  · exact .inl hd
  · rw [hx i] at hi
    cases hi

theorem Inv.handlerReturns (h : Inv s) (hg : Graceful s (.handlerReturns i o))
    (ht : step registered s (.handlerReturns i o) = some t) : Inv t := by
  simp only [step] at ht
  split at ht
  · rename_i cmd hi
    split at ht
    · cases ht
    · cases ht
      by_cases ho : o = .ok
      · subst ho
        simpa using h.returned_ok hi hg
      · simp only [ho, if_false]
        exact h.failed_return hi ho
  · cases ht

theorem Inv.step (h : Inv s) (hg : Graceful s a) (ht : WorkerPool.step registered s a = some t) :
    Inv t := by
  cases a with
  | handlerReturns i o => exact h.handlerReturns hg ht
  | advance ns =>
    cases ht
    exact ⟨h.held, h.alone, h.gone, h.succeeded, h.reported, h.published, h.quiet⟩
  | enqueue name body pr tr k =>
    cases ht
    exact h.apply (fun _ _ _ _ _ _ hrel => by cases hrel) (fun _ hrep => by cases hrep)
  | refreshLease id issued =>
    simp only [WorkerPool.step] at ht
    split at ht
    · cases ht
      exact h
    · split at ht
      · cases ht
        refine h.apply (fun _ _ _ _ _ _ hrel => by cases hrel) (fun r hrep => ?_)
        simp only [Call.reportsOn, Bool.and_eq_true, beq_iff_eq] at hrep
        exact hrep.2
      · cases ht
  | sweepExpiredLeases =>
    cases ht
    refine h.apply (fun i cmd hi r hr hid hrel => ?_) (fun _ hrep => by cases hrep)
    cases hrel with
    | sweep he => simp [hg i cmd hi r hr hid] at he
  | deleteOldCompleted olderThan =>
    cases ht
    exact h.apply (fun _ _ _ _ _ _ hrel => by cases hrel) (fun _ hrep => by cases hrep)
  | stop =>
    cases ht
    exact ⟨h.held, h.alone, h.gone, h.succeeded, h.reported, h.published, fun _ => hg⟩
  | restart pid =>
    simp only [WorkerPool.step] at ht
    split at ht
    · rename_i hx
      cases ht
      exact h.restart hx.2
    · cases ht
  | check i =>
    simp only [WorkerPool.step] at ht
    split at ht
    · rename_i hi
      cases ht
      exact h.walk (.inl hi) (by split <;> simp)
    · cases ht
  | claim i =>
    simp only [WorkerPool.step] at ht
    split at ht
    · rename_i hi
      cases ht
      split
      · exact h.walk (.inr hi) (by simp)
      · cases hc : (Db.claim s.db s.now (s.workerID i) defaultLeaseDuration).1 with
        | none => exact h.claim_none hi hc
        | some cmd => exact h.claim_some hi hc
    · cases ht
  | dispatch i =>
    simp only [WorkerPool.step] at ht
    split at ht
    · rename_i cmd hi
      cases ht
      split
      · exact h.leave hi
      · exact h.dispatch hi
    · cases ht
  | report i d =>
    simp only [WorkerPool.step] at ht
    split at ht
    · rename_i cmd o hi
      cases ht
      split
      · rename_i hs
        exact h.refused_report hi hs
      · exact h.report hi
    · cases ht
  | publish i =>
    simp only [WorkerPool.step] at ht
    split at ht
    · rename_i cmd o d hi
      cases ht
      exact h.publish hi
    · cases ht

theorem path_inv (h : Path (step registered) Graceful (start n now pid) as s) : Inv s :=
  h.invariant (fun _ _ _ hg ht hs => hs.step hg ht)
    ⟨fun _ _ hh => (nomatch hh), fun _ _ _ _ hh => (nomatch hh), fun _ hm => (nomatch hm),
      fun _ hm => (nomatch hm), fun _ _ _ hh => (nomatch hh), fun _ _ _ hm => (nomatch hm),
      fun hs => (nomatch hs)⟩

/-- While the context is alive the report that follows a nil return records it. -/
theorem report_records (h : Inv s) (hi : s.phase i = .returned cmd .ok) (d : Int) :
    ∃ t, step registered s (.report i d) = some t ∧ Durable t cmd.id := by
  have hs : s.stopping = false := by
    by_contra hs
    exact h.quiet (by simpa using hs) i cmd hi
  obtain ⟨r, hr, hid, _⟩ := h.held i cmd (by simp [hi, Phase.holds])
  refine ⟨(s.apply (Outcome.ok.call cmd.id d)).setPhase i (.reported cmd .ok d),
    by simp [step, hi, hs], ?_⟩
  rw [← hid]
  exact complete_durable hr

/-- Under a cancelled context the report is dropped and the event still goes out. -/
theorem refused_report_published (hs : s.stopping = true) (hi : s.phase i = .returned cmd .ok)
    (hd : ¬ Durable s cmd.id) :
    ∃ t, exec (step registered) s [.report i d, .publish i] = some t ∧ ¬ Survives t := by
  let s₁ := s.setPhase i (.reported cmd .ok d)
  have h₁ : step registered s (.report i d) = some s₁ := by simp [step, hi, hs, s₁]
  have h₂ : step registered s₁ (.publish i) =
      some { s₁.setPhase i .idle with events := s.events ++ [.commandCompleted cmd.id cmd.name d] } := by
    simp [step, s₁, setPhase_self, Outcome.event]
  refine ⟨_, by rw [exec, h₁]; simp only [exec, h₂]; rfl, ?_⟩
  intro hv
  exact hd (hv.published cmd.id cmd.name d (by simp))

/-- In a graceful run nothing is lost. A `Stop` between a nil return and its
report, or a nil return after it, ends in an event for a lost completion. -/
theorem survives_while_graceful (h : Path (step registered) Graceful (start n now pid) as s) :
    Survives s ∧
    (∀ i cmd d, s.phase i = .returned cmd .ok →
      ∃ t, step registered s (.report i d) = some t ∧ Durable t cmd.id) ∧
    (¬ Graceful s .stop → ∃ i t,
      exec (step registered) s [.stop, .report i 0, .publish i] = some t ∧ ¬ Survives t) ∧
    ∀ i cmd, s.phase i = .running cmd → ¬ Graceful s (.handlerReturns i .ok) → ∃ t,
      exec (step registered) s [.handlerReturns i .ok, .report i 0, .publish i] = some t ∧
        ¬ Survives t := by
  have hinv := path_inv h
  refine ⟨hinv.survives, fun i cmd d hi => report_records hinv hi d, ?_, ?_⟩
  · intro hg
    simp only [Graceful, not_forall, not_not] at hg
    obtain ⟨i, cmd, hi⟩ := hg
    have hd : ¬ Durable s cmd.id := hinv.not_durable (by rw [hi]; rfl)
    obtain ⟨t, ht, hv⟩ := refused_report_published (s := { s with stopping := true }) rfl hi hd
    exact ⟨i, t, ht, hv⟩
  · intro i cmd hi hg
    have hd : ¬ Durable s cmd.id := hinv.not_durable (by rw [hi]; rfl)
    let u := { s.setPhase i (.returned cmd .ok) with succeeded := cmd.id :: s.succeeded }
    have hu : step registered s (.handlerReturns i .ok) = some u := by simp [step, hi, u]
    have hs : s.stopping = true := by simpa [Graceful] using hg
    obtain ⟨t, ht, hv⟩ := refused_report_published (s := u) hs (setPhase_self _) hd
    exact ⟨t, by rw [exec, hu]; exact ht, hv⟩

/-- The one worker of a pool is told to stop while its handler runs. After the
restart the sweep hands the finished command out again. -/
def stoppedRun : List (Step 1) :=
  [.enqueue "ProcessDownload" "" 2 .scheduled "ProcessDownload:1", .check 0, .claim 0, .dispatch 0,
    .stop, .handlerReturns 0 .ok, .report 0 1500, .publish 0, .check 0, .restart 2,
    .advance 301000000000, .sweepExpiredLeases, .check 0, .claim 0]

theorem stop_loses_completion :
    ¬ ∀ n registered now pid as (s : State n),
      Path (step registered) Free (start n now pid) as s → Survives s := by
  intro h
  have hrun : ((exec (step fun _ => true) (start 1 0 1) stoppedRun).map (fun s =>
      (s.succeeded, match s.phase 0 with | .claimed cmd => some cmd.id | _ => none))) =
      some ([1], some 1) := by decide
  obtain ⟨s, hs, he⟩ := Option.map_eq_some_iff.mp hrun
  simp only [Prod.mk.injEq] at he
  obtain ⟨hsucc, hphase⟩ := he
  have hv := h 1 (fun _ => true) 0 1 stoppedRun s (Path.of_exec hs)
  split at hphase
  · rename_i cmd hcmd
    exact hv.once 0 cmd (.inl hcmd) (by simpa [hsucc] using hphase)
  · cases hphase

/-- The same pool stopped between two commands. -/
def gracefulRun : List (Step 1) :=
  [.enqueue "ProcessDownload" "" 2 .scheduled "ProcessDownload:1", .check 0, .claim 0, .dispatch 0,
    .handlerReturns 0 .ok, .report 0 1500, .publish 0, .stop, .check 0, .restart 2,
    .advance 301000000000, .sweepExpiredLeases, .check 0, .claim 0]

theorem graceful_run_survives :
    ∃ s, Path (step fun _ => true) Graceful (start 1 0 1) gracefulRun s ∧ s.succeeded = [1] ∧
      s.phase 0 = .idle ∧ Survives s := by
  obtain ⟨s, hp, hsucc, hphase⟩ : ∃ s,
      Path (step fun _ => true) Graceful (start 1 0 1) gracefulRun s ∧ s.succeeded = [1] ∧
        s.phase 0 = .idle := by
    refine ⟨_, .cons trivial rfl (.cons trivial rfl (.cons trivial rfl (.cons trivial rfl
      (.cons rfl rfl (.cons trivial rfl (.cons trivial rfl (.cons ?_ rfl (.cons trivial rfl
      (.cons trivial rfl (.cons trivial rfl (.cons ?_ rfl (.cons trivial rfl (.cons trivial rfl
      .nil))))))))))))), rfl, rfl⟩
    · intro i cmd hi
      rw [Fin.fin_one_eq_zero i] at hi
      cases hi
    · intro i cmd hi
      rw [Fin.fin_one_eq_zero i] at hi
      cases hi
  exact ⟨s, hp, hsucc, hphase, (survives_while_graceful hp).1⟩

end Sonarr.Commands.WorkerPool
