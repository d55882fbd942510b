import Sonarr.Lib.Machine
import Sonarr.Commands.Queue

namespace Sonarr.Commands.Leases
open Lib

/-- The queue under any calls at all, with the exact end of the lease last
granted on each command. Only its whole seconds are in the table. -/
structure State where
  db : Db
  now : Int
  leaseEnd : Nat → Int

inductive Step
  | advance (ns : Nat)
  | call (c : Call)
  deriving DecidableEq, Repr

/-- A claim grants a lease on the command it returns, a refresh on the running
row it selects. -/
def State.leaseEndAfter (s : State) : Call → Nat → Int
  | .claim w d => match (Db.claim s.db s.now w d).1 with
    | none => s.leaseEnd
    | some cmd => Function.update s.leaseEnd cmd.id (s.now + d)
  | .refreshLease id issued d =>
    if s.db.rows.any (fun r => r.id == id && r.status == .running) then
      Function.update s.leaseEnd id (issued + d)
    else s.leaseEnd
  | _ => s.leaseEnd

/-- The clock never goes back, so a refresh was issued no later than it runs. -/
def step (s : State) : Step → Option State
  | .advance ns => some { s with now := s.now + ns }
  | .call (.refreshLease id issued d) =>
    if issued ≤ s.now then
      some { s with
        db := Db.call s.db s.now (.refreshLease id issued d),
        leaseEnd := s.leaseEndAfter (.refreshLease id issued d) }
    else none
  | .call c => some { s with db := Db.call s.db s.now c, leaseEnd := s.leaseEndAfter c }

/-- Steps that are neither a final report on command `id` nor a sweep after the
real end of its lease. -/
def Keeps (id : Nat) (s : State) : Step → Prop
  | .call (.complete i _ _ _) => i ≠ id
  | .call (.fail i _ _ _) => i ≠ id
  | .call .sweepExpiredLeases => s.now ≤ s.leaseEnd id
  | _ => True

/-- Command `id` is running and its row shows the whole seconds of its lease. -/
def Leased (id : Nat) (s : State) : Prop :=
  ∃ r ∈ s.db.rows, r.id = id ∧ r.status = .running ∧
    r.leaseUntil = some (sqliteTime (s.leaseEnd id))

variable {s t : State} {c : Call} {r : Command} {id : Nat}

theorem step_cases (h : step s a = some t) :
    (∃ ns, a = .advance ns ∧ t = { s with now := s.now + ns }) ∨
    ∃ c, a = .call c ∧ t = { s with db := Db.call s.db s.now c, leaseEnd := s.leaseEndAfter c } := by
  cases a with
  | advance ns => exact .inl ⟨ns, rfl, (Option.some.inj h).symm⟩
  | call c =>
    refine .inr ⟨c, rfl, ?_⟩
    cases c with
    | refreshLease id issued d =>
      simp only [step] at h
      split at h
      · exact (Option.some.inj h).symm
      · cases h
    | _ => exact (Option.some.inj h).symm

/-- A claim never grants a lease on a command that is running already. -/
theorem leaseEndAfter_claim (hr : r ∈ s.db.rows) (hs : r.status = .running) :
    s.leaseEndAfter (.claim w d) r.id = s.leaseEnd r.id := by
  rcases Db.claim_cases s.db s.now w d with ⟨_, hc⟩ | ⟨q, hq, hc⟩
  · simp [State.leaseEndAfter, hc]
  · obtain ⟨hm, hqs, _⟩ := Db.nextQueued_spec hq
    have hne : r.id ≠ q.id := by
      intro he
      rw [Table.eq_of_key hr hm he, hqs] at hs
      cases hs
    simp [State.leaseEndAfter, hc, Function.update_of_ne hne]

theorem leaseEndAfter_refresh (hr : r ∈ s.db.rows) (hs : r.status = .running) :
    s.leaseEndAfter (.refreshLease r.id issued d) = Function.update s.leaseEnd r.id (issued + d) := by
  simp only [State.leaseEndAfter, ite_eq_left_iff]
  intro hn
  exact absurd (List.any_eq_true.mpr ⟨r, hr, by simp [hs]⟩) hn

theorem leaseEndAfter_refresh_other (hne : id ≠ i) :
    s.leaseEndAfter (.refreshLease i issued d) id = s.leaseEnd id := by
  simp only [State.leaseEndAfter]
  split
  · exact Function.update_of_ne hne _ _
  · rfl

/-- Whole seconds only delay a sweep: a row that looks expired has outlived its
exact lease as well. -/
theorem expired_after_lease (hl : r.leaseUntil = some (sqliteTime e))
    (he : r.expired now = true) : e < now := by
  obtain ⟨_, l, hl', hlt⟩ := Command.expired_iff.mp he
  rw [hl] at hl'
  cases hl'
  exact lt_of_sqliteTime_lt hlt

theorem Leased.call (h : Leased id s) (hk : Keeps id s (.call c)) :
    Leased id { s with db := Db.call s.db s.now c, leaseEnd := s.leaseEndAfter c } := by
  obtain ⟨r, hr, rfl, hs, hl⟩ := h
  obtain ⟨r', hm, hch⟩ := Db.call_active hr (by simp [Command.active, hs]) s.now c
  refine ⟨r', hm, hch.id_eq, ?_⟩
  change r'.status = .running ∧ r'.leaseUntil = some (sqliteTime (s.leaseEndAfter c r.id))
  cases hch with
  | same =>
    refine ⟨hs, ?_⟩
    cases c with
    | claim w d => rw [leaseEndAfter_claim hr hs]; exact hl
    | refreshLease i issued d =>
      by_cases he : r.id = i
      · -- the statement selects this row, so an unchanged row already showed the new lease
        subst he
        rw [leaseEndAfter_refresh hr hs, Function.update_self]
        have hm' : r.refresh (sqliteTime (issued + d)) ∈
            (Db.call s.db s.now (.refreshLease r.id issued d)).rows := by
          simp only [Db.call, Db.refreshLease, Table.mem_update]
          exact ⟨r, hr, by simp [hs]⟩
        rw [Table.eq_of_key hm hm' rfl]
        rfl
      · rw [leaseEndAfter_refresh_other he]; exact hl
    | _ => exact hl
  | claim hq => simp [hs] at hq
  | complete | fail => exact absurd rfl hk
  | refresh _ => exact ⟨hs, by rw [leaseEndAfter_refresh hr hs, Function.update_self]; rfl⟩
  | sweep he =>
    have hlt := expired_after_lease hl he
    exact absurd (show s.now ≤ s.leaseEnd r.id from hk) (by omega)

theorem Leased.step (h : Leased id s) (hk : Keeps id s a) (ht : Leases.step s a = some t) :
    Leased id t := by
  rcases step_cases ht with ⟨ns, rfl, rfl⟩ | ⟨c, rfl, rfl⟩
  · exact h
  · exact h.call hk

theorem claimed_leased (hc : (Db.claim s.db s.now w d).1 = some cmd)
    (ht : step s (.call (.claim w d)) = some t) : Leased cmd.id t := by
  rcases Db.claim_cases s.db s.now w d with ⟨_, hcl⟩ | ⟨q, hq, hcl⟩
  · simp [hcl] at hc
  · simp only [hcl, Option.some.injEq] at hc
    subst hc
    cases ht
    refine ⟨_, ?_, rfl, rfl, ?_⟩
    · simp only [Db.call, hcl, Db.markCommandRunning, Table.mem_update]
      exact ⟨q, (Db.nextQueued_spec hq).1, by simp⟩
    · simp [State.leaseEndAfter, hcl]

theorem Leased.not_claimed (h : Leased id s) (hc : (Db.claim s.db s.now w d).1 = some cmd) :
    cmd.id ≠ id := by
  obtain ⟨r, hr, rfl, hs, _⟩ := h
  rcases Db.claim_cases s.db s.now w d with ⟨_, hcl⟩ | ⟨q, hq, hcl⟩
  · simp [hcl] at hc
  · simp only [hcl, Option.some.injEq] at hc
    subst hc
    obtain ⟨hm, hqs, _⟩ := Db.nextQueued_spec hq
    intro he
    rw [← Table.eq_of_key hm hr he, hqs] at hs
    cases hs

/-- A claim fails only on an empty queue, and otherwise returns the queued row
that is least by priority and age. -/
theorem claim_least (s : State) (w : String) (d : Int) :
    ((∃ q ∈ s.db.rows, q.status = .queued) → ∃ cmd, (Db.claim s.db s.now w d).1 = some cmd) ∧
    ∀ cmd, (Db.claim s.db s.now w d).1 = some cmd →
      ∃ r ∈ s.db.rows, r.id = cmd.id ∧ r.status = .queued ∧ ∀ q ∈ s.db.rows, q.status = .queued →
        r.priority < q.priority ∨ (r.priority = q.priority ∧ r.queuedAt ≤ q.queuedAt) := by
  rcases Db.claim_cases s.db s.now w d with ⟨hn, hcl⟩ | ⟨r, hr, hcl⟩
  · refine ⟨?_, by simp [hcl]⟩
    rintro ⟨q, hq, hqs⟩
    have hne : s.db.rows.filter (fun r => r.status == .queued) ≠ [] :=
      List.ne_nil_of_mem (List.mem_filter.mpr ⟨hq, by simp [hqs]⟩)
    obtain ⟨x, hx⟩ := head_stableSort_isSome Command.claimOrder hne
    rw [Db.nextQueued, hx] at hn
    cases hn
  · refine ⟨fun _ => ⟨_, by rw [hcl]⟩, ?_⟩
    intro cmd hcmd
    simp only [hcl, Option.some.injEq] at hcmd
    subst hcmd
    obtain ⟨hm, hrs, hmin⟩ := Db.nextQueued_spec hr
    refine ⟨r, hm, rfl, hrs, fun q hq hqs => ?_⟩
    have h := hmin q hq hqs
    simp only [Command.claimOrder, Bool.or_eq_false_iff, Bool.and_eq_false_imp, beq_iff_eq,
      decide_eq_false_iff_not] at h
    omega

/-- A claimed command is not handed out again before a final report on it or a
sweep after the real end of its lease; a claim takes the least queued row; and
the cleanup keeps every queued or running row. -/
theorem claim_exclusive_and_least (s : State) :
    (∀ w d cmd s₁, (Db.claim s.db s.now w d).1 = some cmd →
      step s (.call (.claim w d)) = some s₁ → ∀ as s₂, Path step (Keeps cmd.id) s₁ as s₂ →
      ∀ w' d' cmd', (Db.claim s₂.db s₂.now w' d').1 = some cmd' → cmd'.id ≠ cmd.id) ∧
    (∀ w d, ((∃ q ∈ s.db.rows, q.status = .queued) →
        ∃ cmd, (Db.claim s.db s.now w d).1 = some cmd) ∧
      ∀ cmd, (Db.claim s.db s.now w d).1 = some cmd →
        ∃ r ∈ s.db.rows, r.id = cmd.id ∧ r.status = .queued ∧ ∀ q ∈ s.db.rows, q.status = .queued →
          r.priority < q.priority ∨ (r.priority = q.priority ∧ r.queuedAt ≤ q.queuedAt)) ∧
    ∀ olderThan, ∀ r ∈ s.db.rows, r.status = .queued ∨ r.status = .running →
      r ∈ (Db.deleteOldCompleted s.db olderThan).rows := by
  refine ⟨?_, claim_least s, ?_⟩
  · intro w d cmd s₁ hc hs₁ as s₂ hp w' d' cmd' hc'
    have hl : Leased cmd.id s₂ :=
      hp.invariant (fun _ _ _ hk ht h => h.step hk ht) (claimed_leased hc hs₁)
    exact hl.not_claimed hc'
  · intro olderThan r hr hs
    refine Table.mem_delete.mpr ⟨hr, ?_⟩
    rcases hs with h | h <;> simp [Command.deletable, h]

end Sonarr.Commands.Leases
