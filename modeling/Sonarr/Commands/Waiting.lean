import Mathlib.Data.Finset.Card
import Sonarr.Commands.Queue
import Sonarr.Lib.Machine

namespace Sonarr.Commands
open Lib

/-- `q` is claimed before `x`: by priority, by the second it was queued in, or by row order. -/
def Command.before (q x : Command) : Bool :=
  claimOrder q x || (!claimOrder x q && decide (q.id < x.id))

/-- No call rewrites what the claim order looks at. -/
theorem RowChange.before_eq (h : RowChange now c r r') (x : Command) : r'.before x = r.before x := by
  cases h <;> rfl

namespace Waiting

/-- The queue under any calls of any number of workers and other users. -/
structure State where
  db : Db
  now : Int

def start (now : Int) : State := ⟨.empty, now⟩

inductive Step
  | advance (ns : Nat)
  | call (c : Call)
  deriving DecidableEq, Repr

def step (s : State) : Step → Option State
  | .advance ns => some { s with now := s.now + ns }
  | .call c => some { s with db := Db.call s.db s.now c }

/-- The queued commands that are claimed before `x`. -/
def ahead (db : Db) (x : Command) : Finset Nat :=
  ((db.rows.filter (fun q => q.status == .queued && q.before x)).map Command.id).toFinset

/-- One for a claim that hands out a command. -/
def claims (s : State) : Step → Nat
  | .call (.claim w d) => if (Db.claim s.db s.now w d).1.isSome then 1 else 0
  | _ => 0

/-- What a step can put ahead of `x`: a more urgent command, and the commands whose
expired leases a sweep returns to the queue. -/
def delays (x : Command) (s : State) : Step → Nat
  | .call (.enqueue _ _ priority _ _) => if priority < x.priority then 1 else 0
  | .call .sweepExpiredLeases =>
    (s.db.rows.filter (fun q => q.expired s.now && q.before x)).length
  | _ => 0

def total (f : State → Step → Nat) : State → List Step → Nat
  | _, [] => 0
  | s, a :: as => f s a + match step s a with
    | none => 0
    | some t => total f t as

/-- The command stands queued in its row. -/
def StillQueued (x : Command) (s : State) (_ : Step) : Prop := x ∈ s.db.rows

instance : Decidable (StillQueued x s a) := inferInstanceAs (Decidable (x ∈ s.db.rows))

/-- Rows stand in the order of their ids, and none was queued later than now. -/
structure Ordered (s : State) : Prop where
  ids : (s.db.rows.map Command.id).Pairwise (· < ·)
  times : ∀ r ∈ s.db.rows, r.queuedAt ≤ sqliteTime s.now

theorem ordered_start (now : Int) : Ordered (start now) := ⟨.nil, fun _ hr => (nomatch hr)⟩

theorem ids_update {db : Db} {f : Command → Command} {hf : ∀ r, Keyed.key (f r) = Keyed.key r}
    (h : (db.rows.map Command.id).Pairwise (· < ·)) :
    ((db.update p f hf).rows.map Command.id).Pairwise (· < ·) := by
  have he : (db.update p f hf).rows.map Command.id = db.rows.map Command.id := Table.keys_update
  rw [he]
  exact h

theorem ids_call {db : Db} (h : (db.rows.map Command.id).Pairwise (· < ·)) :
    ((Db.call db now c).rows.map Command.id).Pairwise (· < ·) := by
  cases c with
  | enqueue name body p tr k =>
    simp only [Db.call, Db.enqueue, Table.insert, List.map_append, List.map_singleton]
    refine List.pairwise_append.mpr ⟨h, List.pairwise_singleton _ _, ?_⟩
    intro a ha b hb
    obtain ⟨r, hr, rfl⟩ := List.mem_map.mp ha
    rw [List.mem_singleton.mp hb]
    exact db.below r hr
  | claim w d =>
    rcases Db.claim_cases db now w d with ⟨_, hc⟩ | ⟨q, _, hc⟩
    · simpa only [Db.call, hc] using h
    · simp only [Db.call, hc]
      exact ids_update h
  | refreshLease id t d | complete id d res m | fail id d e m | sweepExpiredLeases =>
    simp only [Db.call, Db.refreshLease, Db.complete, Db.fail, Db.sweepExpiredLeases]
    exact ids_update h
  | deleteOldCompleted t => exact h.sublist (List.filter_sublist.map _)

theorem Ordered.step (h : Ordered s) (ht : step s a = some t) : Ordered t := by
  cases a with
  | advance ns =>
    cases ht
    refine ⟨h.ids, fun r hr => Int.le_trans (h.times r hr) ?_⟩
    exact Int.ediv_le_ediv (by omega) (Int.le_add_of_nonneg_right (Int.natCast_nonneg ns))
  | call c =>
    cases ht
    refine ⟨ids_call h.ids, fun r hr => ?_⟩
    rcases Db.call_backward hr with ⟨q, hq, hch⟩ | hins
    · have htime : r.queuedAt = q.queuedAt := by cases hch <;> rfl
      rw [htime]
      exact h.times q hq
    · cases c <;> simp only [Db.inserted, Option.some.injEq, reduceCtorEq] at hins
      rw [← hins]
      exact Int.le_refl _

theorem mem_ahead {db : Db} : n ∈ ahead db x ↔
    ∃ q ∈ db.rows, q.status = .queued ∧ q.before x = true ∧ q.id = n := by
  simp [ahead, and_assoc]

/-- The commands that a call puts into the queue ahead of `x`. -/
def brought (x : Command) (db : Db) (now : Int) : Call → List Command
  | .sweepExpiredLeases => db.rows.filter (fun q => q.expired now && q.before x)
  | c => (Db.inserted db now c).toList.filter (fun q => q.before x)

/-- What is ahead after a call was ahead before it, or the call brought it there. -/
theorem ahead_call {db : Db} (hn : n ∈ ahead (Db.call db now c) x) :
    (∃ q ∈ db.rows, q.status = .queued ∧ q.before x = true ∧ q.id = n ∧
        (Db.call db now c).get n = some q) ∨
    ∃ q ∈ brought x db now c, q.id = n := by
  obtain ⟨q, hq, hqs, hb, rfl⟩ := mem_ahead.mp hn
  rcases Db.call_backward hq with ⟨r, hr, hch⟩ | hins
  · have hbr := hch.before_eq x
    have hid := hch.id_eq
    cases hch with
    | same => exact .inl ⟨q, hr, hqs, hb, rfl, Table.get_eq_some.mpr ⟨hq, rfl⟩⟩
    | claim _ | complete | fail => cases hqs
    | refresh hrun => simp [hrun] at hqs
    | sweep he => exact .inr ⟨r, List.mem_filter.mpr ⟨hr, by simp [he, ← hbr, hb]⟩, hid.symm⟩
  · refine .inr ⟨q, ?_, rfl⟩
    cases c with
    | sweepExpiredLeases => cases hins
    | _ => exact List.mem_filter.mpr ⟨by simp [hins], hb⟩

theorem ahead_card {db : Db} :
    (ahead (Db.call db now c) x).card ≤ (ahead db x).card + (brought x db now c).length := by
  have hsub : ahead (Db.call db now c) x ⊆
      ahead db x ∪ ((brought x db now c).map Command.id).toFinset := by
    intro n hn
    rcases ahead_call hn with ⟨q, hq, hqs, hb, rfl, _⟩ | ⟨q, hq, rfl⟩
    · exact Finset.mem_union_left _ (mem_ahead.mpr ⟨q, hq, hqs, hb, rfl⟩)
    · exact Finset.mem_union_right _ (List.mem_toFinset.mpr (List.mem_map_of_mem hq))
  have hlen := List.toFinset_card_le ((brought x db now c).map Command.id)
  rw [List.length_map] at hlen
  exact (Finset.card_le_card hsub).trans ((Finset.card_union_le _ _).trans (by omega))

/-- A queued row that stands before `x` in the claim order and is not `x` is before it. -/
theorem before_of_first {db : Db} (hids : (db.rows.map Command.id).Pairwise (· < ·))
    (hr : Db.nextQueued db = some r) (hx : x ∈ db.rows) (hxq : x.status = .queued) (hne : r ≠ x) :
    r.before x = true := by
  have hfirst := head_stableSort Command.claimOrder_weak _ hr
  obtain ⟨pre, post, hsplit, hpre, hpost⟩ := hfirst
  have hmem : x ∈ db.rows.filter (fun q => q.status == .queued) :=
    List.mem_filter.mpr ⟨hx, by simp [hxq]⟩
  have hsorted : (pre ++ r :: post).Pairwise (fun a b => a.id < b.id) := by
    rw [← hsplit]
    exact (List.pairwise_map.mp hids).sublist List.filter_sublist
  rw [hsplit] at hmem
  rcases List.mem_append.mp hmem with hmem | hmem
  · simp [Command.before, hpre x hmem]
  · rcases List.mem_cons.mp hmem with rfl | hmem
    · exact absurd rfl hne
    · -- neither comes first by priority and time, and `r` has the smaller id
      have hlt := (List.pairwise_cons.mp (List.pairwise_append.mp hsorted).2.1).1 x hmem
      simp [Command.before, hpost x hmem, hlt]

/-- A later command is before `x` only if it is more urgent. -/
theorem inserted_before {s : State} (h : Ordered s) (hx : x ∈ s.db.rows) :
    (Db.newCommand s.now name body p tr k s.db.next).before x = true ↔ p < x.priority := by
  have hid := s.db.below x hx
  have htime := h.times x hx
  simp only [key_command] at hid
  simp only [Command.before, Command.claimOrder, Bool.or_eq_true, Bool.and_eq_true,
    decide_eq_true_eq, beq_iff_eq, Bool.not_eq_true', Bool.or_eq_false_iff, Bool.and_eq_false_imp,
    decide_eq_false_iff_not]
  simp only [Db.newCommand]
  omega

section OneCall
variable {s : State}

theorem running_of_claimed (hc : Db.claim s.db s.now w d =
      (some cmd, Db.markCommandRunning s.db s.now w l i))
    (hq : q ∈ (Db.call s.db s.now (.claim w d)).rows) (hid : q.id = i) : q.status = .running := by
  simp only [Db.call, hc, Db.markCommandRunning, Table.mem_update] at hq
  obtain ⟨r, _, rfl⟩ := hq
  by_cases hr : r.id = i
  · simp [hr, Command.markRunning]
  · rw [if_neg (by simpa using hr)] at hid
    exact absurd hid hr

/-- A claim that leaves `x` queued takes a command that was ahead of it. -/
theorem ahead_claim (h : Ordered s) (hx : x ∈ s.db.rows) (hxq : x.status = .queued)
    (hx' : x ∈ (Db.call s.db s.now (.claim w d)).rows) :
    (ahead (Db.call s.db s.now (.claim w d)) x).card + claims s (.call (.claim w d)) ≤
      (ahead s.db x).card := by
  rcases Db.claim_cases s.db s.now w d with ⟨_, hc⟩ | ⟨r, hr, hc⟩
  · simp [Db.call, claims, hc]
  · obtain ⟨hrm, hrq, _⟩ := Db.nextQueued_spec hr
    have hne : r ≠ x := by
      intro he
      have := running_of_claimed hc hx' (by rw [he])
      simp [hxq] at this
    have hmem : r.id ∈ ahead s.db x :=
      mem_ahead.mpr ⟨r, hrm, hrq, before_of_first h.ids hr hx hxq hne, rfl⟩
    have hsub : ahead (Db.call s.db s.now (.claim w d)) x ⊆ (ahead s.db x).erase r.id := by
      intro n hn
      rcases ahead_call hn with ⟨q, hq, hqs, hb, rfl, hget⟩ | ⟨_, hnone, _⟩
      · refine Finset.mem_erase.mpr ⟨fun hid => ?_, mem_ahead.mpr ⟨q, hq, hqs, hb, rfl⟩⟩
        have := running_of_claimed hc (Table.get_eq_some.mp hget).1 hid
        simp [hqs] at this
      · cases hnone
    have hle := Finset.card_le_card hsub
    rw [Finset.card_erase_of_mem hmem] at hle
    have hpos := Finset.card_pos.mpr ⟨r.id, hmem⟩
    simp only [claims, hc, Option.isSome_some, if_true]
    omega

theorem length_brought (h : Ordered s) (hx : x ∈ s.db.rows) :
    (brought x s.db s.now c).length = delays x s (.call c) := by
  cases c with
  | enqueue name body p tr k =>
    have hiff : (Db.newCommand s.now name body p tr k s.db.next).before x = true ↔ p < x.priority :=
      inserted_before h hx
    by_cases hp : p < x.priority
    · simp [brought, Db.inserted, delays, hp, hiff.mpr hp]
    · simp [brought, Db.inserted, delays, hp, Bool.eq_false_iff.mpr (fun hb => hp (hiff.mp hb))]
  | _ => rfl

/-- While `x` stays queued, a call moves it forward by what is claimed and back by what
the call puts ahead of it. -/
theorem ahead_step (h : Ordered s) (hx : x ∈ s.db.rows) (hxq : x.status = .queued)
    (hx' : x ∈ (Db.call s.db s.now c).rows) :
    (ahead (Db.call s.db s.now c) x).card + claims s (.call c) ≤
      (ahead s.db x).card + delays x s (.call c) := by
  cases c with
  | claim w d => exact ahead_claim h hx hxq hx'
  | _ =>
    rw [← length_brought h hx]
    exact ahead_card

end OneCall

theorem total_cons {s t : State} (hstep : step s a = some t) :
    total f s (a :: as) = f s a + total f t as := by
  simp [total, hstep]

theorem ahead_path (h : Path step (StillQueued x) s as t) (ho : Ordered s) (hxq : x.status = .queued)
    (hx : x ∈ t.db.rows) :
    (ahead t.db x).card + total claims s as ≤ (ahead s.db x).card + total (delays x) s as := by
  induction h with
  | nil => simp [total]
  | @cons s a u as t hq hstep hrest ih =>
    have ih := ih (ho.step hstep) hx
    have hu : x ∈ u.db.rows := by
      cases hrest with
      | nil => exact hx
      | cons hq' _ _ => exact hq'
    rw [total_cons hstep, total_cons hstep]
    cases a with
    | advance ns =>
      cases hstep
      simpa [claims, delays] using ih
    | call c =>
      cases hstep
      have := ahead_step ho hq hxq hu
      simp only at ih
      omega

theorem nextQueued_isSome {db : Db} (hx : x ∈ db.rows) (hxq : x.status = .queued) :
    Db.nextQueued db ≠ none := by
  have hne : db.rows.filter (fun r => r.status == .queued) ≠ [] :=
    List.ne_nil_of_mem (List.mem_filter.mpr ⟨hx, by simp [hxq]⟩)
  obtain ⟨r, hr⟩ := head_stableSort_isSome Command.claimOrder hne
  simp [Db.nextQueued, hr]

/-- A queued command is claimed at the latest after the commands that were ahead of it,
the more urgent ones enqueued since, and those of them that sweeps have returned to the
queue; and when none is ahead any more, the next claim takes it. -/
theorem waiting_bounded (hs : Path step Free (start now) bs s)
    (hxq : x.status = .queued) (h : Path step (StillQueued x) s as t) (hx' : x ∈ t.db.rows) :
    total claims s as ≤ (ahead s.db x).card + total (delays x) s as ∧
    (ahead t.db x = ∅ → ∀ w d, (Db.claim t.db t.now w d).1 =
      some (x.markRunning t.now w (sqliteTime (t.now + d)))) := by
  have hord : Ordered s := hs.invariant (fun _ _ _ _ hn ho => ho.step hn) (ordered_start now)
  have hordt : Ordered t := h.invariant (fun _ _ _ _ hn ho => ho.step hn) hord
  refine ⟨by have := ahead_path h hord hxq hx'; omega, fun hnone w d => ?_⟩
  rcases Db.claim_cases t.db t.now w d with ⟨hn, _⟩ | ⟨r, hr, hc⟩
  · exact absurd hn (nextQueued_isSome hx' hxq)
  · by_cases hne : r = x
    · rw [hc, hne]
    · obtain ⟨hrm, hrq, _⟩ := Db.nextQueued_spec hr
      have hmem : r.id ∈ ahead t.db x :=
        mem_ahead.mpr ⟨r, hrm, hrq, before_of_first hordt.ids hr hx' hxq hne, rfl⟩
      simp [hnone] at hmem

/-- Of two commands of one priority, the second waits for the first and for one that is
more urgent. -/
theorem waiting_bounded_two_claims : ∃ x s t,
    exec step (start 0) [.call (.enqueue "First" "" 2 .manual ""),
      .call (.enqueue "Second" "" 2 .manual "")] = some s ∧
    (∃ as, exec step s as = some t ∧ total claims s as = 2 ∧
      total claims s as ≤ (ahead s.db x).card + total (delays x) s as) ∧
    (Db.claim t.db t.now "b" 9).1 = some (x.markRunning t.now "b" (sqliteTime (t.now + 9))) := by
  let x := Db.newCommand 0 "Second" "" 2 .manual "" 2
  let as : List Step := [.call (.claim "a" 9), .call (.enqueue "Urgent" "" 1 .manual ""),
    .call (.claim "a" 9)]
  let s : State := ⟨Db.enqueue (Db.enqueue .empty 0 "First" "" 2 .manual "") 0 "Second" "" 2
    .manual "", 0⟩
  have hs : Path step Free (start 0) [.call (.enqueue "First" "" 2 .manual ""),
      .call (.enqueue "Second" "" 2 .manual "")] s := .of_exec rfl
  have h : Path step (StillQueued x) s as _ :=
    .cons (by decide) rfl (.cons (by decide) rfl (.cons (by decide) rfl .nil))
  have hw := waiting_bounded hs rfl h (by decide)
  exact ⟨x, _, _, rfl, ⟨as, rfl, by decide, hw.1⟩, hw.2 (by decide) "b" 9⟩

end Waiting
end Sonarr.Commands
