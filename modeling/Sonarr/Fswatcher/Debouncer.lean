import Sonarr.Lib.Machine

/-! The debouncer of the file watcher. A timer may expire at any moment after it was armed, and its
callback may wait for the mutex for any time; every moment of a run has a number. -/
namespace Sonarr.Fswatcher
open Lib

/-- How far a call of `Trigger` is, when it was issued and when it returned. It returns as it
unlocks. -/
inductive TriggerCall
  | idle
  | issued (path : String) (issue : Nat)
  | returned (path : String) (issue stop : Nat)

structure Timer where
  path : String
  armed : Bool
  deriving DecidableEq, Repr

/-- How far a callback of an expired timer is. -/
inductive Callback
  | unused
  | waiting (path : String)
  /-- It has unlocked and is about to call `fire`. -/
  | deleted (path : String)
  | fired (path : String)
  deriving DecidableEq, Repr

structure Debouncer where
  moment : Nat
  pending : String → Option Nat
  timers : Nat → Option Timer
  calls : Nat → TriggerCall
  callbacks : Nat → Callback
  /-- The paths fired for, and when each `fire` began. -/
  fires : List (String × Nat)

def newDebouncer : Debouncer where
  moment := 0
  pending _ := none
  timers _ := none
  calls _ := .idle
  callbacks _ := .unused
  fires := []

inductive Action
  | issue (c : Nat) (path : String)
  /-- `Trigger` under the mutex, with the timer to be made if there is none. -/
  | trigger (c t : Nat)
  | expire (t k : Nat)
  /-- The callback under the mutex. -/
  | delete (k : Nat)
  | fire (k : Nat)
  deriving DecidableEq, Repr

namespace Debouncer
variable (d : Debouncer)

def setCall (c : Nat) (call : TriggerCall) : Debouncer :=
  { d with moment := d.moment + 1, calls := Function.update d.calls c call }

/-- `AfterFunc`. -/
def arm (t : Nat) (path : String) : Debouncer :=
  { d with timers := Function.update d.timers t (some ⟨path, true⟩) }

/-- `Reset`, whether or not the timer has expired. -/
def reset (t : Nat) : Debouncer :=
  { d with
    timers := Function.update d.timers t
      ((d.timers t).map (fun timer => { timer with armed := true })) }

def setPending (path : String) (t : Option Nat) : Debouncer :=
  { d with pending := Function.update d.pending path t }

def setCallback (k : Nat) (callback : Callback) : Debouncer :=
  { d with moment := d.moment + 1, callbacks := Function.update d.callbacks k callback }

def expire (t : Nat) (path : String) : Debouncer :=
  { d with timers := Function.update d.timers t (some ⟨path, false⟩) }

def fire (path : String) : Debouncer := { d with fires := (path, d.moment) :: d.fires }

end Debouncer

def step (d : Debouncer) : Action → Option Debouncer
  | .issue c path => match d.calls c with
    | .idle => some (d.setCall c (.issued path d.moment))
    | _ => none
  | .trigger c t => match d.calls c with
    | .issued path issue => match d.pending path with
      | some t' => some ((d.reset t').setCall c (.returned path issue d.moment))
      | none => match d.timers t with
        | none => some (((d.arm t path).setPending path (some t)).setCall c
            (.returned path issue d.moment))
        | some _ => none
    | _ => none
  | .expire t k => match d.timers t, d.callbacks k with
    | some ⟨path, true⟩, .unused => some ((d.expire t path).setCallback k (.waiting path))
    | _, _ => none
  | .delete k => match d.callbacks k with
    | .waiting path => some ((d.setPending path none).setCallback k (.deleted path))
    | _ => none
  | .fire k => match d.callbacks k with
    | .deleted path => some ((d.fire path).setCallback k (.fired path))
    | _ => none

/-- What a step can do. -/
inductive Move (d : Debouncer) : Action → Debouncer → Prop
  | issue (hc : d.calls c = .idle) : Move d (.issue c path) (d.setCall c (.issued path d.moment))
  | reset (hc : d.calls c = .issued path issue) (hpending : d.pending path = some t') :
      Move d (.trigger c t) ((d.reset t').setCall c (.returned path issue d.moment))
  | arm (hc : d.calls c = .issued path issue) (hpending : d.pending path = none)
      (ht : d.timers t = none) :
      Move d (.trigger c t) (((d.arm t path).setPending path (some t)).setCall c
        (.returned path issue d.moment))
  | expire (ht : d.timers t = some ⟨path, true⟩) (hk : d.callbacks k = .unused) :
      Move d (.expire t k) ((d.expire t path).setCallback k (.waiting path))
  | delete (hk : d.callbacks k = .waiting path) :
      Move d (.delete k) ((d.setPending path none).setCallback k (.deleted path))
  | fire (hk : d.callbacks k = .deleted path) :
      Move d (.fire k) ((d.fire path).setCallback k (.fired path))

theorem step_move (h : step d a = some d') : Move d a d' := by
  cases a with
  | issue c path =>
    simp only [step] at h
    split at h <;> cases h
    exact .issue ‹_›
  | trigger c t =>
    simp only [step] at h
    split at h
    · split at h
      · cases h
        exact .reset ‹_› ‹_›
      · split at h <;> cases h
        exact .arm ‹_› ‹_› ‹_›
    · cases h
  | expire t k =>
    simp only [step] at h
    split at h <;> cases h
    exact .expire ‹_› ‹_›
  | delete k =>
    simp only [step] at h
    split at h <;> cases h
    exact .delete ‹_›
  | fire k =>
    simp only [step] at h
    split at h <;> cases h
    exact .fire ‹_›

def TriggerCall.issue : TriggerCall → Option (String × Nat)
  | .idle => none
  | .issued path issue | .returned path issue _ => some (path, issue)

/-- A callback of the path has not fired yet. -/
def Callback.Live (callback : Callback) (path : String) : Prop :=
  callback = .waiting path ∨ callback = .deleted path

@[simp] theorem Callback.live_unused : ¬ Callback.unused.Live path := by simp [Live]
@[simp] theorem Callback.live_waiting : (Callback.waiting path).Live q ↔ path = q := by simp [Live]
@[simp] theorem Callback.live_deleted : (Callback.deleted path).Live q ↔ path = q := by simp [Live]
@[simp] theorem Callback.live_fired : ¬ (Callback.fired path).Live q := by simp [Live]

/-- A timer or a callback is to come. -/
def Debouncer.Due (d : Debouncer) (path : String) : Prop :=
  (∃ t, d.timers t = some ⟨path, true⟩) ∨ ∃ k, (d.callbacks k).Live path

/-- Every `fire` is preceded by a `Trigger` that was issued after the last `fire` of the path had
begun. -/
def Coalesced (d : Debouncer) : Prop :=
  ∀ path n, (path, n) ∈ d.fires →
    ∃ c issue, (d.calls c).issue = some (path, issue) ∧ issue < n ∧
      ∀ m, (path, m) ∈ d.fires → m < n → m < issue

/-- After a `Trigger` has returned something is to come until the next `fire` of the path. -/
def StaysDue (d : Debouncer) : Prop :=
  ∀ c path issue stop, d.calls c = .returned path issue stop →
    (∀ n, (path, n) ∈ d.fires → ¬ stop < n) → d.Due path

/-- A `Trigger` gets the mutex only while no callback of its path is to come and before a `fire`
that began after it was issued. -/
def Undisturbed (d : Debouncer) : Action → Prop
  | .trigger c _ => ∀ path issue, d.calls c = .issued path issue →
      (∀ k, ¬ (d.callbacks k).Live path) ∧ ∀ n, (path, n) ∈ d.fires → n < issue
  | _ => True

/-- What is in the map is a timer of the path, and after each `Trigger` something is to come or
has fired. -/
structure Watched (d : Debouncer) : Prop where
  pending : ∀ path t, d.pending path = some t → ∃ armed, d.timers t = some ⟨path, armed⟩
  due : StaysDue d
  stopped : ∀ c path issue stop, d.calls c = .returned path issue stop → stop < d.moment

theorem watched_new : Watched newDebouncer where
  pending := by simp [newDebouncer]
  due := by simp [StaysDue, newDebouncer]
  stopped := by simp [newDebouncer]

section Timers
variable {d d' : Debouncer} {path other : String}

theorem Debouncer.Due.mono (h : d.Due path)
    (htimers : ∀ t, d.timers t = some ⟨path, true⟩ → d'.timers t = some ⟨path, true⟩)
    (hcallbacks : ∀ k, (d.callbacks k).Live path → (d'.callbacks k).Live path) : d'.Due path := by
  rcases h with ⟨t, ht⟩ | ⟨k, hk⟩
  · exact .inl ⟨t, htimers t ht⟩
  · exact .inr ⟨k, hcallbacks k hk⟩

/-- Arming a timer of the path it has, or a new one, makes no other one go. -/
theorem timers_armed {t : Nat} (hfree : ∀ q armed, d.timers t = some ⟨q, armed⟩ → q = path)
    (u : Nat) (hu : d.timers u = some ⟨other, true⟩) :
    Function.update d.timers t (some ⟨path, true⟩) u = some ⟨other, true⟩ := by
  by_cases hut : u = t
  · subst hut
    rw [Function.update_self, hfree other true hu]
  · rw [Function.update_of_ne hut, hu]

theorem pending_armed {t : Nat} (hfree : ∀ q armed, d.timers t = some ⟨q, armed⟩ → q = path)
    (hu : ∃ armed, d.timers u = some ⟨other, armed⟩) :
    ∃ armed, Function.update d.timers t (some ⟨path, true⟩) u = some ⟨other, armed⟩ := by
  obtain ⟨armed, hu⟩ := hu
  by_cases hut : u = t
  · subst hut
    rw [Function.update_self, hfree other armed hu]
    exact ⟨true, rfl⟩
  · rw [Function.update_of_ne hut, hu]
    exact ⟨armed, rfl⟩

/-- Another callback than the one that moves stays as it is. -/
theorem live_update {callbacks : Nat → Callback} (hold : callbacks k = old)
    (hnew : old.Live path → callback.Live path) (hj : (callbacks j).Live path) :
    (Function.update callbacks k callback j).Live path := by
  by_cases hjk : j = k
  · subst hjk
    rw [hold] at hj
    rw [Function.update_self]
    exact hnew hj
  · rwa [Function.update_of_ne hjk]

theorem live_of_update {callbacks : Nat → Callback}
    (hj : (Function.update callbacks k callback j).Live path) :
    j = k ∧ callback.Live path ∨ j ≠ k ∧ (callbacks j).Live path := by
  by_cases hjk : j = k
  · subst hjk
    exact .inl ⟨rfl, by rwa [Function.update_self] at hj⟩
  · exact .inr ⟨hjk, by rwa [Function.update_of_ne hjk] at hj⟩

/-- A timer that has expired is not the one that is armed. -/
theorem ne_of_armed (hu : Function.update d.timers t (some ⟨path, false⟩) u = some ⟨other, true⟩) :
    u ≠ t ∧ d.timers u = some ⟨other, true⟩ := by
  by_cases hut : u = t
  · subst hut
    simp at hu
  · exact ⟨hut, by rwa [Function.update_of_ne hut] at hu⟩

end Timers

namespace Watched
variable {d : Debouncer}

theorem issued (h : Watched d) (c : Nat) (path : String) :
    Watched (d.setCall c (.issued path d.moment)) where
  pending := h.pending
  due := by
    intro c' q issue stop hc' hnone
    have hne : c' ≠ c := by
      intro heq
      subst heq
      simp [Debouncer.setCall] at hc'
    simp only [Debouncer.setCall, Function.update_of_ne hne] at hc'
    exact h.due c' q issue stop hc' hnone
  stopped := by
    intro c' q issue stop hc'
    have hne : c' ≠ c := by
      intro heq
      subst heq
      simp [Debouncer.setCall] at hc'
    simp only [Debouncer.setCall, Function.update_of_ne hne] at hc'
    exact Nat.lt_succ_of_lt (h.stopped c' q issue stop hc')

/-- A timer of the path is armed, and the call returns. -/
theorem armed (h : Watched d) {pending : String → Option Nat}
    (hfree : ∀ q armed, d.timers t = some ⟨q, armed⟩ → q = path)
    (hpath : pending path = some t) (hothers : ∀ q, q ≠ path → pending q = d.pending q) :
    Watched (({ d with
      timers := Function.update d.timers t (some ⟨path, true⟩), pending } : Debouncer).setCall c
        (.returned path issue d.moment)) where
  pending := by
    intro q u hu
    by_cases hq : q = path
    · subst hq
      cases hpath.symm.trans hu
      exact ⟨true, Function.update_self ..⟩
    · exact pending_armed hfree (h.pending q u ((hothers q hq).symm.trans hu))
  due := by
    intro c' q issue' stop hc' hnone
    by_cases hcc : c' = c
    · simp only [Debouncer.setCall, hcc, Function.update_self, TriggerCall.returned.injEq] at hc'
      obtain ⟨rfl, _, _⟩ := hc'
      exact .inl ⟨t, Function.update_self ..⟩
    · simp only [Debouncer.setCall, Function.update_of_ne hcc] at hc'
      exact (h.due c' q issue' stop hc' hnone).mono (timers_armed hfree) (fun _ hk => hk)
  stopped := by
    intro c' q issue' stop hc'
    by_cases hcc : c' = c
    · simp only [Debouncer.setCall, hcc, Function.update_self, TriggerCall.returned.injEq] at hc'
      obtain ⟨_, _, rfl⟩ := hc'
      exact Nat.lt_succ_self _
    · simp only [Debouncer.setCall, Function.update_of_ne hcc] at hc'
      exact Nat.lt_succ_of_lt (h.stopped c' q issue' stop hc')

theorem expire (h : Watched d) (ht : d.timers t = some ⟨path, true⟩)
    (hk : d.callbacks k = .unused) :
    Watched ((d.expire t path).setCallback k (.waiting path)) where
  pending := by
    intro q u hu
    obtain ⟨armed, htimer⟩ := h.pending q u hu
    by_cases hut : u = t
    · subst hut
      cases htimer.symm.trans ht
      exact ⟨false, Function.update_self ..⟩
    · exact ⟨armed, (Function.update_of_ne hut ..).trans htimer⟩
  due := by
    intro c q issue stop hc hnone
    by_cases hq : q = path
    · subst hq
      exact .inr ⟨k, .inl (Function.update_self ..)⟩
    · refine (h.due c q issue stop hc hnone).mono ?_ ?_
      · intro u hu
        have hut : u ≠ t := by
          intro heq
          subst heq
          cases hu.symm.trans ht
          exact hq rfl
        exact (Function.update_of_ne hut ..).trans hu
      · intro j hj
        exact live_update hk (by simp) hj
  stopped := fun c q issue stop hc => Nat.lt_succ_of_lt (h.stopped c q issue stop hc)

theorem delete (h : Watched d) (hk : d.callbacks k = .waiting path) :
    Watched ((d.setPending path none).setCallback k (.deleted path)) where
  pending := by
    intro q u hu
    by_cases hq : q = path
    · simp [Debouncer.setCallback, Debouncer.setPending, hq] at hu
    · simp only [Debouncer.setCallback, Debouncer.setPending, Function.update_of_ne hq] at hu
      exact h.pending q u hu
  due := by
    intro c q issue stop hc hnone
    refine (h.due c q issue stop hc hnone).mono (fun _ ht => ht) ?_
    intro j hj
    exact live_update hk (by simp) hj
  stopped := fun c q issue stop hc => Nat.lt_succ_of_lt (h.stopped c q issue stop hc)

theorem fire (h : Watched d) (hk : d.callbacks k = .deleted path) :
    Watched ((d.fire path).setCallback k (.fired path)) where
  pending := h.pending
  due := by
    intro c q issue stop hc hnone
    by_cases hq : q = path
    · -- the path is fired for after the call has returned
      subst hq
      exact absurd (h.stopped c q issue stop hc) (hnone d.moment List.mem_cons_self)
    · have hbefore := h.due c q issue stop hc (fun n hn => hnone n (List.mem_cons_of_mem _ hn))
      refine hbefore.mono (fun _ ht => ht) ?_
      intro j hj
      refine live_update hk ?_ hj
      intro hlive
      exact absurd (Callback.live_deleted.mp hlive).symm hq
  stopped := fun c q issue stop hc => Nat.lt_succ_of_lt (h.stopped c q issue stop hc)

/-- The timer in the map is armed again. -/
theorem reset_eq (h : Watched d) (hpending : d.pending path = some t) :
    d.reset t = { d with timers := Function.update d.timers t (some ⟨path, true⟩) } ∧
      ∀ q armed, d.timers t = some ⟨q, armed⟩ → q = path := by
  obtain ⟨armed, htimer⟩ := h.pending path t hpending
  constructor
  · simp [Debouncer.reset, htimer]
  · intro q armed' hq
    cases hq.symm.trans htimer
    rfl

theorem move (h : Watched d) (hmove : Move d a d') : Watched d' := by
  cases hmove with
  | issue hc => exact h.issued _ _
  | reset hc hpending =>
    obtain ⟨hreset, hfree⟩ := h.reset_eq hpending
    rw [hreset]
    exact h.armed hfree hpending (fun _ _ => rfl)
  | arm hc hpending ht =>
    apply h.armed
    · intro q armed hq
      cases hq.symm.trans ht
    · exact Function.update_self ..
    · intro q hq
      exact Function.update_of_ne hq ..
  | expire ht hk => exact h.expire ht hk
  | delete hk => exact h.delete hk
  | fire hk => exact h.fire hk

end Watched

/-- While no `Trigger` is disturbed, one timer or one callback of a path is to come at most, and
only for a `Trigger` that no `fire` has followed. -/
structure Single (d : Debouncer) : Prop where
  armed : ∀ path t, d.timers t = some ⟨path, true⟩ → d.pending path = some t
  quiet : ∀ path t, d.timers t = some ⟨path, true⟩ → ∀ k, ¬ (d.callbacks k).Live path
  one : ∀ path k j, (d.callbacks k).Live path → (d.callbacks j).Live path → k = j
  owed : ∀ path, d.Due path → ∃ c issue, (d.calls c).issue = some (path, issue) ∧
    ∀ m, (path, m) ∈ d.fires → m < issue
  issued : ∀ c path issue, (d.calls c).issue = some (path, issue) → issue < d.moment
  fired : ∀ path n, (path, n) ∈ d.fires → n < d.moment
  coalesced : Coalesced d

theorem single_new : Single newDebouncer where
  armed := by simp [newDebouncer]
  quiet := by simp [newDebouncer]
  one := by simp [newDebouncer, Callback.Live]
  owed := by simp [newDebouncer, Debouncer.Due, Callback.Live]
  issued := by simp [newDebouncer, TriggerCall.issue]
  fired := by simp [newDebouncer]
  coalesced := by simp [newDebouncer, Coalesced]

/-- Who triggered is remembered. -/
theorem Coalesced.mono (h : Coalesced d) (hfires : d'.fires = d.fires)
    (hcalls : ∀ c x, (d.calls c).issue = some x → (d'.calls c).issue = some x) : Coalesced d' := by
  intro path n hn
  rw [hfires] at hn ⊢
  obtain ⟨c, issue, hc, hlt, hlast⟩ := h path n hn
  exact ⟨c, issue, hcalls c _ hc, hlt, hlast⟩

namespace Single
variable {d : Debouncer}

theorem setCall (h : Single d) {call : TriggerCall}
    (hsame : ∀ x, (d.calls c).issue = some x → call.issue = some x)
    (hissue : ∀ path issue, call.issue = some (path, issue) → issue ≤ d.moment) :
    Single (d.setCall c call) := by
  have hcalls : ∀ c' x, (d.calls c').issue = some x →
      ((d.setCall c call).calls c').issue = some x := by
    intro c' x hx
    by_cases hcc : c' = c
    · subst hcc
      simp only [Debouncer.setCall, Function.update_self]
      exact hsame x hx
    · simpa only [Debouncer.setCall, Function.update_of_ne hcc] using hx
  exact {
    armed := h.armed
    quiet := h.quiet
    one := h.one
    owed := by
      intro path hdue
      obtain ⟨c', issue, hc', hlast⟩ := h.owed path hdue
      exact ⟨c', issue, hcalls c' _ hc', hlast⟩
    issued := by
      intro c' path issue hc'
      by_cases hcc : c' = c
      · simp only [Debouncer.setCall, hcc, Function.update_self] at hc'
        exact Nat.lt_succ_of_le (hissue path issue hc')
      · simp only [Debouncer.setCall, Function.update_of_ne hcc] at hc'
        exact Nat.lt_succ_of_lt (h.issued c' path issue hc')
    fired := fun path n hn => Nat.lt_succ_of_lt (h.fired path n hn)
    coalesced := h.coalesced.mono rfl hcalls }

/-- A timer of the path is armed while nothing else of it is to come. -/
theorem arm (h : Single d) {pending : String → Option Nat}
    (honly : ∀ u, d.pending path = some u → u = t)
    (hpath : pending path = some t) (hothers : ∀ q, q ≠ path → pending q = d.pending q)
    (hquiet : ∀ k, ¬ (d.callbacks k).Live path)
    (howed : ∃ c issue, (d.calls c).issue = some (path, issue) ∧
      ∀ m, (path, m) ∈ d.fires → m < issue) :
    Single { d with timers := Function.update d.timers t (some ⟨path, true⟩), pending } := by
  have htimers : ∀ u q, Function.update d.timers t (some ⟨path, true⟩) u = some ⟨q, true⟩ →
      u = t ∧ q = path ∨ q ≠ path ∧ d.timers u = some ⟨q, true⟩ := by
    intro u q hu
    by_cases hut : u = t
    · subst hut
      simp only [Function.update_self, Option.some.injEq, Timer.mk.injEq, and_true] at hu
      exact .inl ⟨rfl, hu.symm⟩
    · rw [Function.update_of_ne hut] at hu
      refine .inr ⟨?_, hu⟩
      intro hq
      subst hq
      exact hut (honly u (h.armed q u hu))
  exact {
    armed := by
      intro q u hu
      rcases htimers u q hu with ⟨rfl, rfl⟩ | ⟨hq, hu⟩
      · exact hpath
      · exact (hothers q hq).trans (h.armed q u hu)
    quiet := by
      intro q u hu
      rcases htimers u q hu with ⟨rfl, rfl⟩ | ⟨hq, hu⟩
      · exact hquiet
      · exact h.quiet q u hu
    one := h.one
    owed := by
      intro q hdue
      by_cases hq : q = path
      · subst hq
        exact howed
      · rcases hdue with ⟨u, hu⟩ | hlive
        · rcases htimers u q hu with ⟨_, hqp⟩ | ⟨_, hu⟩
          · exact absurd hqp hq
          · exact h.owed q (.inl ⟨u, hu⟩)
        · exact h.owed q (.inr hlive)
    issued := h.issued
    fired := h.fired
    coalesced := h.coalesced }

theorem expire (h : Single d) (ht : d.timers t = some ⟨path, true⟩) :
    Single ((d.expire t path).setCallback k (.waiting path)) where
  armed := fun q u hu => h.armed q u (ne_of_armed hu).2
  quiet := by
    intro q u hu j hj
    obtain ⟨hut, hu⟩ := ne_of_armed hu
    rcases live_of_update hj with ⟨_, hlive⟩ | ⟨_, hlive⟩
    · -- the map holds one timer of the path
      cases Callback.live_waiting.mp hlive
      exact hut (Option.some.inj ((h.armed path u hu).symm.trans (h.armed path t ht)))
    · exact h.quiet q u hu j hlive
  one := by
    intro q i j hi hj
    rcases live_of_update hi with ⟨hik, hlive⟩ | ⟨_, hlive⟩ <;>
      rcases live_of_update hj with ⟨hjk, hlive'⟩ | ⟨_, hlive'⟩
    · exact hik.trans hjk.symm
    · cases Callback.live_waiting.mp hlive
      exact absurd hlive' (h.quiet path t ht j)
    · cases Callback.live_waiting.mp hlive'
      exact absurd hlive (h.quiet path t ht i)
    · exact h.one q i j hlive hlive'
  owed := by
    intro q hdue
    apply h.owed q
    rcases hdue with ⟨u, hu⟩ | ⟨j, hj⟩
    · exact .inl ⟨u, (ne_of_armed hu).2⟩
    · rcases live_of_update hj with ⟨_, hlive⟩ | ⟨_, hlive⟩
      · cases Callback.live_waiting.mp hlive
        exact .inl ⟨t, ht⟩
      · exact .inr ⟨j, hlive⟩
  issued := fun c q issue hc => Nat.lt_succ_of_lt (h.issued c q issue hc)
  fired := fun q n hn => Nat.lt_succ_of_lt (h.fired q n hn)
  coalesced := h.coalesced.mono rfl (fun _ _ hx => hx)

theorem delete (h : Single d) (hk : d.callbacks k = .waiting path) :
    Single ((d.setPending path none).setCallback k (.deleted path)) := by
  have hlive : (d.callbacks k).Live path := by simp [hk]
  have hbefore : ∀ q j, (Function.update d.callbacks k (.deleted path) j).Live q →
      (d.callbacks j).Live q := by
    intro q j hj
    rcases live_of_update hj with ⟨rfl, hq⟩ | ⟨_, hj⟩
    · cases Callback.live_deleted.mp hq
      exact hlive
    · exact hj
  exact {
    armed := by
      intro q u hu
      have hq : q ≠ path := by
        intro heq
        subst heq
        exact h.quiet q u hu k hlive
      exact (Function.update_of_ne hq ..).trans (h.armed q u hu)
    quiet := fun q u hu j hj => h.quiet q u hu j (hbefore q j hj)
    one := fun q i j hi hj => h.one q i j (hbefore q i hi) (hbefore q j hj)
    owed := fun q hdue => h.owed q (hdue.imp id (fun ⟨j, hj⟩ => ⟨j, hbefore q j hj⟩))
    issued := fun c q issue hc => Nat.lt_succ_of_lt (h.issued c q issue hc)
    fired := fun q n hn => Nat.lt_succ_of_lt (h.fired q n hn)
    coalesced := h.coalesced.mono rfl (fun _ _ hx => hx) }

theorem fire (h : Single d) (hk : d.callbacks k = .deleted path) :
    Single ((d.fire path).setCallback k (.fired path)) := by
  have hlive : (d.callbacks k).Live path := by simp [hk]
  have hbefore : ∀ q j, (Function.update d.callbacks k (.fired path) j).Live q →
      j ≠ k ∧ (d.callbacks j).Live q := by
    intro q j hj
    rcases live_of_update hj with ⟨_, hq⟩ | hj
    · exact absurd hq Callback.live_fired
    · exact hj
  exact {
    armed := h.armed
    quiet := fun q u hu j hj => h.quiet q u hu j (hbefore q j hj).2
    one := fun q i j hi hj => h.one q i j (hbefore q i hi).2 (hbefore q j hj).2
    owed := by
      intro q hdue
      have hq : q ≠ path := by
        -- what fires was all that was to come
        intro heq
        subst heq
        rcases hdue with ⟨u, hu⟩ | ⟨j, hj⟩
        · exact h.quiet q u hu k hlive
        · obtain ⟨hjk, hj⟩ := hbefore q j hj
          exact hjk (h.one q j k hj hlive)
      obtain ⟨c, issue, hc, hlast⟩ := h.owed q (hdue.imp id (fun ⟨j, hj⟩ => ⟨j, (hbefore q j hj).2⟩))
      refine ⟨c, issue, hc, ?_⟩
      intro m hm
      rcases List.mem_cons.mp hm with heq | hm
      · cases heq
        exact absurd rfl hq
      · exact hlast m hm
    issued := fun c q issue hc => Nat.lt_succ_of_lt (h.issued c q issue hc)
    fired := by
      intro q n hn
      rcases List.mem_cons.mp hn with heq | hn
      · cases heq
        exact Nat.lt_succ_self _
      · exact Nat.lt_succ_of_lt (h.fired q n hn)
    coalesced := by
      intro q n hn
      rcases List.mem_cons.mp hn with heq | hn
      · cases heq
        obtain ⟨c, issue, hc, hlast⟩ := h.owed path (.inr ⟨k, hlive⟩)
        refine ⟨c, issue, hc, h.issued c path issue hc, ?_⟩
        intro m hm hlt
        rcases List.mem_cons.mp hm with heq | hm
        · cases heq
          exact absurd hlt (Nat.lt_irrefl _)
        · exact hlast m hm
      · obtain ⟨c, issue, hc, hlt, hlast⟩ := h.coalesced q n hn
        refine ⟨c, issue, hc, hlt, ?_⟩
        intro m hm hmn
        rcases List.mem_cons.mp hm with heq | hm
        · cases heq
          exact absurd (Nat.lt_trans hmn (h.fired path n hn)) (Nat.lt_irrefl _)
        · exact hlast m hm hmn }

/-- An undisturbed `Trigger` arms the path's only timer. -/
theorem returned (h : Single d) {pending : String → Option Nat}
    (hc : d.calls c = .issued path issue)
    (hguard : ∀ path issue, d.calls c = .issued path issue →
      (∀ k, ¬ (d.callbacks k).Live path) ∧ ∀ n, (path, n) ∈ d.fires → n < issue)
    (honly : ∀ u, d.pending path = some u → u = t)
    (hpath : pending path = some t) (hothers : ∀ q, q ≠ path → pending q = d.pending q) :
    Single (({ d with
      timers := Function.update d.timers t (some ⟨path, true⟩), pending } : Debouncer).setCall c
        (.returned path issue d.moment)) := by
  obtain ⟨hquiet, hlast⟩ := hguard path issue hc
  have hissue : (d.calls c).issue = some (path, issue) := by rw [hc, TriggerCall.issue]
  refine (h.arm honly hpath hothers hquiet ⟨c, issue, hissue, hlast⟩).setCall ?_ ?_
  · intro x hx
    exact hissue.symm.trans hx
  · intro q issue' hq
    exact Nat.le_of_lt (h.issued c q issue' (hissue.trans hq))

theorem move (h : Single d) (hw : Watched d) (hguard : Undisturbed d a) (hmove : Move d a d') :
    Single d' := by
  cases hmove with
  | issue hc =>
    apply h.setCall
    · simp [hc, TriggerCall.issue]
    · intro q issue hq
      cases hq
      exact Nat.le_refl _
  | reset hc hpending =>
    rw [(hw.reset_eq hpending).1]
    refine h.returned hc hguard ?_ hpending (fun _ _ => rfl)
    intro u hu
    exact Option.some.inj (hu.symm.trans hpending)
  | arm hc hpending ht =>
    apply h.returned hc hguard
    · intro u hu
      cases hu.symm.trans hpending
    · exact Function.update_self ..
    · intro q hq
      exact Function.update_of_ne hq ..
  | expire ht hk => exact h.expire ht
  | delete hk => exact h.delete hk
  | fire hk => exact h.fire hk

end Single

/-- Whatever the order of the steps, a path that was triggered stays due until it is fired for. -/
theorem watched_of_path {guard : Debouncer → Action → Prop}
    (h : Path step guard newDebouncer as d) : Watched d :=
  Path.invariant (fun _ _ _ _ hstep hw => hw.move (step_move hstep)) h watched_new

theorem single_of_path (h : Path step Undisturbed newDebouncer as d) : Single d := by
  have hboth : Watched d ∧ Single d := by
    refine Path.invariant (P := fun d => Watched d ∧ Single d) ?_ h ⟨watched_new, single_new⟩
    intro s a t hguard hstep hs
    exact ⟨hs.1.move (step_move hstep), hs.2.move hs.1 hguard (step_move hstep)⟩
  exact hboth.2

/-- Along every run in which no `Trigger` is disturbed each `fire` answers a `Trigger` of its own,
and a triggered path stays due until it is fired for. -/
theorem debouncing_coalesces (h : Path step Undisturbed newDebouncer as d) :
    Coalesced d ∧ StaysDue d :=
  ⟨(single_of_path h).coalesced, (watched_of_path h).due⟩

/-- Two writes in a burst. -/
def burst : List Action :=
  [.issue 0 "/tv", .trigger 0 0, .issue 1 "/tv", .trigger 1 1, .expire 0 0, .delete 0, .fire 0]

theorem burst_coalesced : ∃ d, Path step Undisturbed newDebouncer burst d ∧
    d.fires = [("/tv", 6)] ∧ Coalesced d ∧ StaysDue d := by
  have hrun : ∃ d, Path step Undisturbed newDebouncer burst d ∧ d.fires = [("/tv", 6)] := by
    refine ⟨_, .cons trivial rfl (.cons ?_ rfl (.cons trivial rfl (.cons ?_ rfl (.cons trivial rfl
      (.cons trivial rfl (.cons trivial rfl .nil)))))), rfl⟩
    all_goals exact fun _ _ _ => ⟨fun _ => Callback.live_unused, fun _ => List.not_mem_nil.elim⟩
  obtain ⟨d, hpath, hfires⟩ := hrun
  exact ⟨d, hpath, hfires, debouncing_coalesces hpath⟩

/-- The second `Trigger` resets the expired timer whose callback still waits, and both callbacks
fire for it. -/
theorem fired_twice : ∃ d, exec step newDebouncer
    [.issue 0 "/tv", .trigger 0 0, .expire 0 0, .issue 1 "/tv", .trigger 1 1, .delete 0, .fire 0,
      .expire 0 1, .delete 1, .fire 1] = some d ∧ ¬ Coalesced d := by
  refine ⟨_, rfl, ?_⟩
  intro h
  obtain ⟨c, issue, hc, _, hlast⟩ := h "/tv" 9 List.mem_cons_self
  have hafter : 6 < issue := hlast 6 (List.mem_cons_of_mem _ List.mem_cons_self) (by decide)
  -- the calls were issued at 0 and at 3
  by_cases h1 : c = 1
  · subst h1
    cases hc
    exact absurd hafter (by decide)
  · by_cases h0 : c = 0
    · subst h0
      cases hc
      exact absurd hafter (by decide)
    · simp [Debouncer.setCall, Debouncer.setCallback, Debouncer.fire, Debouncer.expire,
        Debouncer.setPending, Debouncer.reset, Debouncer.arm, newDebouncer, h0, h1,
        TriggerCall.issue] at hc

end Sonarr.Fswatcher
