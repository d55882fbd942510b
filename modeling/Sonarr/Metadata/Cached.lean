import Sonarr.Lib.Machine
import Sonarr.Lib.Text

/-! The caching decorator of a metadata source, as many callers use it at once. Every moment of a
run has a number, which only the statements look at. -/
namespace Sonarr.Cached
open Lib

inductive Request
  | series (tvdbID : Int)
  | episodes (tvdbID : Int)
  | search (query : String)
  deriving DecidableEq, Repr

def Request.key : Request → String
  | .series tvdbID => "series:" ++ Text.decimal tvdbID
  | .episodes tvdbID => "episodes:" ++ Text.decimal tvdbID
  | .search query => "search:" ++ query

/-- The series that a request is about. -/
def Request.tvdbID : Request → Option Int
  | .series tvdbID => some tvdbID
  | .episodes tvdbID => some tvdbID
  | .search _ => none

/-- Times to live in nanoseconds. -/
structure Options where
  seriesTTL : Int
  episodesTTL : Int
  searchTTL : Int
  deriving DecidableEq, Repr

def hour : Int := 3600000000000

def Options.withDefaults (o : Options) : Options where
  seriesTTL := if o.seriesTTL = 0 then 24 * hour else o.seriesTTL
  episodesTTL := if o.episodesTTL = 0 then 6 * hour else o.episodesTTL
  searchTTL := if o.searchTTL = 0 then hour else o.searchTTL

def Options.ttl (o : Options) : Request → Int
  | .series _ => o.seriesTTL
  | .episodes _ => o.episodesTTL
  | .search _ => o.searchTTL

variable {α : Type}

/-- A value and the moment at which the inner source produced it. -/
structure Produced (α : Type) where
  value : α
  moment : Nat
  deriving DecidableEq, Repr

structure CacheEntry (α : Type) where
  value : Produced α
  expiresAt : Int
  deriving DecidableEq, Repr

/-- How far a call of `GetSeries`, `GetEpisodes` or `SearchSeries` is, and when it started. -/
inductive Call (α : Type)
  | idle
  | started (r : Request) (start : Nat)
  | missed (r : Request) (start : Nat)
  | fetched (r : Request) (start : Nat) (v : Produced α)
  | returned (r : Request) (start : Nat) (result : Except String (Produced α))

/-- How far a call of `Invalidate` is, when it started and when it returned. -/
inductive Invalidation
  | idle
  | started (tvdbID : Int) (start : Nat)
  | deleted (tvdbID : Int) (start : Nat)
  | returned (tvdbID : Int) (start stop : Nat)

structure State (α : Type) where
  moment : Nat
  clock : Int
  cache : String → Option (CacheEntry α)
  calls : Nat → Call α
  invalidations : Nat → Invalidation
  /-- The clock as a sweep read it that waits for the lock. -/
  sweeping : Option Int

/-- `New`. -/
def new : State α where
  moment := 0
  clock := 0
  cache _ := none
  calls _ := .idle
  invalidations _ := .idle
  sweeping := none

inductive Action (α : Type)
  | call (c : Nat) (r : Request)
  | get (c : Nat)
  /-- The inner source produces a value, or fails. -/
  | produce (c : Nat) (answer : Except String α)
  | set (c : Nat)
  | invalidate (i : Nat) (tvdbID : Int)
  | delete (i : Nat)
  | invalidated (i : Nat)
  | readClock
  | sweep
  | advance (d : Nat)

namespace State
variable (s : State α)

/-- The entry of a key, unless it has expired. -/
def lookup (key : String) : Option (CacheEntry α) :=
  (s.cache key).filter (fun e => !decide (e.expiresAt < s.clock))

def tick : State α := { s with moment := s.moment + 1 }

def setCall (c : Nat) (call : Call α) : State α :=
  { s.tick with calls := Function.update s.calls c call }

def setInvalidation (i : Nat) (inv : Invalidation) : State α :=
  { s.tick with invalidations := Function.update s.invalidations i inv }

/-- `delete` of both entries of a series. -/
def forget (tvdbID : Int) : State α :=
  { s with
    cache := Function.update (Function.update s.cache (Request.series tvdbID).key none)
      (Request.episodes tvdbID).key none }

def store (key : String) (e : CacheEntry α) : State α :=
  { s with cache := Function.update s.cache key (some e) }

/-- What had not expired at a reading of the clock stays. -/
def purge (now : Int) : State α :=
  { s with cache := fun key => (s.cache key).filter (fun e => !decide (e.expiresAt < now)) }

end State

/-- One critical section of the code or one answer of the inner source. -/
def step (o : Options) (s : State α) : Action α → Option (State α)
  | .call c r => match s.calls c with
    | .idle => some (s.setCall c (.started r s.moment))
    | _ => none
  | .get c => match s.calls c with
    | .started r start => match s.lookup r.key with
      | some e => some (s.setCall c (.returned r start (.ok e.value)))
      | none => some (s.setCall c (.missed r start))
    | _ => none
  | .produce c answer => match s.calls c, answer with
    | .missed r start, .ok v => some (s.setCall c (.fetched r start ⟨v, s.moment⟩))
    | .missed r start, .error e => some (s.setCall c (.returned r start (.error e)))
    | _, _ => none
  | .set c => match s.calls c with
    | .fetched r start v =>
      some ((s.store r.key ⟨v, s.clock + o.ttl r⟩).setCall c (.returned r start (.ok v)))
    | _ => none
  | .invalidate i tvdbID => match s.invalidations i with
    | .idle => some (s.setInvalidation i (.started tvdbID s.moment))
    | _ => none
  | .delete i => match s.invalidations i with
    | .started tvdbID start => some ((s.forget tvdbID).setInvalidation i (.deleted tvdbID start))
    | _ => none
  | .invalidated i => match s.invalidations i with
    | .deleted tvdbID start => some (s.setInvalidation i (.returned tvdbID start s.moment))
    | _ => none
  | .readClock => match s.sweeping with
    | none => some { s.tick with sweeping := some s.clock }
    | some _ => none
  | .sweep => match s.sweeping with
    | some now => some { (s.purge now).tick with sweeping := none }
    | none => none
  | .advance d => some { s.tick with clock := s.clock + d }

/-- No call that started after an `Invalidate` had returned got a value of the series that was
produced before that `Invalidate` started. -/
def Effective (s : State α) : Prop :=
  ∀ c r start v, s.calls c = .returned r start (.ok v) →
    ∀ i tvdbID begun stop, s.invalidations i = .returned tvdbID begun stop →
      r.tvdbID = some tvdbID → stop < start → ¬ v.moment < begun

/-- The invalidation has taken the entries of the series away. -/
def Deleted (s : State α) (i : Nat) (tvdbID : Int) (begun : Nat) : Prop :=
  s.invalidations i = .deleted tvdbID begun ∨
    ∃ stop, s.invalidations i = .returned tvdbID begun stop

/-- No invalidation that took the entries away had started after the value was produced. -/
def Current (s : State α) (r : Request) (v : Produced α) : Prop :=
  ∀ i tvdbID begun, r.tvdbID = some tvdbID → Deleted s i tvdbID begun → ¬ v.moment < begun

/-- A value is stored only while it is current. -/
def StoresCurrent (s : State α) : Action α → Prop
  | .set c => ∀ r start v, s.calls c = .fetched r start v → Current s r v
  | _ => True

section Keys

theorem key_injective {r r' : Request} (h : r.key = r'.key) : r = r' := by
  have hlist := congrArg String.toList h
  cases r with
  | series a => cases r' with
    | series b =>
      simp only [Request.key, String.toList_append, List.append_cancel_left_eq] at hlist
      rw [Text.decimal_injective (String.toList_injective hlist)]
    | episodes b => simp [Request.key] at hlist
    | search q => simp [Request.key] at hlist
  | episodes a => cases r' with
    | series b => simp [Request.key] at hlist
    | episodes b =>
      simp only [Request.key, String.toList_append, List.append_cancel_left_eq] at hlist
      rw [Text.decimal_injective (String.toList_injective hlist)]
    | search q => simp [Request.key] at hlist
  | search p => cases r' with
    | series b => simp [Request.key] at hlist
    | episodes b => simp [Request.key] at hlist
    | search q =>
      simp only [Request.key, String.toList_append, List.append_cancel_left_eq] at hlist
      rw [String.toList_injective hlist]

end Keys

def Call.since : Call α → Option Nat
  | .idle => none
  | .started _ start | .missed _ start | .fetched _ start _ | .returned _ start _ => some start

/-- The value that a call holds or has returned. -/
def Call.value : Call α → Option (Produced α)
  | .fetched _ _ v | .returned _ _ (.ok v) => some v
  | _ => none

/-- Everything has begun before now, and what is cached is current. -/
structure Sound (s : State α) : Prop where
  called : ∀ c start, (s.calls c).since = some start → start < s.moment
  fetched : ∀ c r start v, s.calls c = .fetched r start v → start < v.moment
  invalidating : ∀ i tvdbID begun,
    s.invalidations i = .started tvdbID begun ∨ s.invalidations i = .deleted tvdbID begun →
      begun < s.moment
  returned : ∀ i tvdbID begun stop, s.invalidations i = .returned tvdbID begun stop → begun < stop
  cached : ∀ r e, s.cache r.key = some e → Current s r e.value
  effective : Effective s

theorem sound_new : Sound (new : State α) where
  called := by simp [new, Call.since]
  fetched := by simp [new]
  invalidating := by simp [new]
  returned := by simp [new]
  cached := by simp [new]
  effective := by simp [Effective, new]

namespace Sound
variable {s : State α}

theorem setCall (h : Sound s) {c : Nat} {call : Call α}
    (hsince : ∀ start, call.since = some start → start ≤ s.moment)
    (hfetched : ∀ r start v, call = .fetched r start v → start < v.moment)
    (hresult : ∀ r start v, call = .returned r start (.ok v) →
      ∀ i tvdbID begun stop, s.invalidations i = .returned tvdbID begun stop →
        r.tvdbID = some tvdbID → stop < start → ¬ v.moment < begun) :
    Sound (s.setCall c call) where
  called := by
    intro d start hd
    by_cases hdc : d = c
    · simp only [State.setCall, hdc, Function.update_self] at hd
      exact Nat.lt_succ_of_le (hsince start hd)
    · simp only [State.setCall, Function.update_of_ne hdc] at hd
      exact Nat.lt_succ_of_lt (h.called d start hd)
  fetched := by
    intro d r start v hd
    by_cases hdc : d = c
    · simp only [State.setCall, hdc, Function.update_self] at hd
      exact hfetched r start v hd
    · simp only [State.setCall, Function.update_of_ne hdc] at hd
      exact h.fetched d r start v hd
  invalidating := fun i tvdbID begun hi => Nat.lt_succ_of_lt (h.invalidating i tvdbID begun hi)
  returned := h.returned
  cached := h.cached
  effective := by
    intro d r start v hd
    by_cases hdc : d = c
    · simp only [State.setCall, hdc, Function.update_self] at hd
      exact hresult r start v hd
    · simp only [State.setCall, Function.update_of_ne hdc] at hd
      exact h.effective d r start v hd

theorem setCall_of_none (h : Sound s) {c : Nat} {call : Call α}
    (hsince : ∀ start, call.since = some start → start ≤ s.moment) (hvalue : call.value = none) :
    Sound (s.setCall c call) := by
  apply h.setCall hsince
  · intro r start v hcall
    rw [hcall] at hvalue
    cases hvalue
  · intro r start v hcall
    rw [hcall] at hvalue
    cases hvalue

/-- A call that goes on has started before. -/
theorem since_le (h : Sound s) (hc : (s.calls c).since = some start) {call : Call α}
    (hcall : call.since = some start) : ∀ n, call.since = some n → n ≤ s.moment := by
  intro n hn
  cases hcall.symm.trans hn
  exact Nat.le_of_lt (h.called c start hc)

/-- What was fetched was produced after the call had started. -/
theorem effective_fetched (h : Sound s) (hc : s.calls c = .fetched r start v)
    (hi : s.invalidations i = .returned tvdbID begun stop) (hstop : stop < start) :
    ¬ v.moment < begun := by
  have hafter := h.fetched c r start v hc
  have hbegun := h.returned i tvdbID begun stop hi
  omega

theorem store (h : Sound s) {r : Request} {e : CacheEntry α} (hcurrent : Current s r e.value) :
    Sound (s.store r.key e) where
  called := h.called
  fetched := h.fetched
  invalidating := h.invalidating
  returned := h.returned
  cached := by
    intro r' e' hr'
    by_cases hkey : r'.key = r.key
    · cases key_injective hkey
      simp only [State.store, Function.update_self, Option.some.injEq] at hr'
      exact hr' ▸ hcurrent
    · simp only [State.store, Function.update_of_ne hkey] at hr'
      exact h.cached r' e' hr'
  effective := h.effective

/-- Entries may go at any time. -/
theorem shrink (h : Sound s) {cache : String → Option (CacheEntry α)}
    (hless : ∀ key e, cache key = some e → s.cache key = some e) : Sound { s with cache } where
  called := h.called
  fetched := h.fetched
  invalidating := h.invalidating
  returned := h.returned
  cached := fun r e hr => h.cached r e (hless r.key e hr)
  effective := h.effective

theorem tick (h : Sound s) : Sound s.tick where
  called := fun c start hc => Nat.lt_succ_of_lt (h.called c start hc)
  fetched := h.fetched
  invalidating := fun i tvdbID begun hi => Nat.lt_succ_of_lt (h.invalidating i tvdbID begun hi)
  returned := h.returned
  cached := h.cached
  effective := h.effective

theorem setInvalidation (h : Sound s) {i : Nat} {inv : Invalidation}
    (hbegun : ∀ tvdbID begun, inv = .started tvdbID begun ∨ inv = .deleted tvdbID begun →
      begun ≤ s.moment)
    (hstop : ∀ tvdbID begun stop, inv = .returned tvdbID begun stop →
      begun < stop ∧ stop = s.moment)
    (hcached : ∀ (r : Request) e tvdbID begun, s.cache r.key = some e → r.tvdbID = some tvdbID →
      (inv = .deleted tvdbID begun ∨ ∃ stop, inv = .returned tvdbID begun stop) →
        ¬ e.value.moment < begun) :
    Sound (s.setInvalidation i inv) where
  called := fun c start hc => Nat.lt_succ_of_lt (h.called c start hc)
  fetched := h.fetched
  invalidating := by
    intro j tvdbID begun hj
    by_cases hji : j = i
    · simp only [State.setInvalidation, hji, Function.update_self] at hj
      exact Nat.lt_succ_of_le (hbegun tvdbID begun hj)
    · simp only [State.setInvalidation, Function.update_of_ne hji] at hj
      exact Nat.lt_succ_of_lt (h.invalidating j tvdbID begun hj)
  returned := by
    intro j tvdbID begun stop hj
    by_cases hji : j = i
    · simp only [State.setInvalidation, hji, Function.update_self] at hj
      exact (hstop tvdbID begun stop hj).1
    · simp only [State.setInvalidation, Function.update_of_ne hji] at hj
      exact h.returned j tvdbID begun stop hj
  cached := by
    intro r e he j tvdbID begun hid hj
    by_cases hji : j = i
    · simp only [Deleted, State.setInvalidation, hji, Function.update_self] at hj
      exact hcached r e tvdbID begun he hid hj
    · simp only [Deleted, State.setInvalidation, Function.update_of_ne hji] at hj
      exact h.cached r e he j tvdbID begun hid hj
  effective := by
    intro c r start v hc j tvdbID begun stop hj hid hlt
    by_cases hji : j = i
    · simp only [State.setInvalidation, hji, Function.update_self] at hj
      -- every call has started before an invalidation that returns now
      have hnow := (hstop tvdbID begun stop hj).2
      have hcalled := h.called c start (congrArg Call.since hc)
      omega
    · simp only [State.setInvalidation, Function.update_of_ne hji] at hj
      exact h.effective c r start v hc j tvdbID begun stop hj hid hlt

/-- Both entries of the series are gone. -/
theorem cache_forget {r : Request} (hid : r.tvdbID = some tvdbID) :
    (s.forget tvdbID).cache r.key = none := by
  cases r with
  | series n =>
    cases hid
    have hne : (Request.series tvdbID).key ≠ (Request.episodes tvdbID).key :=
      fun heq => Request.noConfusion (key_injective heq)
    simp [State.forget, Function.update_of_ne hne]
  | episodes n =>
    cases hid
    simp [State.forget]
  | search q => cases hid

theorem forget (h : Sound s) (tvdbID : Int) : Sound (s.forget tvdbID) := by
  apply h.shrink
  intro key e hkey
  by_cases hepisodes : key = (Request.episodes tvdbID).key
  · simp [hepisodes] at hkey
  · rw [Function.update_of_ne hepisodes] at hkey
    by_cases hseries : key = (Request.series tvdbID).key
    · simp [hseries] at hkey
    · rwa [Function.update_of_ne hseries] at hkey

theorem delete (h : Sound s) (hi : s.invalidations i = .started tvdbID begun) :
    Sound ((s.forget tvdbID).setInvalidation i (.deleted tvdbID begun)) := by
  apply (h.forget tvdbID).setInvalidation
  · intro n b hb
    rcases hb with hb | hb
    · cases hb
    · cases hb
      exact Nat.le_of_lt (h.invalidating i tvdbID begun (.inl hi))
  · intro n b stop hb
    cases hb
  · intro r e n b he hid hb
    rcases hb with hb | ⟨stop, hb⟩
    · cases hb
      rw [cache_forget hid] at he
      cases he
    · cases hb

theorem invalidated (h : Sound s) (hi : s.invalidations i = .deleted tvdbID begun) :
    Sound (s.setInvalidation i (.returned tvdbID begun s.moment)) := by
  apply h.setInvalidation
  · intro n b hb
    rcases hb with hb | hb <;> cases hb
  · intro n b stop hb
    cases hb
    exact ⟨h.invalidating i tvdbID begun (.inr hi), rfl⟩
  · intro r e n b he hid hb
    rcases hb with hb | ⟨stop, hb⟩
    · cases hb
    · cases hb
      exact h.cached r e he i tvdbID begun hid (.inl hi)

theorem invalidate (h : Sound s) (i : Nat) (tvdbID : Int) :
    Sound (s.setInvalidation i (.started tvdbID s.moment)) := by
  apply h.setInvalidation
  · intro n b hb
    rcases hb with hb | hb <;> cases hb
    exact Nat.le_refl _
  · intro n b stop hb
    cases hb
  · intro r e n b _ _ hb
    rcases hb with hb | ⟨stop, hb⟩ <;> cases hb

/-- What is found was not taken away by an invalidation that is over. -/
theorem hit (h : Sound s) (hc : s.calls c = .started r start) (he : s.lookup r.key = some e) :
    Sound (s.setCall c (.returned r start (.ok e.value))) := by
  have hentry := (Option.filter_eq_some_iff.mp he).1
  apply h.setCall (h.since_le (congrArg Call.since hc) rfl)
  · intro r' n v hcall
    cases hcall
  · intro r' n v hcall i tvdbID begun stop hi hid _
    cases hcall
    exact h.cached r e hentry i tvdbID begun hid (.inr ⟨stop, hi⟩)

theorem produced (h : Sound s) (hc : s.calls c = .missed r start) (v : α) :
    Sound (s.setCall c (.fetched r start ⟨v, s.moment⟩)) := by
  apply h.setCall (h.since_le (congrArg Call.since hc) rfl)
  · intro r' n v hcall
    cases hcall
    exact h.called c start (congrArg Call.since hc)
  · intro r' n v hcall
    cases hcall

theorem stored (h : Sound s) (hc : s.calls c = .fetched r start v) (hcurrent : Current s r v)
    (expiresAt : Int) :
    Sound ((s.store r.key ⟨v, expiresAt⟩).setCall c (.returned r start (.ok v))) := by
  apply (h.store hcurrent).setCall (h.since_le (congrArg Call.since hc) rfl)
  · intro r' n v hcall
    cases hcall
  · intro r' n v hcall i tvdbID begun stop hi _ hlt
    cases hcall
    exact h.effective_fetched hc hi hlt

/-- Neither the clock nor a sweep matters. -/
theorem retimed (h : Sound s) (clock : Int) (sweeping : Option Int) :
    Sound { s with clock, sweeping } :=
  ⟨h.called, h.fetched, h.invalidating, h.returned, h.cached, h.effective⟩

theorem step (h : Sound s) (hguard : StoresCurrent s a) (hstep : step o s a = some t) :
    Sound t := by
  cases a with
  | call c r =>
    simp only [Cached.step] at hstep
    split at hstep <;> cases hstep
    refine h.setCall_of_none ?_ rfl
    intro start hstart
    cases hstart
    exact Nat.le_refl _
  | get c =>
    simp only [Cached.step] at hstep
    split at hstep
    · rename_i r start hc
      split at hstep
      · rename_i e he
        cases hstep
        exact h.hit hc he
      · cases hstep
        exact h.setCall_of_none (h.since_le (congrArg Call.since hc) rfl) rfl
    · cases hstep
  | produce c answer =>
    simp only [Cached.step] at hstep
    split at hstep
    · rename_i r start v hc
      cases hstep
      exact h.produced hc v
    · rename_i r start e hc
      cases hstep
      exact h.setCall_of_none (h.since_le (congrArg Call.since hc) rfl) rfl
    · cases hstep
  | set c =>
    simp only [Cached.step] at hstep
    split at hstep
    · rename_i r start v hc
      cases hstep
      exact h.stored hc (hguard r start v hc) _
    · cases hstep
  | invalidate i tvdbID =>
    simp only [Cached.step] at hstep
    split at hstep <;> cases hstep
    exact h.invalidate i tvdbID
  | delete i =>
    simp only [Cached.step] at hstep
    split at hstep
    · rename_i tvdbID begun hi
      cases hstep
      exact h.delete hi
    · cases hstep
  | invalidated i =>
    simp only [Cached.step] at hstep
    split at hstep
    · rename_i tvdbID begun hi
      cases hstep
      exact h.invalidated hi
    · cases hstep
  | readClock =>
    simp only [Cached.step] at hstep
    split at hstep <;> cases hstep
    exact h.tick.retimed _ _
  | sweep =>
    simp only [Cached.step] at hstep
    split at hstep
    · rename_i now hnow
      cases hstep
      have hless : Sound (s.purge now) :=
        h.shrink (fun key e he => (Option.filter_eq_some_iff.mp he).1)
      exact hless.tick.retimed _ _
    · cases hstep
  | advance d =>
    cases hstep
    exact h.tick.retimed _ _

end Sound

/-- Whatever calls, invalidations, sweeps and clock readings come between each other, an
invalidation is effective as long as no value is stored that was produced before an invalidation
which has already taken the entries away. -/
theorem invalidation_effective (o : Options) {as : List (Action α)} {s : State α}
    (h : Path (step o.withDefaults) StoresCurrent new as s) : Effective s :=
  (h.invariant (fun _ _ _ hguard hstep hs => hs.step hguard hstep) sound_new).effective

/-- One call fetches, and a second one comes after an invalidation. -/
def fetchedThenInvalidated : List (Action Nat) :=
  [.call 0 (.series 1), .get 0, .produce 0 (.ok 1), .set 0, .invalidate 0 1, .delete 0,
    .invalidated 0, .call 1 (.series 1), .get 1, .produce 1 (.ok 2), .set 1]

theorem refetched_after_invalidation :
    ∃ s, Path (step (⟨0, 0, 0⟩ : Options).withDefaults) StoresCurrent new fetchedThenInvalidated s ∧
      s.calls 1 = .returned (.series 1) 7 (.ok ⟨2, 9⟩) ∧ Effective s := by
  have hrun : ∃ s, Path (step (⟨0, 0, 0⟩ : Options).withDefaults) StoresCurrent new
      fetchedThenInvalidated s ∧ s.calls 1 = .returned (.series 1) 7 (.ok ⟨2, 9⟩) := by
    refine ⟨_, .cons trivial rfl (.cons trivial rfl (.cons trivial rfl (.cons ?_ rfl
      (.cons trivial rfl (.cons trivial rfl (.cons trivial rfl (.cons trivial rfl
        (.cons trivial rfl (.cons trivial rfl (.cons ?_ rfl .nil)))))))))), rfl⟩
    · intro r start v _ i tvdbID begun _ hdeleted
      rcases hdeleted with hdeleted | ⟨stop, hdeleted⟩ <;> cases hdeleted
    · intro r start v hc i tvdbID begun _ hdeleted
      cases hc
      -- the only invalidation is older than the value
      by_cases hi : i = 0
      · subst hi
        rcases hdeleted with hdeleted | ⟨stop, hdeleted⟩
        · cases hdeleted
        · cases hdeleted
          decide
      · simp only [Deleted, State.setCall, State.setInvalidation, State.store, State.forget,
          State.tick, new, Function.update_of_ne hi] at hdeleted
        rcases hdeleted with hdeleted | ⟨stop, hdeleted⟩ <;> cases hdeleted
  obtain ⟨s, hpath, hcall⟩ := hrun
  exact ⟨s, hpath, hcall, invalidation_effective ⟨0, 0, 0⟩ hpath⟩

/-- A value is stored that was fetched before the invalidation, and the next call gets it. -/
theorem stale_value_served : ∃ s, exec (step (⟨0, 0, 0⟩ : Options).withDefaults) (new : State Nat)
    [.call 0 (.series 1), .get 0, .produce 0 (.ok 1), .invalidate 0 1, .delete 0, .invalidated 0,
      .set 0, .call 1 (.series 1), .get 1] = some s ∧ ¬ Effective s := by
  refine ⟨_, rfl, ?_⟩
  intro h
  exact h 1 (.series 1) 7 ⟨1, 2⟩ rfl 0 1 3 5 rfl rfl (by decide) (by decide)

end Sonarr.Cached
