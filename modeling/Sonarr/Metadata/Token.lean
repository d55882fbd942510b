import Mathlib.Data.Int.Init
import Sonarr.Lib.Provenance

/-! The token of the TVDB client: concurrent requests that get it, and `SetApiKey`. -/
namespace Sonarr.Metadata.Token
open Lib

/-- Thirty days less an hour, in nanoseconds. -/
def tokenTTL : Int := (30 * 24 - 1) * 3600 * 1000000000

/-- A token that is not empty, with the key of the login that gave it and the time it was kept. -/
structure Cached where
  token : String
  key : String
  obtained : Int
  deriving DecidableEq, Repr

/-- How far a call of `tokenCache.get` has come. The API key is an argument, so that it is read
before the lock is taken. -/
inductive Phase
  | idle
  | waiting (key : String)
  | holding (key : String)
  | loggingIn (key : String)
  | returned (c : Cached)
  | failed
  deriving DecidableEq, Repr

/-- The client; `clearing` counts the calls of `SetApiKey` that have set the key and have not
put a new cache in place of the old one yet. -/
structure State where
  key : String
  cached : Option Cached
  locked : Bool
  clearing : Nat
  calls : Nat → Phase
  clock : Int
  fatal : Bool

def start (key : String) (clock : Int) : State := ⟨key, none, false, 0, fun _ => .idle, clock, false⟩

inductive Action
  | enter (i : Nat)
  | lock (i : Nat)
  | hit (i : Nat) (now : Int)
  | miss (i : Nat) (now : Int)
  | loggedIn (i : Nat) (token : String) (now : Int)
  | loginFailed (i : Nat)
  | setKey (key : String)
  | clear
  deriving DecidableEq, Repr

def State.goto (s : State) (i : Nat) (phase : Phase) : State :=
  { s with calls := Function.update s.calls i phase }

/-- Unlocking a mutex that is not locked ends the program. -/
def State.unlock (s : State) : State :=
  if s.locked then { s with locked := false } else { s with fatal := true }

/-- The cached token, if it has not expired. -/
def State.valid (s : State) (now : Int) : Option Cached :=
  s.cached.filter (fun c => decide (now < c.obtained + tokenTTL))

/-- The clock does not go back. The new cache has a new mutex, whatever the old one was. -/
def step (s : State) (a : Action) : Option State :=
  if s.fatal then none
  else match a with
    | .enter i => match s.calls i with
      | .idle => some (s.goto i (.waiting s.key))
      | _ => none
    | .lock i => match s.calls i with
      | .waiting key => if s.locked then none else some { s.goto i (.holding key) with locked := true }
      | _ => none
    | .hit i now => match s.calls i, s.valid now with
      | .holding _, some c =>
        if s.clock ≤ now then some ({ s.goto i (.returned c) with clock := now }).unlock else none
      | _, _ => none
    | .miss i now => match s.calls i, s.valid now with
      | .holding key, none =>
        if s.clock ≤ now then some { s.goto i (.loggingIn key) with clock := now } else none
      | _, _ => none
    | .loggedIn i token now => match s.calls i with
      | .loggingIn key =>
        if s.clock ≤ now ∧ token ≠ "" then
          some ({ s.goto i (.returned ⟨token, key, now⟩) with
            cached := some ⟨token, key, now⟩, clock := now }).unlock
        else none
      | _ => none
    | .loginFailed i => match s.calls i with
      | .loggingIn _ => some (s.goto i .failed).unlock
      | _ => none
    | .setKey key => some { s with key, clearing := s.clearing + 1 }
    | .clear =>
      if s.clearing = 0 then none
      else some { s with cached := none, locked := false, clearing := s.clearing - 1 }

/-- The key of a call that is under way. -/
def Phase.key? : Phase → Option String
  | .waiting key | .holding key | .loggingIn key => some key
  | _ => none

def Phase.holds : Phase → Bool
  | .holding _ | .loggingIn _ => true
  | _ => false

theorem Phase.holds_of_no_key {p : Phase} (h : p.key? = none) : p.holds = false := by
  cases p <;> simp [Phase.holds, Phase.key?] at h ⊢

/-- `SetApiKey` runs while no call is under way. -/
def Alone (s : State) : Action → Prop
  | .setKey _ => ∀ i, (s.calls i).key? = none
  | .enter _ => s.clearing = 0
  | _ => True

/-- All that a step can do. -/
inductive Moves (s : State) : Action → State → Prop
  | enter (hi : s.calls i = .idle) : Moves s (.enter i) (s.goto i (.waiting s.key))
  | lock (hi : s.calls i = .waiting key) (hfree : s.locked = false) :
      Moves s (.lock i) { s.goto i (.holding key) with locked := true }
  | hit (hi : s.calls i = .holding key) (hc : s.valid now = some c) :
      Moves s (.hit i now) ({ s.goto i (.returned c) with clock := now }).unlock
  | miss (hi : s.calls i = .holding key) (hc : s.valid now = none) (hclock : s.clock ≤ now) :
      Moves s (.miss i now) { s.goto i (.loggingIn key) with clock := now }
  | loggedIn (hi : s.calls i = .loggingIn key) (hclock : s.clock ≤ now) :
      Moves s (.loggedIn i token now) ({ s.goto i (.returned ⟨token, key, now⟩) with
        cached := some ⟨token, key, now⟩, clock := now }).unlock
  | loginFailed (hi : s.calls i = .loggingIn key) : Moves s (.loginFailed i) (s.goto i .failed).unlock
  | setKey : Moves s (.setKey key) { s with key, clearing := s.clearing + 1 }
  | clear (hpos : s.clearing ≠ 0) :
      Moves s .clear { s with cached := none, locked := false, clearing := s.clearing - 1 }

variable {s t : State} {a : Action} {p : Phase}

theorem step_moves (h : Token.step s a = some t) : Moves s a t := by
  unfold Token.step at h
  obtain ⟨_, h⟩ := Option.ite_none_left_eq_some.mp h
  cases a with
  | enter i =>
    simp only at h
    split at h <;> cases h
    rename_i hi
    exact .enter hi
  | lock i =>
    simp only at h
    split at h
    · rename_i hi
      obtain ⟨hfree, h⟩ := Option.ite_none_left_eq_some.mp h
      cases h
      exact .lock hi (by simpa using hfree)
    · cases h
  | hit i now =>
    simp only at h
    split at h
    · rename_i hi hc
      cases (Option.ite_none_right_eq_some.mp h).2
      exact .hit hi hc
    · cases h
  | miss i now =>
    simp only at h
    split at h
    · rename_i hi hc
      obtain ⟨hclock, h⟩ := Option.ite_none_right_eq_some.mp h
      cases h
      exact .miss hi hc hclock
    · cases h
  | loggedIn i token now =>
    simp only at h
    split at h
    · rename_i hi
      obtain ⟨⟨hclock, _⟩, h⟩ := Option.ite_none_right_eq_some.mp h
      cases h
      exact .loggedIn hi hclock
    · cases h
  | loginFailed i =>
    simp only at h
    split at h <;> cases h
    rename_i hi
    exact .loginFailed hi
  | setKey key =>
    cases h
    exact .setKey
  | clear =>
    obtain ⟨hpos, h⟩ := Option.ite_none_left_eq_some.mp h
    cases h
    exact .clear hpos

/-- What a call relies on at each point: its key is the one there is, and before it logs in
the cached token has expired. -/
structure Fits (s : State) (p : Phase) : Prop where
  locked : p.holds = true → s.locked = true
  current : ∀ key, p.key? = some key → key = s.key ∧ s.clearing = 0
  expired : ∀ key, p = .loggingIn key → ∀ c, s.cached = some c → c.obtained + tokenTTL ≤ s.clock

/-- At most one call holds the lock, and everything is from the key there is. -/
structure Sound (s : State) : Prop where
  running : s.fatal = false
  calls : ∀ i, Fits s (s.calls i)
  unique : ∀ i j, (s.calls i).holds = true → (s.calls j).holds = true → i = j
  cache : s.clearing = 0 → ∀ c, s.cached = some c → c.key = s.key

theorem Fits.of_not_holds (hp : p.holds = false)
    (hcurrent : ∀ key, p.key? = some key → key = s.key ∧ s.clearing = 0) : Fits s p := by
  refine ⟨by simp [hp], hcurrent, fun key hlogging => ?_⟩
  rw [hlogging] at hp
  cases hp

theorem Fits.of_no_key (hp : p.key? = none) : Fits s p :=
  .of_not_holds (Phase.holds_of_no_key hp) (by simp [hp])

theorem Fits.later (h : Fits s p) (hkey : t.key = s.key) (hclearing : t.clearing = s.clearing)
    (hcached : t.cached = s.cached) (hlocked : s.locked = true → t.locked = true)
    (hclock : s.clock ≤ t.clock) : Fits t p where
  locked hp := hlocked (h.locked hp)
  current key hp := by
    rw [hkey, hclearing]
    exact h.current key hp
  expired key hp c hc := Int.le_trans (h.expired key hp c (hcached ▸ hc)) hclock

theorem sound_start (key : String) (clock : Int) : Sound (start key clock) := by
  refine ⟨rfl, fun _ => .of_no_key rfl, ?_, ?_⟩ <;> simp [start, Phase.holds]

theorem Sound.quiet (h : Sound s) (hpos : s.clearing ≠ 0) (i : Nat) : (s.calls i).key? = none := by
  cases hkey : (s.calls i).key? with
  | none => rfl
  | some key => exact absurd ((h.calls i).current key hkey).2 hpos

/-- One call moves on: what it needs, and what the others need. -/
theorem Sound.move (h : Sound s) (i : Nat) (hcalls : t.calls = Function.update s.calls i p)
    (hfatal : t.fatal = false) (hp : Fits t p) (hothers : ∀ j, j ≠ i → Fits t (s.calls j))
    (halone : p.holds = true → ∀ j, (s.calls j).holds = true → j = i)
    (hcache : t.clearing = 0 → ∀ c, t.cached = some c → c.key = t.key) : Sound t := by
  have hat : ∀ j, t.calls j = if j = i then p else s.calls j := by
    intro j
    rw [hcalls, Function.update_apply]
  refine ⟨hfatal, fun j => ?_, fun j k hj hk => ?_, hcache⟩
  · rw [hat]
    split
    · exact hp
    · exact hothers j ‹_›
  · rw [hat] at hj hk
    split at hj <;> split at hk
    · exact (‹j = i› :).trans (‹k = i› :).symm
    · exact absurd (halone hj k hk) ‹_›
    · exact absurd (halone hk j hj) ‹_›
    · exact h.unique j k hj hk

theorem unlock_of_locked (h : s.locked = true) : s.unlock = { s with locked := false } := by
  rw [State.unlock, if_pos h]

/-- The call that holds the lock gives it back. -/
theorem Sound.release (h : Sound s) (hi : (s.calls i).holds = true) (hp : p.key? = none)
    (hcache : s.clearing = 0 → ∀ c, cached = some c → c.key = s.key) :
    Sound ({ s.goto i p with cached := cached, clock := now } : State).unlock := by
  have hlocked : ({ s.goto i p with cached := cached, clock := now } : State).locked = true :=
    (h.calls i).locked hi
  rw [unlock_of_locked hlocked]
  refine h.move i rfl h.running (.of_no_key hp) (fun j hne => ?_) (fun hholds => ?_) hcache
  · refine .of_not_holds ?_ (h.calls j).current
    exact Bool.eq_false_iff.mpr (fun hj => hne (h.unique j i hj hi))
  · rw [Phase.holds_of_no_key hp] at hholds
    cases hholds

theorem valid_some (h : s.valid now = some c) : s.cached = some c ∧ now < c.obtained + tokenTTL := by
  obtain ⟨hc, hlt⟩ := Option.filter_eq_some_iff.mp h
  exact ⟨hc, by simpa using hlt⟩

theorem valid_none (h : s.valid now = none) (hc : s.cached = some c) : c.obtained + tokenTTL ≤ now := by
  rw [State.valid, hc, Option.filter_some] at h
  split at h
  · cases h
  · rename_i hlt
    simpa using hlt

theorem Sound.step (h : Sound s) (halone : Alone s a) (hstep : Token.step s a = some t) : Sound t := by
  cases step_moves hstep with
  | enter =>
    refine h.move _ rfl h.running (.of_not_holds rfl ?_) (fun j _ => ?_) nofun h.cache
    · intro key hkey
      cases hkey
      exact ⟨rfl, halone⟩
    · exact (h.calls j).later rfl rfl rfl id (Int.le_refl _)
  | @lock i key hi hfree =>
    -- nobody holds a lock that is free
    have hnobody : ∀ j, (s.calls j).holds ≠ true := by
      intro j hj
      rw [(h.calls j).locked hj] at hfree
      cases hfree
    have hcurrent := hi ▸ (h.calls i).current
    refine h.move i rfl h.running ⟨fun _ => rfl, hcurrent, nofun⟩ (fun j _ => ?_) ?_ h.cache
    · exact (h.calls j).later rfl rfl rfl (fun _ => rfl) (Int.le_refl _)
    · exact fun _ j hj => absurd hj (hnobody j)
  | @miss i key now hi hc hclock =>
    have hholds : (s.calls i).holds = true := by rw [hi]; rfl
    have hcurrent := hi ▸ (h.calls i).current
    refine h.move i rfl h.running ⟨fun _ => (h.calls i).locked hholds, hcurrent, ?_⟩ (fun j _ => ?_)
      (fun _ j hj => h.unique j i hj hholds) h.cache
    · exact fun _ _ c hcached => valid_none hc hcached
    · exact (h.calls j).later rfl rfl rfl id hclock
  | hit hi hc => exact h.release (by rw [hi]; rfl) rfl h.cache
  | @loggedIn i key now token hi hclock =>
    refine h.release (by rw [hi]; rfl) rfl (fun _ c hc => ?_)
    cases hc
    exact ((h.calls i).current key (by rw [hi]; rfl)).1
  | loginFailed hi => exact h.release (by rw [hi]; rfl) rfl h.cache
  | setKey => exact ⟨h.running, fun i => .of_no_key (halone i), h.unique, nofun⟩
  | clear hpos => exact ⟨h.running, fun i => .of_no_key (h.quiet hpos i), h.unique, nofun⟩

/-- The token that a step gives to its caller, and when. -/
def handed (s : State) : Action → Option (Cached × Int)
  | .hit i now => match s.calls i with
    | .holding _ => (s.valid now).map (fun c => (c, now))
    | _ => none
  | .loggedIn i token now => match s.calls i with
    | .loggingIn key => some (⟨token, key, now⟩, now)
    | _ => none
  | _ => none

/-- What is handed out is from the key there is and has not expired. -/
theorem Sound.handed (h : Sound s) (hc : Token.handed s a = some (c, now)) :
    c.key = s.key ∧ now < c.obtained + tokenTTL := by
  cases a with
  | hit i now' =>
    simp only [Token.handed] at hc
    split at hc
    · rename_i key hholding
      obtain ⟨c', hvalid, heq⟩ := Option.map_eq_some_iff.mp hc
      cases heq
      obtain ⟨hcached, hlt⟩ := valid_some hvalid
      have hzero := ((h.calls i).current key (by rw [hholding]; rfl)).2
      exact ⟨h.cache hzero c hcached, hlt⟩
    · cases hc
  | loggedIn i token now' =>
    simp only [Token.handed] at hc
    split at hc
    · rename_i key hlogging
      cases hc
      refine ⟨((h.calls i).current key (by rw [hlogging]; rfl)).1, ?_⟩
      unfold tokenTTL
      dsimp only
      omega
    · cases hc
  | _ => cases hc

/-- The key stays. -/
def Kept (s : State) (a : Action) : Prop := Alone s a ∧ a ≠ .clear ∧ ∀ key, a ≠ .setKey key

def loginTime : Action → Option Int
  | .loggedIn _ _ now => some now
  | _ => none

theorem unlock_cached (s : State) : s.unlock.cached = s.cached := by
  unfold State.unlock
  split <;> rfl

/-- A step that is no login leaves the cached token; a login comes after it has expired. -/
theorem Sound.login_step (h : Sound s) (hkept : Kept s a) (hstep : Token.step s a = some t) :
    (loginTime a = none ∧ t.cached = s.cached) ∨
    ∃ now c, loginTime a = some now ∧ t.cached = some c ∧ c.obtained = now ∧
      ∀ old, s.cached = some old → old.obtained + tokenTTL ≤ now := by
  cases step_moves hstep with
  | enter | lock | miss => exact .inl ⟨rfl, rfl⟩
  | hit | loginFailed => exact .inl ⟨rfl, unlock_cached _⟩
  | @loggedIn i key now token hi hclock =>
    exact .inr ⟨now, _, rfl, unlock_cached _, rfl,
      fun old hold => Int.le_trans ((h.calls i).expired key hi old hold) hclock⟩
  | setKey => exact absurd rfl (hkept.2.2 _)
  | clear => exact absurd rfl hkept.2.1

/-- While the key stays, one login lasts until its token has expired. -/
theorem logins_spaced (path : Path Token.step Kept s as t) (h : Sound s) :
    (as.filterMap loginTime).Pairwise (fun earlier later => earlier + tokenTTL ≤ later) ∧
    ∀ c, s.cached = some c → ∀ later ∈ as.filterMap loginTime, c.obtained + tokenTTL ≤ later := by
  induction path with
  | nil => simp
  | @cons s a u as t hkept next _ ih =>
    obtain ⟨hpairs, hfrom⟩ := ih (h.step hkept.1 next)
    obtain ⟨hno, hcached⟩ | ⟨now, c, hlogin, hcached, hobtained, hexpired⟩ := h.login_step hkept next
    · rw [List.filterMap_cons_none hno]
      exact ⟨hpairs, fun c hc => hfrom c (hcached.trans hc)⟩
    · rw [List.filterMap_cons_some hlogin, List.pairwise_cons]
      have hlater := hobtained ▸ hfrom c hcached
      refine ⟨⟨hlater, hpairs⟩, fun old hold => ?_⟩
      intro later hmem
      have hold := hexpired old hold
      obtain rfl | hmem := List.mem_cons.mp hmem
      · exact hold
      · have := hlater later hmem
        unfold tokenTTL at *
        omega

/-- The state after a call of `SetApiKey`. -/
def State.reset (s : State) (key : String) : State :=
  { s with key, cached := none, locked := false }

theorem setApiKey_path (h : s.fatal = false) (key : String) :
    Path Token.step Free s [.setKey key, .clear] (s.reset key) := by
  refine .cons trivial (t := { s with key, clearing := s.clearing + 1 }) (by simp [Token.step, h])
    (.cons trivial ?_ .nil)
  simp [Token.step, h, State.reset]

theorem miss_step (hrun : s.fatal = false) (hcached : s.cached = none)
    (hi : s.calls i = .holding key) :
    Token.step s (.miss i s.clock) = some (s.goto i (.loggingIn key)) := by
  simp [Token.step, hrun, hi, State.valid, hcached]
  rfl

theorem login_step (hrun : s.fatal = false) (hi : s.calls i = .loggingIn key) :
    Token.step s (.loggedIn i "token" s.clock) =
      some ({ s.goto i (.returned ⟨"token", key, s.clock⟩) with
        cached := some ⟨"token", key, s.clock⟩ }).unlock := by
  simp [Token.step, hrun, hi]
  rfl

/-- `SetApiKey` under a call that holds the lock can end the program: the call unlocks a mutex
that is not locked. -/
theorem fatal_of_holds (hrun : s.fatal = false) (hi : (s.calls i).holds = true) (key : String) :
    ∃ bs t, Path Token.step Free s (.setKey key :: .clear :: bs) t ∧ t.fatal = true := by
  have hset := setApiKey_path hrun key
  cases hphase : s.calls i with
  | holding old =>
    have hmiss := miss_step (s := s.reset key) hrun rfl hphase
    have hlogin := login_step (s := (s.reset key).goto i (.loggingIn old)) hrun (Function.update_self ..)
    exact ⟨_, _, (hset.snoc trivial hmiss).snoc trivial hlogin, rfl⟩
  | loggingIn old =>
    exact ⟨_, _, hset.snoc trivial (login_step (s := s.reset key) hrun hphase), rfl⟩
  | idle | waiting | returned | failed =>
    rw [hphase] at hi
    cases hi

/-- Under a call that waits for the lock, a token of the old key can be kept and handed out. -/
theorem stale_of_waiting (hrun : s.fatal = false) (hi : s.calls i = .waiting old) (key : String) :
    ∃ bs t c, Path Token.step Free s (.setKey key :: .clear :: bs) t ∧ t.calls i = .returned c ∧
      t.cached = some c ∧ c.key = old ∧ t.key = key := by
  let u : State := { (s.reset key).goto i (.holding old) with locked := true }
  have hlock : Token.step (s.reset key) (.lock i) = some u := by
    have hcalls : (s.reset key).calls i = .waiting old := hi
    have hfatal : (s.reset key).fatal = false := hrun
    have hfree : (s.reset key).locked = false := rfl
    simp [Token.step, hcalls, hfatal, hfree, u]
  have hmiss := miss_step (s := u) hrun rfl (Function.update_self ..)
  have hlogin := login_step (s := u.goto i (.loggingIn old)) hrun (Function.update_self ..)
  exact ⟨_, _, _, (((setApiKey_path hrun key).snoc trivial hlock).snoc trivial hmiss).snoc trivial hlogin,
    Function.update_self .., rfl, rfl, rfl⟩

/-- As long as `SetApiKey` runs while no call is under way, the mutex is never unlocked twice,
every token handed out is from the key there is and not expired, and while the key stays one
login lasts for the life of its token. Under any call that is under way it can end the program,
or have a token of the old key handed out and kept. -/
theorem tokens_current_if_alone (path : Path Token.step Alone (start key clock) as s) :
    s.fatal = false ∧
    (∀ x ∈ transitions Token.step (start key clock) as, ∀ c now, handed x.1 x.2 = some (c, now) →
      c.key = x.1.key ∧ now < c.obtained + tokenTTL) ∧
    (∀ bs t, Path Token.step Kept s bs t →
      (bs.filterMap loginTime).Pairwise (fun earlier later => earlier + tokenTTL ≤ later)) ∧
    (∀ i, (s.calls i).key? ≠ none → ∀ new, new ≠ s.key →
      ∃ bs t, Path Token.step Free s (.setKey new :: .clear :: bs) t ∧
        (t.fatal = true ∨ ∃ j c, t.calls j = .returned c ∧ t.cached = some c ∧ c.key ≠ t.key)) := by
  have hkeep : ∀ s a t, Alone s a → Token.step s a = some t → Sound s → Sound t :=
    fun _ _ _ halone hstep h => h.step halone hstep
  have hsound := path.invariant hkeep (sound_start key clock)
  refine ⟨hsound.running, fun x hx c now hc => ?_, fun bs t hkept => (logins_spaced hkept hsound).1, ?_⟩
  · exact (path.transitions_invariant hkeep (sound_start key clock) x hx).handed hc
  · intro i hi new hnew
    by_cases hholds : (s.calls i).holds = true
    · obtain ⟨bs, t, hpath, hfatal⟩ := fatal_of_holds hsound.running hholds new
      exact ⟨bs, t, hpath, .inl hfatal⟩
    · cases hphase : s.calls i with
      | waiting old =>
        obtain ⟨bs, t, c, hpath, hcalls, hcached, hkey, htkey⟩ :=
          stale_of_waiting hsound.running hphase new
        have hold : old = s.key := ((hsound.calls i).current old (by rw [hphase]; rfl)).1
        exact ⟨bs, t, hpath, .inr ⟨i, c, hcalls, hcached, by rw [hkey, htkey, hold]; exact hnew.symm⟩⟩
      | holding | loggingIn => simp [hphase, Phase.holds] at hholds
      | idle | returned | failed => simp [hphase, Phase.key?] at hi

/-- Two requests that share a token, and a third that waits. -/
def shared : List Action :=
  [.enter 0, .lock 0, .miss 0 1, .loggedIn 0 "jwt" 2, .enter 1, .lock 1, .hit 1 3, .enter 2]

/-- What a run without `SetApiKey` has to meet. -/
def undisturbed (s : State) : Action → Bool
  | .enter _ => s.clearing == 0
  | .setKey _ => false
  | _ => true

theorem shared_token_current : ∃ s, Path Token.step Alone (start "key" 0) shared s ∧
    s.calls 1 = .returned ⟨"jwt", "key", 2⟩ ∧ s.fatal = false ∧
    ∃ bs t, Path Token.step Free s (.setKey "new" :: .clear :: bs) t ∧
      (t.fatal = true ∨ ∃ j c, t.calls j = .returned c ∧ t.cached = some c ∧ c.key ≠ t.key) := by
  have hcheck : ∀ s a, undisturbed s a = true → Alone s a := by
    intro s a h
    cases a with
    | enter i => simpa [undisturbed, Alone] using h
    | setKey key => cases h
    | _ => trivial
  have hexec : (exec (fun s a => if undisturbed s a then Token.step s a else none)
      (start "key" 0) shared).map
      (fun s => (s.calls 1, (s.calls 2).key?, s.key)) =
        some (.returned ⟨"jwt", "key", 2⟩, some "key", "key") := by decide
  obtain ⟨s, hs, hcalls⟩ := Option.map_eq_some_iff.mp hexec
  simp only [Prod.mk.injEq] at hcalls
  have hpath := Path.of_exec_checked hcheck hs
  obtain ⟨hrun, _, _, hbad⟩ := tokens_current_if_alone hpath
  exact ⟨s, hpath, hcalls.1, hrun, hbad 2 (by simp [hcalls.2.1]) "new" (by simp [hcalls.2.2])⟩

end Sonarr.Metadata.Token
