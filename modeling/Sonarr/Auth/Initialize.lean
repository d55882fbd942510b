import Sonarr.Lib.Machine
import Sonarr.Lib.Table

namespace Sonarr.Auth
open Lib

structure User where
  id : Nat
  username : String
  passwordHash : String
  deriving DecidableEq, Repr

instance : Keyed User := ⟨User.id⟩

structure HostConfig where
  apiKey : String
  authMode : String
  migrationState : String
  tvdbApiKey : String
  recycleBin : String
  recycleBinCleanupDays : Int
  deriving DecidableEq, Repr

/-- What the reader of a missing row goes on with. -/
def HostConfig.zero : HostConfig := ⟨"", "", "", "", "", 0⟩

inductive Response
  | failed (status : Nat) (message : String)
  | created (username apiKey : String)
  deriving DecidableEq, Repr

structure Body where
  username : String
  password : String
  deriving DecidableEq, Repr

/-- A request: its body, if it can be decoded, and what hashing the password gives. -/
structure Request where
  body : Option Body
  hash : Except String String

/-- The name and the hash a request gets to the store with. -/
def Request.validate (r : Request) : Except Response (String × String) :=
  match r.body with
  | none => .error (.failed 400 "Invalid request body")
  | some body =>
    if body.username = "" ∨ body.password = "" then
      .error (.failed 400 "Username and password are required")
    else match r.hash with
      | .error _ => .error (.failed 500 "Failed to hash password")
      | .ok hash => .ok (body.username, hash)

/-- How far `handleInitialize` has come with a request. -/
inductive Phase
  | counting
  | creating (username passwordHash : String)
  | configuring (username : String)
  | upserting (username : String) (hc : HostConfig)
  | responding (username : String)
  | done (response : Response)
  deriving DecidableEq, Repr

structure State where
  users : Table User
  config : Option HostConfig
  phases : Nat → Phase

def start (config : Option HostConfig) : State := ⟨.empty, config, fun _ => .counting⟩

/-- The store operations, each with the request it is for and the error, if it fails. -/
inductive Action
  | count (i : Nat) (fault : Option String)
  | create (i : Nat) (fault : Option String)
  | getConfig (i : Nat) (fault : Option String)
  | upsertConfig (i : Nat) (fault : Option String)
  | getAPIKey (i : Nat) (fault : Option String)

def State.goto (s : State) (i : Nat) (phase : Phase) : State :=
  { s with phases := Function.update s.phases i phase }

def usernameTaken : String := "constraint failed: UNIQUE constraint failed: users.username (2067)"

/-- Everything between the count and the insertion. -/
def afterCount (request : Request) : Phase :=
  match request.validate with
  | .error response => .done response
  | .ok (username, hash) => .creating username hash

def create (users : Table User) (username passwordHash : String) : Table User :=
  users.insert (fun id => ⟨id, username, passwordHash⟩) (fun _ => rfl)

/-- A read whose error is dropped. -/
def readConfig (s : State) : Option String → HostConfig
  | none => s.config.getD .zero
  | some _ => .zero

/-- `handleInitialize`, one store operation at a time. -/
def step (requests : Nat → Request) (s : State) : Action → Option State
  | .count i fault => match s.phases i with
    | .counting => some (s.goto i (match fault with
      | some e => .done (.failed 500 e)
      | none => if s.users.rows.length > 0 then .done (.failed 409 "Already initialized")
        else afterCount (requests i)))
    | _ => none
  | .create i fault => match s.phases i with
    | .creating username hash => some (match fault with
      | some e => s.goto i (.done (.failed 500 e))
      | none => if s.users.rows.any (fun r => r.username == username) then
          s.goto i (.done (.failed 500 usernameTaken))
        else { s.goto i (.configuring username) with users := create s.users username hash })
    | _ => none
  | .getConfig i fault => match s.phases i with
    | .configuring username =>
      some (s.goto i (.upserting username { readConfig s fault with authMode := "forms" }))
    | _ => none
  | .upsertConfig i fault => match s.phases i with
    | .upserting username hc => some (match fault with
      | some _ => s.goto i (.responding username)
      | none => { s.goto i (.responding username) with config := some hc })
    | _ => none
  | .getAPIKey i fault => match s.phases i with
    | .responding username =>
      some (s.goto i (.done (.created username (readConfig s fault).apiKey)))
    | _ => none

/-- Whatever the requests do, one user is created at most, and none once there is one. -/
def OneShot (requests : Nat → Request) : Prop :=
  ∀ config as s, Path (step requests) Free (start config) as s →
    s.users.rows.length ≤ 1 ∧
    ∀ a t, step requests s a = some t → s.users.rows ≠ [] → t.users = s.users

variable {requests : Nat → Request} {s t : State} {a : Action}

/-- A step leaves the users alone, or creates one whose name is free. -/
theorem step_users (h : step requests s a = some t) :
    t.users = s.users ∨ ∃ i username hash, a = .create i none ∧
      s.phases i = .creating username hash ∧ (∀ r ∈ s.users.rows, r.username ≠ username) ∧
      t.users = create s.users username hash := by
  cases a with
  | create i fault =>
    simp only [step] at h
    split at h
    · rename_i username hash hphase
      cases h
      split
      · exact .inl rfl
      · split
        · exact .inl rfl
        · rename_i hfree
          exact .inr ⟨i, username, hash, rfl, hphase, by simpa using hfree, rfl⟩
    · cases h
  | count i fault | getConfig i fault | getAPIKey i fault =>
    simp only [step] at h
    split at h <;> cases h
    exact .inl rfl
  | upsertConfig i fault =>
    simp only [step] at h
    split at h <;> cases h
    left
    split <;> rfl

theorem validate_of_afterCount (h : afterCount request = .creating u k) :
    request.validate = .ok (u, k) := by
  unfold afterCount at h
  split at h
  · cases h
  · rename_i heq
    cases h
    exact heq

/-- A step moves one request on; to the insertion only with what it was validated for. -/
theorem step_phases (h : step requests s a = some t) : ∃ i phase,
    t.phases = Function.update s.phases i phase ∧
    ∀ u k, phase = .creating u k → (requests i).validate = .ok (u, k) := by
  cases a with
  | count i fault =>
    simp only [step] at h
    split at h <;> cases h
    refine ⟨i, _, rfl, fun u k hphase => ?_⟩
    split at hphase
    · cases hphase
    · split at hphase
      · cases hphase
      · exact validate_of_afterCount hphase
  | create i fault =>
    simp only [step] at h
    split at h <;> cases h
    split
    · exact ⟨i, _, rfl, fun _ _ hphase => by cases hphase⟩
    · split <;> exact ⟨i, _, rfl, fun _ _ hphase => by cases hphase⟩
  | upsertConfig i fault =>
    simp only [step] at h
    split at h <;> cases h
    split <;> exact ⟨i, _, rfl, fun _ _ hphase => by cases hphase⟩
  | getConfig i fault | getAPIKey i fault =>
    simp only [step] at h
    split at h <;> cases h
    exact ⟨i, _, rfl, fun _ _ hphase => by cases hphase⟩

/-- One name for all requests that get to the store. -/
def SameUsername (requests : Nat → Request) : Prop :=
  ∀ i j u v h k, (requests i).validate = .ok (u, h) → (requests j).validate = .ok (v, k) → u = v

/-- The users and the insertions to come are from valid requests, and one user is all
there is. -/
structure Sound (requests : Nat → Request) (s : State) : Prop where
  creating : ∀ i u k, s.phases i = .creating u k → (requests i).validate = .ok (u, k)
  users : ∀ r ∈ s.users.rows, ∃ i k, (requests i).validate = .ok (r.username, k)
  single : s.users.rows.length ≤ 1

theorem sound_start (config : Option HostConfig) : Sound requests (start config) where
  creating := by simp [start]
  users := by simp [start, Table.empty]
  single := by simp [start, Table.empty]

/-- The username is `UNIQUE`, so that the second insertion of a name is refused. -/
theorem Sound.users_eq (h : Sound requests s) (hsame : SameUsername requests)
    (hstep : step requests s a = some t) (hne : s.users.rows ≠ []) : t.users = s.users := by
  obtain heq | ⟨i, u, k, _, hphase, hfree, _⟩ := step_users hstep
  · exact heq
  · obtain ⟨r, hr⟩ := List.exists_mem_of_ne_nil _ hne
    obtain ⟨j, k', hj⟩ := h.users r hr
    exact absurd (hsame j i _ _ _ _ hj (h.creating i u k hphase)) (hfree r hr)

theorem Sound.step (h : Sound requests s) (hsame : SameUsername requests)
    (hstep : step requests s a = some t) : Sound requests t := by
  have hcreating : ∀ i u k, t.phases i = .creating u k → (requests i).validate = .ok (u, k) := by
    obtain ⟨j, phase, hphases, hvalid⟩ := step_phases hstep
    intro i u k hphase
    rw [hphases] at hphase
    by_cases hij : i = j
    · subst hij
      exact hvalid u k (by simpa using hphase)
    · exact h.creating i u k (by simpa [Function.update_of_ne hij] using hphase)
  by_cases hempty : s.users.rows = []
  · obtain heq | ⟨i, u, k, _, hphase, _, heq⟩ := step_users hstep
    · exact ⟨hcreating, heq ▸ h.users, heq ▸ h.single⟩
    · have hrows : t.users.rows = [⟨s.users.next, u, k⟩] := by
        simp [heq, create, Table.insert, hempty]
      refine ⟨hcreating, fun r hr => ?_, by simp [hrows]⟩
      rw [hrows, List.mem_singleton] at hr
      exact ⟨i, k, hr ▸ h.creating i u k hphase⟩
  · have heq := h.users_eq hsame hstep hempty
    exact ⟨hcreating, heq ▸ h.users, heq ▸ h.single⟩

theorem oneShot_of_sameUsername (hsame : SameUsername requests) : OneShot requests := by
  intro config as s path
  have hsound := path.invariant (fun _ _ _ _ hstep h => Sound.step h hsame hstep)
    (sound_start config)
  exact ⟨hsound.single, fun a t hstep hne => hsound.users_eq hsame hstep hne⟩

/-- Two requests that have both counted before either creates. -/
def race (i j : Nat) : List Action :=
  [.count i none, .count j none, .create i none, .create j none]

theorem race_creates_two (hi : (requests i).validate = .ok (u, h))
    (hj : (requests j).validate = .ok (v, k)) (hne : u ≠ v) (config : Option HostConfig) :
    ∃ s, Path (step requests) Free (start config) (race i j) s ∧
      s.users.rows = [⟨1, u, h⟩, ⟨2, v, k⟩] := by
  have hij : i ≠ j := by
    rintro rfl
    rw [hi] at hj
    cases hj
    exact hne rfl
  have hexec : (exec (step requests) (start config) (race i j)).map (fun s => s.users.rows) =
      some [⟨1, u, h⟩, ⟨2, v, k⟩] := by
    simp [race, exec, step, start, State.goto, afterCount, hi, hj, hij, hij.symm,
      Table.empty, create, Table.insert, hne]
  obtain ⟨s, hs, hrows⟩ := Option.map_eq_some_iff.mp hexec
  exact ⟨s, .of_exec hs, hrows⟩

/-- Setting up is one-shot exactly when no two of the requests that get as far as the
store name different users: nothing else stops one that has counted. -/
theorem oneShot_iff_sameUsername (requests : Nat → Request) :
    OneShot requests ↔ SameUsername requests := by
  refine ⟨fun hone i j u v h k hi hj => ?_, oneShot_of_sameUsername⟩
  by_contra hne
  obtain ⟨s, path, hrows⟩ := race_creates_two hi hj hne none
  have hsingle := (hone none _ s path).1
  simp [hrows] at hsingle

/-- Two administrators at once. -/
def rivals : Nat → Request
  | 0 => ⟨some ⟨"alice", "secret"⟩, .ok "$2a$10$alice"⟩
  | 1 => ⟨some ⟨"mallory", "hunter2"⟩, .ok "$2a$10$mallory"⟩
  | _ => ⟨none, .error ""⟩

theorem two_first_users : ¬ OneShot rivals ∧
    ∃ s, Path (step rivals) Free (start none) (race 0 1) s ∧
      s.users.rows.map User.username = ["alice", "mallory"] := by
  obtain ⟨s, path, hrows⟩ := race_creates_two
    (show (rivals 0).validate = .ok ("alice", _) from rfl)
    (show (rivals 1).validate = .ok ("mallory", _) from rfl) (by decide) none
  refine ⟨fun hone => ?_, s, path, by simp [hrows]⟩
  have hsingle := (hone none _ s path).1
  simp [hrows] at hsingle

end Sonarr.Auth
