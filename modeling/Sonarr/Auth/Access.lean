import Sonarr.Auth.Sessions
import Sonarr.Lib.Provenance

/-! The endpoints that are open to everyone and the middleware in front of the others, one
store operation at a time. -/
namespace Sonarr.Auth.Access
open Lib Commands

inductive LoginResponse
  | failed (status : Nat) (message : String)
  | loggedIn (username token : String)
  deriving DecidableEq, Repr

/-- How far `handleLogin` has come with a request. -/
inductive LoginPhase
  | reading
  | verified (user : User)
  | done (response : LoginResponse)
  deriving DecidableEq, Repr

/-- What a request to one of the other endpoints has with it: `X-Api-Key` or `?apikey=`, and
the session cookie. -/
structure Credentials where
  header : String
  query : String
  cookie : Option String

def Credentials.key (c : Credentials) : String := if c.header = "" then c.query else c.header

/-- How far `combinedAuth` has come with a request. -/
inductive GatePhase
  | arriving
  | keyless
  | admitted
  | refused
  deriving DecidableEq, Repr

/-- The requests, and what bcrypt says of a hash and a password. -/
structure Requests where
  setup : Nat → Auth.Request
  login : Nat → Option Body
  guarded : Nat → Credentials
  checkPassword : String → String → Bool

structure Server where
  auth : Auth.State
  sessions : List Session
  logins : Nat → LoginPhase
  gates : Nat → GatePhase

def start (config : Option HostConfig) : Server :=
  ⟨Auth.start config, [], fun _ => .reading, fun _ => .arriving⟩

/-- The store operations, each with whether it fails, and the clock where it is read. -/
inductive Action
  | setup (a : Auth.Action)
  | getByUsername (i : Nat) (fault : Bool)
  | createSession (i : Nat) (token : String) (now : Int) (fault : Bool)
  | logout (cookie : Option String) (fault : Bool)
  | deleteExpired (now : Int) (fault : Bool)
  | checkKey (j : Nat) (fault : Bool)
  | checkCookie (j : Nat) (now : Int) (fault : Bool)

def Server.gotoLogin (s : Server) (i : Nat) (phase : LoginPhase) : Server :=
  { s with logins := Function.update s.logins i phase }

def Server.gotoGate (s : Server) (j : Nat) (phase : GatePhase) : Server :=
  { s with gates := Function.update s.gates j phase }

def getByUsername (users : Table User) (username : String) : Option User :=
  users.rows.find? (fun u => u.username == username)

/-- `handleLogin` up to the new session: an unknown user and a wrong password get one answer. -/
def verify (requests : Requests) (users : Table User) (i : Nat) (fault : Bool) : LoginPhase :=
  match requests.login i with
  | none => .done (.failed 400 "Invalid request body")
  | some body => match if fault then none else getByUsername users body.username with
    | none => .done (.failed 401 "Invalid credentials")
    | some user =>
      if requests.checkPassword user.passwordHash body.password then .verified user
      else .done (.failed 401 "Invalid credentials")

def keyValid (c : Credentials) (config : Option HostConfig) : Bool :=
  c.key != "" && config.any (fun hc => hc.apiKey == c.key)

def cookieValid (c : Credentials) (sessions : List Session) (now : Int) : Bool :=
  c.cookie.any (fun token => token != "" &&
    (getByToken sessions token).any (fun s => decide (now < s.expiry * 1000000000)))

def step (zone : Zone) (requests : Requests) (s : Server) : Action → Option Server
  | .setup a => (Auth.step requests.setup s.auth a).map (fun auth => { s with auth })
  | .getByUsername i fault => match s.logins i with
    | .reading => some (s.gotoLogin i (verify requests s.auth.users i fault))
    | _ => none
  | .createSession i token now fault => match s.logins i with
    | .verified user =>
      match if fault then none else createSession zone s.sessions token user.id (now + sessionTTL) with
      | none => some (s.gotoLogin i (.done (.failed 500 "Failed to create session")))
      | some sessions =>
        some { s.gotoLogin i (.done (.loggedIn user.username token)) with sessions }
    | _ => none
  | .logout cookie fault => some (match cookie with
    | none => s
    | some token => if token = "" ∨ fault then s
        else { s with sessions := deleteByToken s.sessions token })
  | .deleteExpired now fault =>
    some (if fault then s else { s with sessions := deleteExpired zone s.sessions now })
  | .checkKey j fault => match s.gates j with
    | .arriving => some (s.gotoGate j
        (if !fault && keyValid (requests.guarded j) s.auth.config then .admitted else .keyless))
    | _ => none
  | .checkCookie j now fault => match s.gates j with
    | .keyless => some (s.gotoGate j
        (if !fault && cookieValid (requests.guarded j) s.sessions now then .admitted else .refused))
    | _ => none

/-- Years of four digits. -/
def Representable (zone : Zone) (_ : Server) : Action → Prop
  | .createSession _ _ now _ => Civil.InRange (sqliteTime (now + sessionTTL) + zone.seconds)
  | _ => True

/-- The two checks of a request in one state are `combinedAuth`. -/
theorem combinedAuth_eq (c : Credentials) (config : Option HostConfig) (sessions : List Session)
    (now : Int) : combinedAuth config sessions c.key c.cookie now =
      (keyValid c config || cookieValid c sessions now) := rfl

/-- What a step does. -/
inductive Effect (zone : Zone) (requests : Requests) (s : Server) : Action → Server → Prop
  | setup (h : Auth.step requests.setup s.auth x = some auth) :
      Effect zone requests s (.setup x) { s with auth }
  | look : Effect zone requests s (.getByUsername i fault)
      (s.gotoLogin i (verify requests s.auth.users i fault))
  | fail : Effect zone requests s (.createSession i token now fault)
      (s.gotoLogin i (.done (.failed 500 "Failed to create session")))
  | create (h : s.logins i = .verified user) :
      Effect zone requests s (.createSession i token now false)
        { s.gotoLogin i (.done (.loggedIn user.username token)) with
          sessions := s.sessions ++ [⟨token, user.id, zone.format (now + sessionTTL)⟩] }
  | delete (h : sessions.Sublist s.sessions) : Effect zone requests s a { s with sessions }
  | key : Effect zone requests s (.checkKey j fault) (s.gotoGate j
      (if !fault && keyValid (requests.guarded j) s.auth.config then .admitted else .keyless))
  | cookie : Effect zone requests s (.checkCookie j now fault) (s.gotoGate j
      (if !fault && cookieValid (requests.guarded j) s.sessions now then .admitted else .refused))

variable {zone : Zone} {requests : Requests} {s t : Server} {a : Action}

theorem Effect.of_step (h : step zone requests s a = some t) : Effect zone requests s a t := by
  cases a with
  | setup x =>
    obtain ⟨auth, hauth, rfl⟩ := Option.map_eq_some_iff.mp h
    exact .setup hauth
  | getByUsername i fault =>
    simp only [step] at h
    split at h <;> cases h
    exact .look
  | createSession i token now fault =>
    simp only [step] at h
    split at h
    · rename_i user huser
      split at h
      · cases h
        exact .fail
      · rename_i sessions hsessions
        cases h
        simp only [Option.ite_none_left_eq_some, createSession] at hsessions
        obtain ⟨hfault, _, hsessions⟩ := hsessions
        cases hsessions
        rw [Bool.not_eq_true] at hfault
        subst hfault
        exact .create huser
    · cases h
  | logout cookie fault =>
    cases h
    split
    · exact .delete (.refl _)
    · split
      · exact .delete (.refl _)
      · exact .delete List.filter_sublist
  | deleteExpired now fault =>
    cases h
    split
    · exact .delete (.refl _)
    · exact .delete List.filter_sublist
  | checkKey j fault =>
    simp only [step] at h
    split at h <;> cases h
    exact .key
  | checkCookie j now fault =>
    simp only [step] at h
    split at h <;> cases h
    exact .cookie

/-- A check that admits a request is one of its own. -/
theorem gotoGate_admitted {other : GatePhase} (hs : s.gates j ≠ .admitted)
    (h : (s.gotoGate i (if !fault && valid then .admitted else other)).gates j = .admitted)
    (hother : other ≠ .admitted) : i = j ∧ fault = false ∧ valid = true := by
  by_cases hij : j = i
  · subst hij
    simp only [Server.gotoGate, Function.update_self] at h
    split at h
    · rename_i hvalid
      exact ⟨rfl, by simpa using hvalid⟩
    · exact absurd h hother
  · simp only [Server.gotoGate, Function.update_of_ne hij] at h
    exact absurd h hs

/-- A request is admitted by one of the two checks. -/
theorem Effect.gates (h : Effect zone requests s a t) (hs : s.gates j ≠ .admitted)
    (ht : t.gates j = .admitted) :
    (a = .checkKey j false ∧ keyValid (requests.guarded j) s.auth.config = true) ∨
    ∃ now, a = .checkCookie j now false ∧ cookieValid (requests.guarded j) s.sessions now = true := by
  cases h with
  | setup | look | fail | create | delete => exact absurd ht hs
  | key =>
    obtain ⟨rfl, rfl, hvalid⟩ := gotoGate_admitted hs ht nofun
    exact .inl ⟨rfl, hvalid⟩
  | cookie =>
    obtain ⟨rfl, rfl, hvalid⟩ := gotoGate_admitted hs ht nofun
    exact .inr ⟨_, rfl, hvalid⟩

/-- A session is made for a login that was verified. -/
theorem Effect.sessions (h : Effect zone requests s a t) (hs : x ∉ s.sessions) (ht : x ∈ t.sessions) :
    ∃ i now user, a = .createSession i x.token now false ∧ s.logins i = .verified user ∧
      x.expiresAt = zone.format (now + sessionTTL) := by
  cases h with
  | setup | look | fail | key | cookie => exact absurd ht hs
  | delete hsub => exact absurd (hsub.subset ht) hs
  | @create i user token now huser =>
    obtain hx | hx := List.mem_append.mp ht
    · exact absurd hx hs
    · rw [List.mem_singleton] at hx
      subst hx
      exact ⟨i, now, user, rfl, huser, rfl⟩

theorem gotoLogin_verified {phase : LoginPhase} (hs : s.logins i ≠ .verified user)
    (h : (s.gotoLogin k phase).logins i = .verified user) : k = i ∧ phase = .verified user := by
  by_cases hi : i = k
  · subst hi
    exact ⟨rfl, by simpa [Server.gotoLogin] using h⟩
  · simp only [Server.gotoLogin, Function.update_of_ne hi] at h
    exact absurd h hs

/-- A login is verified by the password of a user of the store. -/
theorem Effect.logins (h : Effect zone requests s a t) (hs : s.logins i ≠ .verified user)
    (ht : t.logins i = .verified user) : ∃ body, a = .getByUsername i false ∧
      requests.login i = some body ∧ user ∈ s.auth.users.rows ∧ user.username = body.username ∧
      requests.checkPassword user.passwordHash body.password = true := by
  cases h with
  | setup | delete | key | cookie => exact absurd ht hs
  | fail | create => cases (gotoLogin_verified hs ht).2
  | look =>
    obtain ⟨rfl, hverify⟩ := gotoLogin_verified hs ht
    unfold verify at hverify
    split at hverify
    · cases hverify
    · rename_i body hbody
      split at hverify
      · cases hverify
      · rename_i found hfound
        split at hverify
        · rename_i hcheck
          cases hverify
          obtain ⟨hfault, hfound⟩ := Option.ite_none_left_eq_some.mp hfound
          have hname := List.find?_some hfound
          rw [Bool.not_eq_true] at hfault
          exact ⟨body, by rw [hfault], hbody, List.mem_of_find?_eq_some hfound,
            by simpa using hname, hcheck⟩
        · cases hverify

/-- The users that are being created are from valid requests. -/
def Rightful (requests : Requests) (s : Server) : Prop :=
  ∀ i u k, s.auth.phases i = .creating u k → (requests.setup i).validate = .ok (u, k)

theorem rightful_start (config : Option HostConfig) : Rightful requests (start config) := by
  simp [Rightful, start, Auth.start]

theorem Rightful.step (h : Rightful requests s) (hstep : Access.step zone requests s a = some t) :
    Rightful requests t := by
  cases Effect.of_step hstep with
  | look | fail | create | delete | key | cookie => exact h
  | @setup x auth hauth =>
    intro i u k hphase
    obtain ⟨j, phase, hphases, hvalid⟩ := step_phases hauth
    simp only [hphases] at hphase
    by_cases hij : i = j
    · subst hij
      exact hvalid u k (by simpa using hphase)
    · exact h i u k (by simpa [Function.update_of_ne hij] using hphase)

/-- A user comes into the store by the insertion of a setup request. -/
theorem Effect.users (h : Effect zone requests s a t) (hs : user ∉ s.auth.users.rows)
    (ht : user ∈ t.auth.users.rows) : ∃ k, a = .setup (.create k none) ∧
      s.auth.phases k = .creating user.username user.passwordHash := by
  cases h with
  | look | fail | create | delete | key | cookie => exact absurd ht hs
  | @setup x auth hauth =>
    obtain heq | ⟨k, u, hash, rfl, hphase, _, heq⟩ := step_users hauth
    · simp only [heq] at ht
      exact absurd ht hs
    · simp only [heq, Auth.create, Table.insert] at ht
      obtain hr | hr := List.mem_append.mp ht
      · exact absurd hr hs
      · rw [List.mem_singleton] at hr
        subst hr
        exact ⟨k, rfl, hphase⟩

/-- Logging out takes the session away. -/
theorem notMem_logout (htoken : x.token ≠ "")
    (h : step zone requests s (.logout (some x.token) false) = some t) : x ∉ t.sessions := by
  cases h
  simp [htoken, deleteByToken]

/-- The user has been set up: a valid setup request gave its name and password hash, and was
carried out. -/
def SetUp (requests : Requests) (as : List Action) (user : User) : Prop :=
  ∃ k, .setup (.create k none) ∈ as ∧
    (requests.setup k).validate = .ok (user.username, user.passwordHash)

/-- Login `i` has given the password of the user, which was in the store when it was looked up. -/
def GavePassword (zone : Zone) (requests : Requests) (config : Option HostConfig)
    (as : List Action) (i : Nat) (user : User) : Prop :=
  ∃ before after u body, as = before ++ .getByUsername i false :: after ∧
    Path (step zone requests) (Representable zone) (start config) before u ∧
    user ∈ u.auth.users.rows ∧ SetUp requests before user ∧
    requests.login i = some body ∧ user.username = body.username ∧
    requests.checkPassword user.passwordHash body.password = true

theorem user_setUp (path : Path (step zone requests) (Representable zone) (start config) as s)
    (h : user ∈ s.auth.users.rows) : SetUp requests as user := by
  obtain ⟨_, a, _, u, v, rfl, hpath, _, hstep, hnot, hin, _⟩ :=
    path.cause_of_not (P := fun s => user ∈ s.auth.users.rows)
      (by simp [start, Auth.start, Table.empty]) h
  obtain ⟨k, rfl, hphase⟩ := (Effect.of_step hstep).users hnot hin
  have hright : Rightful requests u :=
    hpath.invariant (fun _ _ _ _ hstep h => h.step hstep) (rightful_start config)
  exact ⟨k, by simp, hright k _ _ hphase⟩

theorem verified_gave (path : Path (step zone requests) (Representable zone) (start config) as s)
    (h : s.logins i = .verified user) : GavePassword zone requests config as i user := by
  obtain ⟨before, a, after, u, v, rfl, hpath, _, hstep, hnot, hverified, _⟩ :=
    path.cause_of_not (P := fun s => s.logins i = .verified user) (by simp [start]) h
  obtain ⟨body, rfl, hbody, huser, hname, hcheck⟩ := (Effect.of_step hstep).logins hnot hverified
  exact ⟨before, after, u, body, rfl, hpath, huser, user_setUp hpath huser, hbody, hname, hcheck⟩

/-- A session in the store is from a login, and has not been logged out. -/
theorem session_issued (path : Path (step zone requests) (Representable zone) (start config) as s)
    (h : x ∈ s.sessions) (htoken : x.token ≠ "") :
    ∃ before after i issued user, as = before ++ .createSession i x.token issued false :: after ∧
      .logout (some x.token) false ∉ after ∧ GavePassword zone requests config before i user ∧
      x.expiry = expiry issued + zone.seconds := by
  obtain ⟨before, a, after, u, v, rfl, hpath, hrange, hstep, hnot, hmem, hsince⟩ :=
    path.cause_of_not (P := fun s => x ∈ s.sessions) (by simp [start]) h
  obtain ⟨i, issued, user, rfl, huser, htext⟩ := (Effect.of_step hstep).sessions hnot hmem
  have hkept : .logout (some x.token) false ∉ after :=
    hsince.notMem_of_within h (fun _ _ hlogout => notMem_logout htoken hlogout)
  exact ⟨before, after, i, issued, user, rfl, hkept, verified_gave hpath huser,
    expiry_of_format hrange htext⟩

/-- Whatever the requests do: one that gets past `combinedAuth` had the stored API key, or it
had the token of a login that gave the password of a user in the store, that was not logged out
in between and whose seven days were not over, by the local clock. -/
theorem admitted_by_credentials
    (path : Path (step zone requests) (Representable zone) (start config) as s)
    (h : s.gates j = .admitted) :
    (∃ before after u hc, as = before ++ .checkKey j false :: after ∧
      Path (step zone requests) (Representable zone) (start config) before u ∧
      u.auth.config = some hc ∧ hc.apiKey = (requests.guarded j).key ∧ hc.apiKey ≠ "") ∨
    (∃ before since after i token issued now user,
      as = before ++ .createSession i token issued false :: since ++ .checkCookie j now false :: after ∧
      (requests.guarded j).cookie = some token ∧ .logout (some token) false ∉ since ∧
      GavePassword zone requests config before i user ∧
      now < (expiry issued + zone.seconds) * 1000000000) := by
  obtain ⟨before, a, after, u, v, rfl, hpath, _, hstep, hnot, hin, _⟩ :=
    path.cause_of_not (P := fun s => s.gates j = .admitted) (by simp [start]) h
  obtain ⟨rfl, hkey⟩ | ⟨now, rfl, hcookie⟩ := (Effect.of_step hstep).gates hnot hin
  · simp only [keyValid, Bool.and_eq_true, bne_iff_ne, ne_eq, Option.any_eq_true, beq_iff_eq] at hkey
    obtain ⟨hne, hc, hconfig, heq⟩ := hkey
    exact .inl ⟨before, after, u, hc, rfl, hpath, hconfig, heq, heq ▸ hne⟩
  · simp only [cookieValid, Option.any_eq_true, Bool.and_eq_true, bne_iff_ne, ne_eq,
      decide_eq_true_eq] at hcookie
    obtain ⟨token, htoken, hne, x, hget, hlt⟩ := hcookie
    obtain ⟨hx, rfl⟩ := getByToken_some hget
    obtain ⟨before, since, i, issued, user, rfl, hkept, hgave, hexp⟩ :=
      session_issued hpath hx hne
    exact .inr ⟨before, since, after, i, x.token, issued, now, user, by simp, htoken, hkept, hgave,
      hexp ▸ hlt⟩

def greenwich : Zone := ⟨0, by decide, by decide⟩

/-- One user and a browser of theirs. -/
def oneUser : Requests where
  setup := fun _ => ⟨some ⟨"alice", "secret"⟩, .ok "$2a$10$alice"⟩
  login := fun _ => some ⟨"alice", "secret"⟩
  guarded := fun _ => ⟨"", "", some "token"⟩
  checkPassword := fun hash password => hash == "$2a$10$alice" && password == "secret"

/-- The server is set up, the user logs in and asks for something. -/
def visit : List Action :=
  [.setup (.count 0 none), .setup (.create 0 none), .getByUsername 0 false,
    .createSession 0 "token" 0 false, .checkKey 0 false, .checkCookie 0 1 false]

theorem admitted_by_cookie : ∃ s,
    Path (step greenwich oneUser) (Representable greenwich) (start none) visit s ∧
    s.gates 0 = .admitted ∧
    ∃ before i user, GavePassword greenwich oneUser none before i user ∧ before <+: visit := by
  have hexec : (exec (step greenwich oneUser) (start none) visit).map (fun s => s.gates 0) =
      some .admitted := by decide +kernel
  obtain ⟨s, hs, hgate⟩ := Option.map_eq_some_iff.mp hexec
  have hrange : Civil.InRange (sqliteTime sessionTTL + greenwich.seconds) := by
    have hzero : greenwich.seconds = 0 := rfl
    unfold Civil.InRange sqliteTime sessionTTL
    omega
  have hpath : Path (step greenwich oneUser) (Representable greenwich) (start none) visit s :=
    .of_exec_guarded (by simp [visit, Representable, hrange]) hs
  refine ⟨s, hpath, hgate, ?_⟩
  obtain ⟨_, _, _, hc, _, _, _, hkey, hne⟩ | ⟨before, _, _, i, _, _, _, user, has, _, _, hgave, _⟩ :=
    admitted_by_credentials hpath hgate
  · exact absurd hkey hne
  · exact ⟨before, i, user, hgave, by simp [has]⟩

end Sonarr.Auth.Access
