import Sonarr.Auth.Initialize
import Sonarr.Commands.Queue
import Sonarr.Lib.Civil

namespace Sonarr.Auth
open Lib Commands

/-- The offset of the server's local time, within what time zone files may hold. -/
structure Zone where
  seconds : Int
  above : -90000 < seconds
  below : seconds < 93600

/-- A row of `sessions`. -/
structure Session where
  token : String
  userID : Nat
  expiresAt : String
  deriving DecidableEq, Repr

/-- Seven days, in nanoseconds. -/
def sessionTTL : Int := 7 * 24 * 3600 * 1000000000

/-- `Format` of a clock reading, which is in local time. -/
def Zone.format (zone : Zone) (t : Int) : String := Civil.format (sqliteTime t + zone.seconds)

/-- `sqliteSessionStore.Create`; the token is the primary key. -/
def createSession (zone : Zone) (sessions : List Session) (token : String) (userID : Nat)
    (expiresAt : Int) : Option (List Session) :=
  if sessions.any (fun s => s.token == token) then none
  else some (sessions ++ [⟨token, userID, zone.format expiresAt⟩])

/-- The expiry as it is read back, in UTC; what cannot be read is the zero time. -/
def Session.expiry (s : Session) : Int := (Civil.parse s.expiresAt).getD Civil.zeroTime

def getByToken (sessions : List Session) (token : String) : Option Session :=
  sessions.find? (fun s => s.token == token)

def deleteByToken (sessions : List Session) (token : String) : List Session :=
  sessions.filter (fun s => s.token != token)

/-- `expires_at < ?`, between texts. -/
def Session.expired (s : Session) (zone : Zone) (now : Int) : Bool :=
  decide (Civil.codes s.expiresAt.toList < Civil.codes (zone.format now).toList)

def deleteExpired (zone : Zone) (sessions : List Session) (now : Int) : List Session :=
  sessions.filter (fun s => !s.expired zone now)

/-- Whether a request is let through, by its API key or by its cookie. -/
def combinedAuth (hc : Option HostConfig) (sessions : List Session) (key : String)
    (cookie : Option String) (now : Int) : Bool :=
  (key != "" && hc.any (fun hc => hc.apiKey == key)) ||
  cookie.any (fun token => token != "" &&
    (getByToken sessions token).any (fun s => decide (now < s.expiry * 1000000000)))

/-- The sessions, and the logins whose cookie has not been logged out. -/
structure Server where
  sessions : List Session
  clock : Int
  logins : List (String × Int)

namespace Server

inductive Action
  | login (token : String) (userID : Nat) (now : Int)
  | logout (token : String)
  | deleteExpired (now : Int)

/-- The clock does not go back, and a random token is never drawn twice. -/
def step (zone : Zone) (s : Server) : Action → Option Server
  | .login token userID now =>
    if s.clock ≤ now ∧ token ≠ "" ∧ token ∉ s.logins.map Prod.fst then
      (createSession zone s.sessions token userID (now + sessionTTL)).map (fun sessions =>
        ⟨sessions, now, (token, now) :: s.logins⟩)
    else none
  | .logout token => some { s with
      sessions := deleteByToken s.sessions token
      logins := s.logins.filter (fun l => l.1 != token) }
  | .deleteExpired now =>
    if s.clock ≤ now then
      some { s with sessions := Auth.deleteExpired zone s.sessions now, clock := now }
    else none

/-- Years of four digits, here and in UTC. -/
def Representable (zone : Zone) (_ : Server) : Action → Prop
  | .login _ _ now => Civil.InRange (sqliteTime (now + sessionTTL)) ∧
      Civil.InRange (sqliteTime (now + sessionTTL) + zone.seconds)
  | .logout _ => True
  | .deleteExpired now => Civil.InRange (sqliteTime now + zone.seconds)

end Server

/-- When a session that began at `t` should end. -/
def expiry (t : Int) : Int := sqliteTime (t + sessionTTL)

/-- A cookie is accepted until its session ends. Deleting takes no session away that is
still accepted, and all that ended a second ago. -/
structure Lifetime (zone : Zone) (s : Server) : Prop where
  accepted : ∀ token t, (token, t) ∈ s.logins → ∀ hc now, s.clock ≤ now →
    (combinedAuth hc s.sessions "" (some token) now = true ↔ now < expiry t * 1000000000)
  kept : ∀ hc token now, s.clock ≤ now → Civil.InRange (sqliteTime now + zone.seconds) →
    combinedAuth hc s.sessions "" (some token) now = true →
    combinedAuth hc (deleteExpired zone s.sessions now) "" (some token) now = true
  removed : ∀ token t, (token, t) ∈ s.logins → ∀ now,
    Civil.InRange (sqliteTime now + zone.seconds) → (expiry t + 1) * 1000000000 ≤ now →
    getByToken (deleteExpired zone s.sessions now) token = none

def SessionLifetime (zone : Zone) : Prop :=
  ∀ clock as s, Path (Server.step zone) (Server.Representable zone) ⟨[], clock, []⟩ as s →
    Lifetime zone s

theorem combinedAuth_cookie (h : token ≠ "") :
    combinedAuth hc sessions "" (some token) now = true ↔
      ∃ s, getByToken sessions token = some s ∧ now < s.expiry * 1000000000 := by
  simp [combinedAuth, h, Option.any_eq_true]

theorem getByToken_some (h : getByToken sessions token = some s) : s ∈ sessions ∧ s.token = token :=
  ⟨List.mem_of_find?_eq_some h, by simpa using List.find?_some h⟩

theorem getByToken_isSome (h : s ∈ sessions) (ht : s.token = token) :
    ∃ r, getByToken sessions token = some r :=
  Option.isSome_iff_exists.mp (List.find?_isSome.mpr ⟨s, h, by simpa using ht⟩)

theorem expiry_of_format {s : Session} (h : Civil.InRange e) (hs : s.expiresAt = Civil.format e) :
    s.expiry = e := by
  rw [Session.expiry, hs, Civil.parse_format h]
  rfl

/-- Every session is a login's, ending when it should; every login has one until then. -/
structure Server.Sound (s : Server) : Prop where
  distinct : (s.logins.map Prod.fst).Nodup
  nonempty : ∀ l ∈ s.logins, l.1 ≠ ""
  owned : ∀ x ∈ s.sessions, ∃ t, (x.token, t) ∈ s.logins ∧ Civil.InRange (expiry t) ∧
    x.expiresAt = Civil.format (expiry t)
  present : ∀ token t, (token, t) ∈ s.logins →
    (∃ x ∈ s.sessions, x.token = token) ∨ expiry t * 1000000000 ≤ s.clock

theorem Server.sound_start (clock : Int) : Server.Sound ⟨[], clock, []⟩ where
  distinct := by simp
  nonempty := by simp
  owned := by simp
  present := by simp

section Sound
variable {s s' : Server} {zone : Zone}

theorem Server.Sound.eq_of_token (h : Server.Sound s) (ht : (token, t) ∈ s.logins)
    (hu : (token, u) ∈ s.logins) : t = u :=
  congrArg Prod.snd (List.inj_on_of_nodup_map h.distinct ht hu rfl)

/-- The session of a login. -/
theorem Server.Sound.session (h : Server.Sound s) (hl : (token, t) ∈ s.logins) (hx : x ∈ s.sessions)
    (htoken : x.token = token) :
    Civil.InRange (expiry t) ∧ x.expiresAt = Civil.format (expiry t) := by
  obtain ⟨t', hl', hrange, htext⟩ := h.owned x hx
  rw [htoken] at hl'
  rw [h.eq_of_token hl hl']
  exact ⟨hrange, htext⟩

/-- In UTC the comparison of texts is one of times. -/
theorem expired_iff {x : Session} (hzone : zone.seconds = 0)
    (hrange : Civil.InRange e) (htext : x.expiresAt = Civil.format e)
    (hnow : Civil.InRange (sqliteTime now + zone.seconds)) :
    x.expired zone now = true ↔ e < sqliteTime now := by
  rw [hzone, Int.add_zero] at hnow
  rw [Session.expired, decide_eq_true_iff, htext, Zone.format, hzone, Int.add_zero,
    Civil.codes_format_lt hrange hnow]

theorem Server.Sound.accepted (h : Server.Sound s) (hl : (token, t) ∈ s.logins)
    (hclock : s.clock ≤ now) :
    combinedAuth hc s.sessions "" (some token) now = true ↔ now < expiry t * 1000000000 := by
  rw [combinedAuth_cookie (h.nonempty _ hl)]
  constructor
  · rintro ⟨x, hget, hlt⟩
    obtain ⟨hx, htoken⟩ := getByToken_some hget
    obtain ⟨hrange, htext⟩ := h.session hl hx htoken
    rwa [expiry_of_format hrange htext] at hlt
  · intro hlt
    obtain ⟨x, hx, htoken⟩ | hended := h.present token t hl
    · obtain ⟨y, hget⟩ := getByToken_isSome hx htoken
      obtain ⟨hy, htoken'⟩ := getByToken_some hget
      obtain ⟨hrange, htext⟩ := h.session hl hy htoken'
      exact ⟨y, hget, by rwa [expiry_of_format hrange htext]⟩
    · omega

theorem mem_deleteExpired : x ∈ deleteExpired zone sessions now ↔
    x ∈ sessions ∧ x.expired zone now = false := by
  simp [deleteExpired]

theorem Server.Sound.kept (h : Server.Sound s) (hzone : zone.seconds = 0)
    (hnow : Civil.InRange (sqliteTime now + zone.seconds))
    (hacc : combinedAuth hc s.sessions "" (some token) now = true) :
    combinedAuth hc (deleteExpired zone s.sessions now) "" (some token) now = true := by
  have hne : token ≠ "" := by
    rintro rfl
    simp [combinedAuth] at hacc
  rw [combinedAuth_cookie hne] at hacc ⊢
  obtain ⟨x, hget, hlt⟩ := hacc
  obtain ⟨hx, htoken⟩ := getByToken_some hget
  -- every session with the token ends when this one does
  have hsame : ∀ y ∈ s.sessions, y.token = token → y.expiry = x.expiry := by
    intro y hy hytoken
    obtain ⟨t, hl, hrange, htext⟩ := h.owned x hx
    obtain ⟨hrange', htext'⟩ := h.session (htoken ▸ hl) hy hytoken
    rw [expiry_of_format hrange htext, expiry_of_format hrange' htext']
  have hstays : x ∈ deleteExpired zone s.sessions now := by
    obtain ⟨t, hl, hrange, htext⟩ := h.owned x hx
    refine mem_deleteExpired.mpr ⟨hx, Bool.eq_false_iff.mpr (fun hexp => ?_)⟩
    have hpast := (expired_iff hzone hrange htext hnow).mp hexp
    rw [expiry_of_format hrange htext] at hlt
    unfold sqliteTime at hpast
    omega
  obtain ⟨y, hyget⟩ := getByToken_isSome hstays htoken
  obtain ⟨hy, hytoken⟩ := getByToken_some hyget
  exact ⟨y, hyget, by rwa [hsame y (mem_deleteExpired.mp hy).1 hytoken]⟩

theorem Server.Sound.removed (h : Server.Sound s) (hzone : zone.seconds = 0)
    (hl : (token, t) ∈ s.logins) (hnow : Civil.InRange (sqliteTime now + zone.seconds))
    (hpast : (expiry t + 1) * 1000000000 ≤ now) :
    getByToken (deleteExpired zone s.sessions now) token = none := by
  refine Option.eq_none_iff_forall_ne_some.mpr (fun x hget => ?_)
  obtain ⟨hx, htoken⟩ := getByToken_some hget
  obtain ⟨hmem, hstays⟩ := mem_deleteExpired.mp hx
  obtain ⟨hrange, htext⟩ := h.session hl hmem htoken
  have hlt : expiry t < sqliteTime now := by
    unfold sqliteTime
    omega
  rw [(expired_iff hzone hrange htext hnow).mpr hlt] at hstays
  cases hstays

theorem Server.Sound.lifetime (h : Server.Sound s) (hzone : zone.seconds = 0) :
    Lifetime zone s where
  accepted := fun _ _ hl _ _ hclock => h.accepted hl hclock
  kept := fun _ _ _ _ hnow hacc => h.kept hzone hnow hacc
  removed := fun _ _ hl _ hnow hpast => h.removed hzone hl hnow hpast

theorem Server.Sound.login (h : Server.Sound s) (hzone : zone.seconds = 0)
    (hclock : s.clock ≤ now) (hne : token ≠ "") (hfresh : token ∉ s.logins.map Prod.fst)
    (hrange : Civil.InRange (expiry now)) :
    Server.Sound ⟨s.sessions ++ [⟨token, userID, zone.format (now + sessionTTL)⟩], now,
      (token, now) :: s.logins⟩ where
  distinct := List.nodup_cons.mpr ⟨hfresh, h.distinct⟩
  nonempty := List.forall_mem_cons.mpr ⟨hne, h.nonempty⟩
  owned := by
    intro x hx
    obtain hx | hx := List.mem_append.mp hx
    · obtain ⟨t, hl, hrest⟩ := h.owned x hx
      exact ⟨t, List.mem_cons_of_mem _ hl, hrest⟩
    · rw [List.mem_singleton] at hx
      subst hx
      refine ⟨now, List.mem_cons_self .., hrange, ?_⟩
      rw [Zone.format, hzone, Int.add_zero]
      rfl
  present := by
    intro token' t hl
    obtain heq | hl := List.mem_cons.mp hl
    · cases heq
      exact .inl ⟨_, List.mem_append_right _ (List.mem_singleton_self _), rfl⟩
    · obtain ⟨x, hx, hx'⟩ | hended := h.present token' t hl
      · exact .inl ⟨x, List.mem_append_left _ hx, hx'⟩
      · exact .inr (Int.le_trans hended hclock)

theorem Server.Sound.logout (h : Server.Sound s) (token : String) :
    Server.Sound { s with
      sessions := deleteByToken s.sessions token
      logins := s.logins.filter (fun l => l.1 != token) } where
  distinct := h.distinct.sublist (List.filter_sublist.map _)
  nonempty := fun l hl => h.nonempty l (List.mem_of_mem_filter hl)
  owned := by
    intro x hx
    obtain ⟨hx, hne⟩ := List.mem_filter.mp hx
    obtain ⟨t, hl, hrest⟩ := h.owned x hx
    exact ⟨t, List.mem_filter.mpr ⟨hl, hne⟩, hrest⟩
  present := by
    intro token' t hl
    obtain ⟨hl, hne⟩ := List.mem_filter.mp hl
    obtain ⟨x, hx, rfl⟩ | hended := h.present token' t hl
    · exact .inl ⟨x, List.mem_filter.mpr ⟨hx, hne⟩, rfl⟩
    · exact .inr hended

/-- A session that is deleted has ended. -/
theorem Server.Sound.deleteExpired (h : Server.Sound s) (hzone : zone.seconds = 0)
    (hclock : s.clock ≤ now) (hnow : Civil.InRange (sqliteTime now + zone.seconds)) :
    Server.Sound { s with sessions := deleteExpired zone s.sessions now, clock := now } where
  distinct := h.distinct
  nonempty := h.nonempty
  owned := fun x hx => h.owned x (mem_deleteExpired.mp hx).1
  present := by
    intro token t hl
    obtain ⟨x, hx, htoken⟩ | hended := h.present token t hl
    · cases hexp : x.expired zone now with
      | false => exact .inl ⟨x, mem_deleteExpired.mpr ⟨hx, hexp⟩, htoken⟩
      | true =>
        obtain ⟨hrange, htext⟩ := h.session hl hx htoken
        have hpast := (expired_iff hzone hrange htext hnow).mp hexp
        right
        unfold sqliteTime at hpast
        dsimp only
        omega
    · exact .inr (Int.le_trans hended hclock)

theorem Server.Sound.step (h : Server.Sound s) (hzone : zone.seconds = 0)
    {a : Server.Action} (hrep : Server.Representable zone s a)
    (hstep : Server.step zone s a = some s') : Server.Sound s' := by
  cases a with
  | login token userID now =>
    simp only [Server.step, Option.ite_none_right_eq_some, Option.map_eq_some_iff,
      createSession, Option.ite_none_left_eq_some] at hstep
    obtain ⟨⟨hclock, hne, hfresh⟩, _, ⟨_, hsessions⟩, rfl⟩ := hstep
    cases hsessions
    exact h.login hzone hclock hne hfresh hrep.1
  | logout token =>
    cases hstep
    exact h.logout token
  | deleteExpired now =>
    simp only [Server.step, Option.ite_none_right_eq_some] at hstep
    obtain ⟨hclock, hs⟩ := hstep
    cases hs
    exact h.deleteExpired hzone hclock hrep

end Sound

theorem sessionLifetime_of_utc {zone : Zone} (hzone : zone.seconds = 0) : SessionLifetime zone := by
  intro clock as s path
  have hsound : Server.Sound s := path.invariant
    (fun _ _ _ hrep hstep h => Server.Sound.step h hzone hrep hstep) (Server.sound_start clock)
  exact hsound.lifetime hzone

/-- One login, at the beginning of 1970. -/
theorem login_path (zone : Zone) : Path (Server.step zone) (Server.Representable zone) ⟨[], 0, []⟩
    [.login "token" 1 0]
    ⟨[⟨"token", 1, zone.format sessionTTL⟩], 0, [("token", 0)]⟩ := by
  have habove := zone.above
  have hbelow := zone.below
  refine .cons ⟨?_, ?_⟩ ?_ .nil
  · unfold Civil.InRange sqliteTime sessionTTL
    omega
  · unfold Civil.InRange sqliteTime sessionTTL
    omega
  · simp [Server.step, createSession]

/-- Elsewhere the cookie of that login is accepted as much too long or too short. -/
theorem accepted_with_offset (zone : Zone) (now : Int) :
    combinedAuth none [⟨"token", 1, zone.format sessionTTL⟩] "" (some "token") now = true ↔
      now < (expiry 0 + zone.seconds) * 1000000000 := by
  have habove := zone.above
  have hbelow := zone.below
  have hrange : Civil.InRange (sqliteTime sessionTTL + zone.seconds) := by
    unfold Civil.InRange sqliteTime sessionTTL
    omega
  have hexp : (Session.mk "token" 1 (zone.format sessionTTL)).expiry =
      sqliteTime sessionTTL + zone.seconds := expiry_of_format hrange rfl
  have hexpiry : expiry 0 = sqliteTime sessionTTL := by rw [expiry, Int.zero_add]
  rw [combinedAuth_cookie (by decide), hexpiry]
  simp [getByToken, hexp]

/-- Sessions last as long as they should exactly if local time is UTC. -/
theorem sessionLifetime_iff_utc (zone : Zone) : SessionLifetime zone ↔ zone.seconds = 0 := by
  refine ⟨fun h => ?_, sessionLifetime_of_utc⟩
  have hlife := (h 0 _ _ (login_path zone)).accepted "token" 0 (List.mem_singleton_self _) none
  have habove := zone.above
  have hexpiry : expiry 0 = 604800 := by decide
  obtain hneg | hzero | hpos := Int.lt_trichotomy zone.seconds 0
  · -- refused while it should last
    have := hlife ((expiry 0 + zone.seconds) * 1000000000) (by dsimp only; omega)
    rw [accepted_with_offset] at this
    omega
  · exact hzero
  · -- accepted when it has ended
    have := hlife (expiry 0 * 1000000000) (by dsimp only; omega)
    rw [accepted_with_offset] at this
    omega

/-- Two hours east of Greenwich. -/
def eastern : Zone := ⟨7200, by decide, by decide⟩

/-- A cookie is still accepted when its session has ended an hour ago. -/
theorem accepted_after_expiry : ¬ SessionLifetime eastern ∧
    combinedAuth none [⟨"token", 1, eastern.format sessionTTL⟩] "" (some "token")
      ((expiry 0 + 3600) * 1000000000) = true := by
  have haccepted : combinedAuth none [⟨"token", 1, eastern.format sessionTTL⟩] "" (some "token")
      ((expiry 0 + 3600) * 1000000000) = true :=
    (accepted_with_offset eastern _).mpr (by decide)
  refine ⟨fun h => ?_, haccepted⟩
  have hlife := (h 0 _ _ (login_path eastern)).accepted "token" 0 (List.mem_singleton_self _) none
  exact absurd ((hlife _ (by decide)).mp haccepted) (by decide)

end Sonarr.Auth
