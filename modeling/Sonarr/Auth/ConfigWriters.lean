import Sonarr.Auth.Initialize
import Sonarr.Migrate.Run

/-! The writers of the host configuration: setting up, the settings page and the migrator.
Each writes the whole row. -/

namespace Sonarr.ConfigWriters
open Lib Auth

/-- The body of `PUT /api/v3/config/general`; a field that is left out is `none`. -/
structure Settings where
  tvdbApiKey : Option String
  authMode : Option String
  deriving DecidableEq, Repr

def applySettings (body : Settings) (hc : HostConfig) : HostConfig :=
  { hc with
    tvdbApiKey := body.tvdbApiKey.getD hc.tvdbApiKey
    authMode := body.authMode.getD hc.authMode }

inductive SettingsResponse
  | failed (status : Nat) (message : String)
  | updated (apiKey authMode tvdbApiKey : String)
  deriving DecidableEq, Repr

/-- How far `handleUpdateSettings` has come with a request. -/
inductive SettingsPhase
  | reading
  | writing (hc : HostConfig)
  | done (response : SettingsResponse)
  deriving DecidableEq, Repr

/-- `announced` are the keys `onTvdbKeyChanged` was called with. -/
structure System where
  auth : Auth.State
  settings : Nat → SettingsPhase
  announced : List String

def start (users : Table User) (hc : HostConfig) : System :=
  ⟨⟨users, some hc, fun _ => .counting⟩, fun _ => .reading, []⟩

inductive Action
  | setup (a : Auth.Action)
  | getSettings (j : Nat) (fault : Option String)
  | putSettings (j : Nat) (fault : Option String)
  | migrate (reads : Migrate.Reads) (opts : Migrate.Options) (env : Migrate.Env)
      (m : Migrate.Migrator)

def notFound : String := "hostconfig: not found"

/-- The requests of the two handlers. A settings body that cannot be decoded is `none`. -/
structure Requests where
  setup : Nat → Auth.Request
  settings : Nat → Option Settings

/-- What follows the read in `handleUpdateSettings`, up to the write. -/
def afterRead (body : Option Settings) (config : Option HostConfig) : Option String → SettingsPhase
  | some e => .done (.failed 500 e)
  | none => match config with
    | none => .done (.failed 500 notFound)
    | some hc => match body with
      | none => .done (.failed 400 "Invalid request body")
      | some body => .writing (applySettings body hc)

def System.goto (s : System) (j : Nat) (phase : SettingsPhase) : System :=
  { s with settings := Function.update s.settings j phase }

/-- The API-key step of a migration into this database. -/
def migrated (s : System) (reads : Migrate.Reads) (opts : Migrate.Options) (env : Migrate.Env)
    (m : Migrate.Migrator) : Option HostConfig :=
  match Migrate.migrateAPIKey reads opts env
      { m with dest := { m.dest with config := s.auth.config } } with
  | .ok m => m.dest.config
  | .error _ => s.auth.config

def step (requests : Requests) (s : System) : Action → Option System
  | .setup a =>
    (Auth.step requests.setup s.auth a).map (fun auth => { s with auth })
  | .getSettings j fault => match s.settings j with
    | .reading => some (s.goto j (afterRead (requests.settings j) s.auth.config fault))
    | _ => none
  | .putSettings j fault => match s.settings j with
    | .writing hc => some (match fault with
      | some e => s.goto j (.done (.failed 500 e))
      | none =>
        { s.goto j (.done (.updated hc.apiKey hc.authMode hc.tvdbApiKey)) with
          auth := { s.auth with config := some hc }
          announced := s.announced ++
            if ((requests.settings j).bind Settings.tvdbApiKey).isSome then [hc.tvdbApiKey]
            else [] })
    | _ => none
  | .migrate reads opts env m =>
    some { s with auth := { s.auth with config := migrated s reads opts env m } }

/-- What a write may change of the stored configuration: everything else stays, and a key is
not replaced by none. -/
structure Framed (key mode tvdb : Prop) (hc hc' : HostConfig) : Prop where
  apiKey : ¬ key → hc'.apiKey = hc.apiKey
  keyed : hc.apiKey ≠ "" → hc'.apiKey ≠ ""
  authMode : ¬ mode → hc'.authMode = hc.authMode
  tvdbApiKey : ¬ tvdb → hc'.tvdbApiKey = hc.tvdbApiKey
  migrationState : hc'.migrationState = hc.migrationState
  recycleBin : hc'.recycleBin = hc.recycleBin
  recycleBinCleanupDays : hc'.recycleBinCleanupDays = hc.recycleBinCleanupDays

theorem Framed.refl (key mode tvdb : Prop) (hc : HostConfig) : Framed key mode tvdb hc hc where
  apiKey _ := rfl
  keyed h := h
  authMode _ := rfl
  tvdbApiKey _ := rfl
  migrationState := rfl
  recycleBin := rfl
  recycleBinCleanupDays := rfl

/-- What each writer is there to change: setting up the mode, the settings what their body
names, the migrator the key and the mode. -/
def Frame (requests : Requests) : Action → HostConfig → HostConfig → Prop
  | .setup _ => Framed False True False
  | .getSettings _ _ => Framed False False False
  | .putSettings j _ =>
    Framed False (∃ body, requests.settings j = some body ∧ body.authMode ≠ none)
      (∃ body, requests.settings j = some body ∧ body.tvdbApiKey ≠ none)
  | .migrate _ _ _ _ => Framed True True False

/-- The requests that have read the configuration and not written it yet. -/
def SetupPending (s : System) (i : Nat) : Prop := ∃ u hc, s.auth.phases i = .upserting u hc

def SettingsPending (s : System) (j : Nat) : Prop := ∃ hc, s.settings j = .writing hc

/-- The key a migration writes, if it writes. -/
def migrationKey (reads : Migrate.Reads) (opts : Migrate.Options) (env : Migrate.Env) :
    Option String :=
  if opts.dryRun ∨ env.configError.isSome then none else reads.apiKey

/-- No write between another request's read and write; no failed read before setting up
writes; a migration brings a key and finds nothing but a key and a mode. -/
def Undisturbed (s : System) : Action → Prop
  | .setup (.getConfig _ fault) => fault = none
  | .setup (.upsertConfig i _) =>
    (∀ i', i' ≠ i → ¬ SetupPending s i') ∧ ∀ j, ¬ SettingsPending s j
  | .putSettings j _ => (∀ i, ¬ SetupPending s i) ∧ ∀ j', j' ≠ j → ¬ SettingsPending s j'
  | .migrate reads opts env _ => ∀ key, migrationKey reads opts env = some key →
    (∀ i, ¬ SetupPending s i) ∧ (∀ j, ¬ SettingsPending s j) ∧
    ∀ hc, s.auth.config = some hc → (hc.apiKey ≠ "" → key ≠ "") ∧ hc.migrationState = "" ∧
      hc.tvdbApiKey = "" ∧ hc.recycleBin = "" ∧ hc.recycleBinCleanupDays = 0
  | _ => True

variable {requests : Requests} {s t : System} {a : Action}

/-- What is about to be written is the stored configuration with the writer's own change. -/
structure Fresh (requests : Requests) (s : System) (stored : HostConfig) : Prop where
  config : s.auth.config = some stored
  setup : ∀ i u hc, s.auth.phases i = .upserting u hc →
    hc = { stored with authMode := "forms" }
  settings : ∀ j hc, s.settings j = .writing hc →
    ∃ body, requests.settings j = some body ∧ hc = applySettings body stored

theorem fresh_start (users : Table User) (hc : HostConfig) :
    Fresh requests (start users hc) hc where
  config := rfl
  setup i u hc h := by cases h
  settings j hc h := by cases h

theorem migrated_eq (s : System) (reads : Migrate.Reads) (opts : Migrate.Options)
    (env : Migrate.Env) (m : Migrate.Migrator) : migrated s reads opts env m =
      match migrationKey reads opts env with
      | some key => some { HostConfig.zero with apiKey := key, authMode := "none" }
      | none => s.auth.config := by
  unfold migrated migrationKey Migrate.migrateAPIKey
  cases reads.apiKey with
  | none => simp
  | some key =>
    cases opts.dryRun with
    | true => simp
    | false => cases env.configError <;> simp

theorem applySettings_framed (body : Settings) (hc : HostConfig) :
    Framed False (body.authMode ≠ none) (body.tvdbApiKey ≠ none) hc (applySettings body hc) where
  apiKey _ := rfl
  keyed h := h
  authMode h := by simp [applySettings, not_not.mp h]
  tvdbApiKey h := by simp [applySettings, not_not.mp h]
  migrationState := rfl
  recycleBin := rfl
  recycleBinCleanupDays := rfl

/-- What a step of setting up does to the configuration and to the writes to come. -/
theorem setup_step_cases {x : Auth.Action} (h : Auth.step r u x = some v) :
    (v.config = u.config ∧ ∃ i phase, v.phases = Function.update u.phases i phase ∧
      ∀ name hc, phase = .upserting name hc →
        ∃ fault, x = .getConfig i fault ∧ hc = { readConfig u fault with authMode := "forms" }) ∨
    ∃ i name hc, x = .upsertConfig i none ∧ u.phases i = .upserting name hc ∧
      v.config = some hc ∧ v.phases = Function.update u.phases i (.responding name) := by
  cases x with
  | count i fault =>
    simp only [Auth.step] at h
    split at h <;> cases h
    refine .inl ⟨rfl, i, _, rfl, ?_⟩
    intro name hc hphase
    unfold afterCount at hphase
    split at hphase
    · cases hphase
    · split at hphase
      · cases hphase
      · split at hphase <;> cases hphase
  | create i fault =>
    simp only [Auth.step] at h
    split at h <;> cases h
    split
    · exact .inl ⟨rfl, i, _, rfl, fun _ _ hphase => by cases hphase⟩
    · split <;> exact .inl ⟨rfl, i, _, rfl, fun _ _ hphase => by cases hphase⟩
  | getConfig i fault =>
    simp only [Auth.step] at h
    split at h <;> cases h
    exact .inl ⟨rfl, i, _, rfl, fun _ _ hphase => by cases hphase; exact ⟨fault, rfl, rfl⟩⟩
  | upsertConfig i fault =>
    simp only [Auth.step] at h
    split at h
    · rename_i name hc hphase
      cases h
      cases fault with
      | some e => exact .inl ⟨rfl, i, _, rfl, fun _ _ hphase => by cases hphase⟩
      | none => exact .inr ⟨i, name, hc, rfl, hphase, rfl, rfl⟩
    · cases h
  | getAPIKey i fault =>
    simp only [Auth.step] at h
    split at h <;> cases h
    exact .inl ⟨rfl, i, _, rfl, fun _ _ hphase => by cases hphase⟩

/-- One step keeps the pending writes fresh and changes what its writer may change. -/
theorem Fresh.step (h : Fresh requests s stored) (hguard : Undisturbed s a)
    (hstep : step requests s a = some t) :
    ∃ stored', Fresh requests t stored' ∧ Frame requests a stored stored' := by
  cases a with
  | setup x =>
    obtain ⟨auth, hauth, rfl⟩ := Option.map_eq_some_iff.mp hstep
    rcases setup_step_cases hauth with ⟨hconfig, i, phase, hphases, hpending⟩ |
      ⟨i, name, hc, rfl, hphase, hconfig, hphases⟩
    · refine ⟨stored, ⟨hconfig.trans h.config, ?_, h.settings⟩, Framed.refl ..⟩
      intro i' u hc hup
      change auth.phases i' = _ at hup
      rw [hphases] at hup
      by_cases hi : i' = i
      · subst hi
        rw [Function.update_self] at hup
        obtain ⟨fault, rfl, rfl⟩ := hpending u hc hup
        cases hguard
        simp [readConfig, h.config]
      · rw [Function.update_of_ne hi] at hup
        exact h.setup i' u hc hup
    · obtain ⟨hsetup, hsettings⟩ := hguard
      refine ⟨hc, ⟨hconfig, ?_, fun j hc' hw => absurd ⟨hc', hw⟩ (hsettings j)⟩, ?_⟩
      · intro i' u hc' hup
        change auth.phases i' = _ at hup
        rw [hphases] at hup
        by_cases hi : i' = i
        · subst hi
          rw [Function.update_self] at hup
          cases hup
        · rw [Function.update_of_ne hi] at hup
          exact absurd ⟨u, hc', hup⟩ (hsetup i' hi)
      · rw [h.setup i name hc hphase]
        exact ⟨fun _ => rfl, fun h => h, fun h => absurd trivial h, fun _ => rfl, rfl, rfl, rfl⟩
  | getSettings j fault =>
    simp only [ConfigWriters.step] at hstep
    split at hstep <;> cases hstep
    refine ⟨stored, ⟨h.config, h.setup, ?_⟩, Framed.refl ..⟩
    intro j' hc hw
    by_cases hj : j' = j
    · subst hj
      simp only [System.goto, Function.update_self, h.config] at hw
      cases fault with
      | some e => cases hw
      | none =>
        cases hbody : requests.settings j' with
        | none => simp [afterRead, hbody] at hw
        | some body =>
          simp only [afterRead, hbody, SettingsPhase.writing.injEq] at hw
          exact ⟨body, rfl, hw.symm⟩
    · simp only [System.goto, Function.update_of_ne hj] at hw
      exact h.settings j' hc hw
  | putSettings j fault =>
    obtain ⟨hsetup, hsettings⟩ := hguard
    simp only [ConfigWriters.step] at hstep
    split at hstep
    · rename_i hc hphase
      obtain ⟨body, hbody, rfl⟩ := h.settings j hc hphase
      have hothers : ∀ phase, (∀ hc, phase ≠ SettingsPhase.writing hc) → ∀ j' hc',
          Function.update s.settings j phase j' ≠ .writing hc' := by
        intro phase hdone j' hc' hw
        by_cases hj : j' = j
        · subst hj
          rw [Function.update_self] at hw
          exact hdone hc' hw
        · rw [Function.update_of_ne hj] at hw
          exact hsettings j' hj ⟨hc', hw⟩
      cases hstep
      cases fault with
      | some e =>
        exact ⟨stored, ⟨h.config, h.setup,
          fun j' hc' hw => absurd hw (hothers _ (by simp) j' hc')⟩, Framed.refl ..⟩
      | none =>
        refine ⟨applySettings body stored, ⟨rfl, fun i u hc' hup => absurd ⟨u, hc', hup⟩ (hsetup i),
          fun j' hc' hw => absurd hw (hothers _ (by simp) j' hc')⟩, ?_⟩
        simpa [Frame, hbody] using applySettings_framed body stored
    · cases hstep
  | migrate reads opts env m =>
    cases hstep
    cases hkey : migrationKey reads opts env with
    | none =>
      refine ⟨stored, ⟨?_, h.setup, h.settings⟩, Framed.refl ..⟩
      simpa [migrated_eq, hkey] using h.config
    | some key =>
      obtain ⟨hsetup, hsettings, hempty⟩ := hguard key hkey
      obtain ⟨hnonempty, hstate, htvdb, hbin, hdays⟩ := hempty stored h.config
      refine ⟨{ HostConfig.zero with apiKey := key, authMode := "none" },
        ⟨by simp [migrated_eq, hkey], fun i u hc hup => absurd ⟨u, hc, hup⟩ (hsetup i),
          fun j hc hw => absurd ⟨hc, hw⟩ (hsettings j)⟩, ?_⟩
      exact ⟨fun h => absurd trivial h, hnonempty, fun h => absurd trivial h, fun _ => htvdb.symm,
        hstate.symm, hbin.symm, hdays.symm⟩

/-- What a whole run keeps: the key is there if it was, three fields are as they were, and so
is the TVDB key if no settings body names one. -/
structure Kept (requests : Requests) (as : List Action) (hc hc' : HostConfig) : Prop where
  keyed : hc.apiKey ≠ "" → hc'.apiKey ≠ ""
  migrationState : hc'.migrationState = hc.migrationState
  recycleBin : hc'.recycleBin = hc.recycleBin
  recycleBinCleanupDays : hc'.recycleBinCleanupDays = hc.recycleBinCleanupDays
  tvdbApiKey : (∀ j fault body, .putSettings j fault ∈ as → requests.settings j = some body →
    body.tvdbApiKey = none) → hc'.tvdbApiKey = hc.tvdbApiKey

theorem Kept.refl (requests : Requests) (hc : HostConfig) : Kept requests [] hc hc :=
  ⟨fun h => h, rfl, rfl, rfl, fun _ => rfl⟩

theorem Kept.cons (hframe : Frame requests a hc hc') (hkept : Kept requests as hc' hc'') :
    Kept requests (a :: as) hc hc'' := by
  have hrest : ∀ key mode tvdb, Framed key mode tvdb hc hc' →
      ((∀ j fault body, .putSettings j fault ∈ a :: as → requests.settings j = some body →
        body.tvdbApiKey = none) → ¬ tvdb) → Kept requests (a :: as) hc hc'' := by
    intro key mode tvdb hf htvdb
    refine ⟨fun h => hkept.keyed (hf.keyed h), hkept.migrationState.trans hf.migrationState,
      hkept.recycleBin.trans hf.recycleBin,
      hkept.recycleBinCleanupDays.trans hf.recycleBinCleanupDays, ?_⟩
    intro hnone
    rw [hkept.tvdbApiKey (fun j fault body hm => hnone j fault body (List.mem_cons_of_mem _ hm))]
    exact hf.tvdbApiKey (htvdb hnone)
  cases a with
  | setup x => exact hrest _ _ _ hframe (fun _ h => h)
  | migrate reads opts env m => exact hrest _ _ _ hframe (fun _ h => h)
  | getSettings j fault => exact hrest _ _ _ hframe (fun _ h => h)
  | putSettings j fault =>
    refine hrest _ _ _ hframe ?_
    intro hnone ⟨body, hbody, htvdb⟩
    exact htvdb (hnone j fault body List.mem_cons_self hbody)

theorem Fresh.path (h : Fresh requests s stored)
    (hpath : Path (ConfigWriters.step requests) Undisturbed s as t) :
    ∃ stored', Fresh requests t stored' ∧ Kept requests as stored stored' := by
  induction hpath generalizing stored with
  | nil => exact ⟨stored, h, .refl requests stored⟩
  | cons hguard hstep _ ih =>
    obtain ⟨middle, hfresh, hframe⟩ := h.step hguard hstep
    obtain ⟨stored', hfresh', hkept⟩ := ih hfresh
    exact ⟨stored', hfresh', hkept.cons hframe⟩

/-- In a run whose writes are undisturbed every step changes at most what its writer is there
to change, and the rest of the configuration is what it was at the start. -/
theorem config_writes_keep_frame (requests : Requests) (users : Table User) (hc : HostConfig)
    (hpath : Path (ConfigWriters.step requests) Undisturbed (start users hc) as s)
    (hguard : Undisturbed s a) (hstep : ConfigWriters.step requests s a = some t) :
    ∃ stored stored', s.auth.config = some stored ∧ Kept requests as hc stored ∧
      t.auth.config = some stored' ∧ Frame requests a stored stored' := by
  obtain ⟨stored, hfresh, hkept⟩ := (fresh_start users hc).path hpath
  obtain ⟨stored', hfresh', hframe⟩ := hfresh.step hguard hstep
  exact ⟨stored, stored', hfresh.config, hkept, hfresh'.config, hframe⟩

/-- A configuration with everything set, for runs on fixed requests: an administrator sets up,
and of two settings bodies one names the TVDB key and one the mode. -/
def configured : HostConfig := ⟨"key", "none", "clean", "tvdb", "/trash", 7⟩

def twoSettings : Requests where
  setup := fun _ => ⟨some ⟨"alice", "secret"⟩, .ok "$2a$10$alice"⟩
  settings := fun j => if j = 0 then some ⟨some "new", none⟩ else some ⟨none, some "forms"⟩

def otherKey : Migrate.Reads :=
  ⟨some "other", .ok [], .ok [], .ok [], .ok [], .ok [], .ok [], .ok [], .ok [], .ok []⟩

def configAfter (as : List Action) : Option (Option HostConfig) :=
  (exec (ConfigWriters.step twoSettings) (start .empty configured) as).map (fun s => s.auth.config)

theorem config_writes_keep_frame_settings :
    ∃ stored', Frame twoSettings (.putSettings 0 none) configured stored' ∧
      stored'.tvdbApiKey = "new" := by
  have hread : Path (ConfigWriters.step twoSettings) Undisturbed (start .empty configured)
      [.getSettings 0 none] ((start .empty configured).goto 0
        (.writing { configured with tvdbApiKey := "new" })) := .cons trivial rfl .nil
  have hguard : Undisturbed ((start .empty configured).goto 0
      (.writing { configured with tvdbApiKey := "new" })) (.putSettings 0 none) := by
    refine ⟨fun i ⟨u, hc, hup⟩ => ?_, fun j hj ⟨hc, hw⟩ => ?_⟩
    · cases hup
    · simp only [System.goto, Function.update_of_ne hj] at hw
      cases hw
  obtain ⟨stored, stored', hs, _, ht, hframe⟩ :=
    config_writes_keep_frame twoSettings .empty configured hread hguard rfl
  cases Option.some.inj hs
  cases Option.some.inj ht
  exact ⟨_, hframe, rfl⟩

/-- Setting up after a failed read leaves no key, a migration leaves nothing but its key, and
of two settings read at once the second one takes the first one back. -/
theorem config_fields_lost :
    configAfter [.setup (.count 0 none), .setup (.create 0 none),
        .setup (.getConfig 0 (some "database is locked")), .setup (.upsertConfig 0 none)] =
      some (some ⟨"", "forms", "", "", "", 0⟩) ∧
    configAfter [.migrate otherKey ⟨[], false, false⟩ ⟨fun _ _ => false, fun _ _ => 0, none⟩
        (.start .empty)] = some (some ⟨"other", "none", "", "", "", 0⟩) ∧
    configAfter [.getSettings 0 none, .getSettings 1 none, .putSettings 0 none,
        .putSettings 1 none] = some (some { configured with authMode := "forms" }) := by
  refine ⟨by decide, by rfl, by decide⟩

end Sonarr.ConfigWriters
