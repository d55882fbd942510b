import Sonarr.Providers.DownloadClient
import Sonarr.Library.History

namespace Sonarr.Providers
open Lib Commands History

/-- Why `Grab` gave up. -/
inductive GrabError
  | listClients
  | noClient (protocol : DownloadProtocol)
  | settings (implementation : String)
  | add (client error : String)
  deriving DecidableEq, Repr

structure ReleasesGrabbed where
  seriesID : Nat
  episodeIDs : List Nat
  title : String
  downloadID : String
  deriving DecidableEq, Repr

/-- One call of a client's `Add`, the series it was for and its answer. -/
structure Sent where
  clientID : Nat
  url : String
  title : String
  seriesID : Nat
  answer : Except String String

/-- What grabbing changes: the clients' own state, the history and the event bus.
`sent` remembers the calls of `Add`. -/
structure World (σ : Type) where
  outside : σ
  now : Int
  history : Store
  events : List ReleasesGrabbed
  sent : List Sent

/-- The configured download clients; no list when the store cannot be read. -/
structure Clients (σ : Type) where
  registry : Registry σ
  instances : Option (List Instance)

/-- One call of `Service.Grab`. -/
structure GrabCall where
  release : Release
  seriesID : Nat
  episodeIDs : List Nat
  qualityName : String
  deriving DecidableEq, Repr

variable {σ : Type}

/-- The enabled instances whose client speaks the protocol. -/
def Registry.speaking (registry : Registry σ) (protocol : DownloadProtocol)
    (all : List Instance) : List Instance :=
  all.filter (fun inst => inst.enable &&
    (registry inst.implementation).any (fun f => f.protocol == protocol))

/-- The instance of least priority value, the first of several. -/
def firstPriority : List Instance → Option Instance
  | [] => none
  | inst :: rest => some (rest.foldl (fun best c => if c.priority < best.priority then c else best) inst)

/-- The instance and client that a release goes to. -/
def Clients.target (clients : Clients σ) (protocol : DownloadProtocol) :
    Except GrabError (Instance × Client σ) :=
  match clients.instances with
  | none => .error .listClients
  | some all => match firstPriority (clients.registry.speaking protocol all) with
    | none => .error (.noClient protocol)
    | some best => match clients.registry.client best with
      | none => .error (.settings best.implementation)
      | some client => .ok (best, client)

theorem Clients.target_client {clients : Clients σ} (h : clients.target p = .ok (best, client)) :
    clients.registry.client best = some client := by
  unfold Clients.target at h
  split at h
  · cases h
  · split at h
    · cases h
    · split at h
      · cases h
      · rename_i hc
        cases h
        exact hc

def grabbedEntry (call : GrabCall) (downloadID : String) (episodeID : Nat) : Entry :=
  { id := 0, episodeID, seriesID := call.seriesID, sourceTitle := call.release.title
    qualityName := call.qualityName, eventType := .grabbed, date := 0, downloadID
    data := "\x7b\x7d" }

/-- One history entry for each episode. -/
def recordGrab (call : GrabCall) (downloadID : String) (now : Int) (store : Store) : Store :=
  call.episodeIDs.foldl (fun st ep => create st now (grabbedEntry call downloadID ep)) store

/-- `Service.Grab`: send the release, then record it and tell the others. -/
def grab (clients : Clients σ) (w : World σ) (call : GrabCall) : Except GrabError Unit × World σ :=
  match clients.target call.release.protocol with
  | .error e => (.error e, w)
  | .ok (best, client) =>
    let (answer, outside) := client.add w.outside call.release.downloadURL call.release.title
    let sent := w.sent ++
      [⟨best.id, call.release.downloadURL, call.release.title, call.seriesID, answer⟩]
    match answer with
    | .error e => (.error (.add best.name e), { w with outside, sent })
    | .ok downloadID =>
      (.ok (), { w with
        outside, sent
        history := recordGrab call downloadID w.now w.history
        events := w.events ++
          [⟨call.seriesID, call.episodeIDs, call.release.title, downloadID⟩] })

/-- Everything a grab can do: nothing, an `Add` that fails, or one that is recorded. -/
theorem grab_cases (clients : Clients σ) (w : World σ) (call : GrabCall) :
    (∃ e, clients.target call.release.protocol = .error e ∧ (grab clients w call).2 = w) ∨
    ∃ best client answer, clients.target call.release.protocol = .ok (best, client) ∧
      (client.add w.outside call.release.downloadURL call.release.title).1 = answer ∧
      (grab clients w call).2.sent =
        w.sent ++
          [⟨best.id, call.release.downloadURL, call.release.title, call.seriesID, answer⟩] ∧
      (grab clients w call).2.now = w.now ∧
      (grab clients w call).2.history = match answer with
        | .error _ => w.history
        | .ok d => recordGrab call d w.now w.history := by
  unfold grab
  cases ht : clients.target call.release.protocol with
  | error e => exact .inl ⟨e, rfl, rfl⟩
  | ok target =>
    obtain ⟨best, client⟩ := target
    refine .inr ⟨best, client, (client.add w.outside call.release.downloadURL call.release.title).1,
      rfl, rfl, ?_⟩
    simp only
    split
    · rename_i e he
      simp [he]
    · rename_i d hd
      simp [hd]

theorem createAll_keeps {f : Nat → Entry} (eps : List Nat) (store : Store) (h : e ∈ store.rows) :
    e ∈ (eps.foldl (fun st ep => create st now (f ep)) store).rows := by
  induction eps generalizing store with
  | nil => exact h
  | cons ep eps ih => exact ih _ (mem_create.mpr (.inl h))

theorem recordGrab_keeps {store : Store} (h : e ∈ store.rows) :
    e ∈ (recordGrab call d now store).rows :=
  createAll_keeps call.episodeIDs store h

theorem mem_createAll {f : Nat → Entry} (eps : List Nat) (store : Store) (hep : ep ∈ eps) :
    ∃ id, { f ep with id, date := sqliteTime now } ∈
      (eps.foldl (fun st ep => create st now (f ep)) store).rows := by
  induction eps generalizing store with
  | nil => cases hep
  | cons x eps ih =>
    rcases List.mem_cons.mp hep with rfl | hep
    · exact ⟨store.next, createAll_keeps eps _ (mem_create.mpr (.inr rfl))⟩
    · exact ih _ hep

theorem of_mem_createAll {f : Nat → Entry} (eps : List Nat) (store : Store)
    (h : e ∈ (eps.foldl (fun st ep => create st now (f ep)) store).rows) :
    e ∈ store.rows ∨ ∃ ep id, e = { f ep with id, date := sqliteTime now } := by
  induction eps generalizing store with
  | nil => exact .inl h
  | cons ep eps ih =>
    rcases ih _ h with h | h
    · rcases mem_create.mp h with h | h
      · exact .inl h
      · exact .inr ⟨ep, store.next, h⟩
    · exact .inr h

/-- Every new entry of a recorded grab has its download id. -/
theorem of_mem_recordGrab {store : Store} (h : e ∈ (recordGrab call d now store).rows) :
    e ∈ store.rows ∨ e.downloadID = d := by
  rcases of_mem_createAll call.episodeIDs store h with h | ⟨ep, id, rfl⟩
  · exact .inl h
  · exact .inr rfl

/-- A recorded grab has an entry for each of its episodes. -/
theorem mem_recordGrab (hep : ep ∈ call.episodeIDs) (store : Store) :
    ∃ e ∈ (recordGrab call d now store).rows, e.episodeID = ep ∧ e.seriesID = call.seriesID ∧
      e.eventType = .grabbed ∧ e.downloadID = d ∧ e.sourceTitle = call.release.title := by
  obtain ⟨id, hm⟩ : ∃ id, { grabbedEntry call d ep with id, date := sqliteTime now } ∈
      (recordGrab call d now store).rows := mem_createAll call.episodeIDs store hep
  exact ⟨_, hm, rfl, rfl, rfl, rfl, rfl⟩

end Sonarr.Providers
