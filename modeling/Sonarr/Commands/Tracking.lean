import Sonarr.Lib.Machine
import Sonarr.Commands.RefreshDownloads
import Sonarr.Providers.Implementations

namespace Sonarr.Commands.Tracking
open Lib Providers History RefreshDownloads

/-- The form of an info hash: forty hexadecimal digits. -/
def isInfoHash (s : String) : Bool :=
  s.toList.length == 40 && s.toList.all (fun c => c.isDigit || "abcdefABCDEF".toList.contains c)

/-- The servers that clients are configured for. A qBittorrent server knows its
torrents by their info hashes; `infoHash` is the hash of the torrent behind a URL. -/
structure Servers (σ : Type) where
  qbDecode : String → Option QBittorrent.Settings
  qb : String → QBittorrent.Api σ
  trDecode : String → Option Transmission.Settings
  tr : String → Transmission.Api σ
  infoHash : String → String
  hashes : ∀ url outside category status torrents,
    ((qb url).info outside category).1 = .ok (status, some torrents) →
      ∀ t ∈ torrents, isInfoHash t.hash = true

variable {σ : Type}

/-- The two torrent clients as they are registered. -/
def Servers.registry (srv : Servers σ) : Registry σ := fun implementation =>
  if implementation = "qBittorrent" then some (QBittorrent.factory srv.qbDecode srv.qb)
  else if implementation = "Transmission" then some (Transmission.factory srv.trDecode srv.tr)
  else none

/-- Releases are grabbed into whatever clients are configured at the time, and
the servers go about their work. -/
inductive Step (σ : Type)
  | grab (instances : Option (List Instance)) (call : GrabCall)
  | elapse (outside : σ) (now : Int)

def step (srv : Servers σ) (w : World σ) : Step σ → Option (World σ)
  | .grab instances call => some (grab ⟨srv.registry, instances⟩ w call).2
  | .elapse outside now => some { w with outside, now }

/-- A download URL does not look like an info hash. -/
def UrlsOnly (_ : World σ) : Step σ → Prop
  | .grab _ call => isInfoHash call.release.downloadURL = false
  | .elapse _ _ => True

def start (outside : σ) (now : Int) : World σ := ⟨outside, now, Table.empty, [], []⟩

/-- The client that a release was sent to lists its torrent with nothing left to
download, under the id that `Add` returned or under its hash. -/
def Finished (srv : Servers σ) (instances : List Instance) (outside : σ) (s : Sent) (d : String) :
    Prop :=
  ∃ inst ∈ instances, inst.id = s.clientID ∧ inst.enable = true ∧
    ∃ client items, srv.registry.client inst = some client ∧
      (client.items outside).1 = .ok items ∧
      ∃ i ∈ items, i.remaining = 0 ∧ (i.downloadID = d ∨ i.downloadID = srv.infoHash s.url)

/-- A new ProcessDownload command for the download and its series. -/
def EnqueuesFor (before after : Db) (d : String) (seriesID : Nat) : Prop :=
  ∃ r ∈ after.rows, r ∉ before.rows ∧ r.name = "ProcessDownload" ∧ r.dedupKey = dedupKey d ∧
    ∃ folder, r.body = ProcessDownload.marshal ⟨folder, seriesID, d⟩

/-- No download id on record looks like an info hash. -/
def NoHashRecorded (store : Store) : Prop := ∀ e ∈ store.rows, isInfoHash e.downloadID = false

theorem natRepr_length {n : Nat} (h : n ≤ 2 ^ 63) : n.repr.length ≤ 19 :=
  Nat.repr_length n 19 (by decide) (by omega)

/-- A number of 64 bits is too short for an info hash. -/
theorem decimal_length (n : Int64) : (decimal n).length ≤ 20 := by
  have hlt := n.toInt_lt
  have hle := n.le_toInt
  unfold decimal
  cases hn : n.toInt with
  | ofNat m =>
    rw [hn, Int.ofNat_eq_natCast] at hlt
    have hm := natRepr_length (n := m) (by omega)
    show m.repr.length ≤ 20
    omega
  | negSucc m =>
    have hm := natRepr_length (n := m + 1) (by omega)
    show ("-" ++ (m + 1).repr).length ≤ 20
    rw [String.length_append]
    have : "-".length = 1 := rfl
    omega

theorem decimal_not_hash (n : Int64) : isInfoHash (decimal n) = false := by
  have h := decimal_length n
  rw [← String.length_toList] at h
  unfold isInfoHash
  have hne : ((decimal n).toList.length == 40) = false := by
    rw [beq_eq_false_iff_ne]
    omega
  rw [hne, Bool.false_and]

section Clients
variable {srv : Servers σ}

/-- A registered client is one of the two. -/
theorem client_cases (h : srv.registry.client inst = some client) :
    (∃ q, client = ⟨QBittorrent.add (srv.qb (QBittorrent.baseURL q)) q,
      QBittorrent.items (srv.qb (QBittorrent.baseURL q)) q⟩) ∨
    ∃ t, client = ⟨Transmission.add (srv.tr (Transmission.rpcURL t)),
      Transmission.items (srv.tr (Transmission.rpcURL t))⟩ := by
  unfold Registry.client Servers.registry at h
  split at h
  · obtain ⟨q, _, rfl⟩ := Option.map_eq_some_iff.mp h
    exact .inl ⟨q, rfl⟩
  · split at h
    · obtain ⟨t, _, rfl⟩ := Option.map_eq_some_iff.mp h
      exact .inr ⟨t, rfl⟩
    · cases h

/-- The id that `Add` returns is the URL or a number. -/
theorem add_not_hash (h : srv.registry.client inst = some client)
    (hu : isInfoHash url = false) (ha : (client.add outside url title).1 = .ok d) :
    isInfoHash d = false := by
  rcases client_cases h with ⟨q, rfl⟩ | ⟨t, rfl⟩
  · obtain rfl := QBittorrent.add_ok title ha
    exact hu
  · obtain ⟨id, rfl⟩ := Transmission.add_ok title ha
    exact decimal_not_hash id

/-- Only qBittorrent can call an item completed, and its ids are hashes. -/
theorem completed_is_hash (h : srv.registry.client inst = some client)
    (hi : (client.items outside).1 = .ok items) (hm : i ∈ items) (hs : i.status = "completed") :
    isInfoHash i.downloadID = true := by
  rcases client_cases h with ⟨q, rfl⟩ | ⟨t, rfl⟩
  · obtain ⟨s, torrents, t, ht, hinfo, rfl⟩ := QBittorrent.items_ok hi hm
    exact srv.hashes _ s q.category 200 torrents hinfo t ht
  · exact absurd hs (Transmission.items_ok hi hm)

theorem step_keeps_noHash {w w' : World σ} {a : Step σ} (hu : UrlsOnly w a)
    (h : step srv w a = some w') (hn : NoHashRecorded w.history) : NoHashRecorded w'.history := by
  cases a with
  | elapse outside now =>
    cases h
    exact hn
  | grab instances call =>
    cases h
    rcases grab_cases ⟨srv.registry, instances⟩ w call with
      ⟨_, _, hw⟩ | ⟨best, client, answer, ht, ha, _, _, hh⟩
    · rw [hw]
      exact hn
    · rw [hh]
      cases answer with
      | error e => exact hn
      | ok d =>
        intro e he
        rcases of_mem_recordGrab he with he | rfl
        · exact hn e he
        · exact add_not_hash (Clients.target_client ht) hu ha

theorem run_noHash {w : World σ} (run : Path (step srv) UrlsOnly (start outside now) steps w) :
    NoHashRecorded w.history :=
  Path.invariant (P := fun w => NoHashRecorded w.history)
    (fun _ _ _ hu h hn => step_keeps_noHash hu h hn) run (fun _ he => nomatch he)

/-- The handler never knows of a completed item. -/
theorem reported_irrelevant {store : Store} (hn : NoHashRecorded store)
    (hr : r ∈ reported srv.registry all outside) : ¬ Relevant store r.2 := by
  rintro ⟨hs, hknown⟩
  obtain ⟨inst, client, outside', items, hc, hi, hm⟩ := mem_reported hr
  have hhash := completed_is_hash hc hi hm hs
  obtain ⟨seriesID, hser⟩ := Option.isSome_iff_exists.mp hknown
  obtain ⟨e, he, _⟩ := Option.map_eq_some_iff.mp hser
  obtain ⟨hrow, hid⟩ := mem_findByDownloadID.mp (List.mem_of_mem_head? he)
  have hno := hn e hrow
  rw [hid, hhash] at hno
  cases hno

end Clients

/-- A finished download of either client is never handed on for import. -/
theorem finished_not_enqueued (srv : Servers σ) (outside : σ) (now : Int) (steps : List (Step σ))
    (w : World σ) (run : Path (step srv) UrlsOnly (start outside now) steps w)
    (instances : List Instance) (later : Int) (b : Books) :
    ∀ s ∈ w.sent, ∀ d, s.answer = .ok d → Finished srv instances w.outside s d →
      ¬ EnqueuesFor b.db
        (handle ⟨srv.registry, some instances⟩ w.history later (w.outside, b)).2.2.db
        d s.seriesID := by
  rintro s _ d _ _ ⟨r, hr, hnew, _⟩
  have hkeep := handleAll_irrelevant w.history later
    (reported srv.registry instances w.outside) b (fun q hq => reported_irrelevant (run_noHash run) hq)
  rw [handle_books] at hr
  exact hnew (hkeep ▸ hr)

/-- A server of each kind that has finished the one torrent it was given. -/
def seedingServers : Servers Unit where
  qbDecode _ := some ⟨"localhost", 8080, "admin", "", "tv", false⟩
  qb _ :=
    { login := fun s _ _ => (.ok (200, some "Ok."), s)
      add := fun s _ _ => (.ok (200, some ()), s)
      info := fun s _ => (.ok (200, some [⟨"0123456789abcdef0123456789abcdef01234567",
        "Breaking.Bad.S01E01.720p-GROUP", "uploading", 500000000, 0, "/downloads"⟩]), s) }
  trDecode _ := some ⟨"localhost", 9091, "", "", "", false⟩
  tr _ :=
    { torrentAdd := fun s id _ => (.ok (if id = "" then ⟨409, "session", none⟩ else
        ⟨200, "", some ⟨"success", .decoded ⟨some ⟨1, "Breaking Bad"⟩, none⟩⟩⟩), s)
      torrentGet := fun s id => (.ok (if id = "" then ⟨409, "session", none⟩ else
        ⟨200, "", some ⟨"success", .decoded
          [⟨1, "Breaking.Bad.S01E01.720p-GROUP", 6, 500000000, 0, "/downloads"⟩]⟩⟩), s) }
  infoHash _ := "0123456789abcdef0123456789abcdef01234567"
  hashes := by
    intro url outside category status torrents h t ht
    cases h
    rw [List.mem_singleton] at ht
    subst ht
    decide

def theGrab : GrabCall :=
  ⟨⟨"Breaking.Bad.S01E01.720p-GROUP", "https://example.com/1.torrent", 500000000, "A", .torrent⟩,
    7, [1], "HDTV-720p"⟩

def seedingInstances (implementation : String) : List Instance :=
  [⟨1, implementation, implementation, "", true, 1⟩]

/-- The world after the grab into a client of that kind. -/
def grabbed (implementation : String) : World Unit :=
  (grab ⟨seedingServers.registry, some (seedingInstances implementation)⟩ (start () 0) theGrab).2

theorem grabbed_run (implementation : String) :
    Path (step seedingServers) UrlsOnly (start () 0)
      [.grab (some (seedingInstances implementation)) theGrab] (grabbed implementation) := by
  have hurl : isInfoHash theGrab.release.downloadURL = false := by decide
  exact .cons hurl rfl .nil

def noBooks : Books := ⟨Table.empty, fun _ => none, []⟩

theorem seeding_in_transmission_not_enqueued :
    Finished seedingServers (seedingInstances "Transmission") (grabbed "Transmission").outside
        ⟨1, "https://example.com/1.torrent", "Breaking.Bad.S01E01.720p-GROUP", 7, .ok "1"⟩ "1" ∧
      ¬ EnqueuesFor noBooks.db (handle ⟨seedingServers.registry,
        some (seedingInstances "Transmission")⟩ (grabbed "Transmission").history 60
        ((grabbed "Transmission").outside, noBooks)).2.2.db "1" 7 := by
  have hf : Finished seedingServers (seedingInstances "Transmission")
      (grabbed "Transmission").outside
      ⟨1, "https://example.com/1.torrent", "Breaking.Bad.S01E01.720p-GROUP", 7, .ok "1"⟩ "1" :=
    ⟨_, List.mem_singleton.mpr rfl, rfl, rfl, _, _, rfl, rfl, _, List.mem_singleton.mpr rfl, rfl,
      .inl (by decide)⟩
  exact ⟨hf, finished_not_enqueued seedingServers () 0 _ _ (grabbed_run "Transmission")
    (seedingInstances "Transmission") 60 noBooks _ (List.mem_singleton.mpr rfl) "1" rfl hf⟩

theorem seeding_in_qbittorrent_not_enqueued :
    ∃ w s d, Path (step seedingServers) UrlsOnly (start () 0)
        [.grab (some (seedingInstances "qBittorrent")) theGrab] w ∧
      s ∈ w.sent ∧ s.answer = .ok d ∧
      Finished seedingServers (seedingInstances "qBittorrent") w.outside s d ∧
      ¬ EnqueuesFor noBooks.db (handle ⟨seedingServers.registry,
        some (seedingInstances "qBittorrent")⟩ w.history 60 (w.outside, noBooks)).2.2.db
        d s.seriesID := by
  refine ⟨grabbed "qBittorrent", _, "https://example.com/1.torrent", grabbed_run "qBittorrent",
    List.mem_singleton.mpr rfl, rfl, ?_, ?_⟩
  · exact ⟨_, List.mem_singleton.mpr rfl, rfl, rfl, _, _, rfl, rfl, _, List.mem_singleton.mpr rfl,
      rfl, .inr rfl⟩
  · rintro ⟨r, hr, _⟩
    have hrows : (handle ⟨seedingServers.registry, some (seedingInstances "qBittorrent")⟩
        (grabbed "qBittorrent").history 60
        ((grabbed "qBittorrent").outside, noBooks)).2.2.db.rows = [] := by decide
    rw [hrows] at hr
    cases hr

end Sonarr.Commands.Tracking
