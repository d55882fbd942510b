import Sonarr.Commands.Queue
import Sonarr.Lib.Json
import Sonarr.Providers.Grab

namespace Sonarr.Commands.RefreshDownloads
open Lib Providers History

/-- The body of a ProcessDownload command. -/
structure ProcessDownload where
  downloadFolder : String
  seriesID : Nat
  downloadID : String
  deriving DecidableEq, Repr

def ProcessDownload.marshal (b : ProcessDownload) : String :=
  "\x7b\"downloadFolder\":" ++ Json.quote b.downloadFolder ++ ",\"seriesId\":" ++
    toString b.seriesID ++ ",\"downloadId\":" ++ Json.quote b.downloadID ++ "\x7d"

def dedupKey (downloadID : String) : String := "ProcessDownload:" ++ downloadID

/-- What became of a completed item: no grab is known, a command is active for its
id (`own` tells whether one is not for another client's item), or it was enqueued. -/
inductive Outcome
  | unknown
  | duplicate (own : Bool)
  | enqueued (body : ProcessDownload)
  deriving DecidableEq, Repr

structure Attempt where
  clientID : Nat
  item : Item
  outcome : Outcome
  deriving DecidableEq, Repr

/-- The queue as the handler changes it. `owner` remembers for which client's item
a command was enqueued, `log` what became of the completed items. -/
structure Books where
  db : Db
  owner : Nat → Option Nat
  log : List Attempt

/-- Whether an active command with this key is for no other client's item. -/
def owns (db : Db) (owner : Nat → Option Nat) (key : String) (clientID : Nat) : Bool :=
  db.rows.any (fun r => r.dedupKey == key && r.active && (owner r.id).all (fun o => o == clientID))

def Books.note (b : Books) (clientID : Nat) (item : Item) (outcome : Outcome) : Books :=
  { b with log := b.log ++ [⟨clientID, item, outcome⟩] }

def Books.enqueue (b : Books) (now : Int) (clientID : Nat) (body : ProcessDownload) : Books :=
  { b with
    db := b.db.enqueue now "ProcessDownload" body.marshal priorityNormal .scheduled
      (dedupKey body.downloadID)
    owner := Function.update b.owner b.db.next (some clientID) }

/-- One item of a client's queue. The history and the queue are asked about its
bare id. -/
def handleItem (history : Store) (now : Int) (clientID : Nat) (b : Books) (item : Item) : Books :=
  if item.status ≠ "completed" then b
  else match findByDownloadID history item.downloadID with
    | [] => b.note clientID item .unknown
    | entry :: _ =>
      match b.db.findDuplicate (dedupKey item.downloadID) with
      | some _ => b.note clientID item
          (.duplicate (owns b.db b.owner (dedupKey item.downloadID) clientID))
      | none =>
        let body := ⟨item.outputPath, entry.seriesID, item.downloadID⟩
        (b.enqueue now clientID body).note clientID item (.enqueued body)

variable {σ : Type}

def handleInstance (registry : Registry σ) (history : Store) (now : Int) (p : σ × Books)
    (inst : Instance) : σ × Books :=
  if inst.enable = false then p
  else match registry.client inst with
    | none => p
    | some client => match client.items p.1 with
      | (.error _, outside) => (outside, p.2)
      | (.ok items, outside) => (outside, items.foldl (handleItem history now inst.id) p.2)

/-- `RefreshMonitoredDownloadsHandler.Handle`. -/
def handle (clients : Clients σ) (history : Store) (now : Int) (p : σ × Books) :
    Except String Unit × (σ × Books) :=
  match clients.instances with
  | none => (.error "refresh_downloads: list instances", p)
  | some all => (.ok (), all.foldl (handleInstance clients.registry history now) p)

/-- The items that the enabled clients report, each with its client's id. -/
def reported (registry : Registry σ) : List Instance → σ → List (Nat × Item)
  | [], _ => []
  | inst :: rest, outside =>
    if inst.enable = false then reported registry rest outside
    else match registry.client inst with
      | none => reported registry rest outside
      | some client => match client.items outside with
        | (.error _, outside) => reported registry rest outside
        | (.ok items, outside) =>
          items.map (fun i => (inst.id, i)) ++ reported registry rest outside

def allReported (clients : Clients σ) (outside : σ) : List (Nat × Item) :=
  match clients.instances with
  | none => []
  | some all => reported clients.registry all outside

/-- A pass over what was reported. -/
def handleAll (history : Store) (now : Int) (rs : List (Nat × Item)) (b : Books) : Books :=
  rs.foldl (fun b r => handleItem history now r.1 b r.2) b

theorem instances_handleAll (registry : Registry σ) (history : Store) (now : Int)
    (all : List Instance) (outside : σ) (b : Books) :
    (all.foldl (handleInstance registry history now) (outside, b)).2 =
      handleAll history now (reported registry all outside) b := by
  induction all generalizing outside b with
  | nil => rfl
  | cons inst rest ih =>
    rw [List.foldl_cons]
    cases he : inst.enable with
    | false => simpa [handleInstance, reported, he] using ih outside b
    | true =>
      cases hc : registry.client inst with
      | none => simpa [handleInstance, reported, he, hc] using ih outside b
      | some client =>
        rcases hi : client.items outside with ⟨answer, outside'⟩
        cases answer with
        | error e => simpa [handleInstance, reported, he, hc, hi] using ih outside' b
        | ok items =>
          simp only [handleInstance, reported, he, hc, hi, Bool.true_eq_false, if_false, ih]
          unfold handleAll
          rw [List.foldl_append, List.foldl_map]

/-- The queue changes as if all clients had been asked first. -/
theorem handle_books (clients : Clients σ) (history : Store) (now : Int) (outside : σ) (b : Books) :
    (handle clients history now (outside, b)).2.2 =
      handleAll history now (allReported clients outside) b := by
  unfold handle allReported
  cases clients.instances with
  | none => rfl
  | some all => exact instances_handleAll clients.registry history now all outside b

/-- The series an id is taken to be for: that of the newest entry. -/
def seriesFor (history : Store) (downloadID : String) : Option Nat :=
  (findByDownloadID history downloadID).head?.map Entry.seriesID

/-- An item that the handler does something about. -/
def Relevant (history : Store) (item : Item) : Prop :=
  item.status = "completed" ∧ (seriesFor history item.downloadID).isSome

/-- Everything the handler can do about an item. -/
theorem handleItem_cases (history : Store) (now : Int) (clientID : Nat) (b : Books) (item : Item) :
    (¬ Relevant history item ∧ (handleItem history now clientID b item = b ∨
      handleItem history now clientID b item = b.note clientID item .unknown)) ∨
    (Relevant history item ∧ (b.db.findDuplicate (dedupKey item.downloadID)).isSome ∧
      handleItem history now clientID b item = b.note clientID item
        (.duplicate (owns b.db b.owner (dedupKey item.downloadID) clientID))) ∨
    ∃ seriesID, item.status = "completed" ∧ seriesFor history item.downloadID = some seriesID ∧
      b.db.findDuplicate (dedupKey item.downloadID) = none ∧
      handleItem history now clientID b item =
        (b.enqueue now clientID ⟨item.outputPath, seriesID, item.downloadID⟩).note clientID item
          (.enqueued ⟨item.outputPath, seriesID, item.downloadID⟩) := by
  unfold handleItem Relevant seriesFor
  by_cases hs : item.status = "completed"
  · cases hf : findByDownloadID history item.downloadID with
    | nil => exact .inl ⟨by simp, .inr (by simp [hs])⟩
    | cons entry rest =>
      cases hd : b.db.findDuplicate (dedupKey item.downloadID) with
      | some id => exact .inr (.inl ⟨⟨hs, by simp⟩, by simp, by simp [hs]⟩)
      | none => exact .inr (.inr ⟨entry.seriesID, hs, by simp, rfl, by simp [hs]⟩)
  · exact .inl ⟨fun h => hs h.1, .inl (by simp [hs])⟩

/-- Items that nothing is done about leave the queue alone. -/
theorem handleAll_irrelevant (history : Store) (now : Int) (rs : List (Nat × Item)) (b : Books)
    (h : ∀ r ∈ rs, ¬ Relevant history r.2) : (handleAll history now rs b).db = b.db := by
  induction rs generalizing b with
  | nil => rfl
  | cons r rs ih =>
    have hr := h r List.mem_cons_self
    have hrest := ih (handleItem history now r.1 b r.2)
      (fun q hq => h q (List.mem_cons_of_mem _ hq))
    have hdb : (handleItem history now r.1 b r.2).db = b.db := by
      rcases handleItem_cases history now r.1 b r.2 with
        ⟨_, he | he⟩ | ⟨hrel, _⟩ | ⟨_, hs, hf, _⟩
      · rw [he]
      · rw [he]
        rfl
      · exact absurd hrel hr
      · exact absurd ⟨hs, by simp [hf]⟩ hr
    exact hrest.trans hdb

theorem mem_reported {registry : Registry σ} (h : r ∈ reported registry all outside) :
    ∃ inst client outside' items, registry.client inst = some client ∧
      (client.items outside').1 = .ok items ∧ r.2 ∈ items := by
  induction all generalizing outside with
  | nil => cases h
  | cons inst rest ih =>
    unfold reported at h
    split at h
    · exact ih h
    · split at h
      · exact ih h
      · rename_i client hc
        split at h
        · exact ih h
        · rename_i items outside' hi
          rcases List.mem_append.mp h with h | h
          · obtain ⟨i, hm, rfl⟩ := List.mem_map.mp h
            exact ⟨inst, client, outside, items, hc, by rw [hi], hm⟩
          · exact ih h

end Sonarr.Commands.RefreshDownloads
