import Sonarr.Lib.StableSort
import Sonarr.Lib.Table
import Sonarr.Commands.Queue

namespace Sonarr.History
open Lib Commands

inductive EventType
  | grabbed
  | downloadImported
  | downloadFailed
  | episodeRenamed
  | episodeFileDeleted
  deriving DecidableEq, Repr

/-- A row of `history`; dates are whole seconds. -/
structure Entry where
  id : Nat
  episodeID : Nat
  seriesID : Nat
  sourceTitle : String
  qualityName : String
  eventType : EventType
  date : Int
  downloadID : String
  data : String
  deriving DecidableEq, Repr

instance : Keyed Entry := ⟨Entry.id⟩

abbrev Store := Table Entry

theorem entry_key (e : Entry) (id : Nat) : Keyed.key { e with id } = id := rfl

/-- `CreateHistoryEntry`: the id and the date are the table's. -/
def create (store : Store) (now : Int) (entry : Entry) : Store :=
  store.insert (fun id => { entry with id, date := sqliteTime now })
    (fun id => entry_key { entry with date := sqliteTime now } id)

/-- `ORDER BY date DESC`; entries of one second come in row order. -/
def newer (a b : Entry) : Bool := decide (b.date < a.date)

def findByDownloadID (store : Store) (downloadID : String) : List Entry :=
  stableSort newer (store.rows.filter (fun e => e.downloadID == downloadID))

def listAll (store : Store) : List Entry := stableSort newer store.rows

theorem mem_findByDownloadID {store : Store} :
    e ∈ findByDownloadID store d ↔ e ∈ store.rows ∧ e.downloadID = d := by
  unfold findByDownloadID stableSort
  rw [(List.perm_insertionSort _ _).mem_iff, List.mem_filter]
  simp

theorem mem_create {store : Store} :
    e ∈ (create store now entry).rows ↔
      e ∈ store.rows ∨ e = { entry with id := store.next, date := sqliteTime now } := by
  unfold create
  exact Table.mem_insert

end Sonarr.History
