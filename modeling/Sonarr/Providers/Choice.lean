import Sonarr.Lib.StableSort
import Sonarr.Providers.Grab

namespace Sonarr.Providers
open Lib Commands History

variable {σ : Type}

section Chosen

/-- An enabled instance whose client speaks the protocol. -/
def Suits (registry : Registry σ) (protocol : DownloadProtocol) (inst : Instance) : Prop :=
  inst.enable = true ∧ ∃ f, registry inst.implementation = some f ∧ f.protocol = protocol

/-- Of the instances that suit, the first of least priority value in the order of the list. -/
structure Chosen (registry : Registry σ) (protocol : DownloadProtocol) (all : List Instance)
    (inst : Instance) : Prop where
  suits : Suits registry protocol inst
  first : ∃ before after, all = before ++ inst :: after ∧
    (∀ c ∈ before, Suits registry protocol c → inst.priority < c.priority) ∧
    ∀ c ∈ after, Suits registry protocol c → inst.priority ≤ c.priority

variable {registry : Registry σ} {protocol : DownloadProtocol} {all : List Instance}

end Chosen

section Effects

/-- One call of the history's `Create`, and whether it worked. -/
structure EntryAttempt where
  entry : Entry
  ok : Bool
  deriving DecidableEq, Repr

/-- The history after the attempts. -/
def written (now : Int) (attempts : List EntryAttempt) (store : Store) : Store :=
  attempts.foldl (fun st a => if a.ok then create st now a.entry else st) store

/-- The loop over the episodes. The `n`-th write of a grab fails if `fails n`; that is logged and
passed over. -/
def attemptAll (call : GrabCall) (downloadID : String) (fails : Nat → Bool) :
    Nat → List Nat → List EntryAttempt
  | _, [] => []
  | n, ep :: eps =>
    ⟨grabbedEntry call downloadID ep, !fails n⟩ :: attemptAll call downloadID fails (n + 1) eps

/-- `Service.Grab` with a history whose writes may fail. The attempts to write are its third
result. -/
def grabTrying (fails : Nat → Bool) (clients : Clients σ) (w : World σ) (call : GrabCall) :
    Except GrabError Unit × World σ × List EntryAttempt :=
  match clients.target call.release.protocol with
  | .error e => (.error e, w, [])
  | .ok (best, client) =>
    let (answer, outside) := client.add w.outside call.release.downloadURL call.release.title
    let sent := w.sent ++
      [⟨best.id, call.release.downloadURL, call.release.title, call.seriesID, answer⟩]
    match answer with
    | .error e => (.error (.add best.name e), { w with outside, sent }, [])
    | .ok downloadID =>
      let attempts := attemptAll call downloadID fails 0 call.episodeIDs
      (.ok (), { w with
        outside, sent
        history := written w.now attempts w.history
        events := w.events ++
          [⟨call.seriesID, call.episodeIDs, call.release.title, downloadID⟩] }, attempts)

theorem written_attemptAll (call : GrabCall) (downloadID : String) (now : Int) (n : Nat)
    (eps : List Nat) (store : Store) :
    written now (attemptAll call downloadID (fun _ => false) n eps) store =
      eps.foldl (fun st ep => create st now (grabbedEntry call downloadID ep)) store := by
  induction eps generalizing n store with
  | nil => rfl
  | cons ep eps ih =>
    rw [attemptAll, written, List.foldl_cons, List.foldl_cons]
    exact ih (n + 1) _

/-- Where no write fails, this is the grab that the rest of the development is about. -/
theorem grabTrying_reliable (clients : Clients σ) (w : World σ) (call : GrabCall) :
    grab clients w call = ((grabTrying (fun _ => false) clients w call).1,
      (grabTrying (fun _ => false) clients w call).2.1) := by
  unfold grab grabTrying
  cases clients.target call.release.protocol with
  | error e => rfl
  | ok target =>
    obtain ⟨best, client⟩ := target
    dsimp only
    cases (client.add w.outside call.release.downloadURL call.release.title).1 with
    | error e => rfl
    | ok d =>
      dsimp only
      rw [written_attemptAll]
      rfl

end Effects

end Sonarr.Providers
