import Sonarr.Library.Tables

namespace Sonarr
open Lib

/-- The values of `addOptions.monitor`. -/
inductive MonitorMode
  | all
  | none
  | future
  | missing
  | existing
  | pilot
  | firstSeason
  | lastSeason
  deriving DecidableEq, Repr

/-- `validMonitorModes`, and the cases of `ApplyMonitorMode`. -/
def MonitorMode.ofName : String → Option MonitorMode
  | "" | "all" => some .all
  | "none" => some .none
  | "future" => some .future
  | "missing" => some .missing
  | "existing" => some .existing
  | "pilot" => some .pilot
  | "firstSeason" => some .firstSeason
  | "lastSeason" => some .lastSeason
  | _ => Option.none

def maxSeason (eps : List Episode) : Int :=
  eps.foldl (fun m e => if m < e.seasonNumber then e.seasonNumber else m) 0

/-- `decide` of `ApplyMonitorMode`; a stored air date is compared with the clock. -/
def MonitorMode.decide (mode : MonitorMode) (now : Int) (eps : List Episode) (e : Episode) : Bool :=
  match mode with
  | .all => true
  | .none => false
  | .future => e.airDateUtc.any (fun t => now < t * 1000000000)
  | .missing => e.episodeFileID.isNone
  | .existing => e.episodeFileID.isSome
  | .pilot => e.seasonNumber == 1 && e.episodeNumber == 1
  | .firstSeason => e.seasonNumber == 1
  | .lastSeason => e.seasonNumber == maxSeason eps

inductive ApplyError
  | unknownMode (mode : String)
  | setMonitored (episodeID : Nat)
  deriving DecidableEq, Repr

/-- The loop of `ApplyMonitorMode` over the episodes that are left. -/
def applyDecisions (now : Int) (mode : String) (eps : List Episode) :
    List Episode → Library → Except ApplyError Unit × Library
  | [], lib => (.ok (), lib)
  | e :: rest, lib =>
    match MonitorMode.ofName mode with
    | .none => (.error (.unknownMode mode), lib)
    | some m => match lib.setMonitored now e.id (m.decide now eps e) with
      | .none => (.error (.setMonitored e.id), lib)
      | some lib => applyDecisions now mode eps rest lib

def applyMonitorMode (now : Int) (seriesID : Nat) (mode : String) (lib : Library) :
    Except ApplyError Unit × Library :=
  applyDecisions now mode (lib.listForSeries seriesID) (lib.listForSeries seriesID) lib

theorem applyMonitorMode_nil (h : lib.listForSeries seriesID = []) (now : Int) (mode : String) :
    applyMonitorMode now seriesID mode lib = (.ok (), lib) := by
  unfold applyMonitorMode
  rw [h]
  rfl

section MaxSeason

theorem foldl_maxSeason (eps : List Episode) (m : Int) :
    m ≤ eps.foldl (fun m e => if m < e.seasonNumber then e.seasonNumber else m) m ∧
      (∀ e ∈ eps, e.seasonNumber ≤
        eps.foldl (fun m e => if m < e.seasonNumber then e.seasonNumber else m) m) ∧
      (eps.foldl (fun m e => if m < e.seasonNumber then e.seasonNumber else m) m = m ∨
        ∃ e ∈ eps, e.seasonNumber =
          eps.foldl (fun m e => if m < e.seasonNumber then e.seasonNumber else m) m) := by
  induction eps generalizing m with
  | nil => simp
  | cons e eps ih =>
    obtain ⟨hle, hall, hmem⟩ := ih (if m < e.seasonNumber then e.seasonNumber else m)
    rw [List.foldl_cons]
    refine ⟨?_, ?_, ?_⟩
    · grind
    · intro x hx
      rcases List.mem_cons.mp hx with rfl | hx
      · grind
      · exact hall x hx
    · rcases hmem with hinit | ⟨x, hx, hv⟩
      · rw [hinit]
        split
        · exact .inr ⟨e, List.mem_cons_self, rfl⟩
        · exact .inl rfl
      · exact .inr ⟨x, List.mem_cons_of_mem _ hx, hv⟩

/-- All episodes are of the last season when there is one season, not below 0. -/
theorem all_maxSeason_iff (eps : List Episode) :
    (∀ e ∈ eps, e.seasonNumber = maxSeason eps) ↔
      ∀ e ∈ eps, 0 ≤ e.seasonNumber ∧ ∀ e' ∈ eps, e'.seasonNumber = e.seasonNumber := by
  obtain ⟨h0, hle, hmem⟩ := foldl_maxSeason eps 0
  constructor
  · intro h e he
    refine ⟨?_, fun e' he' => ?_⟩
    · rw [h e he]
      exact h0
    · rw [h e he, h e' he']
  · intro h e he
    obtain ⟨hpos, hsame⟩ := h e he
    rcases hmem with hz | ⟨x, hx, hv⟩
    · have hup : e.seasonNumber ≤ maxSeason eps := hle e he
      have hz : maxSeason eps = 0 := hz
      omega
    · exact (hsame x hx).symm.trans hv

end MaxSeason

end Sonarr
