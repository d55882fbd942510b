import Sonarr.Api.Series
import Sonarr.Commands.NewEpisodes

namespace Sonarr.Api
open Lib Commands Commands.RefreshSeries

section Create
variable {lib : Library}

theorem upsertSeason_getD (h : lib.Constraints) (s : Season) :
    ((lib.upsertSeason s).getD lib).Constraints ∧
      ((lib.upsertSeason s).getD lib).series = lib.series ∧
      ((lib.upsertSeason s).getD lib).episodes = lib.episodes := by
  cases hu : lib.upsertSeason s with
  | none => exact ⟨h, rfl, rfl⟩
  | some lib' =>
    have hcon := h.upsertSeason hu
    unfold Library.upsertSeason at hu
    split at hu
    · cases hu
      exact ⟨hcon, rfl, rfl⟩
    · cases hu

theorem upsertSeasons_spec (h : lib.Constraints) (seriesID : Nat) (seasons : List (Int × Bool)) :
    (upsertSeasons seriesID seasons lib).Constraints ∧
      (upsertSeasons seriesID seasons lib).series = lib.series ∧
      (upsertSeasons seriesID seasons lib).episodes = lib.episodes := by
  induction seasons generalizing lib with
  | nil => exact ⟨h, rfl, rfl⟩
  | cons s seasons ih =>
    obtain ⟨hstep, hser, heps⟩ := upsertSeason_getD h ⟨seriesID, toInt32 s.1, s.2⟩
    obtain ⟨hcon, hser', heps'⟩ := ih hstep
    exact ⟨hcon, hser'.trans hser, heps'.trans heps⟩

/-- A new series has an id that no episode refers to. -/
theorem listForSeries_next (h : lib.Constraints) : lib.listForSeries lib.series.next = [] := by
  rw [List.eq_nil_iff_forall_not_mem]
  intro e he
  obtain ⟨hm, hs⟩ := Library.mem_listForSeries.mp he
  obtain ⟨s, hs', hid⟩ := Library.hasSeries_iff.mp (h.episodeOwned e hm)
  have hbelow : s.id < lib.series.next := lib.series.below s hs'
  omega

/-- A series that was created has no episodes yet, so its monitor mode has none to
be applied to. -/
theorem create_created (h : lib.Constraints)
    (hr : (create now input lib).response = .created s seasons) :
    (create now input lib).library.Constraints ∧
      (create now input lib).library.series.get s.id = some s ∧ s.tvdbID = input.tvdbID ∧
      (create now input lib).library.listForSeries s.id = [] := by
  unfold create at hr ⊢
  cases hinvalid : input.addOptions.filter AddOptionsInput.invalid with
  | some o =>
    rw [hinvalid] at hr
    cases hr
  | none => cases hc : lib.createSeries input.series with
    | none =>
      rw [hinvalid, hc] at hr
      cases hr
    | some made =>
      obtain ⟨s', lib'⟩ := made
      rw [hinvalid, hc] at hr
      obtain ⟨hs, _, hlib, _, hrows⟩ := Library.createSeries_some hc
      obtain ⟨hcon, hseries, heps⟩ := upsertSeasons_spec (h.createSeries hc) s'.id input.seasons
      have hnone : (upsertSeasons s'.id input.seasons lib').listForSeries s'.id = [] := by
        have hempty := listForSeries_next h
        unfold Library.listForSeries at hempty ⊢
        rw [heps, hlib, hs]
        exact hempty
      have happly : (applyOptions now s'.id input.addOptions
          (upsertSeasons s'.id input.seasons lib')).2 = upsertSeasons s'.id input.seasons lib' := by
        cases input.addOptions with
        | none => rfl
        | some o =>
          have hdone := applyMonitorMode_nil hnone now o.monitor
          simp only [applyOptions, hdone]
      simp only [Response.created.injEq] at hr
      obtain ⟨rfl, _⟩ := hr
      simp only [happly]
      refine ⟨hcon, ?_, ?_, hnone⟩
      · rw [hseries]
        exact Table.get_eq_some.mpr ⟨(hrows s').mpr (.inr rfl), rfl⟩
      · rw [hs]
        rfl

end Create

/-- The episodes that the metadata source has for a series. -/
def offered (source : Source) (tvdbID : Int) : List EpisodeInfo :=
  match source.getSeries tvdbID, source.getEpisodes tvdbID with
  | .ok _, .ok episodes => episodes
  | _, _ => []

theorem listed_of_get {lib : Library} (h : lib.series.get seriesID = some s) (source : Source) :
    listed source seriesID lib = offered source s.tvdbID := by
  unfold listed
  rw [h]
  rfl

/-- Every episode of the series is monitored as the mode decides. -/
def Honoured (mode : MonitorMode) (now : Int) (seriesID : Nat) (lib : Library) : Prop :=
  ∀ e ∈ lib.listForSeries seriesID,
    e.monitored = mode.decide now (lib.listForSeries seriesID) e

/-- The metadata has no episode that the mode leaves out. -/
def LeavesNoneOut (mode : MonitorMode) (now : Int) (episodes : List EpisodeInfo) : Prop :=
  match mode with
  | .all | .missing => True
  | .none | .existing => episodes = []
  | .future => ∀ ep, FirstListed episodes ep →
      ∃ t, ep.airDate = some t ∧ now < sqliteTime t * 1000000000
  | .pilot => ∀ ep ∈ episodes, ep.numbers = (1, 1)
  | .firstSeason => ∀ ep ∈ episodes, ep.numbers.1 = 1
  | .lastSeason => ∀ ep ∈ episodes, 0 ≤ ep.numbers.1 ∧
      ∀ ep' ∈ episodes, ep'.numbers.1 = ep.numbers.1

section Modes
variable {lib : Library} {episodes : List EpisodeInfo} (h : FreshRows seriesID episodes lib)
include h

/-- What holds of all rows of the series holds of all episodes that one was created for. -/
theorem forall_listForSeries_iff {P : Episode → Prop} {Q : EpisodeInfo → Prop}
    (hPQ : ∀ ep r, CreatedFor seriesID ep r → (P r ↔ Q ep)) :
    (∀ e ∈ lib.listForSeries seriesID, P e) ↔ ∀ ep, FirstListed episodes ep → Q ep := by
  constructor
  · intro hall ep hep
    obtain ⟨r, hr, hc⟩ := h.rows ep hep
    have hs : r.seriesID = seriesID := congrArg Prod.fst hc.pair
    exact (hPQ ep r hc).mp (hall r (Library.mem_listForSeries.mpr ⟨hr, hs⟩))
  · intro hall e he
    obtain ⟨hm, hs⟩ := Library.mem_listForSeries.mp he
    obtain ⟨ep, hep, hc⟩ := h.made e hm hs
    exact (hPQ ep e hc).mpr (hall ep hep)

/-- Numbers are those of an episode that comes first. -/
theorem forall_numbers_iff {P : Episode → Prop} {Q : Int × Int → Prop}
    (hPQ : ∀ ep r, CreatedFor seriesID ep r → (P r ↔ Q ep.numbers)) :
    (∀ e ∈ lib.listForSeries seriesID, P e) ↔ ∀ ep ∈ episodes, Q ep.numbers := by
  rw [forall_listForSeries_iff h hPQ]
  constructor
  · intro hall ep hep
    obtain ⟨x, hx, hn⟩ := exists_firstListed hep
    exact hn ▸ hall x hx
  · exact fun hall ep hep => hall ep hep.mem

theorem honoured_iff_decide (mode : MonitorMode) (now : Int) :
    Honoured mode now seriesID lib ↔ ∀ e ∈ lib.listForSeries seriesID,
      mode.decide now (lib.listForSeries seriesID) e = true := by
  refine forall₂_congr fun e he => ?_
  obtain ⟨hm, hs⟩ := Library.mem_listForSeries.mp he
  obtain ⟨ep, _, hc⟩ := h.made e hm hs
  rw [hc.monitored]
  exact eq_comm

/-- Every episode of a series that was just refreshed for the first time is monitored. -/
theorem honoured_iff (mode : MonitorMode) (now : Int) :
    Honoured mode now seriesID lib ↔ LeavesNoneOut mode now episodes := by
  rw [honoured_iff_decide h]
  have hempty : (∀ ep ∈ episodes, False) ↔ episodes = [] :=
    List.eq_nil_iff_forall_not_mem.symm
  cases mode with
  | all => simp [MonitorMode.decide, LeavesNoneOut]
  | none =>
    simp only [MonitorMode.decide, LeavesNoneOut, ← hempty]
    exact forall_numbers_iff (P := fun _ => false = true) (Q := fun _ => False) h
      fun _ _ _ => by simp
  | future =>
    simp only [MonitorMode.decide, LeavesNoneOut]
    refine forall_listForSeries_iff h fun ep r hc => ?_
    rw [hc.airDate]
    cases ep.airDate <;> simp
  | missing =>
    simp only [MonitorMode.decide, LeavesNoneOut, iff_true]
    intro e he
    obtain ⟨hm, hs⟩ := Library.mem_listForSeries.mp he
    obtain ⟨ep, _, hc⟩ := h.made e hm hs
    rw [hc.file]
    rfl
  | existing =>
    simp only [MonitorMode.decide, LeavesNoneOut, ← hempty]
    exact forall_numbers_iff (Q := fun _ => False) h fun ep r hc => by simp [hc.file]
  | pilot =>
    simp only [MonitorMode.decide, LeavesNoneOut]
    refine forall_numbers_iff (Q := fun n => n = (1, 1)) h fun ep r hc => ?_
    rw [hc.season, hc.number, Prod.ext_iff]
    simp
  | firstSeason =>
    simp only [MonitorMode.decide, LeavesNoneOut]
    refine forall_numbers_iff (Q := fun n => n.1 = 1) h fun ep r hc => ?_
    rw [hc.season]
    simp
  | lastSeason =>
    simp only [MonitorMode.decide, LeavesNoneOut, beq_iff_eq]
    rw [all_maxSeason_iff]
    refine forall_numbers_iff (Q := fun n => 0 ≤ n.1 ∧ ∀ ep' ∈ episodes, ep'.numbers.1 = n.1) h
      fun ep r hc => ?_
    rw [hc.season]
    refine and_congr_right fun _ => ?_
    exact forall_numbers_iff (Q := fun n => n.1 = ep.numbers.1) h fun ep' r' hc' => by
      rw [hc'.season]

end Modes

theorem FreshRows.start {lib : Library} (howner : lib.hasSeries seriesID = true)
    (hnone : lib.listForSeries seriesID = []) : FreshRows seriesID [] lib where
  owner := howner
  made := by
    intro r hr hs
    have hin := Library.mem_listForSeries.mpr ⟨hr, hs⟩
    rw [hnone] at hin
    cases hin
  rows := by
    intro ep hep
    cases hep

/-- The monitor mode of a request is applied before the series has episodes, and a
refresh does not ask for it, nor for `monitorNewItems`. -/
theorem monitoring_honoured_iff (db : Database) (source : Source) :
    (∀ (input : SeriesInput) (options : AddOptionsInput) (mode : MonitorMode)
        (added refreshed : Int) (s : Series) (seasons : List Season),
      input.addOptions = some options → MonitorMode.ofName options.monitor = some mode →
      (create added input db.toLibrary).response = .created s seasons →
      (Honoured mode refreshed s.id
          (handle source refreshed s.id (create added input db.toLibrary).library).2 ↔
        LeavesNoneOut mode refreshed (offered source input.tvdbID))) ∧
    ∀ (now : Int) (s : Series),
      s ∈ db.series.rows → s.monitorNewItems ≠ "all" →
      (NewUnmonitored s.id db.toLibrary (handle source now s.id db.toLibrary).2 ↔
        ∀ ep ∈ offered source s.tvdbID, Known s.id db.toLibrary ep) := by
  constructor
  · intro input options mode added refreshed s seasons _ _ hr
    obtain ⟨hcon, hget, htvdb, hnone⟩ := create_created db.constraints hr
    have hlisted := listed_of_get hget source
    rw [htvdb] at hlisted
    rw [← hlisted]
    have howner := Library.hasSeries_iff.mpr
      ⟨s, (Table.get_eq_some.mp hget).1, rfl⟩
    rcases handle_run hcon source refreshed s.id with ⟨hno, hsame⟩ | ⟨mid, _, heps, _, _, hmid, hrun⟩
    · rw [hsame, hno]
      exact honoured_iff (FreshRows.start howner hnone) mode refreshed
    · have hnone' : mid.listForSeries s.id = [] := by
        unfold Library.listForSeries at hnone ⊢
        rw [heps]
        exact hnone
      rw [hrun, hnone']
      have hfresh := (FreshRows.start hmid hnone').run refreshed
        (listed source s.id (create added input db.toLibrary).library)
      exact honoured_iff hfresh mode refreshed
  · intro now s hs _
    have hget : db.series.get s.id = some s := Table.get_eq_some.mpr ⟨hs, rfl⟩
    rw [newUnmonitored_iff db.constraints, listed_of_get hget]

/-- A request to add a series with a monitor mode. -/
def addRequest (monitor : String) : SeriesInput :=
  ⟨"Breaking Bad", 81189, "", "", "", "/tv/Breaking Bad", true, 1, none, "none", [],
    some ⟨monitor, false⟩⟩

/-- The row that the request makes. -/
def addedSeries : Series :=
  ⟨1, "Breaking Bad", "breaking-bad", "/tv/Breaking Bad", 81189, "continuing", "standard", true, 1,
    true, "none"⟩

theorem monitoring_honoured_all :
    Honoured .all 0 1
      (handle pilotOnly 0 1 (create 0 (addRequest "all") Database.empty.toLibrary).library).2 :=
  ((monitoring_honoured_iff Database.empty pilotOnly).1 (addRequest "all") ⟨"all", false⟩ .all 0 0
    addedSeries [] rfl (by decide) (by decide)).mpr trivial

/-- The request asks for no episode, and the first refresh monitors one. -/
theorem none_requested_pilot_monitored :
    (create 0 (addRequest "none") Database.empty.toLibrary).response = .created addedSeries [] ∧
      ¬ Honoured .none 0 1
        (handle pilotOnly 0 1 (create 0 (addRequest "none") Database.empty.toLibrary).library).2 := by
  refine ⟨by decide, ?_⟩
  unfold Honoured
  decide

end Sonarr.Api
