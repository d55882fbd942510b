import Sonarr.Commands.MetadataOnly

namespace Sonarr.Commands.RefreshSeries
open Lib

/-- The numbers of an episode are 32-bit numbers. -/
structure EpisodeInfo.Fits (ep : EpisodeInfo) : Prop where
  season : -2147483648 ≤ ep.seasonNumber ∧ ep.seasonNumber < 2147483648
  number : -2147483648 ≤ ep.episodeNumber ∧ ep.episodeNumber < 2147483648
  absolute : ∀ n, ep.absoluteEpisodeNumber = some n → -2147483648 ≤ n ∧ n < 2147483648

def EpisodeInfo.pair (seriesID : Nat) (ep : EpisodeInfo) : Nat × Int × Int :=
  (seriesID, ep.seasonNumber, ep.episodeNumber)

/-- The episode has the title, the overview, the air date to the second and the
absolute number of the metadata. -/
structure EpisodeInfo.Carried (ep : EpisodeInfo) (e : Episode) : Prop where
  title : e.title = ep.title
  overview : e.overview = ep.overview
  airDate : e.airDateUtc = ep.airDate.map sqliteTime
  absolute : e.absoluteEpisodeNumber = ep.absoluteEpisodeNumber

/-- Every episode of the metadata has one row, and no other row has changed. -/
structure Reconciled (seriesID : Nat) (episodes : List EpisodeInfo) (before after : Library) :
    Prop where
  one : ∀ ep ∈ episodes, ∃ e ∈ after.episodes.rows, e.pair = ep.pair seriesID ∧ ep.Carried e ∧
    ∀ e' ∈ after.episodes.rows, e'.pair = ep.pair seriesID → e' = e
  rest : ∀ e, (∀ ep ∈ episodes, e.pair ≠ ep.pair seriesID) →
    (e ∈ after.episodes.rows ↔ e ∈ before.episodes.rows)

/-- An episode but for the time of its last write. -/
def untimed (e : Episode) : Episode := { e with updatedAt := 0 }

section Step
variable {ep : EpisodeInfo} {start lib : Library} {existing : List Episode}

theorem EpisodeInfo.Fits.absolute_map (h : ep.Fits) :
    ep.absoluteEpisodeNumber.map toInt32 = ep.absoluteEpisodeNumber := by
  cases ha : ep.absoluteEpisodeNumber with
  | none => rfl
  | some n =>
    obtain ⟨lo, hi⟩ := h.absolute n ha
    rw [Option.map_some, toInt32_of_fits lo hi]

theorem EpisodeInfo.Fits.pair_created (h : ep.Fits) (seriesID : Nat) :
    (created seriesID ep).pair = ep.pair seriesID := by
  unfold Episode.pair created EpisodeInfo.pair
  rw [toInt32_of_fits h.season.1 h.season.2, toInt32_of_fits h.number.1 h.number.2]

theorem carried_assign (h : ep.Fits) (now : Int) (old r : Episode) :
    ep.Carried ((refreshed ep old).assign now r) :=
  ⟨rfl, rfl, rfl, h.absolute_map⟩

theorem upsertEpisode_constraints (h : lib.Constraints) (now : Int) (seriesID : Nat)
    (ep : EpisodeInfo) : (upsertEpisode now seriesID existing lib ep).Constraints := by
  rcases upsertEpisode_cases now seriesID existing lib ep with ⟨old, _, hu⟩ | ⟨_, hc | ⟨_, hu⟩⟩
  · rw [hu]
    exact h.updateEpisode
  · exact h.createEpisode hc
  · rw [hu]
    exact h

theorem upsertEpisodes_constraints (h : lib.Constraints) (now : Int) (seriesID : Nat)
    (episodes : List EpisodeInfo) :
    (upsertEpisodes now seriesID existing episodes lib).Constraints := by
  induction episodes generalizing lib with
  | nil => exact h
  | cons ep episodes ih => exact ih (upsertEpisode_constraints h now seriesID ep)

variable (hex : ∀ old ∈ existing, old ∈ start.episodes.rows ∧ old.seriesID = seriesID)
include hex

theorem lookup_pair (hl : lookup existing ep = some old) :
    old ∈ start.episodes.rows ∧ old.pair = ep.pair seriesID := by
  obtain ⟨hm, hs, hn⟩ := lookup_some hl
  obtain ⟨ho, hid⟩ := hex old hm
  refine ⟨ho, ?_⟩
  unfold Episode.pair EpisodeInfo.pair
  rw [hid, hs, hn]

/-- An episode's step touches only the row with its numbers. -/
theorem upsertEpisode_frame (hk : EpisodesKept seriesID start lib) (hf : ep.Fits) (now : Int)
    (hne : r.pair ≠ ep.pair seriesID) :
    r ∈ (upsertEpisode now seriesID existing lib ep).episodes.rows ↔ r ∈ lib.episodes.rows := by
  rcases upsertEpisode_cases now seriesID existing lib ep with ⟨old, hl, hu⟩ | ⟨_, hc | ⟨_, hu⟩⟩
  · obtain ⟨ho, hp⟩ := lookup_pair hex hl
    have hpair : ∀ q ∈ lib.episodes.rows, q.id = (refreshed ep old).id → q.pair = ep.pair seriesID :=
      fun q hq hid => (hk.pair_of_id ho hq hid).trans hp
    rw [hu, Library.mem_updateEpisode]
    constructor
    · rintro ⟨q, hq, rfl⟩
      rw [Library.pair_assign] at hne
      rw [if_neg (fun hid => hne (hpair q hq hid))]
      exact hq
    · intro hr
      exact ⟨r, hr, (if_neg (fun hid => hne (hpair r hr hid))).symm⟩
  · obtain ⟨_, _, _, _, _, _, hrows⟩ := Library.createEpisode_some hc
    rw [hrows]
    constructor
    · rintro (hr | rfl)
      · exact hr
      · exact absurd (hf.pair_created seriesID) hne
    · exact .inl
  · rw [hu]

/-- After its step an episode has a row that carries the metadata. -/
theorem upsertEpisode_sets (hk : EpisodesKept seriesID start lib) (hf : ep.Fits) (now : Int)
    (howner : lib.hasSeries seriesID = true)
    (hnew : lookup existing ep = none → ∀ r ∈ lib.episodes.rows, r.pair ≠ ep.pair seriesID) :
    ∃ e ∈ (upsertEpisode now seriesID existing lib ep).episodes.rows,
      e.pair = ep.pair seriesID ∧ ep.Carried e := by
  rcases upsertEpisode_cases now seriesID existing lib ep with ⟨old, hl, hu⟩ | ⟨hl, hc | ⟨hno, _⟩⟩
  · obtain ⟨ho, hp⟩ := lookup_pair hex hl
    obtain ⟨o, hom, hid, hop, _⟩ := hk.kept old ho
    rw [hu]
    refine ⟨_, Library.mem_updateEpisode.mpr ⟨o, hom, rfl⟩, ?_, ?_⟩
    · rw [Library.pair_assign, hop, hp]
    · have hid' : o.id = (refreshed ep old).id := hid
      rw [if_pos hid']
      exact carried_assign hf now old o
  · obtain ⟨_, _, _, _, _, _, hrows⟩ := Library.createEpisode_some hc
    exact ⟨_, (hrows _).mpr (.inr rfl), hf.pair_created seriesID, rfl, rfl, rfl, hf.absolute_map⟩
  · have hclear : ∀ r ∈ lib.episodes.rows, r.pair ≠ (created seriesID ep).pair := by
      rw [hf.pair_created seriesID]
      exact hnew hl
    obtain ⟨lib', hsome⟩ := Library.createEpisode_isSome now howner hclear
    rw [hno] at hsome
    cases hsome

/-- Step 7 touches only rows with numbers of the metadata. -/
theorem upsertEpisodes_frame (hk : EpisodesKept seriesID start lib) (now : Int)
    (episodes : List EpisodeInfo) (hf : ∀ ep ∈ episodes, ep.Fits)
    (hne : ∀ ep ∈ episodes, r.pair ≠ ep.pair seriesID) :
    r ∈ (upsertEpisodes now seriesID existing episodes lib).episodes.rows ↔
      r ∈ lib.episodes.rows := by
  induction episodes generalizing lib with
  | nil => exact Iff.rfl
  | cons ep episodes ih =>
    have hrest := ih (hk.step hex now ep) (fun e he => hf e (List.mem_cons_of_mem _ he))
      (fun e he => hne e (List.mem_cons_of_mem _ he))
    have hstep := upsertEpisode_frame hex hk (hf ep List.mem_cons_self) now
      (hne ep List.mem_cons_self)
    exact hrest.trans hstep

/-- Step 7 over metadata in which no pair of numbers comes twice. A row that an
episode's step has set stays, since the later episodes have other numbers. -/
theorem upsertEpisodes_sets (hk : EpisodesKept seriesID start lib) (now : Int)
    (episodes : List EpisodeInfo) (hf : ∀ ep ∈ episodes, ep.Fits)
    (hd : (episodes.map (EpisodeInfo.pair seriesID)).Nodup) (howner : start.hasSeries seriesID = true)
    (hnew : ∀ ep ∈ episodes, lookup existing ep = none →
      ∀ r ∈ lib.episodes.rows, r.pair ≠ ep.pair seriesID) :
    ∀ ep ∈ episodes, ∃ e ∈ (upsertEpisodes now seriesID existing episodes lib).episodes.rows,
      e.pair = ep.pair seriesID ∧ ep.Carried e := by
  induction episodes generalizing lib with
  | nil => simp
  | cons ep episodes ih =>
    rw [List.map_cons, List.nodup_cons] at hd
    have hapart : ∀ e ∈ episodes, ep.pair seriesID ≠ e.pair seriesID :=
      fun e he heq => hd.1 (List.mem_map.mpr ⟨e, he, heq.symm⟩)
    have hfe := hf ep List.mem_cons_self
    have hfr : ∀ e ∈ episodes, e.Fits := fun e he => hf e (List.mem_cons_of_mem _ he)
    have hk' := hk.step hex now ep
    intro e he
    rcases List.mem_cons.mp he with rfl | he
    · have howner' : lib.hasSeries seriesID = true := by
        rw [hk.rest]
        exact howner
      obtain ⟨r, hr, hp, hc⟩ := upsertEpisode_sets hex hk hfe now howner' (hnew e List.mem_cons_self)
      refine ⟨r, ?_, hp, hc⟩
      exact (upsertEpisodes_frame hex hk' now episodes hfr (fun e' he' => hp ▸ hapart e' he')).mpr hr
    · refine ih hk' hfr hd.2 ?_ e he
      intro e' he' hl r hr hp
      have hother : r.pair ≠ ep.pair seriesID := fun h => hapart e' he' (h.symm.trans hp)
      have hr' := (upsertEpisode_frame hex hk hfe now hother).mp hr
      exact hnew e' (List.mem_cons_of_mem _ he') hl r hr' hp

end Step

section Settled
variable {ep : EpisodeInfo} {lib current : Library}

/-- Writing what an episode has already changes only the time of the write. -/
theorem untimed_update (hsame : current.episodes.rows.map untimed = lib.episodes.rows.map untimed)
    (ho : old ∈ lib.episodes.rows) (now : Int) :
    (current.updateEpisode now old).episodes.rows.map untimed = lib.episodes.rows.map untimed := by
  rw [← hsame]
  simp only [Library.updateEpisode, Table.update, List.map_map]
  apply List.map_congr_left
  intro r hr
  simp only [Function.comp, beq_iff_eq]
  split
  · rename_i hid
    have hmem : untimed r ∈ lib.episodes.rows.map untimed := hsame ▸ List.mem_map_of_mem hr
    obtain ⟨q, hq, hu⟩ := List.mem_map.mp hmem
    have hqid : (untimed q).id = (untimed r).id := by rw [hu]
    have hqo : q = old := Table.eq_of_key hq ho (hqid.trans hid)
    subst hqo
    rw [← hu]
    unfold untimed at hu ⊢
    unfold Episode.assign
    simp only [Episode.mk.injEq] at hu ⊢
    simp [hu]
  · rfl

theorem refreshed_carried (hf : ep.Fits) (hc : ep.Carried old) : refreshed ep old = old := by
  unfold refreshed
  rw [hf.absolute_map, ← hc.title, ← hc.overview, ← hc.airDate, ← hc.absolute]

/-- Step 7 over metadata that the rows carry already. -/
theorem upsertEpisodes_settled (h : lib.Constraints) (now : Int) (seriesID : Nat)
    (episodes : List EpisodeInfo) (hf : ∀ ep ∈ episodes, ep.Fits)
    (hset : ∀ ep ∈ episodes, ∃ e ∈ lib.episodes.rows, e.pair = ep.pair seriesID ∧ ep.Carried e)
    (hsame : current.episodes.rows.map untimed = lib.episodes.rows.map untimed) :
    (upsertEpisodes now seriesID (lib.listForSeries seriesID) episodes
      current).episodes.rows.map untimed = lib.episodes.rows.map untimed := by
  induction episodes generalizing current with
  | nil => exact hsame
  | cons ep episodes ih =>
    refine ih (fun e he => hf e (List.mem_cons_of_mem _ he))
      (fun e he => hset e (List.mem_cons_of_mem _ he)) ?_
    obtain ⟨e, he, hp, hc⟩ := hset ep List.mem_cons_self
    have hex : ∀ old ∈ lib.listForSeries seriesID,
        old ∈ lib.episodes.rows ∧ old.seriesID = seriesID :=
      fun old ho => Library.mem_listForSeries.mp ho
    unfold upsertEpisode
    cases hl : lookup (lib.listForSeries seriesID) ep with
    | none =>
      have hin : e ∈ lib.listForSeries seriesID :=
        Library.mem_listForSeries.mpr ⟨he, congrArg Prod.fst hp⟩
      have hnums := congrArg Prod.snd hp
      exact absurd ⟨congrArg Prod.fst hnums, congrArg Prod.snd hnums⟩ (lookup_none hl hin)
    | some old =>
      obtain ⟨ho, hop⟩ := lookup_pair hex hl
      have heq : old = e := h.pairs old ho e he (hop.trans hp.symm)
      simp only [heq, refreshed_carried (hf ep List.mem_cons_self) hc]
      exact untimed_update hsame he now

end Settled

section Runs
variable {lib : Library}

theorem handle_constraints (h : lib.Constraints) (source : Source) (now : Int) (seriesID : Nat) :
    (handle source now seriesID lib).2.Constraints := by
  rcases handle_run h source now seriesID with ⟨_, hsame⟩ | ⟨mid, hcon, _, _, _, _, hrun⟩
  · rw [hsame]
    exact h
  · rw [hrun]
    exact upsertEpisodes_constraints hcon now seriesID _

variable (hf : ∀ ep ∈ listed source seriesID lib, ep.Fits)
  (h : lib.Constraints)
include hf h

theorem handle_reconciled (now : Int)
    (hd : ((listed source seriesID lib).map (EpisodeInfo.pair seriesID)).Nodup) :
    Reconciled seriesID (listed source seriesID lib) lib (handle source now seriesID lib).2 := by
  have hafter := handle_constraints h source now seriesID
  rcases handle_run h source now seriesID with ⟨hnone, hsame⟩ | ⟨mid, _, heps, _, _, howner, hrun⟩
  · rw [hsame, hnone]
    exact ⟨by simp, fun _ _ => Iff.rfl⟩
  · have hk := EpisodesKept.refl seriesID mid
    have hex : ∀ old ∈ mid.listForSeries seriesID,
        old ∈ mid.episodes.rows ∧ old.seriesID = seriesID :=
      fun old ho => Library.mem_listForSeries.mp ho
    constructor
    · intro ep hep
      have hnew : ∀ ep ∈ listed source seriesID lib, lookup (mid.listForSeries seriesID) ep = none →
          ∀ r ∈ mid.episodes.rows, r.pair ≠ ep.pair seriesID := by
        intro ep _ hl r hr hp
        have hin := Library.mem_listForSeries.mpr ⟨hr, congrArg Prod.fst hp⟩
        have hnums := congrArg Prod.snd hp
        exact lookup_none hl hin ⟨congrArg Prod.fst hnums, congrArg Prod.snd hnums⟩
      obtain ⟨e, he, hp, hc⟩ := upsertEpisodes_sets hex hk now _ hf hd howner hnew ep hep
      rw [← hrun] at he
      exact ⟨e, he, hp, hc, fun e' he' hp' => hafter.pairs e' he' e he (hp'.trans hp.symm)⟩
    · intro e hne
      rw [hrun, ← heps]
      exact upsertEpisodes_frame hex hk now _ hf hne

/-- A run on a library that has the metadata already. -/
theorem handle_settled (now : Int)
    (hset : ∀ ep ∈ listed source seriesID lib, ∃ e ∈ lib.episodes.rows,
      e.pair = ep.pair seriesID ∧ ep.Carried e) :
    (handle source now seriesID lib).2.episodes.rows.map untimed =
      lib.episodes.rows.map untimed := by
  rcases handle_run h source now seriesID with ⟨_, hsame⟩ | ⟨mid, hcon, heps, _, _, _, hrun⟩
  · rw [hsame]
  · rw [← heps] at hset ⊢
    rw [hrun]
    exact upsertEpisodes_settled hcon now seriesID _ hf hset rfl

omit hf in
/-- A run leaves the TVDB id of the series alone, so the next one gets the same metadata. -/
theorem listed_handle (source : Source) (now : Int) (seriesID : Nat) :
    listed source seriesID (handle source now seriesID lib).2 = listed source seriesID lib := by
  rcases handle_refreshed h source now seriesID with ⟨_, hsame⟩ | hr
  · rw [hsame]
  · obtain ⟨s, title, status, lib', hm, hid, hu, hser⟩ := hr.series
    have hnew := ((Library.updateSeries_some hu).2 _).mpr ⟨s, hm, rfl⟩
    rw [if_pos rfl, ← hser] at hnew
    have hget := Table.get_eq_some.mpr ⟨hm, hid⟩
    have hget' := Table.get_eq_some.mpr ⟨hnew, hid⟩
    unfold listed
    rw [hget, hget']
    rfl

end Runs

/-- A run brings the episodes of a series in line with its metadata, and a second one
writes the same again. -/
theorem handle_reconciles (db : Database) (source : Source) (now again : Int)
    (hs : db.series.get seriesID = some series) (hi : source.getSeries series.tvdbID = .ok info)
    (he : source.getEpisodes series.tvdbID = .ok episodes)
    (hd : (episodes.map (fun ep => (ep.seasonNumber, ep.episodeNumber))).Nodup)
    (hf : ∀ ep ∈ episodes, ep.Fits) :
    let first := (handle source now seriesID db.toLibrary).2
    Reconciled seriesID episodes db.toLibrary first ∧
      (handle source again seriesID first).2.episodes.rows.map untimed =
        first.episodes.rows.map untimed := by
  have hlisted : listed source seriesID db.toLibrary = episodes := by
    unfold listed
    rw [hs]
    simp only [hi, he]
  have hpairs : (episodes.map (EpisodeInfo.pair seriesID)).Nodup := by
    have := hd.map (Prod.mk_right_injective seriesID)
    rwa [List.map_map] at this
  have hagain := listed_handle db.constraints source now seriesID
  rw [hlisted] at hagain
  have hfirst := handle_reconciled (hlisted ▸ hf) db.constraints now (hlisted ▸ hpairs)
  rw [hlisted] at hfirst
  refine ⟨hfirst, ?_⟩
  refine handle_settled (hagain ▸ hf) (handle_constraints db.constraints source now seriesID) again ?_
  rw [hagain]
  intro ep hep
  obtain ⟨e, hm, hp, hc, _⟩ := hfirst.one ep hep
  exact ⟨e, hm, hp, hc⟩

theorem handle_reconciles_pilot :
    Reconciled 1 [⟨1, 1, none, "Pilot", "", none⟩] unmonitoredSeason.toLibrary
      (handle pilotOnly 0 1 unmonitoredSeason.toLibrary).2 := by
  refine (handle_reconciles unmonitoredSeason pilotOnly 0 0 rfl rfl rfl (by decide) ?_).1
  intro ep hep
  rw [List.mem_singleton.mp hep]
  exact ⟨by decide, by decide, by simp⟩

/-- Five seconds later the same metadata changes the time of the last write. -/
theorem second_run_writes :
    (handle pilotOnly 5000000000 1 (handle pilotOnly 0 1 unmonitoredSeason.toLibrary).2).2.episodes.rows
      ≠ (handle pilotOnly 0 1 unmonitoredSeason.toLibrary).2.episodes.rows := by
  decide

end Sonarr.Commands.RefreshSeries
