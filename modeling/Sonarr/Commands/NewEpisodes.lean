import Sonarr.Commands.Reconcile

namespace Sonarr.Commands.RefreshSeries
open Lib

/-- The numbers that an episode is created under. -/
def EpisodeInfo.numbers (ep : EpisodeInfo) : Int × Int :=
  (toInt32 ep.seasonNumber, toInt32 ep.episodeNumber)

/-- No earlier episode of the metadata has the same numbers. -/
def FirstListed (episodes : List EpisodeInfo) (ep : EpisodeInfo) : Prop :=
  episodes.find? (fun x => x.numbers == ep.numbers) = some ep

section First
variable {episodes : List EpisodeInfo} {ep x : EpisodeInfo}

theorem FirstListed.mem (h : FirstListed episodes ep) : ep ∈ episodes :=
  List.mem_of_find?_eq_some h

theorem exists_firstListed (h : x ∈ episodes) :
    ∃ ep, FirstListed episodes ep ∧ ep.numbers = x.numbers := by
  cases hf : episodes.find? (fun y => y.numbers == x.numbers) with
  | none => simpa using List.find?_eq_none.mp hf x h
  | some ep =>
    have hn : ep.numbers = x.numbers := by simpa using List.find?_some hf
    refine ⟨ep, ?_, hn⟩
    unfold FirstListed
    rw [hn]
    exact hf

theorem firstListed_append : FirstListed (episodes ++ [ep]) x ↔
    FirstListed episodes x ∨ (x = ep ∧ ∀ y ∈ episodes, y.numbers ≠ ep.numbers) := by
  unfold FirstListed
  rw [List.find?_append]
  cases hf : episodes.find? (fun y => y.numbers == x.numbers) with
  | some y =>
    have hy : y.numbers = x.numbers := by simpa using List.find?_some hf
    rw [Option.some_or]
    refine ⟨.inl, ?_⟩
    rintro (h | ⟨rfl, hno⟩)
    · exact h
    · exact absurd hy (hno y (List.mem_of_find?_eq_some hf))
  | none =>
    have hno : ∀ y ∈ episodes, y.numbers ≠ x.numbers := by simpa using hf
    rw [Option.none_or, List.find?_singleton]
    constructor
    · intro h
      split at h
      · cases h
        exact .inr ⟨rfl, hno⟩
      · cases h
    · rintro (h | ⟨rfl, _⟩)
      · cases h
      · simp

end First

/-- The row was created for the episode and not written since. -/
def CreatedFor (seriesID : Nat) (ep : EpisodeInfo) (r : Episode) : Prop :=
  r = { created seriesID ep with id := r.id, updatedAt := r.updatedAt }

section Fresh
variable {lib : Library}

/-- The rows of a series that had none before the metadata was gone through. -/
structure FreshRows (seriesID : Nat) (episodes : List EpisodeInfo) (lib : Library) : Prop where
  owner : lib.hasSeries seriesID = true
  made : ∀ r ∈ lib.episodes.rows, r.seriesID = seriesID →
    ∃ ep, FirstListed episodes ep ∧ CreatedFor seriesID ep r
  rows : ∀ ep, FirstListed episodes ep → ∃ r ∈ lib.episodes.rows, CreatedFor seriesID ep r

theorem CreatedFor.pair (h : CreatedFor seriesID ep r) : r.pair = (created seriesID ep).pair := by
  rw [h]
  rfl

theorem CreatedFor.season (h : CreatedFor seriesID ep r) : r.seasonNumber = ep.numbers.1 :=
  congrArg (fun p => p.2.1) h.pair

theorem CreatedFor.number (h : CreatedFor seriesID ep r) : r.episodeNumber = ep.numbers.2 :=
  congrArg (fun p => p.2.2) h.pair

theorem CreatedFor.monitored (h : CreatedFor seriesID ep r) : r.monitored = true := by
  rw [h]
  rfl

theorem CreatedFor.file (h : CreatedFor seriesID ep r) : r.episodeFileID = none := by
  rw [h]
  rfl

theorem CreatedFor.airDate (h : CreatedFor seriesID ep r) :
    r.airDateUtc = ep.airDate.map sqliteTime := by
  rw [h]
  rfl

theorem pair_created_inj :
    (created seriesID ep).pair = (created seriesID ep').pair ↔ ep.numbers = ep'.numbers := by
  simp [Episode.pair, created, EpisodeInfo.numbers]

/-- A row has the numbers of the episode exactly when an earlier episode has them. -/
theorem FreshRows.clear_iff (h : FreshRows seriesID episodes lib) :
    (∀ r ∈ lib.episodes.rows, r.pair ≠ (created seriesID ep).pair) ↔
      ∀ x ∈ episodes, x.numbers ≠ ep.numbers := by
  constructor
  · intro hclear x hx hn
    obtain ⟨y, hy, hny⟩ := exists_firstListed hx
    obtain ⟨r, hr, hc⟩ := h.rows y hy
    exact hclear r hr (hc.pair.trans (pair_created_inj.mpr (hny.trans hn)))
  · intro hno r hr hp
    obtain ⟨y, hy, hc⟩ := h.made r hr (congrArg Prod.fst hp)
    exact hno y hy.mem (pair_created_inj.mp (hc.pair.symm.trans hp))

theorem FreshRows.step (h : FreshRows seriesID episodes lib) (now : Int) (ep : EpisodeInfo) :
    FreshRows seriesID (episodes ++ [ep]) (upsertEpisode now seriesID [] lib ep) := by
  rcases upsertEpisode_cases now seriesID [] lib ep with ⟨old, hl, _⟩ | ⟨_, hc | ⟨hno, hu⟩⟩
  · cases hl
  · obtain ⟨_, hclear, hser, _, _, _, hrows⟩ := Library.createEpisode_some hc
    have hfirst : ∀ x ∈ episodes, x.numbers ≠ ep.numbers := h.clear_iff.mp hclear
    refine ⟨?_, ?_, ?_⟩
    · unfold Library.hasSeries
      rw [hser]
      exact h.owner
    · intro r hr hs
      rcases (hrows r).mp hr with hr | rfl
      · obtain ⟨x, hx, hcx⟩ := h.made r hr hs
        exact ⟨x, firstListed_append.mpr (.inl hx), hcx⟩
      · exact ⟨ep, firstListed_append.mpr (.inr ⟨rfl, hfirst⟩), rfl⟩
    · intro x hx
      rcases firstListed_append.mp hx with hx | ⟨rfl, _⟩
      · obtain ⟨r, hr, hcx⟩ := h.rows x hx
        exact ⟨r, (hrows r).mpr (.inl hr), hcx⟩
      · exact ⟨_, (hrows _).mpr (.inr rfl), rfl⟩
  · -- The insert was refused, so an earlier episode has the row.
    have htaken : ¬ ∀ x ∈ episodes, x.numbers ≠ ep.numbers := by
      intro hall
      obtain ⟨lib', hsome⟩ := Library.createEpisode_isSome now h.owner (h.clear_iff.mpr hall)
      rw [hno] at hsome
      cases hsome
    rw [hu]
    refine ⟨h.owner, ?_, ?_⟩
    · intro r hr hs
      obtain ⟨x, hx, hcx⟩ := h.made r hr hs
      exact ⟨x, firstListed_append.mpr (.inl hx), hcx⟩
    · intro x hx
      rcases firstListed_append.mp hx with hx | ⟨_, hall⟩
      · exact h.rows x hx
      · exact absurd hall htaken

theorem FreshRows.run (h : FreshRows seriesID before lib) (now : Int) (episodes : List EpisodeInfo) :
    FreshRows seriesID (before ++ episodes) (upsertEpisodes now seriesID [] episodes lib) := by
  induction episodes generalizing before lib with
  | nil =>
    rw [List.append_nil]
    exact h
  | cons ep episodes ih =>
    have hrest := ih (h.step now ep)
    rw [List.append_assoc] at hrest
    exact hrest

end Fresh

section New
variable {ep : EpisodeInfo} {start lib : Library} {existing : List Episode}

/-- A row with the numbers of the episode, as listed or as it would be created. -/
def Known (seriesID : Nat) (lib : Library) (ep : EpisodeInfo) : Prop :=
  ∃ e ∈ lib.episodes.rows, e.pair = ep.pair seriesID ∨ e.pair = (created seriesID ep).pair

/-- No row of a series is lost or moved by an episode's step. -/
theorem pair_upsertEpisode (now : Int) (seriesID : Nat) (existing : List Episode)
    (ep : EpisodeInfo) (he : e ∈ lib.episodes.rows) :
    ∃ e' ∈ (upsertEpisode now seriesID existing lib ep).episodes.rows, e'.pair = e.pair := by
  rcases upsertEpisode_cases now seriesID existing lib ep with ⟨old, _, hu⟩ | ⟨_, hc | ⟨_, hu⟩⟩
  · rw [hu]
    exact ⟨_, Library.mem_updateEpisode.mpr ⟨e, he, rfl⟩, Library.pair_assign _ _ _⟩
  · obtain ⟨_, _, _, _, _, _, hrows⟩ := Library.createEpisode_some hc
    exact ⟨e, (hrows e).mpr (.inl he), rfl⟩
  · rw [hu]
    exact ⟨e, he, rfl⟩

theorem pair_upsertEpisodes (now : Int) (seriesID : Nat) (existing : List Episode)
    (episodes : List EpisodeInfo) (he : e ∈ lib.episodes.rows) :
    ∃ e' ∈ (upsertEpisodes now seriesID existing episodes lib).episodes.rows, e'.pair = e.pair := by
  induction episodes generalizing lib e with
  | nil => exact ⟨e, he, rfl⟩
  | cons ep episodes ih =>
    obtain ⟨q, hq, hqp⟩ := pair_upsertEpisode now seriesID existing ep he
    obtain ⟨e', he', hp⟩ := ih hq
    exact ⟨e', he', hp.trans hqp⟩

/-- Step 7 leaves a row for every episode that it did not find. -/
theorem upsertEpisodes_creates (now : Int) (episodes : List EpisodeInfo)
    (howner : lib.hasSeries seriesID = true) (hep : ep ∈ episodes)
    (hl : lookup existing ep = none) :
    ∃ e ∈ (upsertEpisodes now seriesID existing episodes lib).episodes.rows,
      e.pair = (created seriesID ep).pair := by
  induction episodes generalizing lib with
  | nil => cases hep
  | cons x episodes ih =>
    rcases List.mem_cons.mp hep with rfl | hep
    · rcases upsertEpisode_cases now seriesID existing lib ep with ⟨old, ho, _⟩ | ⟨_, hc | ⟨hno, hu⟩⟩
      · rw [hl] at ho
        cases ho
      · obtain ⟨_, _, _, _, _, _, hrows⟩ := Library.createEpisode_some hc
        have hnew := (hrows _).mpr (.inr rfl)
        obtain ⟨e, he, hp⟩ := pair_upsertEpisodes now seriesID existing episodes hnew
        exact ⟨e, he, hp⟩
      · -- The insert was refused for a row that is there and stays.
        by_contra hgone
        have hclear : ∀ r ∈ lib.episodes.rows, r.pair ≠ (created seriesID ep).pair := by
          intro r hr hp
          obtain ⟨e', he', hp'⟩ := pair_upsertEpisodes now seriesID existing
            (ep :: episodes) hr
          exact hgone ⟨e', he', hp'.trans hp⟩
        obtain ⟨lib', hsome⟩ := Library.createEpisode_isSome now howner hclear
        rw [hno] at hsome
        cases hsome
    · refine ih ?_ hep
      rcases upsertEpisode_cases now seriesID existing lib x with ⟨old, _, hu⟩ | ⟨_, hc | ⟨_, hu⟩⟩
      · rw [hu]
        exact howner
      · obtain ⟨_, _, hser, _⟩ := Library.createEpisode_some hc
        unfold Library.hasSeries
        rw [hser]
        exact howner
      · rw [hu]
        exact howner

variable (hex : ∀ old ∈ existing, old ∈ start.episodes.rows ∧ old.seriesID = seriesID)
include hex

/-- Step 7 monitors every episode that it creates. -/
theorem upsertEpisodes_monitored (now : Int) (episodes : List EpisodeInfo)
    (h : ∀ r ∈ lib.episodes.rows, (∃ b ∈ start.episodes.rows, b.id = r.id) ∨ r.monitored = true) :
    ∀ r ∈ (upsertEpisodes now seriesID existing episodes lib).episodes.rows,
      (∃ b ∈ start.episodes.rows, b.id = r.id) ∨ r.monitored = true := by
  induction episodes generalizing lib with
  | nil => exact h
  | cons ep episodes ih =>
    refine ih ?_
    intro r hr
    rcases upsertEpisode_cases now seriesID existing lib ep with ⟨old, hl, hu⟩ | ⟨_, hc | ⟨_, hu⟩⟩
    · rw [hu] at hr
      obtain ⟨q, hq, rfl⟩ := Library.mem_updateEpisode.mp hr
      split
      · rename_i hid
        exact .inl ⟨old, (hex old (lookup_some hl).1).1, hid.symm⟩
      · exact h q hq
    · obtain ⟨_, _, _, _, _, _, hrows⟩ := Library.createEpisode_some hc
      rcases (hrows r).mp hr with hr | rfl
      · exact h r hr
      · exact .inr rfl
    · rw [hu] at hr
      exact h r hr

omit hex in
/-- Step 7 creates nothing when every episode has a row. -/
theorem upsertEpisodes_known (now : Int) (episodes : List EpisodeInfo)
    (hall : ∀ e ∈ start.episodes.rows, e.seriesID = seriesID → e ∈ existing)
    (hknown : ∀ ep ∈ episodes, Known seriesID start ep)
    (hpairs : ∀ e ∈ start.episodes.rows, ∃ e' ∈ lib.episodes.rows, e'.pair = e.pair)
    (h : ∀ r ∈ lib.episodes.rows, ∃ b ∈ start.episodes.rows, b.id = r.id) :
    ∀ r ∈ (upsertEpisodes now seriesID existing episodes lib).episodes.rows,
      ∃ b ∈ start.episodes.rows, b.id = r.id := by
  induction episodes generalizing lib with
  | nil => exact h
  | cons ep episodes ih =>
    refine ih (fun x hx => hknown x (List.mem_cons_of_mem _ hx)) ?_ ?_
    · intro e he
      obtain ⟨q, hq, hqp⟩ := hpairs e he
      obtain ⟨e', he', hp⟩ := pair_upsertEpisode now seriesID existing ep hq
      exact ⟨e', he', hp.trans hqp⟩
    · intro r hr
      rcases upsertEpisode_cases now seriesID existing lib ep with ⟨old, _, hu⟩ | ⟨hl, hc | ⟨_, hu⟩⟩
      · rw [hu] at hr
        obtain ⟨q, hq, rfl⟩ := Library.mem_updateEpisode.mp hr
        split <;> exact h q hq
      · obtain ⟨_, hclear, _⟩ := Library.createEpisode_some hc
        obtain ⟨e, he, hp | hp⟩ := hknown ep List.mem_cons_self
        · have hnums := congrArg Prod.snd hp
          exact absurd ⟨congrArg Prod.fst hnums, congrArg Prod.snd hnums⟩
            (lookup_none hl (hall e he (congrArg Prod.fst hp)))
        · obtain ⟨q, hq, hqp⟩ := hpairs e he
          exact absurd (hqp.trans hp) (hclear q hq)
      · rw [hu] at hr
        exact h r hr

end New

/-- No episode that the run has added is monitored. -/
def NewUnmonitored (seriesID : Nat) (before after : Library) : Prop :=
  ∀ e ∈ after.listForSeries seriesID, (∀ b ∈ before.episodes.rows, b.id ≠ e.id) →
    e.monitored = false

/-- A run adds monitored episodes only. -/
theorem newUnmonitored_iff (h : lib.Constraints) (source : Source) (now : Int) (seriesID : Nat) :
    NewUnmonitored seriesID lib (handle source now seriesID lib).2 ↔
      ∀ ep ∈ listed source seriesID lib, Known seriesID lib ep := by
  rcases handle_run h source now seriesID with ⟨hnone, hsame⟩ | ⟨mid, _, heps, _, _, howner, hrun⟩
  · rw [hnone, hsame]
    constructor
    · intro _ ep hep
      cases hep
    · intro _ e he hnew
      exact absurd rfl (hnew e (Library.mem_listForSeries.mp he).1)
  · have hex : ∀ old ∈ mid.listForSeries seriesID,
        old ∈ mid.episodes.rows ∧ old.seriesID = seriesID :=
      fun old ho => Library.mem_listForSeries.mp ho
    have hkept := (EpisodesKept.refl seriesID mid).run hex now (listed source seriesID lib)
    unfold NewUnmonitored Known
    rw [hrun, ← heps]
    constructor
    · intro hun ep hep
      by_contra hunknown
      have hl : lookup (mid.listForSeries seriesID) ep = none := by
        by_contra hsome
        obtain ⟨old, ho⟩ := Option.ne_none_iff_exists'.mp hsome
        obtain ⟨hm, hp⟩ := lookup_pair hex ho
        exact hunknown ⟨old, hm, .inl hp⟩
      obtain ⟨e, he, hp⟩ := upsertEpisodes_creates now _ howner hep hl
      have hnew : ∀ b ∈ mid.episodes.rows, b.id ≠ e.id := by
        intro b hb hid
        exact hunknown ⟨b, hb, .inr ((hkept.pair_of_id hb he hid.symm).symm.trans hp)⟩
      have hfalse := hun e (Library.mem_listForSeries.mpr ⟨he, congrArg Prod.fst hp⟩) hnew
      rcases upsertEpisodes_monitored hex now _ (fun r hr => .inl ⟨r, hr, rfl⟩) e he with
        ⟨b, hb, hid⟩ | htrue
      · exact hnew b hb hid
      · rw [htrue] at hfalse
        cases hfalse
    · intro hknown e he hnew
      obtain ⟨b, hb, hid⟩ := upsertEpisodes_known now _
        (fun r hr hs => Library.mem_listForSeries.mpr ⟨hr, hs⟩) hknown
        (fun r hr => ⟨r, hr, rfl⟩) (fun r hr => ⟨r, hr, rfl⟩) e (Library.mem_listForSeries.mp he).1
      exact absurd hid (hnew b hb)

end Sonarr.Commands.RefreshSeries
