import Sonarr.RssSync.Handler

namespace Sonarr.RssSync
open Lib Sonarr.Parser Profiles CustomFormats DecisionEngine Providers

namespace Inputs
variable (inp : Inputs)

/-- The accepted candidates for one episode in the order of the feeds. -/
def accepted (key : GroupKey) : List Candidate :=
  match inp.qualityDefs, inp.customFormats with
  | some defs, some formats => Groups.under key (inp.candidates defs formats)
  | _, _ => []

/-- The grab that a run decides on for an episode. -/
def callFor (key : GroupKey) : Option GrabCall :=
  match inp.qualityDefs with
  | some defs => inp.grabCall defs key (inp.accepted key)
  | none => none

/-- The grabs of a run, none when it fails. -/
def calls (order : Walk) : List (GroupKey × GrabCall) :=
  match inp.plan order with
  | .ok calls => calls
  | .error _ => []

/-- The engine's preference among candidates. -/
def prefers (a b : Candidate) : Bool := preferred inp.profile a.remote b.remote

/-- The candidates for an episode in the order `Rank` puts them. -/
def ranked (key : GroupKey) : List Candidate := stableSort inp.prefers (inp.accepted key)

variable {inp} {key : GroupKey} {call : GrabCall} {c : Candidate}

theorem prefers_weak : WeakOrder inp.prefers where
  asymm a b := (preferred_weak inp.profile).asymm a.remote b.remote
  trans a b c := (preferred_weak inp.profile).trans a.remote b.remote c.remote

theorem map_ranked : (inp.ranked key).map Candidate.remote =
    rank ((inp.accepted key).map Candidate.remote) inp.profile :=
  map_stableSort Candidate.remote (preferred inp.profile) (inp.accepted key)

theorem grabCall_nil (defs : List QualityDefinition) : inp.grabCall defs key [] = none := rfl

theorem mem_walk_filterMap {defs : List QualityDefinition} {formats : List CustomFormat}
    (order : Walk) :
    (key, call) ∈ (order.walk (Groups.collect (inp.candidates defs formats)).entries).filterMap
        (fun g => (inp.grabCall defs g.1 g.2).map (fun call => (g.1, call))) ↔
      inp.grabCall defs key (Groups.under key (inp.candidates defs formats)) = some call := by
  simp only [List.mem_filterMap, (order.perm _).mem_iff, Option.map_eq_some_iff, Prod.mk.injEq,
    Prod.exists]
  constructor
  · rintro ⟨k, l, hm, call', hc, rfl, rfl⟩
    rw [← (Groups.mem_collect.mp hm).1]
    exact hc
  · intro h
    refine ⟨key, _, Groups.mem_collect.mpr ⟨rfl, ?_⟩, call, h, rfl, rfl⟩
    intro hnil
    rw [hnil, grabCall_nil] at h
    cases h

/-- A run grabs for an episode exactly what `callFor` says, in whatever order it
walks its groups. -/
theorem mem_calls (order : Walk) : (key, call) ∈ inp.calls order ↔ inp.callFor key = some call := by
  unfold calls plan callFor accepted
  cases hi : inp.indexers with
  | none =>
    have hr : inp.releases = [] := by simp [releases, hi]
    cases inp.qualityDefs <;> cases inp.customFormats <;>
      simp [grabCall_nil, candidates, hr, Groups.under]
  | some instances =>
    by_cases hr : inp.releases = []
    · cases inp.qualityDefs <;> cases inp.customFormats <;>
        simp [grabCall_nil, candidates, hr, Groups.under]
    · have he : inp.releases.isEmpty = false := by simpa using hr
      cases hd : inp.qualityDefs with
      | none => simp [he]
      | some defs =>
        cases hf : inp.customFormats with
        | none => simp [he, grabCall_nil]
        | some formats =>
          simp only [he, Bool.false_eq_true, if_false]
          exact mem_walk_filterMap order

/-- What stands behind an accepted candidate: a release of the feeds, seen as the
engine sees it, and a monitored episode of the library. -/
structure IsCandidate (inp : Inputs) (defs : List QualityDefinition) (formats : List CustomFormat)
    (key : GroupKey) (c : Candidate) : Prop where
  release : c.release ∈ inp.releases
  remote : c.remote = inp.remote defs formats c.release key.seriesID c.episodeID
  episode : ∃ episodes ep, inp.reads.episodes key.seriesID = some episodes ∧
    episodes.find? (fun ep => ep.seasonNumber == key.season && ep.episodeNumber == key.episode) =
      some ep ∧ ep.id = c.episodeID ∧ ep.monitored = true
  verdict : (inp.engine.evaluate c.remote inp.profile).1 = .accept
  series : ∃ all, inp.reads.series = some all ∧
    findByTitle all (parseTitle c.release.title).seriesTitle = some key.seriesID
  season : key.season = (parseTitle c.release.title).seasonNumber
  number : ∃ n ∈ (parseTitle c.release.title).episodeNumbers, key.episode = (n : Int)

theorem mem_candidatesOf {defs : List QualityDefinition} {formats : List CustomFormat}
    (hr : rel ∈ inp.releases) (h : (key, c) ∈ inp.candidatesOf defs formats rel) :
    IsCandidate inp defs formats key c := by
  unfold candidatesOf at h
  simp only at h
  split at h
  · cases h
  split at h
  · cases h
  split at h
  · cases h
  split at h
  · cases h
  split at h
  · cases h
  rename_i hall _ seriesID hser _ _ episodes hep
  obtain ⟨epNum, hnum, hc⟩ := List.mem_filterMap.mp h
  unfold candidate at hc
  split at hc
  · cases hc
  rename_i ep hfind
  simp only at hc
  split at hc
  · cases hc
  rename_i hmon
  split at hc
  · cases hc
  rename_i hacc
  simp only [Option.some.injEq, Prod.mk.injEq] at hc
  obtain ⟨rfl, rfl⟩ := hc
  exact ⟨hr, rfl, ⟨episodes, ep, hep, hfind, rfl, by simpa using hmon⟩, hacc,
    ⟨_, hall, hser⟩, rfl, epNum, hnum, rfl⟩

theorem mem_accepted (h : c ∈ inp.accepted key) :
    ∃ defs formats, inp.qualityDefs = some defs ∧ inp.customFormats = some formats ∧
      IsCandidate inp defs formats key c := by
  unfold accepted at h
  split at h
  · rename_i defs formats hd hf
    refine ⟨defs, formats, hd, hf, ?_⟩
    simp only [Groups.under, List.mem_map, List.mem_filter, decide_eq_true_eq] at h
    obtain ⟨⟨k, c'⟩, ⟨hm, rfl⟩, rfl⟩ := h
    obtain ⟨rel, hrel, hc⟩ := List.mem_flatMap.mp hm
    exact mem_candidatesOf hrel hc
  · cases h

theorem accepted_remote (h : c ∈ inp.accepted key) :
    c.remote.release.title = c.release.title ∧ c.remote.release.size = c.release.size := by
  obtain ⟨defs, formats, _, _, hc⟩ := mem_accepted h
  rw [hc.remote]
  exact ⟨rfl, rfl⟩

/-- The quality a release is taken for, by the definitions the run has loaded. -/
def qualityOf (inp : Inputs) (rel : Release) : Int :=
  resolveQualityID (parseTitle rel.title).quality (inp.qualityDefs.getD [])

theorem accepted_quality (h : c ∈ inp.accepted key) :
    c.remote.qualityID = inp.qualityOf c.release := by
  obtain ⟨defs, formats, hd, _, hc⟩ := mem_accepted h
  rw [hc.remote, qualityOf, hd]
  rfl

/-- A group is for one episode. -/
theorem accepted_episode (ha : a ∈ inp.accepted key) (hb : b ∈ inp.accepted key) :
    a.episodeID = b.episodeID := by
  obtain ⟨_, _, _, _, ca⟩ := mem_accepted ha
  obtain ⟨_, _, _, _, cb⟩ := mem_accepted hb
  obtain ⟨eps, ep, hr, hf, hid, _⟩ := ca.episode
  obtain ⟨eps', ep', hr', hf', hid', _⟩ := cb.episode
  rw [hr] at hr'
  cases hr'
  rw [hf] at hf'
  cases hf'
  rw [← hid, hid']

/-- Title decides score and quality. -/
theorem accepted_same_title (ha : a ∈ inp.accepted key) (hb : b ∈ inp.accepted key')
    (ht : a.release.title = b.release.title) :
    a.remote.cfScore = b.remote.cfScore ∧ a.remote.qualityID = b.remote.qualityID := by
  obtain ⟨defs, formats, hd, hf, ca⟩ := mem_accepted ha
  obtain ⟨defs', formats', hd', hf', cb⟩ := mem_accepted hb
  rw [hd] at hd'
  rw [hf] at hf'
  cases hd'
  cases hf'
  rw [ca.remote, cb.remote]
  simp [remote, ht]

/-- Among candidates of one title the larger is preferred. -/
theorem prefers_same_title (ha : a ∈ inp.accepted key) (hb : b ∈ inp.accepted key)
    (ht : a.release.title = b.release.title) :
    inp.prefers a b = true ↔ b.release.size < a.release.size := by
  obtain ⟨hs, hq⟩ := accepted_same_title ha hb ht
  unfold prefers
  rw [preferred_iff, (accepted_remote ha).2, (accepted_remote hb).2, hs]
  simp [qualityIndex, hq]

/-- Candidates that nothing is preferred to have one quality. -/
theorem unbeaten_same_quality (ha : a ∈ inp.accepted key) (hb : b ∈ inp.accepted key)
    (ua : ∀ d ∈ inp.accepted key, inp.prefers d a = false)
    (ub : ∀ d ∈ inp.accepted key, inp.prefers d b = false) :
    inp.profile.index a.remote.qualityID = inp.profile.index b.remote.qualityID := by
  have hab := ub a ha
  have hba := ua b hb
  unfold prefers at hab hba
  rw [← Bool.not_eq_true, preferred_iff] at hab hba
  unfold qualityIndex at hab hba
  omega

/-- The lookup by title and score is a lookup by title. -/
theorem winner_eq (hb : b ∈ inp.accepted key) :
    winner b.remote (inp.accepted key) =
      (inp.accepted key).find? (fun c => c.release.title == b.release.title) := by
  unfold winner
  rw [← List.head?_filter, ← List.head?_filter]
  apply congrArg List.head?
  apply List.filter_congr
  intro c hc
  rw [(accepted_remote hb).1, (accepted_remote hc).1]
  by_cases ht : c.release.title = b.release.title
  · simp [ht, (accepted_same_title hc hb ht).1]
  · simp [ht]

/-- The grab for an episode is for the first listed candidate that has the title
of the one ranked first. -/
theorem callFor_eq_some : inp.callFor key = some call ↔
    ∃ defs b w, inp.qualityDefs = some defs ∧ IsFirst inp.prefers (inp.accepted key) b ∧
      (inp.accepted key).find? (fun c => c.release.title == b.release.title) = some w ∧
      call = ⟨w.release, key.seriesID, [w.episodeID], qualityNameForID b.remote.qualityID defs⟩ := by
  have hhead : ∀ best, (rank ((inp.accepted key).map Candidate.remote) inp.profile).head? = some best ↔
      ∃ b, IsFirst inp.prefers (inp.accepted key) b ∧ b.remote = best := by
    intro best
    rw [← map_ranked, List.head?_map, Option.map_eq_some_iff]
    simp only [ranked, head_stableSort_iff prefers_weak]
  unfold callFor
  cases hd : inp.qualityDefs with
  | none => simp
  | some defs =>
    simp only [grabCall]
    constructor
    · intro h
      split at h
      · cases h
      · rename_i best hbest
        obtain ⟨b, hb, rfl⟩ := (hhead best).mp hbest
        obtain ⟨w, hw, rfl⟩ := Option.map_eq_some_iff.mp h
        rw [winner_eq hb.mem] at hw
        exact ⟨defs, b, w, rfl, hb, hw, rfl⟩
    · rintro ⟨defs', b, w, he, hb, hw, rfl⟩
      cases he
      rw [(hhead b.remote).mpr ⟨b, hb, rfl⟩]
      simp [winner_eq hb.mem, hw]

/-- An episode with candidates gets a grab. -/
theorem callFor_of_accepted (hc : c ∈ inp.accepted key) :
    ∃ b w call, IsFirst inp.prefers (inp.accepted key) b ∧ w ∈ inp.accepted key ∧
      w.release.title = b.release.title ∧ inp.callFor key = some call ∧
      call.release = w.release ∧ call.episodeIDs = [w.episodeID] := by
  obtain ⟨defs, _, hd, _, _⟩ := mem_accepted hc
  obtain ⟨b, hb⟩ := head_stableSort_isSome inp.prefers (List.ne_nil_of_mem hc)
  have hfirst := head_stableSort prefers_weak _ hb
  have hsome : ((inp.accepted key).find? (fun c => c.release.title == b.release.title)).isSome := by
    rw [List.find?_isSome]
    exact ⟨b, hfirst.mem, by simp⟩
  obtain ⟨w, hw⟩ := Option.isSome_iff_exists.mp hsome
  exact ⟨b, w, _, hfirst, List.mem_of_find?_eq_some hw, by simpa using List.find?_some hw,
    callFor_eq_some.mpr ⟨defs, b, w, hd, hfirst, hw, rfl⟩, rfl, rfl⟩

end Inputs
end Sonarr.RssSync
