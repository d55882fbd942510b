import Sonarr.RssSync.Plan

namespace Sonarr.RssSync
open Lib Sonarr.Parser Profiles CustomFormats DecisionEngine Providers Inputs

/-- What candidates are ranked by. -/
def rankedBy (inp : Inputs) (c : Candidate) : Int × Nat × Int :=
  (c.remote.cfScore, qualityIndex c.remote inp.profile, c.release.size)

/-- The run with other indexers, and so other feeds. -/
def Inputs.withFeeds (inp : Inputs) (registry : IndexerRegistry)
    (indexers : Option (List IndexerInstance)) : Inputs :=
  { inp with registry, indexers }

variable {inp : Inputs} {key : GroupKey} {call : GrabCall} {registry : IndexerRegistry}
  {indexers : Option (List IndexerInstance)}

/-- Candidates that are not preferred to one another are ranked by the same. -/
theorem rankedBy_eq (ha : a ∈ inp.accepted key) (hb : b ∈ inp.accepted key)
    (hab : inp.prefers a b = false) (hba : inp.prefers b a = false) :
    rankedBy inp a = rankedBy inp b := by
  unfold prefers at hab hba
  rw [← Bool.not_eq_true, preferred_iff, (accepted_remote ha).2, (accepted_remote hb).2] at hab hba
  have hs : a.remote.cfScore = b.remote.cfScore := by omega
  have hq : qualityIndex a.remote inp.profile = qualityIndex b.remote inp.profile := by omega
  have hz : a.release.size = b.release.size := by omega
  unfold rankedBy
  rw [hs, hq, hz]

/-- Without ties only one candidate is unbeaten. -/
theorem unbeaten_unique (hties : ((inp.accepted key).map (rankedBy inp)).Nodup)
    (ha : a ∈ inp.accepted key) (hb : b ∈ inp.accepted key)
    (ua : ∀ d ∈ inp.accepted key, inp.prefers d a = false)
    (ub : ∀ d ∈ inp.accepted key, inp.prefers d b = false) : a = b :=
  List.inj_on_of_nodup_map hties ha hb (rankedBy_eq ha hb (ub a ha) (ua b hb))

/-- One title, one release. -/
theorem accepted_release (htitles : (inp.releases.map Release.title).Nodup)
    (ha : a ∈ inp.accepted key) (hb : b ∈ inp.accepted key)
    (ht : a.release.title = b.release.title) : a.release = b.release := by
  obtain ⟨_, _, _, _, ca⟩ := mem_accepted ha
  obtain ⟨_, _, _, _, cb⟩ := mem_accepted hb
  exact List.inj_on_of_nodup_map htitles ca.release cb.release ht

/-- Feeds in another order leave the same candidates for an episode. -/
theorem accepted_perm (hperm : (inp.withFeeds registry indexers).releases.Perm inp.releases) :
    ((inp.withFeeds registry indexers).accepted key).Perm (inp.accepted key) := by
  unfold accepted Groups.under candidates
  have hd : (inp.withFeeds registry indexers).qualityDefs = inp.qualityDefs := rfl
  have hf : (inp.withFeeds registry indexers).customFormats = inp.customFormats := rfl
  rw [hd, hf]
  cases inp.qualityDefs with
  | none => exact .refl _
  | some defs =>
    cases inp.customFormats with
    | none => exact .refl _
    | some formats =>
      exact ((hperm.flatMap_right _).filter _).map _

/-- What a run decides on for an episode it also decides on with its feeds reordered. -/
theorem callFor_perm (hperm : (inp.withFeeds registry indexers).releases.Perm inp.releases)
    (htitles : (inp.releases.map Release.title).Nodup)
    (hties : ((inp.accepted key).map (rankedBy inp)).Nodup)
    (h : inp.callFor key = some call) :
    (inp.withFeeds registry indexers).callFor key = some call := by
  have hmem : ∀ c, c ∈ (inp.withFeeds registry indexers).accepted key ↔ c ∈ inp.accepted key :=
    fun c => (accepted_perm hperm).mem_iff
  obtain ⟨defs, b, w, hd, hb, hw, rfl⟩ := callFor_eq_some.mp h
  have hwm := List.mem_of_find?_eq_some hw
  have hwt : w.release.title = b.release.title := by simpa using List.find?_some hw
  -- The candidate ranked first is the one that nothing is preferred to, in either order.
  obtain ⟨b', hhead⟩ := head_stableSort_isSome (inp.withFeeds registry indexers).prefers
    (List.ne_nil_of_mem ((hmem b).mpr hb.mem))
  have hb' := head_stableSort prefers_weak _ hhead
  have hbeaten : ∀ d ∈ inp.accepted key, inp.prefers d b' = false :=
    fun d hd => hb'.unbeaten prefers_weak d ((hmem d).mpr hd)
  have heq : b' = b :=
    unbeaten_unique hties ((hmem b').mp hb'.mem) hb.mem hbeaten (hb.unbeaten prefers_weak)
  subst heq
  have hsome : (((inp.withFeeds registry indexers).accepted key).find?
      (fun c => c.release.title == b'.release.title)).isSome := by
    rw [List.find?_isSome]
    exact ⟨b', hb'.mem, by simp⟩
  obtain ⟨w', hw'⟩ := Option.isSome_iff_exists.mp hsome
  have hwm' := (hmem w').mp (List.mem_of_find?_eq_some hw')
  have hwt' : w'.release.title = b'.release.title := by simpa using List.find?_some hw'
  refine callFor_eq_some.mpr ⟨defs, b', w', hd, hb', hw', ?_⟩
  rw [accepted_release htitles hwm hwm' (hwt.trans hwt'.symm), accepted_episode hwm hwm']

/-- With distinct titles and no ties neither the order of the releases nor that of the
groups matters to what a run grabs. -/
theorem calls_order_free (inp : Inputs) (registry : IndexerRegistry)
    (indexers : Option (List IndexerInstance)) (order order' : Walk)
    (hperm : (inp.withFeeds registry indexers).releases.Perm inp.releases)
    (htitles : (inp.releases.map Release.title).Nodup)
    (hties : ∀ key, ((inp.accepted key).map (rankedBy inp)).Nodup) (key : GroupKey)
    (call : GrabCall) :
    (key, call) ∈ (inp.withFeeds registry indexers).calls order' ↔ (key, call) ∈ inp.calls order := by
  rw [mem_calls, mem_calls]
  constructor
  · -- The other run is one with the first one's feeds for its own.
    intro h
    have htitles' : ((inp.withFeeds registry indexers).releases.map Release.title).Nodup :=
      (hperm.map Release.title).nodup_iff.mpr htitles
    have hties' : (((inp.withFeeds registry indexers).accepted key).map
        (rankedBy (inp.withFeeds registry indexers))).Nodup :=
      ((accepted_perm hperm).map (rankedBy inp)).nodup_iff.mpr (hties key)
    have hback : ((inp.withFeeds registry indexers).withFeeds inp.registry inp.indexers).callFor key =
        some call := callFor_perm hperm.symm htitles' hties' h
    exact hback
  · exact callFor_perm hperm htitles (hties key)

/-- Two releases of one episode that differ in size, and the indexers that have them. -/
def twoReleases : Inputs where
  compile _ := none
  registry _ := some (fun settings => some (some
    [⟨"Breaking.Bad.S01E01.720p-" ++ settings, "https://example.com/" ++ settings,
      if settings = "a" then 300 * 1024 * 1024 else 800 * 1024 * 1024, settings, .usenet⟩]))
  indexers := some [⟨1, "A", "Newznab", "a", true⟩, ⟨2, "B", "Newznab", "b", true⟩]
  qualityDefs := some []
  customFormats := some []
  profile1 := none
  engine := [notSampleSpec]
  reads := ⟨some [breakingBad], fun _ => some [pilot]⟩

theorem accepted_sublist {defs : List QualityDefinition} {formats : List CustomFormat}
    (hd : inp.qualityDefs = some defs) (hf : inp.customFormats = some formats) (key : GroupKey) :
    (inp.accepted key).Sublist ((inp.candidates defs formats).map Prod.snd) := by
  unfold accepted Groups.under
  rw [hd, hf]
  exact List.filter_sublist.map Prod.snd

/-- The larger release is grabbed, whichever indexer is asked first. -/
theorem calls_order_free_two :
    (⟨1, 1, 1⟩, ⟨⟨"Breaking.Bad.S01E01.720p-b", "https://example.com/b", 838860800, "b", .usenet⟩, 1,
        [1], ""⟩) ∈ (twoReleases.withFeeds twoReleases.registry
      (some [⟨2, "B", "Newznab", "b", true⟩, ⟨1, "A", "Newznab", "a", true⟩])).calls inOrder := by
  have hties : ∀ key, ((twoReleases.accepted key).map (rankedBy twoReleases)).Nodup := by
    intro key
    have hall : (((twoReleases.candidates [] []).map Prod.snd).map (rankedBy twoReleases)).Nodup := by
      decide +kernel
    exact hall.sublist ((accepted_sublist rfl rfl key).map _)
  exact (calls_order_free twoReleases _ _ inOrder inOrder (by decide) (by decide) hties _ _).mpr
    (by decide +kernel)

end Sonarr.RssSync
