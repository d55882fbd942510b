import Sonarr.RssSync.Plan

namespace Sonarr.RssSync
open Lib Sonarr.Parser History DecisionEngine Providers Inputs

/-- The candidate an episode's grab is for: the first listed one that has the
title of the one ranked first. -/
def Chosen (inp : Inputs) (key : GroupKey) (c : Candidate) : Prop :=
  ∃ b, IsFirst inp.prefers (inp.accepted key) b ∧
    (inp.accepted key).find? (fun c => c.release.title == b.release.title) = some c

variable {σ : Type}

/-- Whether a client is there that releases of the protocol can be sent to. -/
def usable (clients : Clients σ) (protocol : DownloadProtocol) : Bool :=
  (clients.target protocol).isOk

/-- The calls of `Add` between two states of the world. -/
def sentDuring (w w' : World σ) : List Sent := w'.sent.drop w.sent.length

/-- A grabbed entry under the download id for the episode the candidate is for. -/
def RecordedFor (store : Store) (d : String) (key : GroupKey) (c : Candidate) : Prop :=
  ∃ e ∈ store.rows, e.episodeID = c.episodeID ∧ e.seriesID = key.seriesID ∧
    e.eventType = .grabbed ∧ e.downloadID = d ∧ e.sourceTitle = c.release.title

/-- A run sends no URL twice, and what it sends is recorded for every episode the
release was chosen for. -/
def EachSentOnce (inp : Inputs) (order : Walk) (clients : Clients σ) (w : World σ) : Prop :=
  let w' := (handle inp order clients w).2
  ((sentDuring w w').map Sent.url).Nodup ∧
    ∀ s ∈ sentDuring w w', ∀ d, s.answer = .ok d →
      ∀ key c, Chosen inp key c → c.release.downloadURL = s.url → RecordedFor w'.history d key c

/-- No release of several episodes that can be sent is chosen for two of them. -/
def PacksChosenOnce (inp : Inputs) (clients : Clients σ) : Prop :=
  ∀ rel ∈ inp.releases, usable clients rel.protocol = true →
    ∀ e₁ ∈ (parseTitle rel.title).episodeNumbers, ∀ e₂ ∈ (parseTitle rel.title).episodeNumbers,
      e₁ ≠ e₂ → ∀ seriesID, ¬
        ((∃ c, Chosen inp ⟨seriesID, (parseTitle rel.title).seasonNumber, e₁⟩ c ∧ c.release = rel) ∧
          ∃ c, Chosen inp ⟨seriesID, (parseTitle rel.title).seasonNumber, e₂⟩ c ∧ c.release = rel)

/-- No release that can be sent is chosen for two episodes. -/
def ChosenOnce (inp : Inputs) (clients : Clients σ) : Prop :=
  ∀ k₁ k₂ c₁ c₂, Chosen inp k₁ c₁ → Chosen inp k₂ c₂ → c₁.release = c₂.release →
    usable clients c₁.release.protocol = true → k₁ = k₂

section Calls
variable {inp : Inputs} {key : GroupKey} {c : Candidate}

/-- A call says what was chosen. -/
structure CallOf (key : GroupKey) (c : Candidate) (call : GrabCall) : Prop where
  release : call.release = c.release
  series : call.seriesID = key.seriesID
  episodes : call.episodeIDs = [c.episodeID]

theorem chosen_of_call (h : inp.callFor key = some call) :
    ∃ c, Chosen inp key c ∧ CallOf key c call := by
  obtain ⟨_, b, c, _, hb, hc, rfl⟩ := callFor_eq_some.mp h
  exact ⟨c, ⟨b, hb, hc⟩, ⟨rfl, rfl, rfl⟩⟩

theorem Chosen.mem (h : Chosen inp key c) : c ∈ inp.accepted key := by
  obtain ⟨b, _, hc⟩ := h
  exact List.mem_of_find?_eq_some hc

theorem Chosen.call (h : Chosen inp key c) :
    ∃ call, inp.callFor key = some call ∧ CallOf key c call := by
  obtain ⟨defs, _, hd, _, _⟩ := mem_accepted h.mem
  obtain ⟨b, hb, hc⟩ := h
  exact ⟨_, callFor_eq_some.mpr ⟨defs, b, c, hd, hb, hc, rfl⟩, ⟨rfl, rfl, rfl⟩⟩

theorem Chosen.listed (h : Chosen inp key c) : c.release ∈ inp.releases := by
  obtain ⟨_, _, _, _, hc⟩ := mem_accepted h.mem
  exact hc.release

/-- What a candidate's title says of its episode. -/
theorem Chosen.titled (h : Chosen inp key c) :
    ∃ all, inp.reads.series = some all ∧
      findByTitle all (parseTitle c.release.title).seriesTitle = some key.seriesID ∧
      ∃ n ∈ (parseTitle c.release.title).episodeNumbers,
        key = ⟨key.seriesID, (parseTitle c.release.title).seasonNumber, n⟩ := by
  obtain ⟨_, _, _, _, hc⟩ := mem_accepted h.mem
  obtain ⟨all, hall, hser⟩ := hc.series
  obtain ⟨n, hn, hep⟩ := hc.number
  exact ⟨all, hall, hser, n, hn, by rw [← hc.season, ← hep]⟩

/-- Two episodes of one release differ in their numbers only. -/
theorem chosenOnce_iff {clients : Clients σ} :
    ChosenOnce inp clients ↔ PacksChosenOnce inp clients := by
  constructor
  · rintro h rel _ hs e₁ _ e₂ _ hne seriesID ⟨⟨c₁, h₁, rfl⟩, c₂, h₂, he⟩
    have hk := h _ _ c₁ c₂ h₁ h₂ he.symm hs
    simp only [GroupKey.mk.injEq, Int.natCast_inj, true_and] at hk
    exact hne hk
  · intro h k₁ k₂ c₁ c₂ h₁ h₂ he hs
    obtain ⟨all, hall, hser, n₁, hn₁, hk₁⟩ := h₁.titled
    obtain ⟨all', hall', hser', n₂, hn₂, hk₂⟩ := h₂.titled
    rw [← he] at hser' hn₂ hk₂
    rw [hall] at hall'
    cases hall'
    have hseries : k₁.seriesID = k₂.seriesID := Option.some.inj (hser.symm.trans hser')
    rw [← hseries] at hk₂
    by_contra hne
    have hn : n₁ ≠ n₂ := by
      rintro rfl
      exact hne (hk₁.trans hk₂.symm)
    exact h c₁.release h₁.listed hs n₁ hn₁ n₂ hn₂ hn k₁.seriesID
      ⟨⟨c₁, hk₁ ▸ h₁, rfl⟩, c₂, hk₂ ▸ h₂, he.symm⟩

theorem handle_world (order : Walk) (clients : Clients σ) (w : World σ) :
    (handle inp order clients w).2 = grabAll clients ((inp.calls order).map Prod.snd) w := by
  unfold handle calls
  cases inp.plan order with
  | error e => rfl
  | ok calls => rfl

/-- An episode is grabbed for once. -/
theorem calls_keys (order : Walk) : ((inp.calls order).map Prod.fst).Nodup := by
  unfold calls plan
  cases inp.indexers with
  | none => simp
  | some instances =>
    by_cases hr : inp.releases.isEmpty = true
    · simp [hr]
    · simp only [hr, Bool.false_eq_true, if_false]
      cases inp.qualityDefs with
      | none => simp
      | some defs =>
        cases inp.customFormats with
        | none => simp
        | some formats =>
          let g := Groups.collect (inp.candidates defs formats)
          have hkeys : ((order.walk g.entries).map Prod.fst).Nodup :=
            ((order.perm g.entries).map Prod.fst).nodup_iff.mpr g.keys
          refine List.Nodup.sublist ?_ hkeys
          exact Groups.keys_filterMap_sublist (inp.grabCall defs) _

end Calls

section Grabs
variable {clients : Clients σ} {w : World σ}

/-- What a run of grabs has sent and recorded beyond `w`. -/
structure Sends (clients : Clients σ) (calls : List GrabCall) (w w' : World σ) (sent : List Sent) :
    Prop where
  log : w'.sent = w.sent ++ sent
  urls : sent.map Sent.url = (calls.filter (fun call => usable clients call.release.protocol)).map
    (fun call => call.release.downloadURL)
  keeps : ∀ e ∈ w.history.rows, e ∈ w'.history.rows
  recorded : ∀ s ∈ sent, ∀ d, s.answer = .ok d → ∃ call ∈ calls,
    usable clients call.release.protocol = true ∧ call.release.downloadURL = s.url ∧
      ∀ ep ∈ call.episodeIDs, ∃ e ∈ w'.history.rows, e.episodeID = ep ∧
        e.seriesID = call.seriesID ∧ e.eventType = .grabbed ∧ e.downloadID = d ∧
        e.sourceTitle = call.release.title

theorem grab_sends (clients : Clients σ) (call : GrabCall) (w : World σ) :
    ∃ sent, Sends clients [call] w (grab clients w call).2 sent := by
  rcases grab_cases clients w call with ⟨e, ht, hw⟩ | ⟨best, client, answer, ht, _, hs, _, hh⟩
  · have hu : usable clients call.release.protocol = false := by
      simp [usable, ht, Except.isOk, Except.toBool]
    rw [hw]
    exact ⟨[], by simp, by simp [hu], fun _ he => he, by simp⟩
  · have hu : usable clients call.release.protocol = true := by
      simp [usable, ht, Except.isOk, Except.toBool]
    refine ⟨_, hs, by simp [hu], ?_, ?_⟩
    · intro e he
      rw [hh]
      cases answer with
      | error _ => exact he
      | ok d => exact recordGrab_keeps he
    · intro s hm d hd
      rw [List.mem_singleton] at hm
      subst hm
      simp only at hd
      subst hd
      refine ⟨call, List.mem_singleton.mpr rfl, hu, rfl, ?_⟩
      intro ep hep
      rw [hh]
      exact mem_recordGrab hep w.history

/-- One run of grabs after another. -/
theorem Sends.append (h₁ : Sends clients cs₁ w w₁ s₁) (h₂ : Sends clients cs₂ w₁ w₂ s₂) :
    Sends clients (cs₁ ++ cs₂) w w₂ (s₁ ++ s₂) where
  log := by rw [h₂.log, h₁.log, List.append_assoc]
  urls := by rw [List.map_append, h₁.urls, h₂.urls, List.filter_append, List.map_append]
  keeps e he := h₂.keeps e (h₁.keeps e he)
  recorded s hs d hd := by
    rcases List.mem_append.mp hs with hs | hs
    · obtain ⟨call, hc, hu, hurl, hrec⟩ := h₁.recorded s hs d hd
      refine ⟨call, List.mem_append_left _ hc, hu, hurl, fun ep hep => ?_⟩
      obtain ⟨e, he, hrest⟩ := hrec ep hep
      exact ⟨e, h₂.keeps e he, hrest⟩
    · obtain ⟨call, hc, hrest⟩ := h₂.recorded s hs d hd
      exact ⟨call, List.mem_append_right _ hc, hrest⟩

theorem grabAll_sends (clients : Clients σ) (calls : List GrabCall) (w : World σ) :
    ∃ sent, Sends clients calls w (grabAll clients calls w) sent := by
  induction calls generalizing w with
  | nil => exact ⟨[], by simp [grabAll], rfl, fun _ he => he, by simp⟩
  | cons call calls ih =>
    obtain ⟨s₁, h₁⟩ := grab_sends clients call w
    obtain ⟨s₂, h₂⟩ := ih (grab clients w call).2
    exact ⟨s₁ ++ s₂, h₁.append h₂⟩

theorem Sends.during (h : Sends clients cs w w' sent) : sentDuring w w' = sent := by
  unfold sentDuring
  rw [h.log, List.drop_left]

end Grabs

section Once
variable {inp : Inputs} {clients : Clients σ}

/-- The calls whose release can be sent, with their episodes' keys. -/
def sendable (inp : Inputs) (order : Walk) (clients : Clients σ) : List (GroupKey × GrabCall) :=
  (inp.calls order).filter (fun kc => usable clients kc.2.release.protocol)

theorem mem_sendable {order : Walk} : (key, call) ∈ sendable inp order clients ↔
    inp.callFor key = some call ∧ usable clients call.release.protocol = true := by
  unfold sendable
  rw [List.mem_filter, mem_calls]

/-- With distinct URLs a URL stands for one release. -/
theorem chosen_url (hn : (inp.releases.map Release.downloadURL).Nodup)
    (h₁ : Chosen inp k₁ c₁) (h₂ : Chosen inp k₂ c₂)
    (hu : c₁.release.downloadURL = c₂.release.downloadURL) : c₁.release = c₂.release :=
  List.inj_on_of_nodup_map hn h₁.listed h₂.listed hu

/-- Under the condition two sendable calls for one URL are one call. -/
theorem sendable_url (hn : (inp.releases.map Release.downloadURL).Nodup)
    (ho : ChosenOnce inp clients) (h₁ : inp.callFor k₁ = some call₁)
    (h₂ : inp.callFor k₂ = some call₂) (hs : usable clients call₁.release.protocol = true)
    (hu : call₁.release.downloadURL = call₂.release.downloadURL) :
    (k₁, call₁) = (k₂, call₂) := by
  obtain ⟨c₁, hc₁, e₁⟩ := chosen_of_call h₁
  obtain ⟨c₂, hc₂, e₂⟩ := chosen_of_call h₂
  rw [e₁.release, e₂.release] at hu
  rw [e₁.release] at hs
  have hk := ho k₁ k₂ c₁ c₂ hc₁ hc₂ (chosen_url hn hc₁ hc₂ hu) hs
  subst hk
  rw [h₁] at h₂
  cases h₂
  rfl

theorem urls_nodup_iff (order : Walk) (hn : (inp.releases.map Release.downloadURL).Nodup) :
    ((sendable inp order clients).map (fun kc => kc.2.release.downloadURL)).Nodup ↔
      ChosenOnce inp clients := by
  constructor
  · intro h k₁ k₂ c₁ c₂ hc₁ hc₂ he hs
    obtain ⟨call₁, h₁, e₁⟩ := hc₁.call
    obtain ⟨call₂, h₂, e₂⟩ := hc₂.call
    have m₁ : (k₁, call₁) ∈ sendable inp order clients := mem_sendable.mpr ⟨h₁, e₁.release ▸ hs⟩
    have m₂ : (k₂, call₂) ∈ sendable inp order clients :=
      mem_sendable.mpr ⟨h₂, by rw [e₂.release, ← he]; exact hs⟩
    have hp := List.inj_on_of_nodup_map h m₁ m₂ (by simp only [e₁.release, e₂.release, he])
    exact congrArg Prod.fst hp
  · intro ho
    have hcalls : (sendable inp order clients).Nodup :=
      (List.Nodup.of_map Prod.fst (calls_keys order)).filter _
    refine hcalls.map_on ?_
    rintro ⟨k₁, call₁⟩ m₁ ⟨k₂, call₂⟩ m₂ hu
    obtain ⟨h₁, hs⟩ := mem_sendable.mp m₁
    exact sendable_url hn ho h₁ (mem_sendable.mp m₂).1 hs hu

theorem Sends.urls_eq {order : Walk} {w w' : World σ}
    (h : Sends clients ((inp.calls order).map Prod.snd) w w' sent) :
    sent.map Sent.url =
      (sendable inp order clients).map (fun kc => kc.2.release.downloadURL) := by
  rw [h.urls, List.filter_map, List.map_map]
  rfl

/-- The one call that sent a release recorded it for the one episode it was
chosen for. -/
theorem Sends.recordedFor {order : Walk} {w w' : World σ}
    (h : Sends clients ((inp.calls order).map Prod.snd) w w' sent)
    (hn : (inp.releases.map Release.downloadURL).Nodup) (ho : ChosenOnce inp clients)
    (hs : s ∈ sent) (hd : s.answer = .ok d) (hc : Chosen inp key c)
    (hu : c.release.downloadURL = s.url) : RecordedFor w'.history d key c := by
  obtain ⟨call, hm, hsend, hurl, hrec⟩ := h.recorded s hs d hd
  obtain ⟨⟨k, _⟩, hkc, rfl⟩ := List.mem_map.mp hm
  obtain ⟨call', hcall', e⟩ := hc.call
  have hp := sendable_url hn ho ((mem_calls order).mp hkc) hcall' hsend
    (by rw [hurl, e.release, hu])
  obtain ⟨rfl, rfl⟩ := Prod.mk.inj hp
  obtain ⟨entry, he, hep, hser, hrest⟩ := hrec c.episodeID (by simp [e.episodes])
  rw [e.series] at hser
  rw [e.release] at hrest
  exact ⟨entry, he, hep, hser, hrest⟩

/-- Releases are sent once and recorded exactly when no pack is chosen twice. -/
theorem each_sent_once_iff (inp : Inputs) (order : Walk) (clients : Clients σ) (w : World σ)
    (hn : (inp.releases.map Release.downloadURL).Nodup) :
    EachSentOnce inp order clients w ↔ PacksChosenOnce inp clients := by
  rw [← chosenOnce_iff]
  obtain ⟨sent, hs⟩ := grabAll_sends clients ((inp.calls order).map Prod.snd) w
  unfold EachSentOnce
  simp only [handle_world, hs.during]
  rw [hs.urls_eq, urls_nodup_iff order hn]
  constructor
  · exact And.left
  · intro ho
    exact ⟨ho, fun s hm d hd key c hc hu => hs.recordedFor hn ho hm hd hc hu⟩

/-- A series of two monitored episodes and a feed of one release. -/
def oneRelease (title : String) : Inputs where
  compile _ := none
  registry _ := some (fun _ => some (some
    [⟨title, "https://example.com/1", 500 * 1024 * 1024, "A", .torrent⟩]))
  indexers := some [⟨1, "A", "Newznab", "", true⟩]
  qualityDefs := some []
  customFormats := some []
  profile1 := none
  engine := [notSampleSpec]
  reads := ⟨some [breakingBad],
    fun _ => some [pilot, ⟨2, 1, 1, 2, none, "Cancer Man", "", none, true, none, 0⟩]⟩

/-- A torrent client that numbers what it is sent. -/
def numbering : Clients Nat where
  registry _ := some ⟨.torrent, fun _ => some ⟨fun n _ _ => (.ok n.repr, n + 1), fun n => (.ok [], n)⟩⟩
  instances := some [⟨1, "Transmission", "Transmission", "", true, 1⟩]

def freshWorld : World Nat := ⟨1, 0, Table.empty, [], []⟩

theorem single_episode_sent_once :
    ((oneRelease "Breaking.Bad.S01E01.720p-GROUP").releases.map Release.downloadURL).Nodup ∧
      EachSentOnce (oneRelease "Breaking.Bad.S01E01.720p-GROUP") inOrder numbering freshWorld := by
  have hn : ((oneRelease "Breaking.Bad.S01E01.720p-GROUP").releases.map
      Release.downloadURL).Nodup := by decide
  refine ⟨hn, (each_sent_once_iff _ inOrder numbering freshWorld hn).mpr (chosenOnce_iff.mp ?_)⟩
  have hkeys : ((oneRelease "Breaking.Bad.S01E01.720p-GROUP").candidates [] []).map Prod.fst =
      [⟨1, 1, 1⟩] := by decide
  have hkey : ∀ k c, Chosen (oneRelease "Breaking.Bad.S01E01.720p-GROUP") k c → k = ⟨1, 1, 1⟩ := by
    intro k c hc
    obtain ⟨⟨k', c'⟩, hm, _⟩ := List.mem_map.mp hc.mem
    obtain ⟨hm, hk⟩ := List.mem_filter.mp hm
    have hk' : k' = k := by simpa using hk
    have hmem := List.mem_map_of_mem (f := Prod.fst) hm
    rw [hkeys, hk'] at hmem
    exact List.mem_singleton.mp hmem
  intro k₁ k₂ c₁ c₂ h₁ h₂ _ _
  rw [hkey k₁ c₁ h₁, hkey k₂ c₂ h₂]

theorem double_episode_sent_twice :
    ((oneRelease "Breaking.Bad.S01E01E02.720p-GROUP").releases.map Release.downloadURL).Nodup ∧
      ¬ EachSentOnce (oneRelease "Breaking.Bad.S01E01E02.720p-GROUP") inOrder numbering
        freshWorld := by
  refine ⟨by decide, fun h => ?_⟩
  have hsent : (sentDuring freshWorld
      (handle (oneRelease "Breaking.Bad.S01E01E02.720p-GROUP") inOrder numbering freshWorld).2).map
      Sent.url = ["https://example.com/1", "https://example.com/1"] := by decide
  have hnodup := h.1
  rw [hsent] at hnodup
  exact absurd hnodup (by decide)

end Once
end Sonarr.RssSync
