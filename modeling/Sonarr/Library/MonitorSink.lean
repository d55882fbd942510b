import Sonarr.Library.MonitorMode

namespace Sonarr
open Lib

/-- `MonitorSink`: a call that fails changes nothing, one that succeeds sets one flag. -/
structure MonitorSink (σ : Type) where
  listForSeries : σ → Nat → Option (List Episode)
  setMonitored : σ → Nat → Bool → Option σ
  monitored : σ → Nat → Bool
  set_eq : ∀ s id want s', setMonitored s id want = some s' →
    monitored s' = Function.update (monitored s) id want

inductive SinkError
  | list
  | apply (e : ApplyError)
  deriving DecidableEq, Repr

namespace MonitorSink
variable {σ : Type} (sink : MonitorSink σ)

/-- The loop of `ApplyMonitorMode` over the episodes that are left. -/
def decideAll (now : Int) (mode : String) (eps : List Episode) :
    List Episode → σ → Except SinkError Unit × σ
  | [], s => (.ok (), s)
  | e :: rest, s =>
    match MonitorMode.ofName mode with
    | none => (.error (.apply (.unknownMode mode)), s)
    | some m => match sink.setMonitored s e.id (m.decide now eps e) with
      | none => (.error (.apply (.setMonitored e.id)), s)
      | some s => decideAll now mode eps rest s

def applyMonitorMode (now : Int) (seriesID : Nat) (mode : String) (s : σ) :
    Except SinkError Unit × σ :=
  match sink.listForSeries s seriesID with
  | none => (.error .list, s)
  | some eps => if eps = [] then (.ok (), s) else sink.decideAll now mode eps eps s

/-- The flags of `eps` set one after the other, as long as no call fails. -/
def setAll (want : Episode → Bool) : List Episode → σ → Option σ
  | [], s => some s
  | e :: rest, s => (sink.setMonitored s e.id (want e)).bind (setAll want rest)

end MonitorSink

/-- The stores as a sink. -/
def episodesSink (now : Int) : MonitorSink Library where
  listForSeries lib seriesID := some (lib.listForSeries seriesID)
  setMonitored lib id want := lib.setMonitored now id want
  monitored lib id := (lib.episodes.get id).any (·.monitored)
  set_eq := by
    intro lib id want lib' h
    obtain ⟨row, hrow, rfl⟩ := Option.map_eq_some_iff.mp h
    have hid : row.id = id := (Table.get_eq_some.mp hrow).2
    funext k
    simp only [Library.writeMonitored, Table.get_update]
    by_cases hk : k = id
    · subst hk
      simp [hrow, hid]
    · rw [Function.update_of_ne hk]
      cases hg : lib.episodes.get k with
      | none => rfl
      | some r =>
        have hr : r.id = k := (Table.get_eq_some.mp hg).2
        simp [hr, hk]

/-- `ApplyMonitorMode` on the stores is the loop over them as a sink. -/
theorem applyMonitorMode_eq_sink (now : Int) (seriesID : Nat) (mode : String) (lib : Library) :
    (episodesSink now).applyMonitorMode now seriesID mode lib =
      match applyMonitorMode now seriesID mode lib with
      | (.ok (), lib) => (.ok (), lib)
      | (.error e, lib) => (.error (.apply e), lib) := by
  have hloop : ∀ (eps l : List Episode) (lib : Library),
      (episodesSink now).decideAll now mode eps l lib =
        match applyDecisions now mode eps l lib with
        | (.ok (), lib) => (.ok (), lib)
        | (.error e, lib) => (.error (.apply e), lib) := by
    intro eps l
    induction l with
    | nil => intro lib; rfl
    | cons e rest ih =>
      intro lib
      rw [MonitorSink.decideAll, applyDecisions]
      cases MonitorMode.ofName mode with
      | none => rfl
      | some m =>
        have hset : (episodesSink now).setMonitored lib e.id (m.decide now eps e) =
            lib.setMonitored now e.id (m.decide now eps e) := rfl
        simp only [hset]
        cases lib.setMonitored now e.id (m.decide now eps e) with
        | none => rfl
        | some lib => exact ih lib
  unfold MonitorSink.applyMonitorMode
  show (if lib.listForSeries seriesID = [] then _ else _) = _
  split
  · rename_i hnil
    rw [applyMonitorMode_nil hnil]
  · exact hloop _ _ lib

/-- What the comment of `ApplyMonitorMode` says of each mode. -/
def MonitorMode.Documented (now : Int) (eps : List Episode) (e : Episode) : MonitorMode → Prop
  | .all => True
  | .none => False
  | .future => ∃ t, e.airDateUtc = some t ∧ now < t * 1000000000
  | .missing => e.episodeFileID = Option.none
  | .existing => e.episodeFileID ≠ Option.none
  | .pilot => e.seasonNumber = 1 ∧ e.episodeNumber = 1
  | .firstSeason => e.seasonNumber = 1
  | .lastSeason => ∀ x ∈ eps, x.seasonNumber ≤ e.seasonNumber

/-- The season the loop compares with is the highest one when some season is not negative. -/
theorem eq_maxSeason_iff (hnonneg : ∃ x ∈ eps, 0 ≤ x.seasonNumber) (he : e ∈ eps) :
    e.seasonNumber = maxSeason eps ↔ ∀ x ∈ eps, x.seasonNumber ≤ e.seasonNumber := by
  obtain ⟨h0, hle, hmem⟩ := foldl_maxSeason eps 0
  obtain ⟨y, hy, hy0⟩ := hnonneg
  constructor
  · intro h x hx
    rw [h]
    exact hle x hx
  · intro h
    have hup : e.seasonNumber ≤ maxSeason eps := hle e he
    rcases hmem with hz | ⟨x, hx, hv⟩
    · have hz : maxSeason eps = 0 := hz
      have := h y hy
      omega
    · have hv : x.seasonNumber = maxSeason eps := hv
      have := h x hx
      omega

/-- The condition under which `lastSeason` finds the last season. -/
def SeasonsFit (mode : String) (eps : List Episode) : Prop :=
  mode = "lastSeason" → eps ≠ [] → ∃ x ∈ eps, 0 ≤ x.seasonNumber

theorem MonitorMode.decide_iff (hmode : MonitorMode.ofName mode = some m)
    (hfit : SeasonsFit mode eps) (now : Int) (he : e ∈ eps) :
    m.decide now eps e = true ↔ m.Documented now eps e := by
  cases m with
  | lastSeason =>
    have hname : mode = "lastSeason" := by
      unfold MonitorMode.ofName at hmode
      split at hmode <;> first | rfl | cases hmode
    rw [MonitorMode.decide, beq_iff_eq]
    exact eq_maxSeason_iff (hfit hname (List.ne_nil_of_mem he)) he
  | _ =>
    simp [MonitorMode.decide, MonitorMode.Documented, Option.any_eq_true, Option.isSome_iff_ne_none,
      Option.isNone_iff_eq_none]

section Loop
variable {σ : Type} {sink : MonitorSink σ} {want : Episode → Bool}

theorem MonitorSink.setAll_monitored (h : sink.setAll want l s = some s') :
    sink.monitored s' = l.foldl (fun f e => Function.update f e.id (want e)) (sink.monitored s) := by
  induction l generalizing s with
  | nil =>
    cases h
    rfl
  | cons e rest ih =>
    obtain ⟨s1, hset, hrest⟩ := Option.bind_eq_some_iff.mp h
    rw [ih hrest, List.foldl_cons, sink.set_eq _ _ _ _ hset]

/-- Entries with one id agree on what is wanted. -/
theorem foldl_update_listed (l : List Episode) (f : Nat → Bool)
    (hagree : ∀ x ∈ l, ∀ y ∈ l, x.id = y.id → want x = want y) (he : e ∈ l) :
    l.foldl (fun f e => Function.update f e.id (want e)) f e.id = want e := by
  induction l using List.reverseRecOn with
  | nil => cases he
  | append_singleton l x ih =>
    rw [List.foldl_append, List.foldl_cons, List.foldl_nil]
    by_cases hid : e.id = x.id
    · rw [hid, Function.update_self]
      exact hagree x (by simp) e he hid.symm
    · rw [Function.update_of_ne hid]
      apply ih (fun x hx y hy => hagree x (by simp [hx]) y (by simp [hy]))
      rcases List.mem_append.mp he with he | he
      · exact he
      · rw [List.mem_singleton.mp he] at hid
        exact absurd rfl hid

theorem foldl_update_other (l : List Episode) (f : Nat → Bool) {k : Nat}
    (hk : ∀ e ∈ l, e.id ≠ k) :
    l.foldl (fun f e => Function.update f e.id (want e)) f k = f k := by
  induction l generalizing f with
  | nil => rfl
  | cons e l ih =>
    rw [List.forall_mem_cons] at hk
    rw [List.foldl_cons, ih _ hk.2, Function.update_of_ne hk.1.symm]

theorem exists_of_foldl_update {k : Nat} (l : List Episode) (f : Nat → Bool)
    (h : l.foldl (fun f e => Function.update f e.id (want e)) f k = true) :
    f k = true ∨ ∃ e ∈ l, want e = true := by
  induction l generalizing f with
  | nil => exact .inl h
  | cons e l ih =>
    rcases ih _ h with hf | ⟨x, hx, hw⟩
    · dsimp only at hf
      by_cases hk : k = e.id
      · rw [hk, Function.update_self] at hf
        exact .inr ⟨e, List.mem_cons_self, hf⟩
      · rw [Function.update_of_ne hk] at hf
        exact .inl hf
    · exact .inr ⟨x, List.mem_cons_of_mem _ hx, hw⟩

/-- The processed prefix is set, and the loop goes on behind it. -/
theorem MonitorSink.decideAll_append (hmode : MonitorMode.ofName mode = some m)
    (h : sink.setAll (m.decide now eps) l s = some s') (rest : List Episode) :
    sink.decideAll now mode eps (l ++ rest) s = sink.decideAll now mode eps rest s' := by
  induction l generalizing s with
  | nil =>
    cases h
    rfl
  | cons e l ih =>
    obtain ⟨s1, hset, hrest⟩ := Option.bind_eq_some_iff.mp h
    rw [List.cons_append, decideAll, hmode]
    simp only [hset]
    exact ih hrest

/-- A loop that ends well has set every flag. -/
theorem MonitorSink.setAll_of_decideAll (hmode : MonitorMode.ofName mode = some m)
    (h : sink.decideAll now mode eps l s = (.ok (), s')) :
    sink.setAll (m.decide now eps) l s = some s' := by
  induction l generalizing s with
  | nil =>
    cases h
    rfl
  | cons e l ih =>
    rw [decideAll, hmode] at h
    dsimp only at h
    cases hset : sink.setMonitored s e.id (m.decide now eps e) with
    | none =>
      rw [hset] at h
      cases h
    | some s1 =>
      rw [hset] at h
      rw [setAll, hset, Option.bind_some]
      exact ih h

theorem MonitorSink.setAll_total (sink : MonitorSink σ) (want : Episode → Bool)
    (h : ∀ s id want, sink.setMonitored s id want ≠ none) (l : List Episode) (s : σ) :
    ∃ s', sink.setAll want l s = some s' := by
  induction l generalizing s with
  | nil => exact ⟨s, rfl⟩
  | cons e l ih =>
    obtain ⟨s1, hset⟩ := Option.ne_none_iff_exists'.mp (h s e.id (want e))
    obtain ⟨s', hrest⟩ := ih s1
    exact ⟨s', by rw [setAll, hset, Option.bind_some, hrest]⟩

theorem MonitorSink.setAll_congr {want' : Episode → Bool} (h : ∀ e ∈ l, want e = want' e) (s : σ) :
    sink.setAll want l s = sink.setAll want' l s := by
  induction l generalizing s with
  | nil => rfl
  | cons e l ih =>
    rw [List.forall_mem_cons] at h
    rw [setAll, setAll, h.1]
    congr 1
    funext s
    exact ih h.2 s

/-- `ApplyMonitorMode` ends well just when it has set the flags of the whole list. -/
theorem MonitorSink.applyMonitorMode_ok (sink : MonitorSink σ)
    (hmode : MonitorMode.ofName mode = some m) (hlist : sink.listForSeries s seriesID = some eps)
    (hset : sink.setAll (m.decide now eps) eps s = some s') :
    sink.applyMonitorMode now seriesID mode s = (.ok (), s') := by
  have hloop := decideAll_append hmode hset []
  rw [List.append_nil] at hloop
  rw [applyMonitorMode, hlist]
  dsimp only
  split
  · rename_i hnil
    subst hnil
    cases hset
    rfl
  · rw [hloop]
    rfl

theorem MonitorSink.setAll_of_applyMonitorMode (sink : MonitorSink σ)
    (hmode : MonitorMode.ofName mode = some m) (hlist : sink.listForSeries s seriesID = some eps)
    (hok : sink.applyMonitorMode now seriesID mode s = (.ok (), s')) :
    sink.setAll (m.decide now eps) eps s = some s' := by
  rw [applyMonitorMode, hlist] at hok
  dsimp only at hok
  split at hok
  · rename_i hnil
    subst hnil
    cases hok
    rfl
  · exact setAll_of_decideAll hmode hok

end Loop

/-- `ApplyMonitorMode` does for a mode and a list of episodes what its comment says, on
every sink that lists them and at every instant. -/
structure Exact (mode : String) (eps : List Episode) : Prop where
  unknown : MonitorMode.ofName mode = none → ∀ {σ : Type} (sink : MonitorSink σ) now seriesID s,
    sink.listForSeries s seriesID = some eps →
      ∃ err, sink.applyMonitorMode now seriesID mode s = (.error err, s)
  finishes : ∀ m, MonitorMode.ofName mode = some m →
    ∀ {σ : Type} (sink : MonitorSink σ) now seriesID s,
    sink.listForSeries s seriesID = some eps →
      (∀ s id want, sink.setMonitored s id want ≠ none) →
      ∃ s', sink.applyMonitorMode now seriesID mode s = (.ok (), s')
  known : ∀ m, MonitorMode.ofName mode = some m → ∀ {σ : Type} (sink : MonitorSink σ) now seriesID s,
    sink.listForSeries s seriesID = some eps →
      ∀ s', sink.applyMonitorMode now seriesID mode s = (.ok (), s') →
        (∀ e ∈ eps, sink.monitored s' e.id = true ↔ m.Documented now eps e) ∧
        ∀ k, (∀ e ∈ eps, e.id ≠ k) → sink.monitored s' k = sink.monitored s k
  failed : ∀ m, MonitorMode.ofName mode = some m → ∀ {σ : Type} (sink : MonitorSink σ) now seriesID s,
    sink.listForSeries s seriesID = some eps →
      ∀ want : Episode → Bool, (∀ e ∈ eps, want e = true ↔ m.Documented now eps e) →
      ∀ first e rest s', eps = first ++ e :: rest → sink.setAll want first s = some s' →
        sink.setMonitored s' e.id (want e) = none →
        sink.applyMonitorMode now seriesID mode s = (.error (.apply (.setMonitored e.id)), s')

/-- Entries of the list with one id are wanted alike, as they are when ids are distinct. -/
def EntriesAgree (mode : String) (eps : List Episode) : Prop :=
  ∀ m, MonitorMode.ofName mode = some m → ∀ now, ∀ x ∈ eps, ∀ y ∈ eps, x.id = y.id →
    (m.Documented now eps x ↔ m.Documented now eps y)

theorem exact_of_fit (hmode : MonitorMode.ofName mode = none → eps ≠ [])
    (hfit : SeasonsFit mode eps) (hagree : EntriesAgree mode eps) : Exact mode eps where
  unknown hnone σ sink now seriesID s hlist := by
    cases eps with
    | nil => exact absurd rfl (hmode hnone)
    | cons e eps =>
      refine ⟨.apply (.unknownMode mode), ?_⟩
      rw [MonitorSink.applyMonitorMode, hlist]
      dsimp only
      rw [if_neg (by simp), MonitorSink.decideAll, hnone]
  finishes m hsome σ sink now seriesID s hlist htotal := by
    obtain ⟨s', hset⟩ := sink.setAll_total (m.decide now eps) htotal eps s
    exact ⟨s', sink.applyMonitorMode_ok hsome hlist hset⟩
  known m hsome σ sink now seriesID s hlist s' hok := by
    have hflags := MonitorSink.setAll_monitored (sink.setAll_of_applyMonitorMode hsome hlist hok)
    have hdecide : ∀ e ∈ eps, m.decide now eps e = true ↔ m.Documented now eps e :=
      fun e he => MonitorMode.decide_iff hsome hfit now he
    refine ⟨?_, ?_⟩
    · intro e he
      rw [hflags, foldl_update_listed eps _ ?_ he]
      · exact hdecide e he
      · intro x hx y hy hid
        rw [Bool.eq_iff_iff, hdecide x hx, hdecide y hy]
        exact hagree m hsome now x hx y hy hid
    · intro k hk
      rw [hflags, foldl_update_other eps _ hk]
  failed m hsome σ sink now seriesID s hlist want hwant first e rest s' heps hset hfail := by
    have hsame : ∀ x ∈ eps, want x = m.decide now eps x := by
      intro x hx
      rw [Bool.eq_iff_iff, hwant x hx, MonitorMode.decide_iff hsome hfit now hx]
    have hfirst : ∀ x ∈ first, want x = m.decide now eps x :=
      fun x hx => hsame x (by simp [heps, hx])
    rw [MonitorSink.setAll_congr hfirst] at hset
    rw [hsame e (by simp [heps])] at hfail
    rw [MonitorSink.applyMonitorMode, hlist]
    dsimp only
    rw [if_neg (by simp [heps])]
    conv_lhs => arg 5; rw [heps]
    rw [MonitorSink.decideAll_append hsome hset, MonitorSink.decideAll, hsome]
    simp only [hfail]

/-- A sink that never fails, with a flag for each id. -/
def flagSink (eps : List Episode) : MonitorSink (Nat → Bool) where
  listForSeries _ _ := some eps
  setMonitored flags id want := some (Function.update flags id want)
  monitored flags := flags
  set_eq := by
    intro flags id want flags' h
    exact (Option.some.inj h).symm

theorem exists_highestSeason {eps : List Episode} (hne : eps ≠ []) :
    ∃ e ∈ eps, ∀ x ∈ eps, x.seasonNumber ≤ e.seasonNumber := by
  cases eps with
  | nil => exact absurd rfl hne
  | cons e rest =>
    obtain ⟨_, hle, hmem⟩ := foldl_maxSeason (e :: rest) e.seasonNumber
    rcases hmem with hv | ⟨x, hx, hv⟩
    · exact ⟨e, List.mem_cons_self, fun y hy => hv ▸ hle y hy⟩
    · exact ⟨x, hx, fun y hy => hv ▸ hle y hy⟩

theorem flagSink_finishes (hmode : MonitorMode.ofName mode = some m) (eps : List Episode) (now : Int) :
    ∃ flags, (flagSink eps).applyMonitorMode now 0 mode (fun _ => false) = (.ok (), flags) ∧
      ∀ k, flags k = true → ∃ e ∈ eps, m.decide now eps e = true := by
  obtain ⟨flags, hset⟩ := (flagSink eps).setAll_total (m.decide now eps)
    (fun _ _ _ => by simp [flagSink]) eps (fun _ => false)
  refine ⟨flags, (flagSink eps).applyMonitorMode_ok hmode rfl hset, fun k hk => ?_⟩
  have hflags : flags = _ := MonitorSink.setAll_monitored hset
  rw [hflags] at hk
  rcases exists_of_foldl_update eps _ hk with hf | he
  · cases hf
  · exact he

/-- `ApplyMonitorMode` is exact for a mode and a list unless the mode is unknown and the list
is empty, every season is negative and the last one is asked for, or the list gives
one id to entries that are not wanted alike. -/
theorem applyMonitorMode_exact_iff (mode : String) (eps : List Episode) :
    Exact mode eps ↔ (MonitorMode.ofName mode = none → eps ≠ []) ∧ SeasonsFit mode eps ∧
      EntriesAgree mode eps := by
  constructor
  · intro h
    refine ⟨?_, ?_, ?_⟩
    · rintro hnone rfl
      obtain ⟨err, herr⟩ := h.unknown hnone (flagSink []) 0 0 (fun _ => false) rfl
      cases herr
    · rintro rfl hne
      obtain ⟨e, he, hlast⟩ := exists_highestSeason hne
      obtain ⟨flags, hok, hfrom⟩ := flagSink_finishes
        (show MonitorMode.ofName "lastSeason" = some .lastSeason from rfl) eps 0
      have hflag := ((h.known _ rfl (flagSink eps) 0 0 _ rfl flags hok).1 e he).mpr hlast
      -- A flag is only set for an entry of the season the loop found, which is not negative.
      obtain ⟨x, hx, hseason⟩ := hfrom e.id hflag
      rw [MonitorMode.decide, beq_iff_eq] at hseason
      exact ⟨x, hx, hseason ▸ (foldl_maxSeason eps 0).1⟩
    · intro m hmode now x hx y hy hid
      obtain ⟨flags, hok, -⟩ := flagSink_finishes hmode eps now
      have hflags := (h.known m hmode (flagSink eps) now 0 _ rfl flags hok).1
      rw [← hflags x hx, ← hflags y hy, hid]
  · rintro ⟨hmode, hfit, hagree⟩
    exact exact_of_fit hmode hfit hagree

/-- An unknown mode is no error when there are no episodes. -/
theorem applyMonitorMode_unknown_empty :
    MonitorMode.ofName "bogus" = none ∧
      (flagSink []).applyMonitorMode 0 1 "bogus" (fun _ => false) = (.ok (), fun _ => false) :=
  ⟨by decide, rfl⟩

end Sonarr
