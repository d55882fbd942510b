import Sonarr.DecisionEngine.Specs

namespace Sonarr.DecisionEngine
open Lib Sonarr.Parser Profiles CustomFormats

def Spec.rejects (s : Spec) (remote : RemoteEpisode) (profile : QualityProfile) : Bool :=
  (s.evaluate remote profile).1 = .reject

theorem Spec.rejects_iff {s : Spec} : s.rejects remote profile = true ↔
    (s.evaluate remote profile).1 = .reject := decide_eq_true_iff

section
variable (remote : RemoteEpisode) (profile : QualityProfile)

/-- The loop of `Evaluate`, which also records the specs it called. -/
def evaluateLoop : Engine → List Rejection → List Spec → List Rejection × List Spec
  | [], rejections, called => (rejections, called)
  | s :: rest, rejections, called =>
    let (d, r) := s.evaluate remote profile
    evaluateLoop rest (if d = .reject then rejections ++ r else rejections) (called ++ [s])

/-- What the loop's end makes of the collected rejections. -/
def verdict (rejections : List Rejection) : Decision × List Rejection :=
  if 0 < rejections.length then (.reject, rejections) else (.accept, [])

/-- What the rejecting specs say, in the order of the specs. -/
def collected (e : Engine) : List Rejection :=
  (e.filter (fun s => s.rejects remote profile)).flatMap (fun s => (s.evaluate remote profile).2)

theorem evaluateLoop_eq (e : Engine) (rejections : List Rejection) (called : List Spec) :
    evaluateLoop remote profile e rejections called =
      (rejections ++ collected remote profile e, called ++ e) := by
  induction e generalizing rejections called with
  | nil => simp [evaluateLoop, collected]
  | cons s rest ih =>
    simp only [evaluateLoop, ih]
    by_cases hs : (s.evaluate remote profile).1 = .reject
    · simp [collected, Spec.rejects, hs]
    · simp [collected, Spec.rejects, hs]

/-- The loop's way of collecting, spec by spec. -/
theorem flatMap_collected {f : Spec → List Rejection} (hf : ∀ s, f s =
      if s.rejects remote profile then (s.evaluate remote profile).2 else []) (e : Engine) :
    e.flatMap f = collected remote profile e := by
  induction e with
  | nil => rfl
  | cons s rest ih =>
    rw [List.flatMap_cons, ih, hf]
    cases hs : s.rejects remote profile <;> simp [collected, hs]

theorem evaluate_eq_verdict (e : Engine) :
    e.evaluate remote profile = verdict (collected remote profile e) := by
  unfold Engine.evaluate
  dsimp only
  rw [flatMap_collected remote profile]
  · cases collected remote profile e <;> rfl
  · intro s
    cases hs : s.evaluate remote profile with
    | mk d r => cases d <;> simp [Spec.rejects, hs]

theorem evaluate_reject_iff (e : Engine) : (e.evaluate remote profile).1 = .reject ↔
    ∃ s ∈ e, s.rejects remote profile ∧ (s.evaluate remote profile).2 ≠ [] := by
  have hne : (e.evaluate remote profile).1 = .reject ↔ collected remote profile e ≠ [] := by
    rw [evaluate_eq_verdict]
    cases collected remote profile e <;> simp [verdict]
  rw [hne, ne_eq, collected, List.flatMap_eq_nil_iff]
  simp only [List.mem_filter, not_forall, and_imp]
  constructor
  · intro ⟨s, hs, hrej, hr⟩
    exact ⟨s, hs, hrej, hr⟩
  · intro ⟨s, hs, hrej, hr⟩
    exact ⟨s, hs, hrej, hr⟩

/-- Reordering the specs never changes the verdict. -/
theorem evaluate_perm {e e' : Engine} (h : e'.Perm e) :
    (e'.evaluate remote profile).1 = (e.evaluate remote profile).1 := by
  have hiff : (e'.evaluate remote profile).1 = .reject ↔
      (e.evaluate remote profile).1 = .reject := by
    rw [evaluate_reject_iff, evaluate_reject_iff]
    simp only [h.mem_iff]
  cases hd : (e.evaluate remote profile).1 with
  | reject => exact hiff.mpr hd
  | accept =>
    cases hd' : (e'.evaluate remote profile).1 with
    | accept => rfl
    | reject => rw [hiff.mp hd'] at hd; cases hd

/-- The engine does what its comment says, a reject for every rejecting spec, unless the
specs that reject all do so without a word. -/
theorem verdict_follows_specs_iff (e : Engine) :
    (((e.evaluate remote profile).1 = .reject ↔ ∃ s ∈ e, s.rejects remote profile) ∧
      (e.evaluate remote profile).2 =
        ((e.filter (fun s => s.rejects remote profile)).map
          (fun s => (s.evaluate remote profile).2)).flatten ∧
      e.evaluate remote profile = verdict (evaluateLoop remote profile e [] []).1 ∧
      (evaluateLoop remote profile e [] []).2 = e ∧
      ∀ e' : Engine, e'.Perm e →
        (e'.evaluate remote profile).1 = (e.evaluate remote profile).1) ↔
    ((∃ s ∈ e, s.rejects remote profile) →
      ∃ s ∈ e, s.rejects remote profile ∧ (s.evaluate remote profile).2 ≠ []) := by
  constructor
  · intro h hs
    exact (evaluate_reject_iff remote profile e).mp (h.1.mpr hs)
  · intro h
    refine ⟨?_, ?_, ?_, ?_, fun e' he => evaluate_perm remote profile he⟩
    · rw [evaluate_reject_iff]
      exact ⟨fun ⟨s, hs, hrej, _⟩ => ⟨s, hs, hrej⟩, h⟩
    · rw [evaluate_eq_verdict, ← List.flatMap_def]
      change (verdict (collected remote profile e)).2 = collected remote profile e
      cases collected remote profile e <;> rfl
    · rw [evaluateLoop_eq, evaluate_eq_verdict, List.nil_append]
    · rw [evaluateLoop_eq]
      rfl

end

/-- A release of one quality over a file of another, and nothing else to object to. -/
def plainRelease (qualityID existing size cfScore : Int) (seriesID : Nat) (title : String) :
    RemoteEpisode :=
  { release := { title := title, size := size, indexer := "", protocol := "usenet" }
    parsedInfo := emptyInfo title, seriesID := seriesID, episodeIDs := []
    quality := ⟨.unknown, .unknown, .none, 1⟩, qualityID := qualityID, customFormats := []
    cfScore := cfScore, existingFileQualityID := existing, existingFileReleaseGroup := "" }

/-- A spec that gives no reasons. -/
def silentSpec : Spec where
  name := "Silent"
  evaluate _ _ := (.reject, [])

theorem silent_reject_is_lost :
    let remote := plainRelease 1 0 0 0 1 "Show.S01E01"
    let profile : QualityProfile := ⟨1, "Any", true, 0, [⟨1, true⟩], 0, 0, []⟩
    silentSpec.rejects remote profile = true ∧
      (Engine.evaluate [silentSpec] remote profile).1 = .accept := ⟨rfl, rfl⟩

/-- Accepted without a word, or rejected with one reason under the given name. -/
def Explained (name : String) (out : Decision × List Rejection) : Prop :=
  out = acceptIt ∨ ∃ reason, out = rejectAs name reason

theorem Explained.accept (name : String) : Explained name acceptIt := .inl rfl

theorem Explained.reject (name : String) (reason : Reason) :
    Explained name (rejectAs name reason) := .inr ⟨reason, rfl⟩

theorem Explained.ite {p : Prop} [Decidable p] (ha : Explained name a) (hb : Explained name b) :
    Explained name (if p then a else b) := by
  split
  · exact ha
  · exact hb

def Spec.Explains (s : Spec) : Prop :=
  ∀ remote profile, Explained s.name (s.evaluate remote profile)

theorem Spec.Explains.nonempty {s : Spec} (h : s.Explains) (hrej : s.rejects remote profile) :
    (s.evaluate remote profile).2 ≠ [] := by
  rcases h remote profile with he | ⟨reason, he⟩
  · simp [Spec.rejects, he, acceptIt] at hrej
  · simp [he, rejectAs]

section Wired
open Explained
variable (compile : Compile) (w : Wiring)

theorem acceptableSizeSpec_explains (defs : List QualityDefinition) :
    (acceptableSizeSpec defs).Explains := by
  intro remote profile
  unfold acceptableSizeSpec
  apply Explained.ite (.accept _)
  split
  · exact .accept _
  · exact .ite (.reject _ _) (.ite (.reject _ _) (.accept _))

theorem blocklistedSpec_explains (listBySeries : Nat → Option (List BlocklistEntry)) :
    (blocklistedSpec listBySeries).Explains := by
  intro remote profile
  unfold blocklistedSpec
  dsimp only
  split
  · exact .accept _
  · exact .ite (.reject _ _) (.accept _)

theorem releaseProfileSpec_explains (profiles : Nat → String → Option (List ReleaseProfile)) :
    (releaseProfileSpec compile profiles).Explains := by
  intro remote profile
  unfold releaseProfileSpec
  dsimp only
  split
  · exact .accept _
  · split
    · exact .accept _
    · exact .reject _ _

theorem qualityAllowedSpec_explains : qualityAllowedSpec.Explains := by
  intro remote profile
  unfold qualityAllowedSpec
  dsimp only
  split
  · exact .ite (.accept _) (.reject _ _)
  · exact .reject _ _

theorem appEngine_explains (hs : s ∈ appEngine compile w) : s.Explains := by
  simp only [appEngine, List.mem_cons, List.not_mem_nil, or_false] at hs
  rcases hs with rfl | rfl | rfl | rfl | rfl | rfl | rfl | rfl | rfl | rfl
  · exact qualityAllowedSpec_explains
  · exact fun _ _ => .ite (.accept _) (.reject _ _)
  · exact fun _ _ => .ite (.accept _) (.ite (.accept _) (.reject _ _))
  · exact fun _ _ => .ite (.accept _) (.ite (.reject _ _) (.accept _))
  · exact acceptableSizeSpec_explains _
  · exact fun _ _ => .ite (.reject _ _) (.accept _)
  · exact fun _ _ => .ite (.accept _) (.ite (.accept _) (.ite (.accept _) (.reject _ _)))
  · exact fun _ _ => .accept _
  · exact blocklistedSpec_explains _
  · exact releaseProfileSpec_explains compile _

/-- The wired engine rejects a release exactly if one of its specs does. -/
theorem appEngine_reject_iff (remote : RemoteEpisode) (profile : QualityProfile) :
    ((appEngine compile w).evaluate remote profile).1 = .reject ↔
      ∃ s ∈ appEngine compile w, s.rejects remote profile := by
  rw [evaluate_reject_iff]
  constructor
  · intro ⟨s, hs, hrej, _⟩
    exact ⟨s, hs, hrej⟩
  · intro ⟨s, hs, hrej⟩
    exact ⟨s, hs, hrej, (appEngine_explains compile w hs).nonempty hrej⟩

end Wired

end Sonarr.DecisionEngine
