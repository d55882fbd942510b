import Sonarr.Lib.Bytes
import Sonarr.Lib.Runs

namespace Sonarr.SceneMapping
open Lib

def isUpper (c : UInt8) : Bool := 'A'.toNat ≤ c.toNat && c.toNat ≤ 'Z'.toNat

def isLowerAlnum (c : UInt8) : Bool :=
  ('a'.toNat ≤ c.toNat && c.toNat ≤ 'z'.toNat) || ('0'.toNat ≤ c.toNat && c.toNat ≤ '9'.toNat)

def isAlnum (c : UInt8) : Bool := isUpper c || isLowerAlnum c

def lower (c : UInt8) : UInt8 := if isUpper c then c + 32 else c

def space : UInt8 := 32

/-- What the loop of `normalize` carries. -/
structure Scan where
  out : Bytes
  lastSep : Bool
  deriving DecidableEq, Repr

def Scan.start : Scan := ⟨[], true⟩

def Scan.step (st : Scan) (c : UInt8) : Scan :=
  if isAlnum c then ⟨st.out ++ [lower c], false⟩
  else if st.lastSep then st
  else ⟨st.out ++ [space], true⟩

def normalize (s : Bytes) : Bytes :=
  let out := (s.foldl Scan.step .start).out
  if out.getLast? = some space then out.dropLast else out

/-- The maximal alphanumeric runs of a byte string, in lower case. -/
def words (s : Bytes) : List Bytes := (runs isAlnum s).map (List.map lower)

theorem isAlnum_space : isAlnum space = false := rfl

theorem isLowerAlnum_lower (h : isAlnum c = true) : isLowerAlnum (lower c) = true := by
  unfold lower
  split
  · rename_i hup
    simp only [isUpper, isLowerAlnum, Bool.and_eq_true, Bool.or_eq_true, decide_eq_true_eq,
      UInt8.toNat_add, Char.reduceToNat] at hup ⊢
    have : (32 : UInt8).toNat = 32 := rfl
    omega
  · rename_i hup
    simpa [isAlnum, hup] using h

theorem lower_of_isLowerAlnum (h : isLowerAlnum c = true) : lower c = c := by
  have hup : isUpper c = false := by
    simp only [isUpper, isLowerAlnum, Bool.and_eq_true, Bool.or_eq_true, decide_eq_true_eq,
      Char.reduceToNat, Bool.and_eq_false_iff, decide_eq_false_iff_not] at h ⊢
    omega
  simp [lower, hup]

theorem isAlnum_of_isLowerAlnum (h : isLowerAlnum c = true) : isAlnum c = true := by
  simp [isAlnum, h]

theorem ne_space_of_isAlnum (h : isAlnum c = true) : c ≠ space := by
  intro he
  rw [he, isAlnum_space] at h
  cases h

/-- The state after `closed ++ current`: no run goes on beyond `closed`, whose runs have
all got their space, and `current` is the run that is still open. -/
structure Scanned (closed current : Bytes) (st : Scan) : Prop where
  runs_append : ∀ m, runs isAlnum (closed ++ m) = runs isAlnum closed ++ runs isAlnum m
  current_alnum : ∀ c ∈ current, isAlnum c = true
  out_eq : st.out = (words closed).flatMap (fun w => w ++ [space]) ++ current.map lower
  lastSep_eq : st.lastSep = current.isEmpty

theorem Scanned.start : Scanned [] [] .start :=
  ⟨fun _ => by simp, by simp, rfl, rfl⟩

theorem Scanned.step (h : Scanned closed current st) (c : UInt8) :
    ∃ closed' current', closed' ++ current' = closed ++ current ++ [c] ∧
      Scanned closed' current' (st.step c) := by
  unfold Scan.step
  cases hc : isAlnum c with
  | true =>
    refine ⟨closed, current ++ [c], by simp, h.runs_append, ?_, ?_, by simp⟩
    · intro d hd
      rcases List.mem_append.mp hd with hd | hd
      · exact h.current_alnum d hd
      · rw [List.mem_singleton.mp hd, hc]
    · simp [h.out_eq]
  | false =>
    -- a separator closes the open run; in `runs` it is not seen otherwise
    have hclosed : ∀ m, runs isAlnum (closed ++ current ++ [c] ++ m) =
        runs isAlnum (closed ++ current ++ [c]) ++ runs isAlnum m := by
      intro m
      rw [List.append_assoc, List.singleton_append, runs_append_cons hc, runs_concat hc]
    refine ⟨closed ++ current ++ [c], [], by simp, hclosed, by simp, ?_, ?_⟩
    · rw [words, runs_concat hc, h.runs_append]
      cases hcur : current with
      | nil => simp [h.lastSep_eq, h.out_eq, hcur, words]
      | cons d ds =>
        have hrun := runs_eq_singleton (by simp [hcur]) h.current_alnum
        rw [hcur] at hrun
        simp [h.lastSep_eq, h.out_eq, hcur, hrun, words]
    · cases hcur : current with
      | nil => simp [h.lastSep_eq, hcur]
      | cons d ds => simp [h.lastSep_eq, hcur]

theorem Scanned.foldl (h : Scanned closed current st) (s : Bytes) :
    ∃ closed' current', closed' ++ current' = closed ++ current ++ s ∧
      Scanned closed' current' (s.foldl Scan.step st) := by
  induction s generalizing closed current st with
  | nil => exact ⟨closed, current, by simp, h⟩
  | cons c s ih =>
    obtain ⟨closed₁, current₁, he, h₁⟩ := h.step c
    obtain ⟨closed₂, current₂, he', h₂⟩ := ih h₁
    exact ⟨closed₂, current₂, by rw [he', he]; simp, h₂⟩

theorem mem_words (h : w ∈ words s) : w ≠ [] ∧ ∀ c ∈ w, isLowerAlnum c = true := by
  obtain ⟨r, hr, rfl⟩ := List.mem_map.mp h
  obtain ⟨hne, hr⟩ := mem_runs hr
  refine ⟨by simpa using hne, ?_⟩
  intro c hc
  obtain ⟨d, hd, rfl⟩ := List.mem_map.mp hc
  exact isLowerAlnum_lower (hr d hd)

/-- The final cut takes off the space after the last run, if that was closed. -/
theorem normalize_eq_intercalate (s : Bytes) : normalize s = [space].intercalate (words s) := by
  obtain ⟨closed, current, he, h⟩ := Scanned.start.foldl s
  rw [List.nil_append, List.nil_append] at he
  subst he
  have hwords : words (closed ++ current) = words closed ++ words current := by
    rw [words, h.runs_append, List.map_append]
    rfl
  unfold normalize
  dsimp only
  rw [h.out_eq, hwords]
  cases hcur : current with
  | nil =>
    rw [List.map_nil, List.append_nil, words, words, runs_nil, List.map_nil, List.append_nil]
    rcases List.eq_nil_or_concat ((runs isAlnum closed).map (List.map lower)) with hw | ⟨ws, w, hw⟩
    · simp [hw]
    · rw [hw, List.concat_eq_append, intercalate_concat, if_pos]
      · simp [← List.append_assoc]
      · exact List.getLast?_eq_some_iff.mpr ⟨ws.flatMap (fun w => w ++ [space]) ++ w, by simp⟩
  | cons c cs =>
    have hne : c :: cs ≠ [] := List.cons_ne_nil c cs
    have halnum : ∀ d ∈ c :: cs, isAlnum d = true := hcur ▸ h.current_alnum
    have hlast : ((words closed).flatMap (fun w => w ++ [space]) ++
        (c :: cs).map lower).getLast? ≠ some space := by
      intro hsp
      rw [List.getLast?_append_of_ne_nil _ (by simp)] at hsp
      obtain ⟨d, hd, hds⟩ := List.mem_map.mp (List.mem_of_getLast? hsp)
      have hlow := isAlnum_of_isLowerAlnum (isLowerAlnum_lower (halnum d hd))
      exact ne_space_of_isAlnum hlow hds
    have hword : words (c :: cs) = [(c :: cs).map lower] := by
      rw [words, runs_eq_singleton hne halnum]
      rfl
    rw [if_neg hlast, hword, intercalate_concat]

/-- The words are the runs of the normal form. -/
theorem runs_normalize (s : Bytes) : runs isAlnum (normalize s) = words s := by
  rw [normalize_eq_intercalate]
  refine runs_intercalate isAlnum_space (fun w hw => ?_)
  obtain ⟨hne, hlow⟩ := mem_words hw
  exact ⟨hne, fun c hc => isAlnum_of_isLowerAlnum (hlow c hc)⟩

theorem words_normalize (s : Bytes) : words (normalize s) = words s := by
  have hlower : ∀ w ∈ words s, w.map lower = w := by
    intro w hw
    obtain ⟨-, hlow⟩ := mem_words hw
    rw [List.map_congr_left (fun c hc => lower_of_isLowerAlnum (hlow c hc)), List.map_id']
  rw [words, runs_normalize, List.map_congr_left hlower, List.map_id']

theorem mem_normalize (h : c ∈ normalize s) : isLowerAlnum c = true ∨ c = space := by
  rw [normalize_eq_intercalate] at h
  rcases mem_intercalate h with hc | ⟨w, hw, hc⟩
  · exact Or.inr hc
  · exact Or.inl ((mem_words hw).2 c hc)

/-- Equal normal forms are equal words. -/
theorem normalize_eq_iff : normalize s = normalize t ↔ words s = words t := by
  constructor
  · intro h
    rw [← runs_normalize s, h, runs_normalize]
  · intro h
    rw [normalize_eq_intercalate, normalize_eq_intercalate, h]

/-- The normal form is over the lower-case alphabet with single spaces inside, is its own normal
form, and tells apart exactly the texts with different words. -/
theorem normalize_canonical (s t : Bytes) :
    (∀ c ∈ normalize s, isLowerAlnum c = true ∨ c = space) ∧ SingleSpaced space (normalize s) ∧
      normalize (normalize s) = normalize s ∧
      (normalize s = normalize t ↔ words s = words t) := by
  refine ⟨fun c hc => mem_normalize hc, ?_, ?_, normalize_eq_iff⟩
  · refine SingleSpaced.of_intercalate isAlnum_space ?_
    rw [runs_normalize, ← normalize_eq_intercalate]
  · rw [normalize_eq_intercalate, words_normalize, ← normalize_eq_intercalate]

end Sonarr.SceneMapping
