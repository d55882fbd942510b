import Sonarr.Lib.Runs
import Sonarr.Parser.Title

namespace Sonarr.Parser
open Lib

/-- The loop `for strings.Contains(s, "  ") { s = strings.ReplaceAll(s, "  ", " ") }` of
`cleanTitle`, run to its end in `n` rounds. -/
inductive Collapsed : Nat → String → String → Prop where
  | done (h : Text.contains s "  " = false) : Collapsed 0 s s
  | round (h : Text.contains s "  " = true)
      (rest : Collapsed n (Text.replaceAll s "  " " ") t) : Collapsed (n + 1) s t

/-- One round, on lists. -/
def halve (l : List Char) : List Char := Text.replaceFrom [' ', ' '] [' '] 0 l

theorem toList_round (s : String) : (Text.replaceAll s "  " " ").toList = halve s.toList :=
  String.toList_ofList

theorem halve_induction {motive : List Char → Prop} (nil : motive [])
    (pair : ∀ l, halve (' ' :: ' ' :: l) = ' ' :: halve l → motive l → motive (' ' :: ' ' :: l))
    (keep : ∀ c l, ¬ [' ', ' '] <+: c :: l → halve (c :: l) = c :: halve l → motive l →
      motive (c :: l)) (l : List Char) : motive l := by
  induction h : l.length using Nat.strongRecOn generalizing l with
  | ind n ih =>
    subst h
    cases l with
    | nil => exact nil
    | cons c l =>
      by_cases hpair : [' ', ' '] <+: c :: l
      · obtain ⟨m, hm⟩ := hpair
        rw [← hm]
        refine pair m rfl (ih m.length ?_ m rfl)
        have := congrArg List.length hm
        simp only [List.length_append, List.length_cons, List.length_nil] at this ⊢
        omega
      · refine keep c l hpair ?_ (ih l.length (by simp) l rfl)
        have hno : [' ', ' '].isPrefixOf (c :: l) = false := by
          rw [Bool.eq_false_iff]
          exact fun ht => hpair (List.isPrefixOf_iff_prefix.mp ht)
        simp [halve, Text.replaceFrom, hno]

theorem length_halve_le (l : List Char) : (halve l).length ≤ l.length := by
  induction l using halve_induction with
  | nil => rfl
  | pair l he ih =>
    rw [he]
    simp only [List.length_cons]
    omega
  | keep c l _ he ih =>
    rw [he]
    simpa using ih

/-- A round with something to replace makes the text shorter. -/
theorem length_halve_lt (h : [' ', ' '] <:+: l) : (halve l).length < l.length := by
  induction l using halve_induction with
  | nil => simp at h
  | pair l he _ =>
    have := length_halve_le l
    rw [he]
    simp only [List.length_cons]
    omega
  | keep c l hno he ih =>
    rcases List.infix_cons_iff.mp h with hp | hl
    · exact absurd hp hno
    · rw [he]
      simpa using ih hl

theorem head?_halve (l : List Char) : (halve l).head? = l.head? := by
  induction l using halve_induction with
  | nil => rfl
  | pair l he _ => simp [he]
  | keep c l _ he _ => simp [he]

theorem getLast?_halve (l : List Char) : (halve l).getLast? = l.getLast? := by
  induction l using halve_induction with
  | nil => rfl
  | pair l he ih => simp [he, List.getLast?_cons, ih]
  | keep c l _ he ih => simp [he, List.getLast?_cons, ih]

def notSpace (c : Char) : Bool := c != ' '

theorem notSpace_eq_false {c : Char} : notSpace c = false ↔ c = ' ' := by
  simp [notSpace]

/-- A round changes nothing between the spaces. -/
theorem runs_append_halve (pre l : List Char) :
    runs notSpace (pre ++ halve l) = runs notSpace (pre ++ l) := by
  have hsp : notSpace ' ' = false := rfl
  induction l using halve_induction generalizing pre with
  | nil => rfl
  | pair l he ih =>
    rw [he, runs_append_cons hsp, runs_append_cons hsp, runs_cons hsp]
    exact congrArg _ (ih [])
  | keep c l _ he ih =>
    rw [he]
    simpa using ih (pre ++ [c])

/-- The loop ends, with the fuel of the model left over. -/
theorem collapseSpaces_spec (h : s.toList.length ≤ fuel) :
    ∃ n ≤ fuel, Collapsed n s (collapseSpaces fuel s) := by
  induction fuel generalizing s with
  | zero =>
    have hs : s.toList = [] := List.eq_nil_of_length_eq_zero (by omega)
    refine ⟨0, Nat.le_refl 0, .done ?_⟩
    rw [Text.contains, hs]
    rfl
  | succ fuel ih =>
    unfold collapseSpaces
    cases hc : Text.contains s "  " with
    | false => exact ⟨0, Nat.zero_le _, .done hc⟩
    | true =>
      have hlt := length_halve_lt (Text.contains_iff.mp hc)
      obtain ⟨n, hn, hrest⟩ := ih (s := Text.replaceAll s "  " " ") (by rw [toList_round]; omega)
      exact ⟨n + 1, by omega, .round hc hrest⟩

/-- What the loop keeps, and what holds at its end. -/
theorem Collapsed.spec (h : Collapsed n s t) :
    t.toList.head? = s.toList.head? ∧ t.toList.getLast? = s.toList.getLast? ∧
      runs notSpace t.toList = runs notSpace s.toList ∧ Text.contains t "  " = false := by
  induction h with
  | done h => exact ⟨rfl, rfl, rfl, h⟩
  | @round s n t _ _ ih =>
    rw [toList_round, head?_halve, getLast?_halve] at ih
    have hruns := runs_append_halve [] s.toList
    exact ⟨ih.1, ih.2.1, ih.2.2.1.trans hruns, ih.2.2.2⟩

/-- The text the loop starts from. -/
def trimmedTitle (s : String) : String :=
  Text.trimSpace (Text.replaceAll (Text.replaceAll s "." " ") "_" " ")

def spaced (c : Char) : Char := if c = '.' ∨ c = '_' then ' ' else c

theorem toList_spaced (s : String) :
    (Text.replaceAll (Text.replaceAll s "." " ") "_" " ").toList = s.toList.map spaced := by
  rw [Text.toList_replaceAll_char (c := '_') (d := ' ') rfl rfl,
    Text.toList_replaceAll_char (c := '.') (d := ' ') rfl rfl, List.map_map]
  apply List.map_congr_left
  intro c _
  by_cases hdot : c = '.'
  · simp [spaced, hdot]
  · simp [spaced, hdot]

theorem cleanTitle_collapsed (s : String) :
    ∃ n ≤ s.toList.length, Collapsed n (trimmedTitle s) (cleanTitle s) := by
  obtain ⟨n, hn, h⟩ := collapseSpaces_spec (Nat.le_refl (trimmedTitle s).toList.length)
  obtain ⟨a, b, hab, -, -⟩ :=
    Text.exists_append_trimSpace (Text.replaceAll (Text.replaceAll s "." " ") "_" " ")
  have hlen := congrArg List.length hab
  rw [toList_spaced, List.length_map, List.length_append, List.length_append] at hlen
  exact ⟨n, by unfold trimmedTitle at hn; omega, h⟩

theorem isSpace_head?_cleanTitle (h : (cleanTitle s).toList.head? = some c) :
    Unicode.isSpace c = false := by
  obtain ⟨n, -, hc⟩ := cleanTitle_collapsed s
  rw [hc.spec.1] at h
  exact Text.isSpace_head?_trimSpace h

theorem isSpace_getLast?_cleanTitle (h : (cleanTitle s).toList.getLast? = some c) :
    Unicode.isSpace c = false := by
  obtain ⟨n, -, hc⟩ := cleanTitle_collapsed s
  rw [hc.spec.2.1] at h
  exact Text.isSpace_getLast?_trimSpace h

theorem cleanTitle_singleSpaced (s : String) : SingleSpaced ' ' (cleanTitle s).toList := by
  obtain ⟨n, -, hc⟩ := cleanTitle_collapsed s
  refine ⟨?_, ?_, ?_⟩
  · intro h
    exact absurd (isSpace_head?_cleanTitle h) (by decide)
  · intro h
    exact absurd (isSpace_getLast?_cleanTitle h) (by decide)
  · intro h
    have hcontains : Text.contains (cleanTitle s) "  " = true := Text.contains_iff.mpr h
    rw [hc.spec.2.2.2] at hcontains
    cases hcontains

/-- The title is what stands between the spaces of the trimmed text, joined. -/
theorem cleanTitle_eq_intercalate (s : String) :
    (cleanTitle s).toList = [' '].intercalate (runs notSpace (trimmedTitle s).toList) := by
  obtain ⟨n, -, hc⟩ := cleanTitle_collapsed s
  rw [← hc.spec.2.2.1]
  exact ((cleanTitle_singleSpaced s).intercalate_runs (fun c => notSpace_eq_false)).symm

theorem mem_cleanTitle (h : c ∈ (cleanTitle s).toList) : c ≠ '.' ∧ c ≠ '_' := by
  rw [cleanTitle_eq_intercalate] at h
  rcases mem_intercalate h with rfl | ⟨r, hr, hc⟩
  · decide
  · have hmem := List.mem_flatten_of_mem hr hc
    rw [flatten_runs] at hmem
    have htrim := Text.mem_trimSpace (List.mem_of_mem_filter hmem)
    rw [toList_spaced] at htrim
    obtain ⟨d, -, rfl⟩ := List.mem_map.mp htrim
    unfold spaced
    split
    · decide
    · rename_i hd
      exact not_or.mp hd

theorem cleanTitle_idempotent (s : String) : cleanTitle (cleanTitle s) = cleanTitle s := by
  have hplain : Text.replaceAll (Text.replaceAll (cleanTitle s) "." " ") "_" " " = cleanTitle s := by
    apply String.toList_injective
    rw [toList_spaced]
    refine (List.map_congr_left (fun c hc => ?_)).trans (List.map_id' _)
    have hne := mem_cleanTitle hc
    simp [spaced, hne.1, hne.2]
  have htrim : trimmedTitle (cleanTitle s) = cleanTitle s := by
    rw [trimmedTitle, hplain]
    exact Text.trimSpace_eq_self (fun c hc => isSpace_head?_cleanTitle hc)
      (fun c hc => isSpace_getLast?_cleanTitle hc)
  have hself := (cleanTitle_singleSpaced s).intercalate_runs (fun c => notSpace_eq_false)
  apply String.toList_injective
  rw [cleanTitle_eq_intercalate, htrim, hself]

/-- The characters that `cleanTitle` does not take for a separator. -/
def titleChar (c : Char) : Bool := c != ' ' && c != '.' && c != '_'

/-- Without other white space nothing but the runs of the title counts. -/
theorem cleanTitle_eq_of_plain (h : ∀ c ∈ s.toList, Unicode.isSpace c = true → c = ' ') :
    (cleanTitle s).toList = [' '].intercalate ((runs titleChar s.toList).map (List.map spaced)) := by
  obtain ⟨a, b, hab, ha, hb⟩ :=
    Text.exists_append_trimSpace (Text.replaceAll (Text.replaceAll s "." " ") "_" " ")
  rw [toList_spaced] at hab
  have hmapped : ∀ c ∈ s.toList.map spaced, Unicode.isSpace c = true → notSpace c = false := by
    intro c hc hsp
    obtain ⟨d, hd, rfl⟩ := List.mem_map.mp hc
    rw [notSpace_eq_false]
    unfold spaced at hsp ⊢
    split at hsp
    · rw [if_pos (by assumption)]
    · rw [if_neg (by assumption)]
      exact h d hd hsp
  have htrim : runs notSpace (trimmedTitle s).toList = runs notSpace (s.toList.map spaced) := by
    rw [hab]
    refine (runs_surrounded (fun c hc => hmapped c ?_ (ha c hc))
      (fun c hc => hmapped c ?_ (hb c hc)) _).symm
    · simp [hab, hc]
    · simp [hab, hc]
  have hclass : ∀ c, notSpace (spaced c) = titleChar c := by
    intro c
    unfold spaced notSpace titleChar
    by_cases hdot : c = '.'
    · simp [hdot]
    · by_cases hunder : c = '_'
      · simp [hunder]
      · have hother : (c != '.') = true ∧ (c != '_') = true := by simp [hdot, hunder]
        simp [hdot, hunder, hother.1, hother.2]
  rw [cleanTitle_eq_intercalate, htrim, runs_map hclass]

/-- The loop ends after at most as many rounds as the title has characters, and what it leaves
is a normal form of the title. -/
theorem cleanTitle_normal_form (s : String) :
    (∃ n ≤ s.toList.length, Collapsed n (trimmedTitle s) (cleanTitle s)) ∧
    '.' ∉ (cleanTitle s).toList ∧ '_' ∉ (cleanTitle s).toList ∧
    ¬ [' ', ' '] <:+: (cleanTitle s).toList ∧
    (∀ c, (cleanTitle s).toList.head? = some c → Unicode.isSpace c = false) ∧
    (∀ c, (cleanTitle s).toList.getLast? = some c → Unicode.isSpace c = false) ∧
    cleanTitle (cleanTitle s) = cleanTitle s ∧
    ∀ t : String, (∀ c ∈ s.toList ++ t.toList, Unicode.isSpace c = true → c = ' ') →
      runs titleChar s.toList = runs titleChar t.toList → cleanTitle s = cleanTitle t := by
  refine ⟨cleanTitle_collapsed s, fun h => (mem_cleanTitle h).1 rfl,
    fun h => (mem_cleanTitle h).2 rfl, (cleanTitle_singleSpaced s).no_pair,
    fun c hc => isSpace_head?_cleanTitle hc, fun c hc => isSpace_getLast?_cleanTitle hc,
    cleanTitle_idempotent s, ?_⟩
  intro t hplain hruns
  apply String.toList_injective
  rw [cleanTitle_eq_of_plain (fun c hc => hplain c (List.mem_append_left _ hc)),
    cleanTitle_eq_of_plain (fun c hc => hplain c (List.mem_append_right _ hc)), hruns]

end Sonarr.Parser
