import Mathlib.Data.List.Infix
import Sonarr.Lib.Text

/-! Texts with bracketed tokens: replacing one token after the other, and all of them at once. -/
namespace Sonarr.Lib.Template

/-- A name in brackets, without a bracket in it. -/
structure Token (o c : Char) where
  body : List Char
  opens : o ∉ body
  closes : c ∉ body
  apart : o ≠ c
  deriving DecidableEq

variable {o c : Char}

namespace Token

def text (t : Token o c) : List Char := o :: (t.body ++ [c])

theorem text_ne_nil (t : Token o c) : t.text ≠ [] := by
  simp [text]

theorem text_injective {t t' : Token o c} (h : t.text ++ s = t'.text ++ s') : t = t' ∧ s = s' := by
  simp only [text, List.cons_append, List.append_assoc, List.cons.injEq, true_and] at h
  obtain ⟨hbody, hs⟩ := Text.split_unique t.closes t'.closes h
  exact ⟨by cases t; cases t'; simp_all, hs⟩

/-- Tokens do not begin each other. -/
theorem eq_of_starts {t t' : Token o c} (h : t.text <+: t'.text ++ s) : t = t' := by
  obtain ⟨r, hr⟩ := h
  exact (text_injective hr).1

end Token

/-- Values for tokens; of two values for one token the first counts. -/
abbrev Values (o c : Char) := List (Token o c × List Char)

/-- Every token of a text is replaced by its value, in one scan from left to right; the number counts
the characters of the last token that are still to drop. -/
def substituteFrom (ps : Values o c) : Nat → List Char → List Char
  | _, [] => []
  | k + 1, _ :: s => substituteFrom ps k s
  | 0, x :: s =>
    match ps.find? (fun p => p.1.text.isPrefixOf (x :: s)) with
    | some p => p.2 ++ substituteFrom ps (p.1.text.length - 1) s
    | none => x :: substituteFrom ps 0 s

def substitute (ps : Values o c) (s : List Char) : List Char := substituteFrom ps 0 s

/-- One token is replaced by its value. -/
def replace (t : Token o c) (v s : List Char) : List Char := substitute [(t, v)] s

theorem replaceFrom_eq (t : Token o c) (v : List Char) (k : Nat) (s : List Char) :
    Text.replaceFrom t.text v k s = substituteFrom [(t, v)] k s := by
  induction s generalizing k with
  | nil => cases k <;> rfl
  | cons x s ih =>
    cases k with
    | zero =>
      unfold Text.replaceFrom substituteFrom
      rw [List.find?_singleton]
      split
      · rw [ih]
      · rw [ih]
    | succ k => exact ih k

theorem replaceAll_toList (s : String) (t : Token o c) (v : String) (h : old.toList = t.text) :
    (Text.replaceAll s old v).toList = replace t v.toList s.toList := by
  unfold Text.replaceAll
  rw [String.toList_ofList, h, replaceFrom_eq]
  rfl

section Scan
variable {ps : Values o c} {t : Token o c}

theorem substituteFrom_drop (a s : List Char) :
    substituteFrom ps a.length (a ++ s) = substitute ps s := by
  induction a with
  | nil => rfl
  | cons x a ih => exact ih

theorem find?_token (ps : Values o c) (t : Token o c) (s : List Char) :
    ps.find? (fun p => p.1.text.isPrefixOf (t.text ++ s)) = ps.find? (fun p => p.1 == t) := by
  congr 1
  funext p
  rw [Bool.eq_iff_iff, List.isPrefixOf_iff_prefix, beq_iff_eq]
  constructor
  · exact Token.eq_of_starts
  · intro h
    rw [h]
    exact List.prefix_append _ _

/-- The value of a token. -/
def value (ps : Values o c) (t : Token o c) : Option (List Char) :=
  (ps.find? (fun p => p.1 == t)).map Prod.snd

@[simp] theorem substitute_nil : substitute ps [] = [] := by
  unfold substitute substituteFrom
  rfl

theorem substitute_hit (h : value ps t = some v) (s : List Char) :
    substitute ps (t.text ++ s) = v ++ substitute ps s := by
  obtain ⟨p, hp, rfl⟩ := Option.map_eq_some_iff.mp h
  have hpt : p.1 = t := by simpa using List.find?_some hp
  have hfind := find?_token ps t s
  rw [hp] at hfind
  have htext : t.text ++ s = o :: (t.body ++ [c] ++ s) := by simp [Token.text]
  rw [htext] at hfind ⊢
  unfold substitute
  conv_lhs => unfold substituteFrom
  rw [hfind]
  dsimp only
  have hlength : p.1.text.length - 1 = (t.body ++ [c]).length := by simp [hpt, Token.text]
  rw [hlength, substituteFrom_drop]
  rfl

theorem substitute_miss (h : ∀ p ∈ ps, ¬ p.1.text <+: x :: s) :
    substitute ps (x :: s) = x :: substitute ps s := by
  have hnone : ps.find? (fun p => p.1.text.isPrefixOf (x :: s)) = none := by
    rw [List.find?_eq_none]
    intro p hp
    rw [List.isPrefixOf_iff_prefix]
    exact h p hp
  unfold substitute
  conv_lhs => unfold substituteFrom
  rw [hnone]

/-- What holds of nothing, and is kept by a token and by a character at which none begins. -/
theorem scan_induction {motive : List Char → Prop} (ps : Values o c) (nil : motive [])
    (hit : ∀ t v, value ps t = some v → ∀ s, motive s → motive (t.text ++ s))
    (miss : ∀ x s, (∀ p ∈ ps, ¬ p.1.text <+: x :: s) → motive s → motive (x :: s))
    (s : List Char) : motive s := by
  induction hn : s.length using Nat.strong_induction_on generalizing s with
  | _ n ih =>
    cases s with
    | nil => exact nil
    | cons x r =>
      by_cases htoken : ∃ p ∈ ps, p.1.text <+: x :: r
      · obtain ⟨p, hp, u, hu⟩ := htoken
        have hsome : (ps.find? (fun q => q.1 == p.1)).isSome := List.find?_isSome.mpr ⟨p, hp, by simp⟩
        obtain ⟨q, hq⟩ := Option.isSome_iff_exists.mp hsome
        have hlength : u.length < n := by
          rw [← hn, ← hu, List.length_append]
          have := List.length_pos_iff.mpr p.1.text_ne_nil
          omega
        rw [← hu]
        exact hit p.1 q.2 (by simp [value, hq]) u (ih u.length hlength u rfl)
      · have hlength : r.length < n := by
          rw [← hn, List.length_cons]
          omega
        exact miss x r (fun p hp hpre => htoken ⟨p, hp, hpre⟩) (ih r.length hlength r rfl)

theorem not_prefix_of_ne (p : Token o c) (h : x ≠ o) : ¬ p.text <+: x :: s := by
  rintro ⟨r, hr⟩
  simp only [Token.text, List.cons_append, List.cons.injEq] at hr
  exact h hr.1.symm

/-- Text without an opening bracket is passed over. -/
theorem substitute_plain (h : o ∉ a) (s : List Char) :
    substitute ps (a ++ s) = a ++ substitute ps s := by
  induction a with
  | nil => rfl
  | cons x a ih =>
    have hx : x ≠ o := fun he => h (he ▸ List.mem_cons_self)
    rw [List.cons_append, substitute_miss (fun p _ => not_prefix_of_ne p.1 hx),
      ih (fun hmem => h (List.mem_cons_of_mem _ hmem)), List.cons_append]

end Scan

section Replace
variable {t : Token o c} {v : List Char}

theorem replace_hit (s : List Char) : replace t v (t.text ++ s) = v ++ replace t v s :=
  substitute_hit (by simp [value]) s

theorem replace_miss (h : ¬ t.text <+: x :: s) : replace t v (x :: s) = x :: replace t v s :=
  substitute_miss (by simpa using h)

theorem replace_plain (h : o ∉ a) (s : List Char) : replace t v (a ++ s) = a ++ replace t v s :=
  substitute_plain h s

/-- What holds of nothing, is kept by the token, and by a character at which it does not begin. -/
theorem replace_induction {motive : List Char → Prop} (t : Token o c) (nil : motive [])
    (hit : ∀ s, motive s → motive (t.text ++ s))
    (miss : ∀ x s, ¬ t.text <+: x :: s → motive s → motive (x :: s)) (s : List Char) : motive s := by
  refine scan_induction [(t, [])] nil ?_ ?_ s
  · intro t' v hv s hs
    have ht : t = t' := by
      by_contra hne
      simp [value, hne] at hv
    exact ht ▸ hit s hs
  · intro x s hno hs
    exact miss x s (hno (t, []) (by simp)) hs

/-- Text without the token is passed over, if the token does not begin in it and end after it. -/
theorem replace_append (hA : ¬ t.text <:+: a)
    (hcross : ∀ x y, t.text = x ++ y → x ≠ [] → y ≠ [] → ¬ y <+: s) :
    replace t v (a ++ s) = a ++ replace t v s := by
  induction a with
  | nil => rfl
  | cons x a ih =>
    have hmiss : ¬ t.text <+: x :: (a ++ s) := by
      intro hpre
      rw [← List.cons_append] at hpre
      rcases List.prefix_or_prefix_of_prefix hpre (List.prefix_append (x :: a) s) with hin | ⟨y, hy⟩
      · exact hA hin.isInfix
      · rw [← hy, List.prefix_append_right_inj] at hpre
        cases y with
        | nil => exact hA (by rw [← hy, List.append_nil])
        | cons z y => exact hcross (x :: a) (z :: y) hy.symm (by simp) (by simp) hpre
    rw [List.cons_append, replace_miss hmiss,
      ih (fun hin => hA (hin.trans (List.suffix_cons _ _).isInfix)), List.cons_append]

/-- A character that is in no token stays. -/
theorem mem_replace (hx : x ∉ t.text) (h : x ∈ s) : x ∈ replace t v s := by
  induction s using replace_induction t with
  | nil => exact absurd h List.not_mem_nil
  | hit s ih =>
    rw [replace_hit]
    exact List.mem_append_right _ (ih ((List.mem_append.mp h).resolve_left hx))
  | miss y s hno ih =>
    rw [replace_miss hno]
    rcases List.mem_cons.mp h with rfl | h
    · exact List.mem_cons_self
    · exact List.mem_cons_of_mem _ (ih h)

theorem replace_eq_nil : replace t v [] = [] := by
  simp [replace]

end Replace

section Step
variable {ps : Values o c} {t : Token o c} {v w F : List Char}

theorem value_cons_ne (h : t ≠ t') : value ((t, w) :: ps) t' = value ps t' := by
  simp [value, h]

/-- A token that does not occur needs no value. -/
theorem substitute_absent (h : ¬ t.text <:+: F) : substitute ((t, w) :: ps) F = substitute ps F := by
  induction F using scan_induction ((t, w) :: ps) with
  | nil => simp
  | hit t' u hu s ih =>
    have ht : t ≠ t' := by
      rintro rfl
      exact h (List.prefix_append _ _).isInfix
    have hs : ¬ t.text <:+: s := fun hin => h (hin.trans (List.suffix_append _ _).isInfix)
    rw [substitute_hit hu, ih hs]
    rw [value_cons_ne ht] at hu
    rw [substitute_hit hu]
  | miss x s hno ih =>
    have hs : ¬ t.text <:+: s := fun hin => h (hin.trans (List.suffix_cons _ _).isInfix)
    rw [substitute_miss hno, ih hs,
      substitute_miss (fun p hp => hno p (List.mem_cons_of_mem _ hp))]

theorem substitute_no_values (F : List Char) : substitute ([] : Values o c) F = F := by
  induction F with
  | nil => simp
  | cons x s ih => rw [substitute_miss (by simp), ih]

theorem replace_absent (h : ¬ t.text <:+: F) : replace t v F = F := by
  rw [replace, substitute_absent h, substitute_no_values]

end Step

section Occurrences
variable {ps : Values o c} {t : Token o c} {v F : List Char}

end Occurrences

end Sonarr.Lib.Template
