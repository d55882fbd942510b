import Mathlib.Data.List.Basic

namespace Sonarr.Lib

/-- A byte string. -/
abbrev Bytes := List UInt8

def utf8 (s : String) : Bytes := s.toList.flatMap String.utf8EncodeChar

theorem utf8EncodeChar_ascii {c : Char} (h : c.toNat ≤ 127) :
    String.utf8EncodeChar c = [UInt8.ofNat c.toNat] := by
  simp only [String.utf8EncodeChar]
  exact if_pos h

/-- A byte below 128 is written for the character of that code only. -/
theorem toNat_of_mem_utf8EncodeChar {c : Char} {b : UInt8} (h : b ∈ String.utf8EncodeChar c)
    (hb : b.toNat ≤ 127) : c.toNat = b.toNat := by
  by_cases hc : c.toNat ≤ 127
  · rw [utf8EncodeChar_ascii hc, List.mem_singleton] at h
    rw [h, UInt8.toNat_ofNat']
    omega
  · exfalso
    have hbig : ∀ n : Nat, 128 ≤ n % 256 → b ≠ UInt8.ofNat n := by
      intro n hn he
      rw [he, UInt8.toNat_ofNat'] at hb
      omega
    have hv : c.val.toNat < 1114112 := by
      have := c.valid
      unfold UInt32.isValidChar Nat.isValidChar at this
      omega
    simp only [String.utf8EncodeChar] at h
    rw [if_neg (show ¬ c.val.toNat ≤ 127 from hc)] at h
    split at h
    · simp only [List.mem_cons, List.not_mem_nil, or_false] at h
      rcases h with h | h <;> exact hbig _ (by omega) h
    · split at h
      · simp only [List.mem_cons, List.not_mem_nil, or_false] at h
        rcases h with h | h | h <;> exact hbig _ (by omega) h
      · simp only [List.mem_cons, List.not_mem_nil, or_false] at h
        rcases h with h | h | h | h <;> exact hbig _ (by omega) h

theorem newline_notMem_utf8 {s : String} (h : '\n' ∉ s.toList) : 10 ∉ utf8 s := by
  intro hm
  obtain ⟨c, hc, hb⟩ := List.mem_flatMap.mp hm
  have hn : c.toNat = 10 := toNat_of_mem_utf8EncodeChar hb (by decide)
  have he : c = '\n' := Char.toNat_inj.mp hn
  exact h (he ▸ hc)

section Replace

variable {α : Type} [DecidableEq α]

/-- Replaces the occurrences of a non-empty `old` from left to right; the first
argument counts the elements of the last occurrence that are still to drop. -/
def replaceListFrom (old new : List α) : Nat → List α → List α
  | _, [] => []
  | k + 1, _ :: s => replaceListFrom old new k s
  | 0, b :: s =>
    if old.isPrefixOf (b :: s) then new ++ replaceListFrom old new (old.length - 1) s
    else b :: replaceListFrom old new 0 s

def replaceList (s old new : List α) : List α := replaceListFrom old new 0 s

/-- One element is replaced wherever it stands. -/
theorem replaceList_single (b : α) (new s : List α) :
    replaceList s [b] new = s.flatMap (fun d => if d = b then new else [d]) := by
  unfold replaceList
  induction s with
  | nil => rfl
  | cons d s ih =>
    rw [replaceListFrom, List.flatMap_cons, List.length_singleton]
    by_cases h : d = b
    · simp [List.isPrefixOf, h, ih]
    · have h' : b ≠ d := fun he => h he.symm
      simp [List.isPrefixOf, h, h', ih]

/-- Nothing is replaced where `old` cannot start. -/
theorem replaceList_absent {b : α} (h : b ∉ s) (old new : List α) :
    replaceList s (b :: old) new = s := by
  unfold replaceList
  induction s with
  | nil => rfl
  | cons d s ih =>
    rw [List.mem_cons, not_or] at h
    rw [replaceListFrom, if_neg, ih h.2]
    simp [List.isPrefixOf, h.1]

end Replace

end Sonarr.Lib
