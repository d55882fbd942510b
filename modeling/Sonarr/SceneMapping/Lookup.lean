import Sonarr.Lib.Runes
import Sonarr.Lib.Unicode
import Sonarr.SceneMapping.Normalize

namespace Sonarr.SceneMapping
open Lib

/-- The columns of a mapping that the lookup by title reads. -/
structure Mapping where
  tvdbID : Int
  parseTerm : Bytes
  deriving DecidableEq, Repr

def lookupTvdbIDByTitle : List Mapping → Bytes → Option Int
  | [], _ => none
  | m :: mappings, parsedTitle =>
    if m.parseTerm = [] then lookupTvdbIDByTitle mappings parsedTitle
    else if normalize m.parseTerm = normalize parsedTitle then some m.tvdbID
    else lookupTvdbIDByTitle mappings parsedTitle

/-- Which characters are letters or digits and which of them differ in case only. On ASCII
this is fixed; beyond it the results below hold for every choice, that of Unicode among them. -/
structure Lettering where
  isLetterOrDigit : Char → Bool
  fold : Char → Char
  isLetterOrDigit_ascii : ∀ c, c.toNat < 128 → isLetterOrDigit c = c.isAlphanum
  fold_ascii : ∀ c, c.toNat < 128 → fold c = c.toLower

/-- The simple case folding of Unicode, with the letters and digits beyond ASCII that `wide`
tells. -/
def Lettering.simple (wide : Char → Bool) : Lettering where
  isLetterOrDigit c := if c.toNat < 128 then c.isAlphanum else wide c
  fold := Unicode.fold
  isLetterOrDigit_ascii _ hc := if_pos hc
  fold_ascii c hc := by
    have hall : ∀ n < 128, Unicode.fold (Char.ofNat n) = (Char.ofNat n).toLower := by decide
    simpa using hall c.toNat hc

/-- What is left of a title without punctuation, spacing and letter case. -/
def Lettering.letters (U : Lettering) (s : Bytes) : List Char :=
  ((runes s).filter U.isLetterOrDigit).map U.fold

def LookupSound (U : Lettering) (mappings : List Mapping) (parsedTitle : Bytes) : Prop :=
  ∀ tvdbID, lookupTvdbIDByTitle mappings parsedTitle = some tvdbID →
    ∃ m ∈ mappings, m.tvdbID = tvdbID ∧ m.parseTerm ≠ [] ∧
      U.letters m.parseTerm = U.letters parsedTitle

def WrittenIn (chars : Set Char) (s : Bytes) : Prop := ∀ c ∈ runes s, c ∈ chars

/-- The lookup takes the first term with the words of the title. -/
theorem lookupTvdbIDByTitle_eq (mappings : List Mapping) (parsedTitle : Bytes) :
    lookupTvdbIDByTitle mappings parsedTitle =
      (mappings.find? (fun m => m.parseTerm ≠ [] ∧ words m.parseTerm = words parsedTitle)).map
        Mapping.tvdbID := by
  induction mappings with
  | nil => rfl
  | cons m mappings ih =>
    unfold lookupTvdbIDByTitle
    by_cases hterm : m.parseTerm = []
    · simpa [hterm] using ih
    · by_cases hwords : words m.parseTerm = words parsedTitle
      · simp [hterm, hwords, normalize_eq_iff.mpr hwords]
      · have hnorm : normalize m.parseTerm ≠ normalize parsedTitle := fun h =>
          hwords (normalize_eq_iff.mp h)
        simpa [hterm, hwords, hnorm] using ih

theorem isAlnum_eq_isAlphanum {b : UInt8} (h : b.toNat < 128) :
    isAlnum b = (Char.ofNat b.toNat).isAlphanum := by
  have hall : ∀ n < 128, isAlnum (UInt8.ofNat n) = (Char.ofNat n).isAlphanum := by decide
  simpa using hall b.toNat h

theorem toLower_eq_lower {b : UInt8} (h : b.toNat < 128) :
    (Char.ofNat b.toNat).toLower = Char.ofNat (lower b).toNat := by
  have hall : ∀ n < 128, (Char.ofNat n).toLower = Char.ofNat (lower (UInt8.ofNat n)).toNat := by
    decide
  simpa using hall b.toNat h

theorem toNat_lt_of_isAlnum {b : UInt8} (h : isAlnum b = true) : b.toNat < 128 := by
  simp only [isAlnum, isUpper, isLowerAlnum, Bool.and_eq_true, Bool.or_eq_true, decide_eq_true_eq,
    Char.reduceToNat] at h
  omega

theorem toNat_lt_of_isAlphanum {c : Char} (h : c.isAlphanum = true) : c.toNat < 128 := by
  have hclasses : ((decide ('A'.val ≤ c.val ∧ c.val ≤ 'Z'.val) ||
      (decide ('a'.val ≤ c.val) && decide (c.val ≤ 'z'.val))) ||
      (decide ('0'.val ≤ c.val) && decide (c.val ≤ '9'.val))) = true := h
  simp only [Bool.or_eq_true, Bool.and_eq_true, decide_eq_true_eq, UInt32.le_iff_toNat_le]
    at hclasses
  change ((65 ≤ c.toNat ∧ c.toNat ≤ 90) ∨ (97 ≤ c.toNat ∧ c.toNat ≤ 122)) ∨
    (48 ≤ c.toNat ∧ c.toNat ≤ 57) at hclasses
  omega

/-- No byte of a character beyond ASCII is taken for a letter or a digit. -/
theorem isAlnum_of_mem_utf8EncodeChar {c : Char} (hc : 128 ≤ c.toNat) {b : UInt8}
    (hb : b ∈ String.utf8EncodeChar c) : isAlnum b = false := by
  rw [Bool.eq_false_iff]
  intro halnum
  have hlt := toNat_lt_of_isAlnum halnum
  have := toNat_of_mem_utf8EncodeChar hb (by omega)
  omega

/-- The ASCII letters and digits of a text are those of its bytes. -/
theorem filter_runes_isAlphanum (s : Bytes) :
    (runes s).filter Char.isAlphanum = (s.filter isAlnum).map (fun b => Char.ofNat b.toNat) := by
  induction s using runes_induction with
  | nil => rfl
  | char c s ih =>
    rw [runes_utf8EncodeChar_append, List.filter_append, List.map_append, ← ih]
    by_cases hc : c.toNat ≤ 127
    · have hbyte : (UInt8.ofNat c.toNat).toNat = c.toNat := by
        rw [UInt8.toNat_ofNat']
        omega
      have halnum : isAlnum (UInt8.ofNat c.toNat) = c.isAlphanum := by
        rw [isAlnum_eq_isAlphanum (by omega), hbyte, Char.ofNat_toNat]
      rw [utf8EncodeChar_ascii hc, List.filter_cons, List.filter_cons, halnum, List.filter_nil]
      split
      · rw [List.map_singleton, hbyte, Char.ofNat_toNat, List.singleton_append]
      · rfl
    · have hbytes : (String.utf8EncodeChar c).filter isAlnum = [] := by
        rw [List.filter_eq_nil_iff]
        intro b hb
        rw [isAlnum_of_mem_utf8EncodeChar (by omega) hb]
        exact Bool.false_ne_true
      have hchar : c.isAlphanum = false := by
        rw [Bool.eq_false_iff]
        intro h
        have := toNat_lt_of_isAlphanum h
        omega
      simp [hbytes, hchar]
  | error b s hb hrunes ih =>
    have hbyte : isAlnum b = false := by
      rw [Bool.eq_false_iff]
      intro h
      have := toNat_lt_of_isAlnum h
      omega
    have herror : runeError.isAlphanum = false := by decide
    simp [hrunes, hbyte, herror, ih]

theorem flatten_words (s : Bytes) : (words s).flatten = (s.filter isAlnum).map lower := by
  rw [words, ← List.map_flatten, flatten_runs]

/-- Where all letters and digits are ASCII, they are the words without their spaces. -/
theorem Lettering.letters_eq_words (U : Lettering)
    (h : ∀ c ∈ runes s, U.isLetterOrDigit c = true → c.toNat < 128) :
    U.letters s = (words s).flatten.map (fun b => Char.ofNat b.toNat) := by
  have hclass : ∀ c ∈ runes s, U.isLetterOrDigit c = c.isAlphanum := by
    intro c hc
    by_cases hascii : c.toNat < 128
    · exact U.isLetterOrDigit_ascii c hascii
    · have hU : U.isLetterOrDigit c = false := by
        rw [Bool.eq_false_iff]
        exact fun ht => hascii (h c hc ht)
      have hA : c.isAlphanum = false := by
        rw [Bool.eq_false_iff]
        exact fun ht => hascii (toNat_lt_of_isAlphanum ht)
      rw [hU, hA]
  unfold Lettering.letters
  rw [List.filter_congr hclass, filter_runes_isAlphanum, flatten_words, List.map_map, List.map_map]
  apply List.map_congr_left
  intro b hb
  have hb : b.toNat < 128 := toNat_lt_of_isAlnum (List.mem_filter.mp hb).2
  change U.fold (Char.ofNat b.toNat) = Char.ofNat (lower b).toNat
  rw [U.fold_ascii _ (by rwa [toNat_ofNat_ascii hb]), toLower_eq_lower hb]

/-- A mapping whose term and title have only ASCII letters and digits agrees with the title
that it is found by. -/
theorem lookupSound_of_ascii (U : Lettering) {mappings : List Mapping} {parsedTitle : Bytes}
    (hterms : ∀ m ∈ mappings, ∀ c ∈ runes m.parseTerm, U.isLetterOrDigit c = true → c.toNat < 128)
    (htitle : ∀ c ∈ runes parsedTitle, U.isLetterOrDigit c = true → c.toNat < 128) :
    LookupSound U mappings parsedTitle := by
  intro tvdbID h
  rw [lookupTvdbIDByTitle_eq, Option.map_eq_some_iff] at h
  obtain ⟨m, hfind, hid⟩ := h
  have hm := List.mem_of_find?_eq_some hfind
  have hfound := List.find?_some hfind
  rw [decide_eq_true_eq] at hfound
  refine ⟨m, hm, hid, hfound.1, ?_⟩
  rw [U.letters_eq_words (hterms m hm), U.letters_eq_words htitle, hfound.2]

/-- A letter beyond ASCII is found by the empty title. -/
theorem not_lookupSound_of_letter (U : Lettering) {c : Char} (hU : U.isLetterOrDigit c = true)
    (hc : 128 ≤ c.toNat) : ¬ LookupSound U [⟨1, String.utf8EncodeChar c⟩] [] := by
  intro h
  have hrunes := runes_utf8EncodeChar c
  have hne : String.utf8EncodeChar c ≠ [] := by
    intro he
    rw [he] at hrunes
    cases hrunes
  have hwords : words (String.utf8EncodeChar c) = words [] := by
    rw [words, runs_eq_nil (fun b hb => isAlnum_of_mem_utf8EncodeChar hc hb)]
    rfl
  have hfound : lookupTvdbIDByTitle [⟨1, String.utf8EncodeChar c⟩] [] = some 1 := by
    rw [lookupTvdbIDByTitle_eq]
    simp [hne, hwords]
  obtain ⟨m, hm, -, -, hletters⟩ := h 1 hfound
  rw [List.mem_singleton.mp hm] at hletters
  have hempty : U.letters [] = [] := rfl
  rw [hempty, Lettering.letters, hrunes] at hletters
  simp [hU] at hletters

/-- For given mappings and title everything depends on the first term with the words of the
title; over an alphabet the lookup is sound iff the alphabet has no letter or digit beyond
ASCII. -/
theorem lookup_sound_iff (U : Lettering) :
    (∀ mappings parsedTitle, LookupSound U mappings parsedTitle ↔
      ∀ m, mappings.find? (fun m => m.parseTerm ≠ [] ∧ words m.parseTerm = words parsedTitle) =
        some m → ∃ m' ∈ mappings, m'.tvdbID = m.tvdbID ∧ m'.parseTerm ≠ [] ∧
          U.letters m'.parseTerm = U.letters parsedTitle) ∧
    ∀ chars : Set Char,
      (∀ mappings parsedTitle, (∀ m ∈ mappings, WrittenIn chars m.parseTerm) →
        WrittenIn chars parsedTitle → LookupSound U mappings parsedTitle) ↔
      ∀ c ∈ chars, U.isLetterOrDigit c = true → c.toNat < 128 := by
  constructor
  · intro mappings parsedTitle
    constructor
    · intro h m hfind
      apply h m.tvdbID
      rw [lookupTvdbIDByTitle_eq, hfind]
      rfl
    · intro h tvdbID hlookup
      rw [lookupTvdbIDByTitle_eq, Option.map_eq_some_iff] at hlookup
      obtain ⟨m, hfind, rfl⟩ := hlookup
      exact h m hfind
  · intro chars
    constructor
    · intro h c hc hU
      by_contra hascii
      have hsound : LookupSound U [⟨1, String.utf8EncodeChar c⟩] [] := by
        refine h _ _ ?_ (fun d hd => absurd hd (by simp [runes, runesFrom]))
        intro m hm d hd
        rw [List.mem_singleton.mp hm, runes_utf8EncodeChar] at hd
        rwa [List.mem_singleton.mp hd]
      exact not_lookupSound_of_letter U hU (by omega) hsound
    · intro h mappings parsedTitle hterms htitle
      exact lookupSound_of_ascii U (fun m hm c hc => h c (hterms m hm c hc))
        (fun c hc => h c (htitle c hc))

/-- Two titles in Japanese without a common character, one found by the other. -/
theorem unrelated_titles_identified :
    lookupTvdbIDByTitle [⟨100, utf8 "進撃の巨人"⟩] (utf8 "ナルト") = some 100 ∧
      (∀ c ∈ runes (utf8 "進撃の巨人"), c ∉ runes (utf8 "ナルト")) ∧
      ∀ wide : Char → Bool,
        (∀ c ∈ runes (utf8 "進撃の巨人") ++ runes (utf8 "ナルト"), wide c = true) →
        ¬ LookupSound (.simple wide) [⟨100, utf8 "進撃の巨人"⟩] (utf8 "ナルト") := by
  have hterm : runes (utf8 "進撃の巨人") = ['進', '撃', 'の', '巨', '人'] := runes_utf8 _
  have htitle : runes (utf8 "ナルト") = ['ナ', 'ル', 'ト'] := runes_utf8 _
  have hfound : lookupTvdbIDByTitle [⟨100, utf8 "進撃の巨人"⟩] (utf8 "ナルト") = some 100 := by
    decide
  refine ⟨hfound, by simp [hterm, htitle], ?_⟩
  intro wide hwide hsound
  have hletter : ∀ c ∈ runes (utf8 "進撃の巨人") ++ runes (utf8 "ナルト"),
      (Lettering.simple wide).isLetterOrDigit c = true := by
    intro c hc
    refine (if_neg ?_).trans (hwide c hc)
    rw [hterm, htitle] at hc
    have hall : (['進', '撃', 'の', '巨', '人'] ++ ['ナ', 'ル', 'ト']).all
        (fun c => decide (128 ≤ c.toNat)) = true := by decide
    have := of_decide_eq_true (List.all_eq_true.mp hall c hc)
    omega
  obtain ⟨m, hm, -, -, hletters⟩ := hsound 100 hfound
  rw [List.mem_singleton.mp hm, Lettering.letters, Lettering.letters,
    List.filter_eq_self.mpr (fun c hc => hletter c (List.mem_append_left _ hc)),
    List.filter_eq_self.mpr (fun c hc => hletter c (List.mem_append_right _ hc)), hterm, htitle]
    at hletters
  have hlength := congrArg List.length hletters
  rw [List.length_map, List.length_map] at hlength
  exact absurd hlength (by decide)

end Sonarr.SceneMapping
