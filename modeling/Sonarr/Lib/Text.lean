import Sonarr.Lib.Unicode

/-! Strings as sequences of characters, with the operations of Go's `strings`. -/
namespace Sonarr.Lib.Text

def toLower (s : String) : String := String.ofList (s.toList.map Unicode.toLower)

/-- Equality up to simple case folding. -/
def equalFold (s t : String) : Bool := s.toList.map Unicode.fold == t.toList.map Unicode.fold

def trimSpace (s : String) : String :=
  String.ofList ((s.toList.dropWhile Unicode.isSpace).reverse.dropWhile Unicode.isSpace).reverse

theorem mem_trimSpace (h : c ∈ (trimSpace s).toList) : c ∈ s.toList := by
  unfold trimSpace at h
  rw [String.toList_ofList, List.mem_reverse] at h
  have hrev := (List.dropWhile_sublist _).mem h
  exact (List.dropWhile_sublist _).mem (List.mem_reverse.mp hrev)

theorem isSpace_of_mem_takeWhile {l : List Char} (h : c ∈ l.takeWhile Unicode.isSpace) : Unicode.isSpace c = true :=
  List.all_eq_true.mp (List.all_takeWhile (l := l)) c h

theorem isSpace_head?_dropWhile {l : List Char} (h : (l.dropWhile Unicode.isSpace).head? = some c) :
    Unicode.isSpace c = false := by
  have := List.head?_dropWhile_not Unicode.isSpace l
  rwa [h] at this

theorem dropWhile_eq_trimSpace_append (s : String) : ∃ b, (∀ c ∈ b, Unicode.isSpace c = true) ∧
    s.toList.dropWhile Unicode.isSpace = (trimSpace s).toList ++ b := by
  refine ⟨((s.toList.dropWhile Unicode.isSpace).reverse.takeWhile Unicode.isSpace).reverse, ?_, ?_⟩
  · intro c hc
    exact isSpace_of_mem_takeWhile (List.mem_reverse.mp hc)
  · unfold trimSpace
    rw [String.toList_ofList, ← List.reverse_append, List.takeWhile_append_dropWhile,
      List.reverse_reverse]

/-- What is trimmed is white space at the two ends. -/
theorem exists_append_trimSpace (s : String) : ∃ a b, s.toList = a ++ (trimSpace s).toList ++ b ∧
    (∀ c ∈ a, Unicode.isSpace c = true) ∧ ∀ c ∈ b, Unicode.isSpace c = true := by
  obtain ⟨b, hb, he⟩ := dropWhile_eq_trimSpace_append s
  refine ⟨s.toList.takeWhile Unicode.isSpace, b, ?_, fun c hc => isSpace_of_mem_takeWhile hc, hb⟩
  rw [List.append_assoc, ← he, List.takeWhile_append_dropWhile]

theorem isSpace_head?_trimSpace (h : (trimSpace s).toList.head? = some c) :
    Unicode.isSpace c = false := by
  obtain ⟨b, -, he⟩ := dropWhile_eq_trimSpace_append s
  apply isSpace_head?_dropWhile (l := s.toList)
  rw [he, List.head?_append, h]
  rfl

theorem isSpace_getLast?_trimSpace (h : (trimSpace s).toList.getLast? = some c) :
    Unicode.isSpace c = false := by
  unfold trimSpace at h
  rw [String.toList_ofList, List.getLast?_reverse] at h
  exact isSpace_head?_dropWhile h

theorem dropWhile_isSpace_eq_self {l : List Char}
    (h : ∀ c, l.head? = some c → Unicode.isSpace c = false) :
    l.dropWhile Unicode.isSpace = l := by
  cases l with
  | nil => rfl
  | cons c l => rw [List.dropWhile_cons, h c rfl]; rfl

theorem trimSpace_eq_self (hhead : ∀ c, s.toList.head? = some c → Unicode.isSpace c = false)
    (hlast : ∀ c, s.toList.getLast? = some c → Unicode.isSpace c = false) : trimSpace s = s := by
  unfold trimSpace
  rw [dropWhile_isSpace_eq_self hhead, dropWhile_isSpace_eq_self (by simpa using hlast),
    List.reverse_reverse, String.ofList_toList]

/-- `strings.TrimRight` of one character. -/
def trimRight (s : String) (c : Char) : String :=
  String.ofList (s.toList.reverse.dropWhile (fun d => d == c)).reverse

def hasPrefix (s p : String) : Bool := p.toList.isPrefixOf s.toList

theorem hasPrefix_iff : hasPrefix s p = true ↔ ∃ t, s = p ++ t := by
  unfold hasPrefix
  rw [List.isPrefixOf_iff_prefix]
  constructor
  · intro h
    obtain ⟨t, ht⟩ := h
    refine ⟨String.ofList t, ?_⟩
    apply String.toList_injective
    simp [ht]
  · intro h
    obtain ⟨t, rfl⟩ := h
    exact ⟨t.toList, by simp⟩

def hasSuffix (s p : String) : Bool := p.toList.isSuffixOf s.toList

def trimSuffix (s p : String) : String :=
  if hasSuffix s p then String.ofList (s.toList.take (s.toList.length - p.toList.length)) else s

theorem trimSuffix_append (s p : String) : trimSuffix (s ++ p) p = s := by
  have hsuffix : hasSuffix (s ++ p) p = true := by
    simp [hasSuffix, List.isSuffixOf_iff_suffix]
  rw [trimSuffix, if_pos hsuffix]
  simp

theorem trimSuffix_of_hasSuffix (h : hasSuffix s p = true) : s = trimSuffix s p ++ p := by
  obtain ⟨t, ht⟩ := List.isSuffixOf_iff_suffix.mp h
  have hs : s = String.ofList t ++ p := by
    apply String.toList_injective
    simp [← ht]
  rw [hs, trimSuffix_append]

theorem trimSuffix_eq_self (h : hasSuffix s p = false) : trimSuffix s p = s := by
  simp [trimSuffix, h]

/-- Whether `sub` occurs in `s`. -/
def occurs (sub : List Char) : List Char → Bool
  | [] => sub.isEmpty
  | c :: cs => sub.isPrefixOf (c :: cs) || occurs sub cs

def contains (s sub : String) : Bool := occurs sub.toList s.toList

theorem contains_iff : contains s sub = true ↔ sub.toList <:+: s.toList := by
  unfold contains
  induction s.toList with
  | nil => simp [occurs]
  | cons c cs ih =>
    rw [occurs, Bool.or_eq_true, List.isPrefixOf_iff_prefix, ih, List.infix_cons_iff]

/-- Replaces the occurrences of a non-empty `old` from left to right; the first
argument counts the characters of the last occurrence that are still to drop. -/
def replaceFrom (old new : List Char) : Nat → List Char → List Char
  | _, [] => []
  | k + 1, _ :: cs => replaceFrom old new k cs
  | 0, c :: cs =>
    if old.isPrefixOf (c :: cs) then new ++ replaceFrom old new (old.length - 1) cs
    else c :: replaceFrom old new 0 cs

def replaceAll (s old new : String) : String :=
  String.ofList (replaceFrom old.toList new.toList 0 s.toList)

/-- One character is replaced wherever it stands. -/
theorem replaceAll_single (h : old.toList = [c]) (s new : String) : (replaceAll s old new).toList =
    s.toList.flatMap (fun d => if d = c then new.toList else [d]) := by
  unfold replaceAll
  rw [String.toList_ofList, h]
  induction s.toList with
  | nil => rfl
  | cons d ds ih =>
    unfold replaceFrom
    by_cases hd : d = c
    · simpa [hd, List.isPrefixOf] using ih
    · have hd' : c ≠ d := fun he => hd he.symm
      simpa [hd, hd', List.isPrefixOf] using ih

/-- Replacing a character by nothing filters it out. -/
theorem replaceAll_remove (h : old.toList = [c]) (s : String) :
    (replaceAll s old "").toList = s.toList.filter (fun d => d ≠ c) := by
  rw [replaceAll_single h]
  induction s.toList with
  | nil => rfl
  | cons d ds ih =>
    rw [List.flatMap_cons, List.filter_cons, ih]
    by_cases hd : d = c <;> simp [hd]

/-- Replacing a character by another one maps it. -/
theorem toList_replaceAll_char (hold : old.toList = [c]) (hnew : new.toList = [d]) (s : String) :
    (replaceAll s old new).toList = s.toList.map (fun e => if e = c then d else e) := by
  rw [replaceAll_single hold, hnew, List.map_eq_flatMap]
  congr 1
  funext e
  split <;> rfl

/-- The parts of a list between the elements that satisfy `p`. -/
def splitBy (p : Char → Bool) : List Char → List (List Char)
  | [] => [[]]
  | c :: cs =>
    if p c then [] :: splitBy p cs
    else match splitBy p cs with
      | [] => [[c]]
      | part :: parts => (c :: part) :: parts

theorem splitBy_none {p : Char → Bool} {l : List Char} (h : ∀ c ∈ l, p c = false) :
    splitBy p l = [l] := by
  induction l with
  | nil => rfl
  | cons c cs ih =>
    have hc := h c List.mem_cons_self
    simp [splitBy, hc, ih (fun d hd => h d (List.mem_cons_of_mem _ hd))]

theorem splitBy_ne_nil (p : Char → Bool) (l : List Char) : splitBy p l ≠ [] := by
  induction l with
  | nil => simp [splitBy]
  | cons c cs ih =>
    unfold splitBy
    split
    · simp
    · split <;> simp

/-- A separator divides the parts. -/
theorem splitBy_append {p : Char → Bool} {c : Char} (hc : p c = true) (l m : List Char) :
    splitBy p (l ++ c :: m) = splitBy p l ++ splitBy p m := by
  induction l with
  | nil => simp [splitBy, hc]
  | cons d ds ih =>
    simp only [List.cons_append, splitBy, ih]
    cases hd : p d with
    | true => simp
    | false =>
      cases hs : splitBy p ds with
      | nil => exact absurd hs (splitBy_ne_nil p ds)
      | cons part parts => simp

def join (sep : String) : List String → String
  | [] => ""
  | [s] => s
  | s :: ss => s ++ sep ++ join sep ss

/-- Decimal digits read as a 64-bit integer; anything else, and overflow, fails. -/
def atoi (s : String) : Option Nat :=
  let ds := s.toList
  if ds.isEmpty || ds.any (fun c => !(48 ≤ c.toNat && c.toNat ≤ 57)) then none
  else
    let n := ds.foldl (fun n c => 10 * n + (c.toNat - 48)) 0
    if n < 9223372036854775808 then some n else none

/-- `%d`. -/
def decimal (n : Int) : String := if n < 0 then "-" ++ n.natAbs.repr else n.natAbs.repr

theorem foldl_digits_lt {ds : List Char} (hd : ∀ c ∈ ds, c.toNat ≤ 57) (hn : n < Nat.pow 10 k) :
    ds.foldl (fun n c => 10 * n + (c.toNat - 48)) n < Nat.pow 10 (k + ds.length) := by
  induction ds generalizing n k with
  | nil => exact hn
  | cons c ds ih =>
    have hc := hd c List.mem_cons_self
    have hnext : 10 * n + (c.toNat - 48) < Nat.pow 10 (k + 1) := by
      change _ < Nat.pow 10 k * 10
      omega
    rw [List.foldl_cons, List.length_cons, Nat.add_comm ds.length 1, ← Nat.add_assoc]
    exact ih (fun c hc => hd c (List.mem_cons_of_mem _ hc)) hnext

theorem atoi_eq {s : String} (hd : ∀ c ∈ s.toList, 48 ≤ c.toNat ∧ c.toNat ≤ 57)
    (hne : s.toList ≠ []) (hlt : Nat.ofDigitChars 10 s.toList 0 < 9223372036854775808) :
    atoi s = some (Nat.ofDigitChars 10 s.toList 0) := by
  have hguard : (s.toList.isEmpty || s.toList.any (fun c => !(48 ≤ c.toNat && c.toNat ≤ 57))) =
      false := by
    rw [Bool.or_eq_false_iff]
    refine ⟨by simpa using hne, ?_⟩
    simpa using hd
  unfold atoi
  simp only [hguard, Bool.false_eq_true, if_false]
  exact if_pos hlt

/-- A few digits are a number. -/
theorem atoi_digits {s : String} (hd : ∀ c ∈ s.toList, 48 ≤ c.toNat ∧ c.toNat ≤ 57)
    (hne : s.toList ≠ []) (hlen : s.toList.length ≤ 18) :
    ∃ n, atoi s = some n ∧ n < Nat.pow 10 s.toList.length := by
  have hlt : Nat.ofDigitChars 10 s.toList 0 < Nat.pow 10 (0 + s.toList.length) :=
    foldl_digits_lt (fun c hc => (hd c hc).2) (by decide)
  rw [Nat.zero_add] at hlt
  have hbig : Nat.pow 10 s.toList.length ≤ Nat.pow 10 18 :=
    Nat.pow_le_pow_right (by decide) hlen
  have hmax : Nat.pow 10 18 = 1000000000000000000 := rfl
  exact ⟨_, atoi_eq hd hne (by omega), hlt⟩

/-- The text before a separator it does not contain is determined. -/
theorem split_unique {c : Char} (ha : c ∉ a) (hb : c ∉ b) (h : a ++ c :: x = b ++ c :: y) :
    a = b ∧ x = y := by
  induction a generalizing b with
  | nil =>
    cases b with
    | nil => exact ⟨rfl, (List.cons.inj h).2⟩
    | cons d b => exact absurd (List.cons.inj h).1 (List.ne_of_not_mem_cons hb)
  | cons d a ih =>
    cases b with
    | nil => exact absurd (List.cons.inj h).1.symm (List.ne_of_not_mem_cons ha)
    | cons e b =>
      obtain ⟨rfl, hrest⟩ := List.cons.inj h
      obtain ⟨rfl, hxy⟩ := ih (List.not_mem_of_not_mem_cons ha) (List.not_mem_of_not_mem_cons hb) hrest
      exact ⟨rfl, hxy⟩

theorem dash_notMem_toDigits (n : Nat) : '-' ∉ Nat.toDigits 10 n := fun h =>
  absurd (Nat.isDigit_of_mem_toDigits (by decide) (by decide) h) (by decide)

theorem toDigits_injective (h : Nat.toDigits 10 m = Nat.toDigits 10 n) : m = n := by
  rw [← @Nat.ofDigitChars_ten_toDigits m, h, Nat.ofDigitChars_ten_toDigits]

theorem toList_decimal (n : Int) : (decimal n).toList =
    if n < 0 then '-' :: Nat.toDigits 10 n.natAbs else Nat.toDigits 10 n.natAbs := by
  unfold decimal
  split
  · rw [String.toList_append, Nat.toList_repr]
    rfl
  · rw [Nat.toList_repr]

theorem toList_decimal_nat (n : Nat) : (decimal n).toList = Nat.toDigits 10 n := by
  rw [toList_decimal, if_neg (by omega)]
  rfl

/-- A number's digits do not start with the sign. -/
theorem toDigits_append_ne_dash (n : Nat) (x y : List Char) : Nat.toDigits 10 n ++ x ≠ '-' :: y := by
  intro h
  cases hd : Nat.toDigits 10 n with
  | nil => exact Nat.toDigits_ne_nil hd
  | cons d ds =>
    rw [hd] at h
    have hdash : '-' ∈ Nat.toDigits 10 n := by
      rw [hd, (List.cons.inj h).1]
      exact List.mem_cons_self
    exact dash_notMem_toDigits n hdash

/-- Two numbers divided by a dash are read back in one way. -/
theorem decimal_dash_unique (h : (decimal a).toList ++ '-' :: x = (decimal b).toList ++ '-' :: y) :
    a = b ∧ x = y := by
  rw [toList_decimal, toList_decimal] at h
  by_cases ha : a < 0
  · by_cases hb : b < 0
    · rw [if_pos ha, if_pos hb] at h
      obtain ⟨hd, hxy⟩ := split_unique (dash_notMem_toDigits _) (dash_notMem_toDigits _)
        (List.cons.inj h).2
      have := toDigits_injective hd
      exact ⟨by omega, hxy⟩
    · rw [if_pos ha, if_neg hb] at h
      exact absurd h.symm (toDigits_append_ne_dash _ _ _)
  · by_cases hb : b < 0
    · rw [if_neg ha, if_pos hb] at h
      exact absurd h (toDigits_append_ne_dash _ _ _)
    · rw [if_neg ha, if_neg hb] at h
      obtain ⟨hd, hxy⟩ := split_unique (dash_notMem_toDigits _) (dash_notMem_toDigits _) h
      have := toDigits_injective hd
      exact ⟨by omega, hxy⟩

theorem decimal_injective (h : decimal a = decimal b) : a = b :=
  (decimal_dash_unique (congrArg (fun s => s.toList ++ '-' :: []) h)).1

end Sonarr.Lib.Text
