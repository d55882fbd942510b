import Mathlib.Data.List.Basic

/-! Reading the strings of a JSON text. -/
namespace Sonarr.Lib.Json

/-- What a string literal is made of: a character, or a unit given by `\uXXXX`. -/
inductive Piece
  | char (c : Char)
  | unit (n : Nat)
  deriving DecidableEq, Repr

def hexValue (c : Char) : Option Nat :=
  if '0' ≤ c ∧ c ≤ '9' then some (c.toNat - 48)
  else if 'a' ≤ c ∧ c ≤ 'f' then some (c.toNat - 87)
  else if 'A' ≤ c ∧ c ≤ 'F' then some (c.toNat - 55)
  else none

def hexUnit (a b c d : Char) : Option Nat := do
  return 4096 * (← hexValue a) + 256 * (← hexValue b) + 16 * (← hexValue c) + (← hexValue d)

/-- The character a backslash and `c` stand for. -/
def shortEscape : Char → Option Char
  | '"' => some '"'
  | '\\' => some '\\'
  | '/' => some '/'
  | 'b' => some '\x08'
  | 'f' => some '\x0c'
  | 'n' => some '\n'
  | 'r' => some '\r'
  | 't' => some '\t'
  | _ => none

/-- The pieces of a string literal whose opening quote is read, and the text behind its
closing quote. Control characters must not stand in it. -/
def pieces : List Char → Option (List Piece × List Char)
  | [] => none
  | '"' :: s => some ([], s)
  | '\\' :: 'u' :: a :: b :: c :: d :: s => do
    let n ← hexUnit a b c d
    let (ps, rest) ← pieces s
    return (.unit n :: ps, rest)
  | '\\' :: e :: s => do
    let c ← shortEscape e
    let (ps, rest) ← pieces s
    return (.char c :: ps, rest)
  | c :: s =>
    if c = '\\' ∨ c.toNat < 32 then none
    else do
      let (ps, rest) ← pieces s
      return (.char c :: ps, rest)

/-- The text of the pieces; a pair of surrogates is one character, and a surrogate
alone is replaced. -/
def pieceText : List Piece → List Char
  | [] => []
  | .char c :: ps => c :: pieceText ps
  | .unit hi :: .unit lo :: ps =>
    if 0xd800 ≤ hi ∧ hi < 0xdc00 ∧ 0xdc00 ≤ lo ∧ lo < 0xe000 then
      Char.ofNat (0x10000 + 0x400 * (hi - 0xd800) + (lo - 0xdc00)) :: pieceText ps
    else (if 0xd800 ≤ hi ∧ hi < 0xe000 then '\ufffd' else Char.ofNat hi) ::
      pieceText (.unit lo :: ps)
  | .unit n :: ps =>
    (if 0xd800 ≤ n ∧ n < 0xe000 then '\ufffd' else Char.ofNat n) :: pieceText ps

def readString : List Char → Option (List Char × List Char)
  | '"' :: s => (pieces s).map (fun r => (pieceText r.1, r.2))
  | _ => none

def skipSpace (s : List Char) : List Char :=
  s.dropWhile (fun c => c == ' ' || c == '\t' || c == '\n' || c == '\r')

/-- The member of an object that has exactly one, when its value is a string. -/
def readMember (s : List Char) : Option (List Char × List Char) :=
  match skipSpace s with
  | '\x7b' :: s => do
    let (key, s) ← readString (skipSpace s)
    match skipSpace s with
    | ':' :: s => do
      let (value, s) ← readString (skipSpace s)
      match skipSpace s with
      | '\x7d' :: s => if skipSpace s = [] then some (key, value) else none
      | _ => none
    | _ => none
  | _ => none

/-- A character that stands for itself in a string literal. -/
def Plain (c : Char) : Prop := c ≠ '"' ∧ c ≠ '\\' ∧ 32 ≤ c.toNat

instance (c : Char) : Decidable (Plain c) := inferInstanceAs (Decidable (_ ∧ _ ∧ _))

theorem pieces_plain {l : List Char} (h : ∀ c ∈ l, Plain c) (s : List Char) :
    pieces (l ++ '"' :: s) = some (l.map .char, s) := by
  induction l with
  | nil => rfl
  | cons c l ih =>
    rw [List.forall_mem_cons] at h
    obtain ⟨⟨hq, hb, hc⟩, hl⟩ := h
    rw [List.cons_append, pieces, if_neg, ih hl]
    · rfl
    · exact not_or.mpr ⟨hb, by omega⟩
    · exact hq
    · intros; exact hb ‹_›
    · intros; exact hb ‹_›

theorem pieces_bind {f : Piece}
    (h : ((pieces s).bind fun r => some (f :: r.1, r.2)) = some (ps, rest)) :
    ∃ qs, pieces s = some (qs, rest) ∧ ps = f :: qs := by
  obtain ⟨⟨qs, r⟩, hq, he⟩ := Option.bind_eq_some_iff.mp h
  simp only [Option.some.injEq, Prod.mk.injEq] at he
  obtain ⟨rfl, rfl⟩ := he
  exact ⟨qs, hq, rfl⟩

/-- A literal has at most as many pieces as characters, and exactly as many only
when each of its characters stands for itself. -/
theorem pieces_spec (h : pieces s = some (ps, rest)) :
    ∃ raw, s = raw ++ '"' :: rest ∧ ps.length ≤ raw.length ∧
      (ps.length = raw.length → ∀ c ∈ raw, Plain c) := by
  fun_induction pieces s generalizing ps rest with
  | case1 => cases h
  | case2 s =>
    cases h
    exact ⟨[], rfl, Nat.le_refl _, fun _ => by simp⟩
  | case3 a b c d s ih =>
    obtain ⟨n, _, h⟩ := Option.bind_eq_some_iff.mp h
    obtain ⟨qs, hq, rfl⟩ := pieces_bind h
    obtain ⟨raw, rfl, hle, _⟩ := ih hq
    refine ⟨'\\' :: 'u' :: a :: b :: c :: d :: raw, rfl, ?_, ?_⟩
    · simp only [List.length_cons]
      omega
    · intro he
      simp only [List.length_cons] at he
      omega
  | case4 e s hne ih =>
    obtain ⟨c, _, h⟩ := Option.bind_eq_some_iff.mp h
    obtain ⟨qs, hq, rfl⟩ := pieces_bind h
    obtain ⟨raw, rfl, hle, _⟩ := ih hq
    refine ⟨'\\' :: e :: raw, rfl, ?_, ?_⟩
    · simp only [List.length_cons]
      omega
    · intro he
      simp only [List.length_cons] at he
      omega
  | case5 c s hq hu he hbad =>
    cases h
  | case6 c s hquote hu he hgood ih =>
    obtain ⟨qs, hq, rfl⟩ := pieces_bind h
    obtain ⟨raw, rfl, hle, hplain⟩ := ih hq
    refine ⟨c :: raw, rfl, Nat.succ_le_succ hle, fun hlen => ?_⟩
    rw [not_or] at hgood
    rw [List.forall_mem_cons]
    exact ⟨⟨hquote, hgood.1, by omega⟩, hplain (Nat.succ.inj hlen)⟩

theorem pieceText_length_le (ps : List Piece) : (pieceText ps).length ≤ ps.length := by
  fun_induction pieceText ps with
  | case1 => exact Nat.le_refl _
  | case2 c ps ih => exact Nat.succ_le_succ ih
  | case3 hi lo ps _ ih =>
    simp only [List.length_cons]
    omega
  | case4 hi lo ps _ ih => exact Nat.succ_le_succ ih
  | case5 n ps _ ih => exact Nat.succ_le_succ ih

theorem pieceText_map_char (l : List Char) : pieceText (l.map .char) = l := by
  induction l with
  | nil => rfl
  | cons c l ih => rw [List.map_cons, pieceText, ih]

theorem readString_plain {l : List Char} (h : ∀ c ∈ l, Plain c) (s : List Char) :
    readString ('"' :: (l ++ '"' :: s)) = some (l, s) := by
  rw [readString, pieces_plain h, Option.map_some, pieceText_map_char]

/-- Text put between quotes is read back when each of its characters stands for itself.
The reader cannot get as much out of any other text: an escape is shorter than
what it is written with, and a quote ends the string early. -/
theorem readMember_quoted_iff {key : List Char} (hkey : ∀ c ∈ key, Plain c) (m : List Char) :
    readMember ('\x7b' :: '"' :: (key ++ '"' :: ':' :: '"' :: (m ++ ['"', '\x7d']))) = some (key, m) ↔
      ∀ c ∈ m, Plain c := by
  have hread : ∀ s : List Char,
      readMember ('\x7b' :: '"' :: (key ++ '"' :: ':' :: '"' :: s)) =
        (readString ('"' :: s)).bind fun r =>
          match skipSpace r.2 with
          | '\x7d' :: s => if skipSpace s = [] then some (key, r.1) else none
          | _ => none := by
    intro s
    have hkeyRead := readString_plain hkey (':' :: '"' :: s)
    simp only [readMember, skipSpace, List.dropWhile_cons] at hkeyRead ⊢
    simp [hkeyRead]
  rw [hread]
  constructor
  · intro h
    obtain ⟨⟨value, s⟩, hs, h⟩ := Option.bind_eq_some_iff.mp h
    have hvalue : value = m := by
      dsimp only at h
      split at h
      · split at h
        · simpa using h
        · cases h
      · cases h
    obtain ⟨⟨ps, rest⟩, hp, he⟩ := Option.map_eq_some_iff.mp hs
    simp only [Prod.mk.injEq] at he
    obtain ⟨raw, hraw, hle, hplain⟩ := pieces_spec hp
    have htext := pieceText_length_le ps
    rw [he.1, hvalue] at htext
    have hlen := congrArg List.length hraw
    simp only [List.length_append, List.length_cons, List.length_nil] at hlen
    cases rest with
    | nil =>
      -- The last character is a brace, not the quote that ends the literal.
      have hlast := congrArg List.getLast? hraw
      simp at hlast
    | cons x rest =>
      rw [List.length_cons] at hlen
      have hsame : m.length = raw.length := by omega
      rw [(List.append_inj hraw hsame).1]
      exact hplain (by omega)
  · intro h
    have hm : readString ('"' :: (m ++ ['"', '\x7d'])) = some (m, ['\x7d']) := readString_plain h _
    rw [hm]
    rfl

end Sonarr.Lib.Json
