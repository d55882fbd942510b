import Sonarr.Lib.Bytes

namespace Sonarr.Lib

/-- The character that stands for a byte which starts no character. -/
def runeError : Char := '\ufffd'

/-- The characters of a byte string as Go ranges over them; the first argument counts
the bytes of the last character that are still to drop. -/
def runesFrom : Nat → Bytes → List Char
  | _, [] => []
  | k + 1, _ :: s => runesFrom k s
  | 0, b :: s =>
    match (b :: s).toByteArray.utf8DecodeChar? 0 with
    | some c => c :: runesFrom (c.utf8Size - 1) s
    | none => runeError :: runesFrom 0 s

def runes (s : Bytes) : List Char := runesFrom 0 s

theorem runesFrom_eq_drop (k : Nat) (s : Bytes) : runesFrom k s = runes (s.drop k) := by
  induction s generalizing k with
  | nil =>
    rw [List.drop_nil]
    cases k <;> rfl
  | cons b s ih =>
    cases k with
    | zero => rfl
    | succ k => exact ih k

theorem utf8DecodeChar_append (c : Char) (s : Bytes) :
    (String.utf8EncodeChar c ++ s).toByteArray.utf8DecodeChar? 0 = some c := by
  rw [List.toByteArray_append]
  exact ByteArray.utf8DecodeChar?_utf8EncodeChar_append

/-- A well-formed character is read back. -/
theorem runes_utf8EncodeChar_append (c : Char) (s : Bytes) :
    runes (String.utf8EncodeChar c ++ s) = c :: runes s := by
  have hlen : (String.utf8EncodeChar c).length = c.utf8Size := String.length_utf8EncodeChar c
  have hpos := c.utf8Size_pos
  have hdec := utf8DecodeChar_append c s
  cases he : String.utf8EncodeChar c with
  | nil =>
    rw [he] at hlen
    exact absurd hlen (by simp; omega)
  | cons b t =>
    rw [he] at hlen hdec
    rw [List.length_cons] at hlen
    rw [List.cons_append] at hdec
    have hskip : runesFrom (c.utf8Size - 1) (t ++ s) = runes s := by
      rw [runesFrom_eq_drop, ← hlen, Nat.add_sub_cancel, List.drop_left]
    rw [List.cons_append, ← hskip, runes, runesFrom]
    simp only [hdec]

theorem runes_utf8EncodeChar (c : Char) : runes (String.utf8EncodeChar c) = [c] := by
  rw [← List.append_nil (String.utf8EncodeChar c), runes_utf8EncodeChar_append]
  rfl

theorem runes_utf8 (s : String) : runes (utf8 s) = s.toList := by
  unfold utf8
  induction s.toList with
  | nil => rfl
  | cons c cs ih => rw [List.flatMap_cons, runes_utf8EncodeChar_append, ih]

theorem toNat_ofNat_ascii {n : Nat} (h : n < 128) : (Char.ofNat n).toNat = n := by
  have hvalid : n.isValidChar := Or.inl (by omega)
  rw [Char.ofNat, dif_pos hvalid]
  rfl

/-- A byte below 128 is a character. -/
theorem utf8EncodeChar_ofNat {b : UInt8} (h : b.toNat < 128) :
    String.utf8EncodeChar (Char.ofNat b.toNat) = [b] := by
  have hc := toNat_ofNat_ascii h
  rw [utf8EncodeChar_ascii (by omega), hc, UInt8.ofNat_toNat]

/-- A byte string starts with a character or with a byte that starts none. -/
theorem runes_induction {motive : Bytes → Prop} (nil : motive [])
    (char : ∀ c s, motive s → motive (String.utf8EncodeChar c ++ s))
    (error : ∀ b s, 128 ≤ b.toNat → runes (b :: s) = runeError :: runes s → motive s →
      motive (b :: s)) (s : Bytes) : motive s := by
  induction h : s.length using Nat.strongRecOn generalizing s with
  | ind n ih =>
    subst h
    cases s with
    | nil => exact nil
    | cons b s =>
      cases hdec : (b :: s).toByteArray.utf8DecodeChar? 0 with
      | some c =>
        obtain ⟨t, ht⟩ := ByteArray.exists_of_utf8DecodeChar?_eq_some hdec
        have hbytes : b :: s = String.utf8EncodeChar c ++ t.data.toList := by
          have := congrArg (fun a : ByteArray => a.data.toList) ht
          simpa using this
        have hlen : t.data.toList.length < (b :: s).length := by
          have hpos := c.utf8Size_pos
          rw [hbytes, List.length_append, String.length_utf8EncodeChar]
          omega
        rw [hbytes]
        exact char c _ (ih _ hlen _ rfl)
      | none =>
        have hbig : 128 ≤ b.toNat := by
          by_contra hsmall
          have hdec' := utf8DecodeChar_append (Char.ofNat b.toNat) s
          rw [utf8EncodeChar_ofNat (by omega), List.singleton_append, hdec] at hdec'
          exact absurd hdec' (by simp)
        refine error b s hbig ?_ (ih s.length (by simp) s rfl)
        rw [runes, runesFrom]
        simp only [hdec]
        rfl

end Sonarr.Lib
