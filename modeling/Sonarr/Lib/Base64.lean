import Mathlib.Logic.Function.Basic

/-! Base64 with the alphabet for URLs and file names, and padding. -/
namespace Sonarr.Lib.Base64

def alphabet : List Char :=
  "ABCDEFGHIJKLMNOPQRSTUVWXYZabcdefghijklmnopqrstuvwxyz0123456789-_".toList

def encodeChar (n : Nat) : Char := alphabet.getD n 'A'

def decodeChar (c : Char) : Option Nat := alphabet.findIdx? (fun d => d == c)

/-- Three bytes give four characters; what is left over is padded. -/
def encodeBytes : List Nat → List Char
  | [] => []
  | [a] => [encodeChar (a / 4), encodeChar (a % 4 * 16), '=', '=']
  | [a, b] =>
    [encodeChar (a / 4), encodeChar (a % 4 * 16 + b / 16), encodeChar (b % 16 * 4), '=']
  | a :: b :: c :: rest =>
    encodeChar (a / 4) :: encodeChar (a % 4 * 16 + b / 16) ::
      encodeChar (b % 16 * 4 + c / 64) :: encodeChar (c % 64) :: encodeBytes rest

/-- Padding may stand at the end only. The bits it leaves over are not looked at. -/
def decodeBytes : List Char → Option (List Nat)
  | [] => some []
  | w :: x :: y :: z :: rest => do
    let p ← decodeChar w
    let q ← decodeChar x
    if z = '=' then
      if rest ≠ [] then none
      else if y = '=' then some [p * 4 + q / 16]
      else (decodeChar y).map (fun r => [p * 4 + q / 16, q % 16 * 16 + r / 4])
    else do
      let r ← decodeChar y
      let s ← decodeChar z
      let bytes ← decodeBytes rest
      some ([p * 4 + q / 16, q % 16 * 16 + r / 4, r % 4 * 64 + s] ++ bytes)
  | _ => none

/-- The text of characters that are one byte each. -/
def encode (s : String) : String := String.ofList (encodeBytes (s.toList.map Char.toNat))

/-- Line breaks are skipped. -/
def decode (s : String) : Option String :=
  (decodeBytes (s.toList.filter (fun c => c ≠ '\n' ∧ c ≠ '\r'))).map
    (fun bytes => String.ofList (bytes.map Char.ofNat))

theorem decodeChar_encodeChar (h : n < 64) : decodeChar (encodeChar n) = some n := by
  revert n
  unfold decodeChar encodeChar alphabet
  rw [String.toList_ofList]
  decide +kernel

theorem encodeChar_plain (h : n < 64) :
    encodeChar n ≠ '=' ∧ encodeChar n ≠ '\n' ∧ encodeChar n ≠ '\r' := by
  revert n
  unfold encodeChar alphabet
  rw [String.toList_ofList]
  decide +kernel

theorem decodeBytes_encodeBytes (bytes : List Nat) (h : ∀ b ∈ bytes, b < 256) :
    decodeBytes (encodeBytes bytes) = some bytes := by
  induction bytes using encodeBytes.induct with
  | case1 => rfl
  | case2 a =>
    have ha : a < 256 := h a (by simp)
    have hp := decodeChar_encodeChar (show a / 4 < 64 by omega)
    have hq := decodeChar_encodeChar (show a % 4 * 16 < 64 by omega)
    simp only [encodeBytes, decodeBytes, hp, hq, Option.bind_eq_bind, Option.bind_some]
    simp
    omega
  | case3 a b =>
    have ha : a < 256 := h a (by simp)
    have hb : b < 256 := h b (by simp)
    have hp := decodeChar_encodeChar (show a / 4 < 64 by omega)
    have hq := decodeChar_encodeChar (show a % 4 * 16 + b / 16 < 64 by omega)
    have hr := decodeChar_encodeChar (show b % 16 * 4 < 64 by omega)
    have hplain := (encodeChar_plain (show b % 16 * 4 < 64 by omega)).1
    simp only [encodeBytes, decodeBytes, hp, hq, hr, Option.bind_eq_bind, Option.bind_some]
    simp [hplain]
    omega
  | case4 a b c rest ih =>
    have ha : a < 256 := h a (by simp)
    have hb : b < 256 := h b (by simp)
    have hc : c < 256 := h c (by simp)
    have hp := decodeChar_encodeChar (show a / 4 < 64 by omega)
    have hq := decodeChar_encodeChar (show a % 4 * 16 + b / 16 < 64 by omega)
    have hr := decodeChar_encodeChar (show b % 16 * 4 + c / 64 < 64 by omega)
    have hs := decodeChar_encodeChar (show c % 64 < 64 by omega)
    have hplain := (encodeChar_plain (show c % 64 < 64 by omega)).1
    have hrest := ih (fun b hb => h b (by simp [hb]))
    simp only [encodeBytes, decodeBytes, hp, hq, hr, hs, hrest, if_neg hplain,
      Option.bind_eq_bind, Option.bind_some]
    simp
    omega

theorem plain_of_mem_encodeBytes (bytes : List Nat) (h : ∀ b ∈ bytes, b < 256) :
    ∀ c ∈ encodeBytes bytes, c ≠ '\n' ∧ c ≠ '\r' := by
  induction bytes using encodeBytes.induct with
  | case1 => simp [encodeBytes]
  | case2 a =>
    have ha : a < 256 := h a (by simp)
    simp [encodeBytes, (encodeChar_plain (show a / 4 < 64 by omega)).2,
      (encodeChar_plain (show a % 4 * 16 < 64 by omega)).2]
  | case3 a b =>
    have ha : a < 256 := h a (by simp)
    have hb : b < 256 := h b (by simp)
    simp [encodeBytes, (encodeChar_plain (show a / 4 < 64 by omega)).2,
      (encodeChar_plain (show a % 4 * 16 + b / 16 < 64 by omega)).2,
      (encodeChar_plain (show b % 16 * 4 < 64 by omega)).2]
  | case4 a b c rest ih =>
    have ha : a < 256 := h a (by simp)
    have hb : b < 256 := h b (by simp)
    have hc : c < 256 := h c (by simp)
    simp only [encodeBytes, List.forall_mem_cons]
    exact ⟨(encodeChar_plain (by omega)).2, (encodeChar_plain (by omega)).2,
      (encodeChar_plain (by omega)).2, (encodeChar_plain (by omega)).2,
      ih (fun b hb => h b (by simp [hb]))⟩

/-- A text of one-byte characters comes back as it was. -/
theorem decode_encode {s : String} (h : ∀ c ∈ s.toList, c.toNat < 256) :
    decode (encode s) = some s := by
  have hbytes : ∀ b ∈ s.toList.map Char.toNat, b < 256 := by simpa using h
  have hfilter : (encodeBytes (s.toList.map Char.toNat)).filter (fun c => c ≠ '\n' ∧ c ≠ '\r') =
      encodeBytes (s.toList.map Char.toNat) :=
    List.filter_eq_self.mpr (fun c hc => by
      simpa using plain_of_mem_encodeBytes _ hbytes c hc)
  have hchars : (s.toList.map Char.toNat).map Char.ofNat = s.toList := by
    simp [List.map_map, Function.comp_def, Char.ofNat_toNat]
  simp only [decode, encode, String.toList_ofList, hfilter, decodeBytes_encodeBytes _ hbytes,
    Option.map_some, hchars, String.ofList_toList]

end Sonarr.Lib.Base64
