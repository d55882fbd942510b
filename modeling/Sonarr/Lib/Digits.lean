import Sonarr.Lib.Text

/-! Numbers in decimal. -/
namespace Sonarr.Lib.Digits

/-- A number without sign: one digit or more, and nothing else. -/
def parseNat (ds : List Char) : Option Nat :=
  if ds.isEmpty || ds.any (fun c => !c.isDigit) then none else some (Nat.ofDigitChars 10 ds 0)

/-- A number as a 64-bit integer, with or without a sign. -/
def parseInt (s : String) : Option Int :=
  match s.toList with
  | '-' :: ds => (parseNat ds).bind (fun n => if n ≤ 9223372036854775808 then some (-n) else none)
  | '+' :: ds => (parseNat ds).bind (fun n => if n < 9223372036854775808 then some n else none)
  | ds => (parseNat ds).bind (fun n => if n < 9223372036854775808 then some n else none)

theorem isDigit_of_mem_toDigits (h : c ∈ Nat.toDigits 10 n) : c.isDigit = true :=
  Nat.isDigit_of_mem_toDigits (by decide) (by decide) h

theorem parseNat_toDigits (n : Nat) : parseNat (Nat.toDigits 10 n) = some n := by
  have hne : Nat.toDigits 10 n ≠ [] := Nat.toDigits_ne_nil
  have hall : (Nat.toDigits 10 n).any (fun c => !c.isDigit) = false := by
    simp only [List.any_eq_false, Bool.not_eq_true', Bool.not_eq_false]
    exact fun c hc => isDigit_of_mem_toDigits hc
  simp [parseNat, hne, hall, Nat.ofDigitChars_ten_toDigits]

theorem parseInt_decimal {n : Nat} (h : n < 9223372036854775808) :
    parseInt (Text.decimal n) = some (n : Int) := by
  have hsign : ∀ ds, Nat.toDigits 10 n ≠ '-' :: ds ∧ Nat.toDigits 10 n ≠ '+' :: ds := by
    intro ds
    refine ⟨fun heq => ?_, fun heq => ?_⟩ <;>
    · have := isDigit_of_mem_toDigits (n := n) (by rw [heq]; exact List.mem_cons_self ..)
      exact absurd this (by decide)
  unfold parseInt
  rw [Text.toList_decimal_nat]
  split
  · rename_i ds heq
    exact absurd heq (hsign ds).1
  · rename_i ds heq
    exact absurd heq (hsign ds).2
  · simp [parseNat_toDigits, h]

end Sonarr.Lib.Digits
