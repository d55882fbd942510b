import Sonarr.Lib.Digits
import Sonarr.Lib.JsonText
import Sonarr.Lib.JsonValue

/-! Reading a JSON text as a value. -/
namespace Sonarr.Lib.Json

def skipFraction : List Char → Option (List Char)
  | '.' :: s => if (s.takeWhile Char.isDigit).isEmpty then none else some (s.dropWhile Char.isDigit)
  | s => some s

def skipSign : List Char → List Char
  | '+' :: s => s
  | '-' :: s => s
  | s => s

def skipExponent (s : List Char) : Option (List Char) :=
  match s with
  | c :: s =>
    if c = 'e' ∨ c = 'E' then
      if ((skipSign s).takeWhile Char.isDigit).isEmpty then none
      else some ((skipSign s).dropWhile Char.isDigit)
    else some (c :: s)
  | [] => some []

def readNumber (s : List Char) : Option (Value × List Char) :=
  let (sign, s) : Int × List Char := match s with
    | '-' :: s => (-1, s)
    | s => (1, s)
  let digits := s.takeWhile Char.isDigit
  let value := Nat.ofDigitChars 10 digits 0
  -- no digit, or a zero before the first one
  if Nat.toDigits 10 value ≠ digits then none
  else
    let rest := s.dropWhile Char.isDigit
    ((skipFraction rest).bind skipExponent).map (fun rest' =>
      (if rest'.length = rest.length then .num (sign * value) else .fraction, rest'))

mutual

def readValue : Nat → List Char → Option (Value × List Char)
  | 0, _ => none
  | n + 1, s => match skipSpace s with
    | 'n' :: 'u' :: 'l' :: 'l' :: s => some (.null, s)
    | 't' :: 'r' :: 'u' :: 'e' :: s => some (.bool true, s)
    | 'f' :: 'a' :: 'l' :: 's' :: 'e' :: s => some (.bool false, s)
    | '"' :: s => (readString ('"' :: s)).map (fun (t, s) => (.str (String.ofList t), s))
    | '[' :: s => match skipSpace s with
      | ']' :: s => some (.arr [], s)
      | s => (readElements n s).map (fun (vs, s) => (.arr vs, s))
    | '\x7b' :: s => match skipSpace s with
      | '\x7d' :: s => some (.obj [], s)
      | s => (readMembers n s).map (fun (fs, s) => (.obj fs, s))
    | s => readNumber s

def readElements : Nat → List Char → Option (List Value × List Char)
  | 0, _ => none
  | n + 1, s => (readValue n s).bind (fun (v, s) => match skipSpace s with
    | ',' :: s => (readElements n s).map (fun (vs, s) => (v :: vs, s))
    | ']' :: s => some ([v], s)
    | _ => none)

def readMembers : Nat → List Char → Option (List (String × Value) × List Char)
  | 0, _ => none
  | n + 1, s => (readString (skipSpace s)).bind (fun (key, s) => match skipSpace s with
    | ':' :: s => (readValue n s).bind (fun (v, s) => match skipSpace s with
      | ',' :: s => (readMembers n s).map (fun (fs, s) => ((String.ofList key, v) :: fs, s))
      | '\x7d' :: s => some ([(String.ofList key, v)], s)
      | _ => none)
    | _ => none)

end

/-- The value of a text that is nothing else. No more calls are nested than twice its length. -/
def read (s : String) : Option Value :=
  match readValue (2 * s.toList.length + 3) s.toList with
  | some (v, rest) => if skipSpace rest = [] then some v else none
  | none => none

example : read " [1, -2.5e3, \x7b\"a\": null\x7d] " matches
    some (.arr [.num 1, .fraction, .obj [("a", .null)]]) := by decide +kernel

/-- A number up to the end of an object. -/
theorem readNumber_toDigits (n : Nat) (s : List Char) :
    readNumber (Nat.toDigits 10 n ++ '\x7d' :: s) = some (.num n, '\x7d' :: s) := by
  have hdigits : ∀ c ∈ Nat.toDigits 10 n, c.isDigit = true := fun c hc =>
    Digits.isDigit_of_mem_toDigits hc
  have htake : (Nat.toDigits 10 n ++ '\x7d' :: s).takeWhile Char.isDigit = Nat.toDigits 10 n := by
    rw [List.takeWhile_append_of_pos hdigits]
    simp [show Char.isDigit '\x7d' = false from rfl]
  have hdrop : (Nat.toDigits 10 n ++ '\x7d' :: s).dropWhile Char.isDigit = '\x7d' :: s := by
    rw [List.dropWhile_append_of_pos hdigits]
    rfl
  unfold readNumber
  split
  rename_i sign t heq
  split at heq
  · rename_i u hu
    exact absurd hu (Text.toDigits_append_ne_dash n _ _)
  · cases heq
    simp [htake, hdrop, Nat.ofDigitChars_ten_toDigits, skipFraction, skipExponent]

theorem readValue_toDigits (n fuel : Nat) (s : List Char) :
    readValue (fuel + 1) (Nat.toDigits 10 n ++ '\x7d' :: s) = some (.num n, '\x7d' :: s) := by
  obtain ⟨d, ds, hds⟩ := List.exists_cons_of_ne_nil (Nat.toDigits_ne_nil (b := 10) (n := n))
  have hd : d.isDigit = true := Digits.isDigit_of_mem_toDigits (hds ▸ List.mem_cons_self)
  have hspace : skipSpace (Nat.toDigits 10 n ++ '\x7d' :: s) = Nat.toDigits 10 n ++ '\x7d' :: s := by
    rw [hds]
    unfold skipSpace
    rw [List.cons_append, List.dropWhile_cons_of_neg]
    simp only [Bool.or_eq_true, beq_iff_eq]
    rintro (((rfl | rfl) | rfl) | rfl) <;> exact absurd hd (by decide)
  have hnot : ∀ c t, c.isDigit = false → Nat.toDigits 10 n ++ '\x7d' :: s ≠ c :: t := by
    intro c t hc he
    rw [hds] at he
    cases he
    rw [hd] at hc
    cases hc
  rw [readValue, hspace]
  split
  case h_7 => exact readNumber_toDigits n s
  -- a digit begins nothing but a number
  all_goals
    rename_i h
    exact absurd h (hnot _ _ rfl)

theorem skipSpace_cons {c : Char} (h : (c == ' ' || c == '\t' || c == '\n' || c == '\r') = false)
    (s : List Char) : skipSpace (c :: s) = c :: s :=
  List.dropWhile_cons_of_neg (by simp [h])

/-- An object whose only member is a number. -/
theorem readValue_member {key : List Char} (hkey : ∀ c ∈ key, Plain c) (n fuel : Nat) :
    readValue (fuel + 3)
        ('\x7b' :: '"' :: (key ++ '"' :: ':' :: (Nat.toDigits 10 n ++ ['\x7d']))) =
      some (.obj [(String.ofList key, .num n)], []) := by
  have hmembers : readMembers (fuel + 2)
      ('"' :: (key ++ '"' :: ':' :: (Nat.toDigits 10 n ++ ['\x7d']))) =
        some ([(String.ofList key, .num n)], []) := by
    rw [readMembers, skipSpace_cons rfl, readString_plain hkey]
    simp only [Option.bind_some, skipSpace_cons (c := ':') rfl, readValue_toDigits,
      skipSpace_cons (c := '\x7d') rfl]
  rw [readValue, skipSpace_cons rfl]
  simp only [skipSpace_cons (c := '"') rfl]
  split
  · rename_i h
    cases h
  · rw [hmembers, Option.map_some]

end Sonarr.Lib.Json
