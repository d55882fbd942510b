import Sonarr.Lib.Text

/-! JSON values, and how they decode into Go's types: `null` and what is left out leave what is
there, which is the zero value at first, and a value of another kind is an error. -/
namespace Sonarr.Lib.Json

/-- Numbers with a fraction or an exponent are kept apart, for they decode into no integer. -/
inductive Value
  | null
  | bool (b : Bool)
  | num (n : Int)
  | fraction
  | str (s : String)
  | arr (elements : List Value)
  | obj (fields : List (String × Value))

namespace Value
variable {α β : Type}

/-! Decoding over what is there. -/

def intOver (old : Int) : Value → Option Int
  | null => some old
  | num n => some n
  | _ => none

def boolOver (old : Bool) : Value → Option Bool
  | null => some old
  | bool b => some b
  | _ => none

def textOver (old : String) : Value → Option String
  | null => some old
  | str s => some s
  | _ => none

def decodeAll (decode : Value → Option α) : List Value → Option (List α)
  | [] => some []
  | v :: vs => match decode v, decodeAll decode vs with
    | some a, some as => some (a :: as)
    | _, _ => none

/-- A slice; the one that `null` gives is empty. -/
def toSlice (decode : Value → Option α) : Value → Option (List α)
  | null => some []
  | arr elements => decodeAll decode elements
  | _ => none

/-- The values of a field, one after the other. A key is found whatever its case. -/
def named (fields : List (String × Value)) (name : String) : List Value :=
  (fields.filter (fun f => Text.equalFold f.1 name)).map Prod.snd

@[simp] theorem named_nil (name : String) : named [] name = [] := rfl

@[simp] theorem named_cons (key : String) (v : Value) (fields : List (String × Value))
    (name : String) : named ((key, v) :: fields) name =
      if Text.equalFold key name then v :: named fields name else named fields name := by
  unfold named
  rw [List.filter_cons]
  split
  · rfl
  · rfl

/-- A struct, from the values of its fields. -/
def toStruct (decode : (String → List Value) → Option α) : Value → Option α
  | null => decode (fun _ => [])
  | obj fields => decode (named fields)
  | _ => none

/-! All the values of a field, each decoded over the one before. -/

@[simp] def ints : List Value → Option Int := List.foldlM intOver 0

@[simp] def bools : List Value → Option Bool := List.foldlM boolOver false

@[simp] def texts : List Value → Option String := List.foldlM textOver ""

@[simp] def slices (decode : Value → Option α) : List Value → Option (List α) :=
  List.foldlM (fun _ v => v.toSlice decode) []

theorem decodeAll_map {decode : Value → Option β} {encode : α → Value} {f : α → β}
    (h : ∀ a, decode (encode a) = some (f a)) (l : List α) :
    decodeAll decode (l.map encode) = some (l.map f) := by
  induction l with
  | nil => rfl
  | cons a l ih => simp only [List.map_cons, decodeAll, h, ih]

end Value

end Sonarr.Lib.Json
