import Mathlib.Data.List.TakeWhile
import Sonarr.Lib.Binary64
import Sonarr.Lib.Selection

/-! Numbers in decimal notation, with or without a point. -/
namespace Sonarr.Lib

/-- A sign, the digits before the point and those after it. -/
structure Decimal where
  negative : Bool
  whole : List Nat
  places : List Nat
  deriving DecidableEq, Repr

namespace Decimal

def digit (c : Char) : Option Nat :=
  if 48 ≤ c.toNat ∧ c.toNat ≤ 57 then some (c.toNat - 48) else none

/-- The digits before the first point and after it; there may be none. -/
def ofUnsigned (negative : Bool) (cs : List Char) : Option Decimal := do
  let whole ← (cs.takeWhile (· != '.')).mapM digit
  let places ← ((cs.dropWhile (· != '.')).drop 1).mapM digit
  return ⟨negative, whole, places⟩

def parse (s : String) : Option Decimal :=
  match s.toList with
  | '-' :: cs => ofUnsigned true cs
  | cs => ofUnsigned false cs

def sign (d : Decimal) : Int := if d.negative then -1 else 1

/-- The number it stands for. -/
def value (d : Decimal) : ℚ :=
  d.sign * (((d.whole ++ d.places).foldl (fun n k => 10 * n + k) 0 : Nat) : ℚ) /
    (10 ^ d.places.length : Nat)

/-- It has a digit and no sign. -/
def plain (d : Decimal) : Bool := !d.negative && !(d.whole ++ d.places).isEmpty

end Decimal

end Sonarr.Lib
