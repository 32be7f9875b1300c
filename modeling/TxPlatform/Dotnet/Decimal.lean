import TxPlatform.Dotnet.Primitives

/-!
# The `decimal` type of .NET

A decimal is an integer coefficient of at most 96 bits divided by a power of ten with exponent
at most 28; both bounds are fields, so no other value can be built. Arithmetic computes the exact
result and then gives up as few decimal places as it must, rounding once and half to even; a
result that does not fit with no decimal place left is the `OverflowException` (`none`).
-/

namespace TxPlatform

structure Decimal where
  coefficient : Int
  scale : Nat
  bounded : coefficient.natAbs < 2 ^ 96
  scaled : scale ≤ 28
  deriving DecidableEq

namespace Decimal

theorem hundredths_bounded (n : UInt64) : (n.toNat : Int).natAbs < 2 ^ 96 :=
  Nat.lt_trans n.toNat_lt (by decide)

theorem hundredths_scaled : 2 ≤ 28 := by decide

/-- An amount given in hundredths. -/
def ofHundredths (n : UInt64) : Decimal := ⟨n.toNat, 2, hundredths_bounded n, hundredths_scaled⟩

/-- `coefficient / divisor`, rounded half to even. -/
def divideHalfEven (coefficient : Int) (divisor : Nat) : Int :=
  let magnitude := coefficient.natAbs
  let quotient := magnitude / divisor
  let twice := 2 * (magnitude % divisor)
  let rounded := if divisor < twice ∨ (twice = divisor ∧ quotient % 2 = 1) then quotient + 1 else quotient
  if coefficient < 0 then -rounded else rounded

/-- The exact value `coefficient / 10 ^ (dropped + scale)` with `dropped` places given up so far. -/
def fit (coefficient : Int) (dropped : Nat) (scale : Nat) : Option Decimal :=
  let rounded := divideHalfEven coefficient (10 ^ dropped)
  if h : rounded.natAbs < 2 ^ 96 ∧ scale ≤ 28 then some ⟨rounded, scale, h.1, h.2⟩
  else
    match scale with
    | 0 => none
    | scale + 1 => fit coefficient (dropped + 1) scale

def zero : Decimal := ⟨0, 0, by decide, by decide⟩

def add (a b : Decimal) : Option Decimal :=
  let scale := max a.scale b.scale
  fit (a.coefficient * 10 ^ (scale - a.scale) + b.coefficient * 10 ^ (scale - b.scale)) 0 scale

/-- `decimal * int`; the integer converts to a decimal without places. -/
def mulInt (a : Decimal) (n : I32) : Option Decimal := fit (a.coefficient * n.toInt) 0 a.scale

/-- `Enumerable.Sum(decimal)`: `decimal sum = 0; foreach (v in source) sum += v;`. -/
def sum (values : List Decimal) : Option Decimal := values.foldlM add zero

def isPositive (a : Decimal) : Bool := 0 < a.coefficient

/-- `ToString()` in the invariant culture: as many places as the scale. -/
def toText (a : Decimal) : String :=
  let sign := if a.coefficient < 0 then "-" else ""
  let digits := a.coefficient.natAbs
  let whole := toString (digits / 10 ^ a.scale)
  if a.scale = 0 then sign ++ whole
  else
    let places := toString (digits % 10 ^ a.scale)
    sign ++ whole ++ "." ++ String.ofList (List.replicate (a.scale - places.length) '0') ++ places

/-- The invariant custom format `0.00`: two places, rounded half away from zero. -/
def format00 (a : Decimal) : String :=
  let hundredths := (200 * a.coefficient.natAbs + 10 ^ a.scale) / (2 * 10 ^ a.scale)
  let sign := if a.coefficient < 0 ∧ hundredths ≠ 0 then "-" else ""
  let places := if hundredths % 100 < 10 then "0" ++ toString (hundredths % 100)
    else toString (hundredths % 100)
  sign ++ toString (hundredths / 100) ++ "." ++ places

example : (⟨1250, 2, by decide, by decide⟩ : Decimal).mulInt 3 =
    some ⟨3750, 2, by decide, by decide⟩ := by decide

end Decimal

end TxPlatform
