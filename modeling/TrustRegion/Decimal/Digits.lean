import TrustRegion.Binary.Format

/-!
Decimal digits of a binary value, found in exact integers.

`shortest` gives the fewest digits that read back to the same value of the format, the nearest
such digits where there are several; `rounded` gives a fixed number of digits of the exact value.
-/
namespace TrustRegion.Decimal

/-- The positive number `digits * 10 ^ exponent`. -/
structure Digits where
  digits : Nat
  exponent : Int
  deriving DecidableEq, Repr

def digitCount (n : Nat) : Nat := (Nat.toDigits 10 n).length

def leadingExponent (num den : Nat) : Int :=
  if den ≤ num then (digitCount (num / den) : Int) - 1
  else -(digitCount ((den - 1) / num) : Int)

/-- The values that round to `value / den` in their format: those from `low / den` to `high / den`,
the ends included if `closed`. -/
structure Basin where
  low : Nat
  value : Nat
  high : Nat
  den : Nat
  closed : Bool
  deriving Repr

/-- The basin of `significand * 2 ^ exponent`. It reaches half way to both neighbours; below a power
of two the lower neighbour is only half as far. -/
def Basin.of (f : Binary.Format) (significand : Nat) (exponent : Int) : Basin :=
  let low :=
    if significand = f.binade ∧ f.leastExponent < exponent then 4 * significand - 1
    else 4 * significand - 2
  let scale := Nat.pow 2 (exponent - 2).toNat
  { low := low * scale
    value := 4 * significand * scale
    high := (4 * significand + 2) * scale
    den := Nat.pow 2 (2 - exponent).toNat
    closed := significand % 2 = 0 }

def Basin.contains (b : Basin) (d : Digits) : Bool :=
  let (up, down) := Binary.power 10 d.exponent
  let candidate := d.digits * up * b.den
  if b.closed then decide (b.low * down ≤ candidate ∧ candidate ≤ b.high * down)
  else decide (b.low * down < candidate ∧ candidate < b.high * down)

/-- The grid of `count` digits has a point just below the value and one just above: the one that
lies in the basin, of two the nearer, of two equally near the larger. -/
def Basin.onGrid? (b : Basin) (count : Nat) : Option Digits :=
  let exponent := leadingExponent b.value b.den - (count - 1 : Nat)
  let (up, down) := Binary.power 10 exponent
  let num := b.value * down
  let den := b.den * up
  let below : Digits := ⟨num / den, exponent⟩
  let above : Digits := ⟨num / den + 1, exponent⟩
  if b.contains above && (!b.contains below || decide (den ≤ 2 * (num % den))) then some above
  else if b.contains below then some below
  else none

/-- Drops up to `fuel` trailing zeros into the exponent. -/
def Digits.strip (d : Digits) : Nat → Digits
  | 0 => d
  | fuel + 1 =>
    if d.digits % 10 = 0 then (Digits.mk (d.digits / 10) (d.exponent + 1)).strip fuel else d

/-- The most digits that a value of the format needs to be told from its neighbours. -/
def mostDigits (f : Binary.Format) : Nat := f.precision * 30103 / 100000 + 2

/-- The fewest digits that read back to `significand * 2 ^ exponent`, which is positive. -/
def shortest (f : Binary.Format) (significand : Nat) (exponent : Int) : Digits :=
  let basin := Basin.of f significand exponent
  let counts := (List.range (mostDigits f)).map (· + 1)
  match counts.findSome? basin.onGrid? with
  | some d => d.strip (mostDigits f)
  | none => ⟨significand, exponent⟩

/-- The exact value `num / den` rounded to `count` digits, a half going to the even neighbour. -/
def rounded (count num den : Nat) : Digits :=
  let exponent := leadingExponent num den - (count - 1 : Nat)
  let (up, down) := Binary.power 10 exponent
  let digits := Binary.roundHalfEven (num * down) (den * up)
  if digits = Nat.pow 10 count then ⟨Nat.pow 10 (count - 1), exponent + 1⟩
  else ⟨digits, exponent⟩

end TrustRegion.Decimal
