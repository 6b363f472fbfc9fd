import TrustRegion.Decimal.Digits

/-!
Decimal literals and the floating value each is read as: the exact decimal rounded once.
-/
namespace TrustRegion.Decimal

/-- The number `± digits * 10 ^ exponent`, as it was written. -/
structure Literal where
  negative : Bool
  digits : Nat
  exponent : Int
  deriving DecidableEq, Repr

/-- The pattern nearest to a literal, none beyond the finite range. Exponents that are certain to
overflow or to vanish are settled by their size, so no power is larger than the format asks for. -/
def Literal.pattern? (f : Binary.Format) (l : Literal) : Option Nat :=
  let signBit := if l.negative then f.signBit else 0
  let leading : Int := l.exponent + digitCount l.digits
  let reach : Int := Nat.pow 2 (f.exponentBits - 1) + f.precision
  if l.digits = 0 then some signBit
  else if reach < leading then none
  else if leading < -reach then some signBit
  else
    let (up, down) := Binary.power 10 l.exponent
    (f.nearest? (l.digits * up) down).map (signBit + ·)

end TrustRegion.Decimal
