import TrustRegion.Decimal.Digits

/-!
The three ways a floating value is written: positional, with an exponent, and with an exponent and
a fixed number of places. Infinities are `inf` and `-inf`, every NaN is `NaN`, and a negative zero
keeps its sign.
-/
namespace TrustRegion.Decimal

def numeral (n : Nat) : List Char := Nat.toDigits 10 n

/-- Positional notation: no exponent whatever the magnitude, and no point without a fraction. -/
def Digits.positional (d : Digits) : List Char :=
  let ds := numeral d.digits
  if 0 ≤ d.exponent then ds ++ List.replicate d.exponent.toNat '0'
  else
    let places := (-d.exponent).toNat
    if places < ds.length then
      ds.take (ds.length - places) ++ '.' :: ds.drop (ds.length - places)
    else '0' :: '.' :: (List.replicate (places - ds.length) '0' ++ ds)

/-- The exponent as it is written: a sign only when negative, no padding. -/
def exponentText (e : Int) : List Char :=
  'e' :: (if e < 0 then '-' :: numeral e.natAbs else numeral e.natAbs)

/-- One digit before the point, the point only if digits follow, and the exponent. -/
def Digits.scientific (d : Digits) : List Char :=
  let ds := numeral d.digits
  let mark := if ds.length = 1 then [] else ['.']
  ds.take 1 ++ mark ++ ds.drop 1 ++ exponentText (d.exponent + (ds.length - 1 : Nat))

/-- A value under a notation for its positive part and for zero. -/
def render (positive : Nat → Int → List Char) (zero : List Char) : Binary.Unpacked → String
  | .nan => "NaN"
  | .infinite negative => if negative then "-inf" else "inf"
  | .finite negative significand exponent =>
    let body := if significand = 0 then zero else positive significand exponent
    String.ofList (if negative then '-' :: body else body)

def plainText (f : Binary.Format) (u : Binary.Unpacked) : String :=
  render (fun m e => (shortest f m e).positional) ['0'] u

def scientificText (f : Binary.Format) (u : Binary.Unpacked) : String :=
  render (fun m e => (shortest f m e).scientific) ['0', 'e', '0'] u

/-- With an exponent and exactly `places` digits after the point, rounded from the exact value. -/
def fixedText (places : Nat) (u : Binary.Unpacked) : String :=
  let exact (m : Nat) (e : Int) :=
    let (up, down) := Binary.power 2 e
    (rounded (places + 1) (m * up) down).scientific
  render exact ('0' :: '.' :: (List.replicate places '0' ++ ['e', '0'])) u

end TrustRegion.Decimal
