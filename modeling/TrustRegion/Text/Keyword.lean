import TrustRegion.Failure

/-!
Keywords in option texts: the case of ASCII letters and surrounding white space do not matter.
-/
namespace TrustRegion.Text

/-- The characters with the Unicode property White_Space. -/
def isBlank (c : Char) : Bool :=
  let n := c.toNat
  decide (9 ≤ n ∧ n ≤ 13) || n == 0x20 || n == 0x85 || n == 0xA0 || n == 0x1680 ||
    decide (0x2000 ≤ n ∧ n ≤ 0x200A) || n == 0x2028 || n == 0x2029 || n == 0x202F ||
    n == 0x205F || n == 0x3000

def trim (s : List Char) : List Char :=
  ((s.dropWhile isBlank).reverse.dropWhile isBlank).reverse

/-- The form in which keywords are compared; only ASCII letters have a lower case here. -/
def normalize (s : String) : String := String.ofList ((trim s.toList).map Char.toLower)

/-- The value that a text names. A text that names none is refused and shown in normal form. -/
def readKeyword {α : Type} (parameter expectation : String) (choices : List (String × α))
    (s : String) : Except Failure α :=
  match choices.lookup (normalize s) with
  | some value => .ok value
  | none => .error (.invalidArgument parameter (normalize s) expectation)

end TrustRegion.Text
