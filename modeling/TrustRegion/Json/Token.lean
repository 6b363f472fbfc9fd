import TrustRegion.Decimal.Literal

/-!
The tokens of JSON text.

Text falls into marks, words and quoted strings. A word is a longest run of letters, digits, signs
and points, and has to be a number or one of the three names: two of those never stand side by side
in JSON. A string is kept in UTF-16 units, since escapes can name half of a surrogate pair.
-/
namespace TrustRegion.Json

inductive Token where
  | openArray
  | closeArray
  | openObject
  | closeObject
  | comma
  | colon
  | null
  | bool (value : Bool)
  | number (literal : Decimal.Literal)
  | string (units : List Nat)
  deriving DecidableEq, Repr

def decimal (digits : List Char) : Nat := digits.foldl (fun n c => 10 * n + (c.toNat - 48)) 0

/-- The value of an exponent: an optional sign and at least one digit. -/
def exponent? : List Char → Option Int
  | '-' :: cs => (digits? cs).map fun n => -(n : Int)
  | '+' :: cs => (digits? cs).map Int.ofNat
  | cs => (digits? cs).map Int.ofNat
where
  digits? (cs : List Char) : Option Nat :=
    if !cs.isEmpty && cs.all Char.isDigit then some (decimal cs) else none

/-- The exponent part after the digits of a number: nothing, or `e` and an exponent. -/
def exponentPart? : List Char → Option Int
  | [] => some 0
  | c :: cs => if c = 'e' ∨ c = 'E' then exponent? cs else none

/-- A number without its sign: an integer part without needless zeros, a fraction of at least one
digit, an exponent. -/
def unsigned? (negative : Bool) (cs : List Char) : Option Decimal.Literal :=
  let whole := cs.takeWhile Char.isDigit
  let rest := cs.dropWhile Char.isDigit
  if whole.isEmpty || (whole.head? == some '0' && whole != ['0']) then none
  else
    match rest with
    | '.' :: rest =>
      let fraction := rest.takeWhile Char.isDigit
      if fraction.isEmpty then none
      else (exponentPart? (rest.dropWhile Char.isDigit)).map fun e =>
        ⟨negative, decimal (whole ++ fraction), e - fraction.length⟩
    | rest => (exponentPart? rest).map fun e => ⟨negative, decimal whole, e⟩

def number? : List Char → Option Decimal.Literal
  | '-' :: cs => unsigned? true cs
  | cs => unsigned? false cs

def Token.ofWord? (word : List Char) : Option Token :=
  if word = ['n', 'u', 'l', 'l'] then some .null
  else if word = ['t', 'r', 'u', 'e'] then some (.bool true)
  else if word = ['f', 'a', 'l', 's', 'e'] then some (.bool false)
  else (number? word).map .number

def Token.ofMark? : Char → Option Token
  | '[' => some .openArray
  | ']' => some .closeArray
  | '{' => some .openObject
  | '}' => some .closeObject
  | ',' => some .comma
  | ':' => some .colon
  | _ => none

def isBlank (c : Char) : Bool := c = ' ' ∨ c = '\t' ∨ c = '\n' ∨ c = '\r'

def isWordChar (c : Char) : Bool := c.isAlphanum || c = '+' || c = '-' || c = '.'

def escape? : Char → Option Nat
  | '"' => some 0x22
  | '\\' => some 0x5C
  | '/' => some 0x2F
  | 'b' => some 8
  | 'f' => some 12
  | 'n' => some 10
  | 'r' => some 13
  | 't' => some 9
  | _ => none

def hexDigit? (c : Char) : Option Nat :=
  if c.isDigit then some (c.toNat - 48)
  else if 'a' ≤ c ∧ c ≤ 'f' then some (c.toNat - 87)
  else if 'A' ≤ c ∧ c ≤ 'F' then some (c.toNat - 55)
  else none

/-- The units of a character, one or two. -/
def unitsOf (c : Char) : List Nat :=
  let n := c.toNat
  if n < 0x10000 then [n] else [0xD800 + (n - 0x10000) / 0x400, 0xDC00 + (n - 0x10000) % 0x400]

/-- The characters of a string of units, none if half of a surrogate pair stands alone. -/
def charsOf? : List Nat → Option (List Char)
  | [] => some []
  | high :: rest =>
    if 0xD800 ≤ high ∧ high < 0xDC00 then
      match rest with
      | low :: rest =>
        if 0xDC00 ≤ low ∧ low < 0xE000 then
          (charsOf? rest).map
            (Char.ofNat (0x10000 + (high - 0xD800) * 0x400 + (low - 0xDC00)) :: ·)
        else none
      | [] => none
    else if 0xDC00 ≤ high ∧ high < 0xE000 then none
    else (charsOf? rest).map (Char.ofNat high :: ·)

/-- Where the reader of tokens is: between two, or inside a word or a string, the latest character
or unit first. -/
inductive Mode where
  | between
  | word (latest : List Char)
  | quoted (latest : List Nat)

/-- What a character between two tokens brings: the token that it is, and the mode after it. -/
def Mode.enter? (c : Char) : Option (List Token × Mode) :=
  if isBlank c then some ([], between)
  else if c = '"' then some ([], quoted [])
  else if isWordChar c then some ([], word [c])
  else (Token.ofMark? c).map fun token => ([token], between)

/-- The tokens of a text that is read on in the given mode. -/
def tokens? : Mode → List Char → Option (List Token)
  | .between, [] => some []
  | .word cs, [] => (Token.ofWord? cs.reverse).map ([·])
  | .quoted _, [] => none
  | .between, c :: rest => do
    let (entered, mode) ← Mode.enter? c
    return entered ++ (← tokens? mode rest)
  | .word cs, c :: rest =>
    if isWordChar c then tokens? (.word (c :: cs)) rest
    else do
      let token ← Token.ofWord? cs.reverse
      let (entered, mode) ← Mode.enter? c
      return token :: entered ++ (← tokens? mode rest)
  | .quoted units, '"' :: rest => do
    return .string units.reverse :: (← tokens? .between rest)
  | .quoted units, '\\' :: 'u' :: a :: b :: c :: d :: rest => do
    let unit := (((← hexDigit? a) * 16 + (← hexDigit? b)) * 16 + (← hexDigit? c)) * 16
      + (← hexDigit? d)
    tokens? (.quoted (unit :: units)) rest
  | .quoted units, '\\' :: c :: rest => do tokens? (.quoted ((← escape? c) :: units)) rest
  | .quoted units, c :: rest =>
    if c = '\\' ∨ c.toNat < 0x20 then none
    else tokens? (.quoted ((unitsOf c).reverse ++ units)) rest

end TrustRegion.Json
