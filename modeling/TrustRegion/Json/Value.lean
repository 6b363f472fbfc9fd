import TrustRegion.Json.Token

/-!
JSON values and the reader that builds one from tokens. The reader is a machine that takes a token
at a time and keeps the containers that are still open, so nesting is not limited.
-/
namespace TrustRegion.Json

/-- A value with numbers in `ν`. Objects keep their fields in order, repeated names included. A
string that holds half of a surrogate pair has no characters. -/
inductive Value (ν : Type) where
  | null
  | bool (value : Bool)
  | number (value : ν)
  | string (text? : Option String)
  | array (items : List (Value ν))
  | object (fields : List (Option String × Value ν))

/-- An open container around the value that is being read, the latest item first. -/
inductive Frame (ν : Type) where
  | item (items : List (Value ν))
  | field (fields : List (Option String × Value ν)) (key : Option String)

/-- What the reader is waiting for, inside the containers `outer`; of a container that is being
read the latest item comes first. -/
inductive Reading (ν : Type) where
  | done (value : Value ν)
  | value (outer : List (Frame ν))
  | itemOrEnd (outer : List (Frame ν))
  | keyOrEnd (outer : List (Frame ν))
  | nextKey (fields : List (Option String × Value ν)) (outer : List (Frame ν))
  | colon (fields : List (Option String × Value ν)) (key : Option String) (outer : List (Frame ν))
  | afterItem (items : List (Value ν)) (outer : List (Frame ν))
  | afterField (fields : List (Option String × Value ν)) (outer : List (Frame ν))

namespace Reading

variable {ν : Type}

/-- Puts a finished value into the innermost open container. -/
def close (value : Value ν) : List (Frame ν) → Reading ν
  | [] => done value
  | .item items :: outer => afterItem (value :: items) outer
  | .field fields key :: outer => afterField ((key, value) :: fields) outer

def stringOf (units : List Nat) : Option String := (charsOf? units).map String.ofList

def enter? (outer : List (Frame Decimal.Literal)) : Token → Option (Reading Decimal.Literal)
  | .null => some (close .null outer)
  | .bool b => some (close (.bool b) outer)
  | .number l => some (close (.number l) outer)
  | .string units => some (close (.string (stringOf units)) outer)
  | .openArray => some (itemOrEnd outer)
  | .openObject => some (keyOrEnd outer)
  | _ => none

def next? (reading : Reading Decimal.Literal) (token : Token) :
    Option (Reading Decimal.Literal) :=
  match reading, token with
  | value outer, token => enter? outer token
  | itemOrEnd outer, .closeArray => some (close (.array []) outer)
  | itemOrEnd outer, token => enter? (.item [] :: outer) token
  | afterItem items outer, .comma => some (value (.item items :: outer))
  | afterItem items outer, .closeArray => some (close (.array items.reverse) outer)
  | keyOrEnd outer, .closeObject => some (close (.object []) outer)
  | keyOrEnd outer, .string units => some (colon [] (stringOf units) outer)
  | nextKey fields outer, .string units => some (colon fields (stringOf units) outer)
  | colon fields key outer, .colon => some (value (.field fields key :: outer))
  | afterField fields outer, .comma => some (nextKey fields outer)
  | afterField fields outer, .closeObject => some (close (.object fields.reverse) outer)
  | _, _ => none

end Reading

/-- The value that a text holds, if it holds exactly one. -/
def Value.ofText? (text : String) : Option (Value Decimal.Literal) := do
  let tokens ← tokens? .between text.toList
  match ← tokens.foldlM Reading.next? (Reading.value []) with
  | .done value => some value
  | _ => none

namespace Value

variable {ν : Type}

/-- The values of the named fields: of an object that has each of them once and whatever else, or
of an array that holds them in order. -/
def record? (names : List String) : Value ν → Option (List (Value ν))
  | array items => if items.length = names.length then some items else none
  | object fields =>
    if fields.all fun (key, _) => key.isSome then
      names.mapM fun name =>
        match fields.filter fun (key, _) => key == some name with
        | [(_, value)] => some value
        | _ => none
    else none
  | _ => none

/-- A variant by its name alone, or by its name and a payload. -/
def variant? : Value ν → Option (String × Value ν)
  | string (some name) => some (name, null)
  | object [(some name, payload)] => some (name, payload)
  | _ => none

def bool? : Value ν → Option Bool
  | bool b => some b
  | _ => none

def number? : Value ν → Option ν
  | number n => some n
  | _ => none

/-- A variant without a payload, by its name. -/
def choice? {α : Type} (all : List α) (code : α → String) (value : Value ν) : Option α :=
  match value.variant? with
  | some (name, null) => all.find? fun a => code a == name
  | _ => none

end Value

end TrustRegion.Json
