import Stencil.Json.Basic
import Stencil.Decimal.Reader
import Stencil.Text.Blank

/-!
# Values

The values that expressions compute with: nothing at all, null, truth values, numbers, strings,
arrays, and objects with named entries in order.

* `display` is the text that printing shows, and `toJson` the JSON form; `ofJson` goes back.
* `toNumber` is the number that arithmetic takes a value for.
* `strictEquals` compares values of one kind by content, `looseEquals` also takes null and nothing
  for the same, and strings and truth values for numbers.
-/

namespace Stencil

/-- A value of the expression language. The keys of an object are distinct. -/
inductive Value where
  | undefined
  | null
  | boolean (b : Bool)
  | number (x : Float)
  | string (s : String)
  | array (items : List Value)
  | object (entries : List (String × Value))

namespace Value

instance : Inhabited Value := ⟨.undefined⟩

/-- Whether the value is null or nothing at all. -/
def isNullish : Value → Bool
  | .undefined | .null => true
  | _ => false

/-- Whether a condition with this value holds. -/
def isTruthy : Value → Bool
  | .undefined | .null => false
  | .boolean b => b
  | .number x => !(x == 0) && !x.isNaN
  | .string s => !s.isEmpty
  | .array _ | .object _ => true

/-- The name of the value's kind. -/
def typeName : Value → String
  | .undefined => "undefined"
  | .null => "null"
  | .boolean _ => "boolean"
  | .number _ => "number"
  | .string _ => "string"
  | .array _ => "array"
  | .object _ => "object"

/-! ## JSON form -/

/-- The JSON form of a number: an integer when it is one of fewer than 54 bits, and null when it
is not finite. -/
def numberToJson (x : Float) : Json :=
  if isWhole x && x.abs < 9007199254740992 then .integer (wholePart x)
  else if x.isFinite then .decimal x
  else .null

mutual

/-- A value as JSON, where nothing is null. -/
def toJson : Value → Json
  | .undefined | .null => .null
  | .boolean b => .boolean b
  | .number x => numberToJson x
  | .string s => .string s
  | .array items => .array (itemsToJson items)
  | .object entries => .object (entriesToJson entries)

/-- The items of an array as JSON. -/
def itemsToJson : List Value → List Json
  | [] => []
  | v :: vs => toJson v :: itemsToJson vs

/-- The entries of an object as JSON. -/
def entriesToJson : List (String × Value) → List (String × Json)
  | [] => []
  | (k, v) :: rest => (k, toJson v) :: entriesToJson rest

end

mutual

/-- The value of a JSON text that was read. -/
def ofJson : Json → Value
  | .null => .null
  | .boolean b => .boolean b
  | .integer n => .number (floatOfInt n)
  | .decimal x => .number x
  | .string s => .string s
  | .array items => .array (itemsOfJson items)
  | .object members => .object (Dict.ofList (entriesOfJson members))

/-- The values of the items of a JSON array. -/
def itemsOfJson : List Json → List Value
  | [] => []
  | j :: js => ofJson j :: itemsOfJson js

/-- The values of the members of a JSON object, before those under equal keys become one. -/
def entriesOfJson : List (String × Json) → List (String × Value)
  | [] => []
  | (k, j) :: rest => (k, ofJson j) :: entriesOfJson rest

end

/-! ## Text -/

/-- The text of a number: an integer below `10 ^ 21` by its digits, any other finite number in
positional form, and words for the rest. -/
def displayNumber (x : Float) : String :=
  if x.isNaN then "NaN"
  else if x.isInf then (if x > 0 then "Infinity" else "-Infinity")
  else if isWhole x && x.abs < 1e21 then String.ofList (Decimal.integer (wholePart x))
  else String.ofList (Decimal.plainFloat x)

mutual

/-- The text that printing shows. -/
def display : Value → String
  | .undefined => "undefined"
  | .null => "null"
  | .boolean b => if b then "true" else "false"
  | .number x => displayNumber x
  | .string s => s
  | .array items => displayItems "" true items
  | .object entries => (toJson (.object entries)).render

/-- What is shown of an array so far, with the items that are left behind it. A comma stands in
front of all but the first one; null and nothing show as an empty text. -/
def displayItems (shown : String) (first : Bool) : List Value → String
  | [] => shown
  | v :: vs =>
    let shown := if first then shown else shown ++ ","
    displayItems (if v.isNullish then shown else shown ++ display v) false vs

end

/-! ## Numbers -/

/-- What stands for a text or a value that is not a number. -/
def notANumber : Float := 0.0 / 0.0

/-- The number that a text stands for: zero for a blank text, and no number for a text that is not
a decimal. -/
def parseNumber (s : String) : Float :=
  let cs := Text.trim s.toList
  if cs.isEmpty then 0
  else if cs = "Infinity".toList || cs = "+Infinity".toList then 1.0 / 0.0
  else if cs = "-Infinity".toList then -1.0 / 0.0
  else (Decimal.readFloat? cs).getD notANumber

/-- The number that arithmetic takes the value for. -/
def toNumber : Value → Float
  | .undefined => notANumber
  | .null => 0
  | .boolean b => if b then 1 else 0
  | .number x => x
  | .string s => parseNumber s
  | .array [] => 0
  | .array [v] => parseNumber v.display
  | .array _ => notANumber
  | .object _ => notANumber

/-! ## Equality -/

mutual

/-- Equality of values of one kind, by content; entries of objects are compared in order. -/
def strictEquals : Value → Value → Bool
  | .undefined, .undefined => true
  | .null, .null => true
  | .boolean a, .boolean b => a == b
  | .number x, .number y => x == y
  | .string s, .string t => s == t
  | .array xs, .array ys => itemsEqual xs ys
  | .object xs, .object ys => entriesEqual xs ys
  | _, _ => false

/-- Arrays of one length that are equal item by item. -/
def itemsEqual : List Value → List Value → Bool
  | [], [] => true
  | x :: xs, y :: ys => strictEquals x y && itemsEqual xs ys
  | _, _ => false

/-- Objects with the same keys in the same order and equal values. -/
def entriesEqual : List (String × Value) → List (String × Value) → Bool
  | [], [] => true
  | (j, x) :: xs, (k, y) :: ys => j == k && strictEquals x y && entriesEqual xs ys
  | _, _ => false

end

/-- Equality up to conversion: null and nothing are the same, truth values are compared as numbers
with all scalars, and so are numbers with strings. -/
def looseEquals (a b : Value) : Bool :=
  if a.isNullish || b.isNullish then a.isNullish && b.isNullish
  else
    match a, b with
    | .number _, .boolean _ | .string _, .boolean _ | .boolean _, .boolean _
    | .boolean _, .number _ | .boolean _, .string _
    | .number _, .string _ | .string _, .number _ => a.toNumber == b.toNumber
    | a, b => strictEquals a b

end Value
end Stencil
