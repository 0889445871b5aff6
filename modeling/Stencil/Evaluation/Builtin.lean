import Stencil.Evaluation.Error
import Stencil.Value.Basic
import Stencil.Text.Case

/-!
# Entries of values and the functions that expressions can call

* `Value.entries?` lists the pairs that a loop goes through: the items of an array and the
  characters of a string with their indices, and the entries of an object. Numbers and truth values
  have none.
* `Builtin` lists the functions, and `Builtin.call` applies one.
-/

namespace Stencil

namespace Value

/-- A natural number as a value. -/
def ofNat (n : Nat) : Value := .number (Float.ofNat n)

/-- Pairs each value with its index, counted from `start`. -/
def indexed (start : Nat) : List Value → List (Value × Value)
  | [] => []
  | v :: vs => (ofNat start, v) :: indexed (start + 1) vs

/-- The strings of single characters that make up a string. -/
def characters (s : String) : List Value := s.toList.map fun c => .string c.toString

/-- The keys and values that a loop goes through, unless the value is null or nothing. -/
def entries? : Value → Option (List (Value × Value))
  | .undefined | .null => none
  | .boolean _ | .number _ => some []
  | .string s => some (indexed 0 (characters s))
  | .array items => some (indexed 0 items)
  | .object entries => some (entries.map fun (k, v) => (.string k, v))

/-- The keys and values that a loop goes through. -/
def entries (v : Value) : Except EvalError (List (Value × Value)) :=
  match v.entries? with
  | some pairs => .ok pairs
  | none => .error (.notIterable v.typeName)

/-- The number of items, entries or characters. -/
def size? : Value → Option Nat
  | .string s => some s.length
  | .array items => some items.length
  | .object entries => some entries.length
  | _ => none

end Value

/-- The functions that an expression can call. -/
inductive Builtin where
  | len
  | upper
  | lower
  | trim
  | escape
  | join
  | keys
  | values
  | json
  | str
  | num
  | range
deriving DecidableEq

namespace Builtin

/-- The names of the functions in the order in which a host is told of them. -/
def names : List String :=
  ["len", "upper", "lower", "trim", "escape", "join", "keys", "values", "json", "str", "num",
    "range"]

/-- Whether there is a function of a name. A template that calls any other is not compiled. -/
def isName (name : String) : Bool := names.contains name

/-- The function that a call of a name runs. -/
def ofName? : String → Option Builtin
  | "len" => some .len
  | "upper" => some .upper
  | "lower" => some .lower
  | "trim" => some .trim
  | "escape" => some .escape
  | "str" => some .str
  | "num" => some .num
  | "json" => some .json
  | "join" => some .join
  | "keys" => some .keys
  | "values" => some .values
  | "range" => some .range
  | _ => none

/-- A call finds a function exactly under the names that are told to a host. -/
theorem isSome_ofName? (name : String) : (ofName? name).isSome = isName name := by
  rw [Bool.eq_iff_iff]
  constructor
  · intro h
    unfold ofName? at h
    split at h
    case h_13 => cases h
    all_goals rfl
  · intro h
    simp only [isName, names, List.contains_iff_mem, List.mem_cons, List.not_mem_nil] at h
    rcases h with rfl | rfl | rfl | rfl | rfl | rfl | rfl | rfl | rfl | rfl | rfl | rfl | h
    case inr.inr.inr.inr.inr.inr.inr.inr.inr.inr.inr.inr => exact h.elim
    all_goals rfl

/-- How a character is written in HTML text. -/
def escapeChar (c : Char) : List Char :=
  if c = '&' then "&amp;".toList
  else if c = '<' then "&lt;".toList
  else if c = '>' then "&gt;".toList
  else if c = '"' then "&quot;".toList
  else if c = '\'' then "&#39;".toList
  else [c]

/-- A text as it is written in HTML. -/
def escapeHtml (cs : List Char) : List Char := cs.flatMap escapeChar

/-- The texts of the items, none for null and nothing, with the separator between them. -/
def joinItems (separator : String) (items : List Value) : String :=
  separator.intercalate (items.map fun v => if v.isNullish then "" else v.display)

/-- The least whole number that is not below a finite number or zero, and the greatest 64-bit word
for anything greater than it. -/
def ceiling (x : Float) : Nat :=
  let greatest := UInt64.size - 1
  if x.isNaN || Binary.isNegative x then 0
  else if x.isInf then greatest
  else
    let b := Binary.ofFloat x
    min (b.truncated + if b.isIntegral then 0 else 1) greatest

/-- The numbers from `start` on in steps of one that are below `stop`. -/
def rangeItems (start stop : Float) : Except ArgumentFault Value :=
  if !start.isFinite || !stop.isFinite then .error .boundsNotFinite
  else
    let size := ceiling (stop - start)
    if size > maxRangeItems then .error (.rangeTooLong size)
    else .ok (.array ((List.range size).map fun i => .number (start + Float.ofNat i)))

/-- The only argument. -/
def single : List Value → Except ArgumentFault Value
  | [v] => .ok v
  | vs => .error (.notOne vs.length)

/-- A function of the text of its only argument. -/
def onText (f : List Char → List Char) (vs : List Value) : Except ArgumentFault Value := do
  let v ← single vs
  return .string (String.ofList (f v.display.toList))

/-- The value of a function at its arguments. -/
def apply (f : Builtin) (vs : List Value) : Except ArgumentFault Value := do
  match f with
  | .len =>
    let v ← single vs
    match v.size? with
    | some n => return .ofNat n
    | none => throw (.notMeasurable v.typeName)
  | .upper => onText Text.upper vs
  | .lower => onText Text.lower vs
  | .trim => onText Text.trim vs
  | .escape => onText escapeHtml vs
  | .str => return .string (← single vs).display
  | .num => return .number (← single vs).toNumber
  | .json => return .string (← single vs).toJson.render
  | .join =>
    let (list, separator) ←
      match vs with
      | [list] => pure (list, ",")
      | [list, separator] => pure (list, separator.display)
      | _ => throw .notOneOrTwo
    match list with
    | .array items => return .string (joinItems separator items)
    | v => throw (.notAnArray v.typeName)
  | .keys =>
    let v ← single vs
    match v.entries? with
    | some pairs => return .array (pairs.map Prod.fst)
    | none => throw (.noKeys v.typeName)
  | .values =>
    let v ← single vs
    match v.entries? with
    | some pairs => return .array (pairs.map Prod.snd)
    | none => throw (.noValues v.typeName)
  | .range =>
    match vs with
    | [stop] => rangeItems 0 stop.toNumber
    | [start, stop] => rangeItems start.toNumber stop.toNumber
    | _ => throw .notOneOrTwo

/-- Calls the function of a name. -/
def call (function : String) (vs : List Value) : Except EvalError Value :=
  match ofName? function with
  | some f => (f.apply vs).mapError (.badArguments function)
  | none => .error (.unknownFunction function)

end Builtin
end Stencil
