import Stencil.Toml.Reader

/-!
# The values of TOML documents

`Toml.toValue?` takes a document into the expression language: integers become numbers, dates and
times become strings, and the keys of a table are sorted.

A date or time and a table whose first key is `datetimeKey` stand for each other. Where any value
may be, such a table is the date or time that its first entry holds as a string, and it is an error
if that entry holds none. Where a table must be (`entries?`), a date or time is the table that holds
its text under that key, and tables are taken as they are.
-/

namespace Stencil.Toml

/-- The key under which a table holds a date or time. -/
def datetimeKey : String := "$__toml_private_datetime"

/-- The entries of a table, or of the table that a date or time stands for. -/
def entries? : Toml → Option (List (String × Toml))
  | .table entries => some entries
  | .datetime text => some [(datetimeKey, .string text)]
  | _ => none

/-- What the entries of a table hold as a date or time, if the first key says that they do. -/
def heldDatetime? : List (String × Toml) → Option Toml
  | (key, t) :: _ => if key = datetimeKey then some t else none
  | [] => none

/-- Entries sorted by their keys. -/
def sortEntries (entries : List (String × Value)) : List (String × Value) :=
  entries.mergeSort fun a b => decide (a.1 ≤ b.1)

mutual

/-- The value of the expression language. -/
def toValue? : Toml → Option Value
  | .string s => some (.string s)
  | .integer n => some (.number (floatOfInt n))
  | .float x => some (.number x)
  | .boolean b => some (.boolean b)
  | .datetime text => some (.string text)
  | .array items => (itemsToValue? items).map .array
  | .table entries =>
    match heldDatetime? entries with
    | some (.string s) => (quotedDatetime? s).map .string
    | some _ => none
    | none => (entriesToValue? entries).map fun values => .object (sortEntries values)

/-- The values of the items, if each of them has one. -/
def itemsToValue? : List Toml → Option (List Value)
  | [] => some []
  | t :: ts => do return (← toValue? t) :: (← itemsToValue? ts)

/-- The entries with their values, if each of them has one. -/
def entriesToValue? : List (String × Toml) → Option (List (String × Value))
  | [] => some []
  | (k, t) :: rest => do return (k, ← toValue? t) :: (← entriesToValue? rest)

end

/-- The object of a table, whatever its first key is. -/
def toObject? (t : Toml) : Option Value := do
  return .object (sortEntries (← entriesToValue? (← entries? t)))

/-- The value of a document. -/
def readValue? (text : String) : Option Value := do (← read? text).toValue?

end Stencil.Toml
