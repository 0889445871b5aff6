import Stencil.Forest.Builder
import Stencil.Toml.Reader

/-!
# Configuration

`Config` holds the three settings. `Config.set` changes one in place by its name and a text, and
`Config.ofToml?` reads all of them from a TOML document, where a setting that is not there keeps its
default.
-/

namespace Stencil

/-- The settings that templates are compiled with. -/
structure Config where
  /-- Loops and imports with a context get scopes of their own. -/
  strictScoping : Bool := true
  maxImportDepth : Nat := 32
  maxNestingDepth : Nat := 64
deriving DecidableEq

/-- Why a setting cannot be made. -/
inductive ConfigError where
  | notBoolean (key value : String)
  | notInteger (key value : String)
  | unknownKey (key : String)
deriving DecidableEq

/-- What a host is told. -/
def ConfigError.message : ConfigError → String
  | .notBoolean key value => key ++ " must be boolean, got '" ++ value ++ "'"
  | .notInteger key value => key ++ " must be a non-negative integer, got '" ++ value ++ "'"
  | .unknownKey key => "unknown configuration key '" ++ key ++ "'"

namespace Config

/-- The limits that the settings put on a forest. -/
def limits (c : Config) : Limits := ⟨c.maxImportDepth, c.maxNestingDepth⟩

/-- What stands behind a plus sign, or everything when there is none. -/
def unsigned : List Char → List Char
  | '+' :: cs => cs
  | cs => cs

/-- A number of at most 64 bits in decimal digits, with or without a plus sign. -/
def word64? (cs : List Char) : Option Nat :=
  let digits := unsigned cs
  if digits.isEmpty || !digits.all Char.isDigit then none
  else
    let n := Decimal.digitsValue digits
    if n < UInt64.size then some n else none

/-- The number that the text of a setting stands for. -/
def integer (key : String) (cs : List Char) : EStateM ConfigError Config Nat :=
  match word64? cs with
  | some n => pure n
  | none => throw (.notInteger key (String.ofList cs))

/-- Gives the setting of a name the value that a text stands for. -/
def set (key raw : String) : EStateM ConfigError Config Unit := do
  let cs := Text.trim raw.toList
  let value := String.ofList cs
  match key with
  | "strict_scoping" =>
    if value = "true" then modify fun c => { c with strictScoping := true }
    else if value = "false" then modify fun c => { c with strictScoping := false }
    else throw (.notBoolean key value)
  | "max_import_depth" =>
    let n ← integer key cs
    modify fun c => { c with maxImportDepth := n }
  | "max_nesting_depth" =>
    let n ← integer key cs
    modify fun c => { c with maxNestingDepth := n }
  | key => throw (.unknownKey key)

/-- The configuration with one setting changed to a TOML value. -/
def setToml? (c : Config) (entry : String × Toml) : Option Config :=
  match entry with
  | ("strict_scoping", .boolean b) => some { c with strictScoping := b }
  | ("max_import_depth", .integer (.ofNat n)) => some { c with maxImportDepth := n }
  | ("max_nesting_depth", .integer (.ofNat n)) => some { c with maxNestingDepth := n }
  | _ => none

/-- The configuration that a TOML document holds. -/
def ofToml? (text : String) : Option Config := do
  let t ← Toml.read? text
  match t with
  | .table entries => entries.foldlM setToml? {}
  | _ => none

end Config
end Stencil
