import Stencil.Value.Basic

/-!
# Environments

An environment is a stack of scopes, never empty: the innermost scope and those around it. Each
scope is a dictionary of variables. A lookup goes from the innermost scope outward, `declare` binds
in the innermost scope, and `assign?` writes to the nearest scope that has the name.
-/

namespace Stencil

/-- The variables of one scope. -/
abbrev Scope := Dict Value

/-- The innermost scope, and the scopes around it from the inside out. -/
structure Environment where
  inner : Scope
  outer : List Scope

namespace Environment

/-- The environment with a single scope. -/
def ofScope (scope : Scope) : Environment := ⟨scope, []⟩

/-- The scopes from the innermost to the outermost. -/
def scopes (env : Environment) : List Scope := env.inner :: env.outer

/-- The number of scopes. -/
def depth (env : Environment) : Nat := env.scopes.length

/-- The value of a name in the innermost scope that has it. -/
def get? (name : String) (env : Environment) : Option Value :=
  env.scopes.findSome? (Dict.find? name)

/-- Binds a name in the innermost scope. -/
def declare (name : String) (value : Value) (env : Environment) : Environment :=
  { env with inner := env.inner.insert name value }

/-- Gives the nearest binding of a name a new value, in a list of scopes. -/
def assignIn? (name : String) (value : Value) : List Scope → Option (List Scope)
  | [] => none
  | scope :: scopes =>
    if scope.contains name then some (scope.insert name value :: scopes)
    else (assignIn? name value scopes).map (scope :: ·)

/-- Gives the nearest binding of a name a new value, if there is one. -/
def assign? (name : String) (value : Value) (env : Environment) : Option Environment :=
  if env.inner.contains name then some { env with inner := env.inner.insert name value }
  else (assignIn? name value env.outer).map fun outer => { env with outer }

/-- Opens a scope inside the innermost one. -/
def push (env : Environment) : Environment := ⟨[], env.scopes⟩

/-- Closes the innermost scope, unless it is the only one. -/
def pop (env : Environment) : Environment :=
  match env.outer with
  | [] => env
  | scope :: scopes => ⟨scope, scopes⟩

end Environment
end Stencil
