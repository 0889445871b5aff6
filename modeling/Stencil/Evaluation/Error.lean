/-!
# What can go wrong in an evaluation

`EvalError` lists the causes, and `EvalError.message` words them.
-/

namespace Stencil

/-- The name that data, declarations and contexts must not bind. -/
def reservedName : String := "EmbossInternalData"

/-- The greatest number of rounds of one counted loop. -/
def maxRounds : Nat := 10000000

/-- The greatest number of items that `range` makes. -/
def maxRangeItems : Nat := 1000000

/-- What is wrong with the arguments of a function. -/
inductive ArgumentFault where
  | notOne (count : Nat)
  | notOneOrTwo
  | notMeasurable (typeName : String)
  | notAnArray (typeName : String)
  | noKeys (typeName : String)
  | noValues (typeName : String)
  | boundsNotFinite
  | rangeTooLong (items : Nat)
deriving DecidableEq

/-- What a host is told behind the name of the function. -/
def ArgumentFault.message : ArgumentFault → String
  | .notOne count => "expected 1 argument, got " ++ toString count
  | .notOneOrTwo => "expected 1 or 2 arguments"
  | .notMeasurable t => "expected a string, array or object, got " ++ t
  | .notAnArray t => "expected an array, got " ++ t
  | .noKeys t => "cannot list keys of " ++ t
  | .noValues t => "cannot list values of " ++ t
  | .boundsNotFinite => "bounds must be finite numbers"
  | .rangeTooLong items =>
    "range of " ++ toString items ++ " items exceeds " ++ toString maxRangeItems

/-- Why an expression has no value, or a statement no effect. -/
inductive EvalError where
  | undefinedVariable (name : String)
  | undeclaredAssignment (name : String)
  | propertyOfNothing (property typeName : String)
  | notIterable (typeName : String)
  | contextNotObject (typeName : String)
  | reservedName (name : String)
  | unknownFunction (function : String)
  | badArguments (function : String) (fault : ArgumentFault)
  | roundLimit (limit : Nat)
deriving DecidableEq

/-- What a host is told. -/
def EvalError.message : EvalError → String
  | .undefinedVariable x => x ++ " is not defined"
  | .undeclaredAssignment x => "assignment to undeclared variable '" ++ x ++ "'"
  | .propertyOfNothing p t => "cannot read property '" ++ p ++ "' of " ++ t
  | .notIterable t => t ++ " is not iterable"
  | .contextNotObject t => "import context must be an object, got " ++ t
  | .reservedName x => "'" ++ x ++ "' is a reserved name and may not be used as a data key"
  | .unknownFunction f => "unknown function '" ++ f ++ "'"
  | .badArguments f fault => f ++ "(): " ++ fault.message
  | .roundLimit n => "loop exceeded " ++ toString n ++ " iterations"

end Stencil
