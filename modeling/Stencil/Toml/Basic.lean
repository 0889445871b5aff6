import Stencil.Dict

/-!
# TOML values

`Toml` is a finished value. The entries of a table stand in the order of the document, a table with
a header of its own at that header, and a date or time is kept as its text.

While a document is read, its tables are `Part`s that remember how they came about, because that
decides who may still add to them:

* a table of a header is complete when the next header comes, and may get subtables after that;
* a table that only lies on the way to a header is `implied`, and its own header may still come;
* a table of a dotted key is `dotted`, and takes further dotted keys, but no header.

`Part.put?` adds a value under a dotted key, and `Part.finish` gives the finished value.
-/

namespace Stencil

/-- The values of TOML. -/
inductive Toml where
  | string (s : String)
  | integer (n : Int)
  | float (x : Float)
  | boolean (b : Bool)
  | datetime (text : String)
  | array (items : List Toml)
  | table (entries : List (String × Toml))

namespace Toml

/-- How a table came about. -/
inductive Origin where
  | header
  | implied
  | dotted
deriving DecidableEq

/-- A value of a document that is being read. -/
inductive Part where
  | value (t : Toml)
  | table (origin : Origin) (entries : List (String × Part))
  /-- The tables of an array of tables, the last one first. -/
  | tables (items : List (List (String × Part)))

namespace Part

/-- Changes the table at the end of a path. Tables that are not there yet are made on the way; of
an array of tables the last one counts. A dotted key passes through no table of a header. -/
def modifyAt? (isDotted : Bool) (f : Origin × Dict Part → Option (Dict Part)) :
    (path : List String) → Origin × Dict Part → Option (Dict Part)
  | [], target => f target
  | key :: path, (_, entries) =>
    match Dict.find? key entries with
    | none =>
      let origin := if isDotted then Origin.dotted else .implied
      (modifyAt? isDotted f path (origin, [])).map fun inner =>
        Dict.insert key (.table origin inner) entries
    | some (.value _) => none
    | some (.tables []) => none
    | some (.tables (last :: others)) =>
      (modifyAt? isDotted f path (.header, last)).map fun last =>
        Dict.insert key (.tables (last :: others)) entries
    | some (.table origin inner) =>
      if isDotted && origin = .header then none
      else
        (modifyAt? isDotted f path (origin, inner)).map fun inner =>
          Dict.insert key (.table origin inner) entries

/-- Adds a value under a key, in the table that the keys in front of it lead to. The key must be
new, and a table at the end of a dotted key must be one of dotted keys. -/
def put? (path : List String) (key : String) (t : Toml) (entries : Dict Part) :
    Option (Dict Part) :=
  let add := fun (origin, entries) =>
    if (origin == .dotted) == path.isEmpty || Dict.contains key entries then none
    else some (Dict.insert key (.value t) entries)
  modifyAt? true add path (.header, entries)

mutual

/-- The finished value. -/
def finish : Part → Toml
  | .value t => t
  | .table _ entries => .table (finishEntries entries)
  | .tables items => .array (finishTables items).reverse

/-- The entries of a table, each of them finished. -/
def finishEntries : List (String × Part) → List (String × Toml)
  | [] => []
  | (k, p) :: rest => (k, finish p) :: finishEntries rest

/-- The tables of an array of tables, each of them finished. -/
def finishTables : List (List (String × Part)) → List Toml
  | [] => []
  | entries :: rest => .table (finishEntries entries) :: finishTables rest

end

end Part
end Toml
end Stencil
