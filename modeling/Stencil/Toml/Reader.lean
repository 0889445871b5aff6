import Stencil.Toml.Datetime

/-!
# Reading TOML documents

`Toml.read?` reads a document into the value of its outermost table. A `Document` is the state
between two lines: the tables that are complete, and the table of the last header with the place
it belongs to.
-/

namespace Stencil.Toml

/-- How deep arrays and inline tables may be nested. -/
def maxContainers : Nat := 79

/-! ## Values -/

/-- The items of an array up to its closing bracket, which may follow a comma. At most `room` are
read. -/
def items? (value : Reader Toml) : (room : Nat) → Reader (List Toml)
  | 0, _ => none
  | room + 1, cs =>
    match skipAll cs with
    | ']' :: cs => some ([], cs)
    | cs => do
      let (t, cs) ← value cs
      match skipAll cs with
      | ',' :: cs =>
        let (ts, cs) ← items? value room cs
        return (t :: ts, cs)
      | ']' :: cs => return ([t], cs)
      | _ => none

/-- The entry at the start of a text: the keys in front, the last key, and the value. -/
def entry? (value : Reader Toml) (cs : List Char) :
    Option ((List String × String × Toml) × List Char) := do
  let ((path, key), cs) ← key? cs
  let cs ← char? '=' cs
  let (t, cs) ← value (skipSpace cs)
  return ((path, key, t), cs)

/-- The entries of an inline table up to its closing brace. At most `room` are read. -/
def inlineEntries? (value : Reader Toml) :
    (room : Nat) → Reader (List (List String × String × Toml))
  | 0, _ => none
  | room + 1, cs => do
    let (e, cs) ← entry? value cs
    match skipSpace cs with
    | ',' :: cs =>
      let (es, cs) ← inlineEntries? value room cs
      return (e :: es, cs)
    | '}' :: cs => return ([e], cs)
    | _ => none

/-- The value of an inline table with the given entries. -/
def inlineTable? (entries : List (List String × String × Toml)) : Option Toml := do
  let table ← entries.foldlM (fun table (path, key, t) => Part.put? path key t table) []
  return (Part.table .header table).finish

/-- The value at the start of a text; containers in it are nested at most `depth` deep. -/
def value? : (depth : Nat) → Reader Toml
  | _, [] => none
  | depth, c :: cs =>
    if c = '"' || c = '\'' then (string? (c :: cs)).map fun (s, cs) => (.string s, cs)
    else if c = '[' then
      match depth with
      | 0 => none
      | depth + 1 =>
        (items? (value? depth) (cs.length + 1) cs).map fun (ts, cs) => (.array ts, cs)
    else if c = '{' then
      match depth with
      | 0 => none
      | depth + 1 =>
        match skipSpace cs with
        | '}' :: cs => some (.table [], cs)
        | cs => do
          let (es, cs) ← inlineEntries? (value? depth) (cs.length + 1) cs
          return (← inlineTable? es, cs)
    else if c = '+' || c = '-' || c.isDigit then
      match datetime? (c :: cs) with
      | some found => some found
      | none => number? (c :: cs)
    else if c = 'i' || c = 'n' then decimalNumber? (c :: cs)
    else
      match word? "true" (c :: cs), word? "false" (c :: cs) with
      | some cs, _ => some (.boolean true, cs)
      | none, some cs => some (.boolean false, cs)
      | none, none => none

/-! ## Documents -/

/-- The table of the last header, and where it goes. -/
structure Section where
  /-- Empty for the outermost table. -/
  path : List String
  /-- The table is one more in an array of tables. -/
  inArray : Bool
  entries : Dict Part

/-- A document up to some line. -/
structure Document where
  /-- The outermost table without the table of the last header. -/
  root : Dict Part
  current : Section

namespace Document

/-- A document in front of its first line. -/
def empty : Document := ⟨[], ⟨[], false, []⟩⟩

/-- The outermost table with the table of the last header in its place. -/
def close? (d : Document) : Option (Dict Part) :=
  match d.current.path.getLast? with
  | none => some d.current.entries
  | some key =>
    let change := fun ((_, entries) : Origin × Dict Part) =>
      let part :=
        if d.current.inArray then
          match Dict.find? key entries with
          | some (.tables items) => Part.tables (d.current.entries :: items)
          | _ => .tables [d.current.entries]
        else .table .header d.current.entries
      some (Dict.insert key part entries)
    Part.modifyAt? false change d.current.path.dropLast (.header, d.root)

/-- The entries of the table at the end of a path, none when there is no table yet. -/
def lookup? : (path : List String) → Dict Part → Option (Dict Part)
  | [], entries => some entries
  | key :: path, entries =>
    match Dict.find? key entries with
    | none => some []
    | some (.value _) | some (.tables []) => none
    | some (.tables (last :: _)) => lookup? path last
    | some (.table _ inner) => lookup? path inner

/-- Starts the table of a header. A table that was only implied so far is taken over. -/
def openTable? (path : List String) (key : String) (d : Document) : Option Document := do
  let root ← d.close?
  let entries ←
    match Dict.find? key (← lookup? path root) with
    | none => some []
    | some (.table .implied entries) => some entries
    | some _ => none
  let change := fun ((_, entries) : Origin × Dict Part) => some (Dict.erase key entries)
  let root ← Part.modifyAt? false change path (.header, root)
  return ⟨root, ⟨path ++ [key], false, entries⟩⟩

/-- Starts one more table of an array of tables. -/
def openArray? (path : List String) (key : String) (d : Document) : Option Document := do
  let root ← d.close?
  match Dict.find? key (← lookup? path root) with
  | none | some (.tables _) => return ⟨root, ⟨path ++ [key], true, []⟩⟩
  | some _ => none

/-- Adds an entry to the table of the last header. -/
def put? (path : List String) (key : String) (t : Toml) (d : Document) : Option Document := do
  let entries ← Part.put? path key t d.current.entries
  return { d with current := { d.current with entries } }

end Document

/-- The document after a header, and what follows the header. -/
def header? (d : Document) : List Char → Option (Document × List Char)
  | '[' :: '[' :: cs => do
    let ((path, key), cs) ← key? cs
    let cs ← word? "]]" cs
    return (← d.openArray? path key, cs)
  | '[' :: cs => do
    let ((path, key), cs) ← key? cs
    let cs ← char? ']' cs
    return (← d.openTable? path key, cs)
  | _ => none

/-- The document after what a line holds besides blank space and a comment, and the rest of it. -/
def content? (d : Document) (cs : List Char) : Option (Document × List Char) :=
  match cs with
  | '#' :: _ | '\n' :: _ | '\r' :: _ => some (d, cs)
  | '[' :: _ => header? d cs
  | _ => do
    let ((path, key, t), rest) ← entry? (value? maxContainers) cs
    return (← d.put? path key t, rest)

/-- Reads the lines of a document, at most `room` of them. -/
def lines? : (room : Nat) → Document → List Char → Option Document
  | 0, _, _ => none
  | room + 1, d, cs =>
    match skipSpace cs with
    | [] => some d
    | cs => do
      let (d, rest) ← content? d cs
      lines? room d (← endOfLine? rest)

/-- The value of the outermost table of a document. A byte order mark in front is skipped. -/
def read? (text : String) : Option Toml := do
  let cs :=
    match text.toList with
    | '\uFEFF' :: cs => cs
    | cs => cs
  let d ← lines? (cs.length + 1) .empty cs
  return (Part.table .header (← d.close?)).finish

end Stencil.Toml
