import Stencil.CommandLine.Outcome
import Stencil.FileSystem.TemplateDirectory
import Stencil.TestFile

/-!
# Running test files

The test files below a directory fall into categories, one for each directory with tests in it.
`TestRun.run` runs them category by category and reports which passed, then why the others failed,
then the counts.
-/

namespace Stencil.TestRun

/-- A category, named by the way to its directory, and the paths of its test files. -/
abbrev Category := String × List String

/-- How the tests of a category are headed; the root has none. -/
def label (category : String) : String := if category.isEmpty then "(root)" else category

/-- A file is a test by the end of its name. -/
def isTestFile (name : String) : Bool :=
  (Text.dropLead? TestFile.suffix.toList.reverse name.toList.reverse).isSome

/-- The test files of a directory and those below it, at most `depth` levels down; `category` names
the directory. -/
def collect (fs : FileSystem) :
    (depth : Nat) → (directory category : String) → List (String × String)
  | 0, _, _ => []
  | depth + 1, directory, category =>
    match fs.entry directory with
    | .directory names =>
      names.flatMap fun name =>
        let path := Path.join directory name
        match fs.entry path with
        | .directory _ =>
          collect fs depth path (if category.isEmpty then name else category ++ "/" ++ name)
        | _ => if isTestFile name then [(category, path)] else []
    | _ => []

/-- How many levels of directories are searched. -/
def maxLevels : Nat := 1000

/-- The categories below a directory in order, their test files in order. -/
def categories (fs : FileSystem) (root : String) : List Category :=
  let found := collect fs maxLevels root ""
  let names := (found.map Prod.fst).eraseDups.mergeSort fun a b => decide (a ≤ b)
  names.map fun name =>
    let paths := (found.filter (·.1 == name)).map Prod.snd
    (name, paths.mergeSort fun a b => decide (a ≤ b))

/-- Drops slashes at both ends. -/
def trimSlashes (s : String) : String :=
  let start := s.toList.dropWhile (· = '/')
  String.ofList (start.reverse.dropWhile (· = '/')).reverse

/-- Whether a category is the one asked for or below it. -/
def isWithin (category wanted : String) : Bool :=
  category == wanted || (Text.dropLead? (wanted ++ "/").toList category.toList).isSome

/-- The warnings about categories that there are not. -/
def warnings (all : List Category) (wanted : List String) : List String :=
  (wanted.filter fun w => !all.any fun c => isWithin c.1 w).map fun w =>
    "warning: category '" ++ w ++ "' not found (available: " ++
      ", ".intercalate (all.map fun c => label c.1) ++ ")"

/-- A text in a terminal colour, unless there are to be none. -/
def paint (noColor : Bool) (colour text : String) : String :=
  if noColor then text else "\x1b[" ++ colour ++ "m" ++ text ++ "\x1b[0m"

/-- What came of a test. -/
structure Result where
  path : String
  label : String
  /-- Why it failed. -/
  failure : Option String

/-- Runs the test of a file. -/
def runFile (fs : FileSystem) (path : String) : Result :=
  let fileName := Path.fileName? path
  let name := fileName.elim "?" TestFile.testName
  match fs.read path with
  | .error fault => ⟨path, name, some ("cannot read file: " ++ fault.message)⟩
  | .ok content =>
    match TestFile.read content with
    | .error fault => ⟨path, name, some ("frontmatter error: " ++ fault.message)⟩
    | .ok (config, source) =>
      let resolver := TemplateDirectory.resolver { root := Path.parent path } fs
      let id := fileName.elim "" TestFile.testName
      ⟨path, config.description.getD name, TestFile.failure? config id resolver source⟩

/-- A line without the carriage return before its line feed. -/
def dropReturn (line : String) : String :=
  match line.toList.reverse with
  | '\r' :: cs => String.ofList cs.reverse
  | _ => line

/-- The lines of a text without their line breaks. -/
def linesOf (s : String) : List String :=
  let parts := s.splitOn "\n"
  parts.dropLast.map dropReturn ++ parts.getLast?.toList.filter (!·.isEmpty)

/-- The line that reports one test. -/
def resultLine (noColor : Bool) (r : Result) : String :=
  let verdict := if r.failure.isNone then paint noColor "32" "PASS" else paint noColor "31" "FAIL"
  "  " ++ verdict ++ "  " ++ r.label

/-- The report on the tests that failed, with their reasons. -/
def failureLines (results : List Result) : List String :=
  let failed := results.filterMap fun r => r.failure.map fun reason => (r.path, reason)
  if failed.isEmpty then []
  else
    ["", "failures:"] ++ failed.flatMap fun (path, reason) =>
      ["", "  --- " ++ path ++ " ---"] ++ (linesOf reason).map ("  " ++ ·)

/-- The line with the counts. -/
def summary (noColor : Bool) (results : List Result) : String :=
  let passed := (results.filter fun r => r.failure.isNone).length
  let failed := results.length - passed
  if failed = 0 then
    "test result: " ++ paint noColor "32" "ok" ++ ". " ++ toString passed ++ " passed, 0 failed"
  else
    "test result: " ++ paint noColor "31" "FAILED" ++ ". " ++ toString passed ++ " passed, " ++
      toString failed ++ " failed (of " ++ toString results.length ++ ")"

/-- The outcome with the given lines on the error channel. -/
def report (code : Nat) (lines : List String) : Outcome :=
  { code, stderr := String.join (lines.map (· ++ "\n")) }

/-- Runs the tests of some categories, with the name of each in front when `isNamed`. -/
def runCategories (fs : FileSystem) (noColor isNamed : Bool) (warned : List String)
    (chosen : List Category) : Outcome :=
  let results := chosen.map fun (name, paths) => (name, paths.map (runFile fs))
  let all := results.flatMap Prod.snd
  let lines := results.flatMap fun (name, rs) =>
    (if isNamed then ["", paint noColor "1" (label name)] else []) ++ rs.map (resultLine noColor)
  let code := if all.all fun r => r.failure.isNone then 0 else 1
  report code (warned ++ lines ++ failureLines all ++ ["", summary noColor all])

/-- What is said of a directory without tests. -/
def nothingFound (path : String) : String :=
  "no " ++ TestFile.suffix ++ " files found in " ++ path

/-- Runs a test file, or the test files below a directory; only those of the categories `wanted` and
below them, unless there are none. -/
def run (fs : FileSystem) (noColor : Bool) (path : String) (wanted : List String) : Outcome :=
  if fs.isFile path then runCategories fs noColor false [] [("", [path])]
  else
    let all := categories fs path
    if all.isEmpty then report 1 [nothingFound path]
    else if wanted.isEmpty then runCategories fs noColor true [] all
    else
      let wanted := wanted.map trimSlashes
      let warned := warnings all wanted
      let chosen := all.filter fun c => wanted.any fun w => isWithin c.1 w
      if chosen.isEmpty then report 1 (warned ++ ["no matching categories found"])
      else runCategories fs noColor true warned chosen

/-- Lists the categories below a directory. -/
def list (fs : FileSystem) (path : String) : Outcome :=
  if fs.isFile path then report 0 ["(single file, no categories)"]
  else
    match categories fs path with
    | [] => report 0 [nothingFound path]
    | all =>
      report 0 ("available categories:" :: all.map fun (name, paths) =>
        "  " ++ label name ++ " (" ++ toString paths.length ++ " tests)")

end Stencil.TestRun
