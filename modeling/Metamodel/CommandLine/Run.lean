import Metamodel.CommandLine.Arguments
import Metamodel.Configuration.Source
import Metamodel.Data.Json
import Metamodel.Generation.Module
import Metamodel.Lint
import Metamodel.Model.Data

/-!
What a call does: from arguments and a tree of files to texts, an exit code and changed files.
-/

namespace Metamodel

/-- What a call leaves behind. -/
structure Outcome where
  exitCode : Nat := 0
  /-- The text on the standard output. -/
  output : String := ""
  /-- The text on the standard error. -/
  diagnostics : String := ""
  files : FileTree

namespace Outcome

/-- Ends with an error. -/
def fail (o : Outcome) (message : String) : Outcome :=
  { o with exitCode := 1, diagnostics := o.diagnostics ++ "Error: " ++ message ++ "\n" }

/-- Ends with an error, shown after what was to be done. -/
def failTo (o : Outcome) (aim : String) (e : Error) : Outcome :=
  o.fail ("failed to " ++ aim ++ ": " ++ e.chain)

/-- Adds a line to the standard output. -/
def print (o : Outcome) (line : String) : Outcome := { o with output := o.output ++ line ++ "\n" }

/-- Adds a line to the standard error. -/
def note (o : Outcome) (line : String) : Outcome :=
  { o with diagnostics := o.diagnostics ++ line ++ "\n" }

/-- Writes a text to a file, or to the standard output if there is none. -/
def write (o : Outcome) (path? : Option String) (content : String) : Outcome :=
  match path? with
  | none => { o with output := o.output ++ content }
  | some path =>
    match o.files.write path content.toUTF8.toList with
    | .error fault => o.fail ("failed to write " ++ path ++ ": " ++ fault.message)
    | .ok files => { o with files := files }.note ("✅ Wrote " ++ path)

end Outcome

namespace CommandLine

/-- The error of a call, with what was to be done. -/
structure Failure where
  aim : String
  error : Error

/-- The model of the input, a file or a directory, with its root packages. -/
def load (tree : FileTree) (c : Configuration) (input : String) :
    Except Failure (Model × List ElementId) :=
  let discriminator := c.reading.discriminator
  if tree.leadsToDirectory input then
    match Model.ofDirectory c.loading discriminator tree input with
    | .error error => .error ⟨"load " ++ input, error⟩
    | .ok result => .ok result
  else
    match Model.ofFile discriminator tree input with
    | .error error => .error ⟨"parse " ++ input, error⟩
    | .ok (m, root) =>
      match m.resolveAll [root] with
      | .error (error, _) => .error ⟨"resolve " ++ input, error⟩
      | .ok (m, _) => .ok (m, [root])

/-- The code for root packages, each ended by an empty line. -/
def generateAll (m : Model) (settings : GenerationSettings) :
    List ElementId → Except Failure GeneratedCode
  | [] => .ok ⟨"", 0⟩
  | root :: rest =>
    match m.generate settings root with
    | .error error => .error ⟨"generate " ++ m.label root, error⟩
    | .ok first => do
      let others ← generateAll m settings rest
      return ⟨first.code ++ "\n" ++ others.code, first.typeCount + others.typeCount⟩

def generate (o : Outcome) (m : Model) (settings : GenerationSettings) (roots : List ElementId)
    (path? package? : Option String) : Outcome :=
  let selected := roots.filter fun root => package?.all fun name => m.label root = name
  if selected.isEmpty then o.fail ("no root package named '" ++ package?.getD "" ++ "'")
  else
    match generateAll m settings selected with
    | .error failure => o.failTo failure.aim failure.error
    | .ok generated =>
      (o.note s!"📦 Generated {generated.typeCount} types").write path? generated.code

/-- The line that shows a finding. -/
def findingLine (f : Finding) : String :=
  let mark :=
    match f.flaw.severity with
    | .error => "❌ ["
    | .warning => "⚠️  ["
  mark ++ f.flaw.code ++ "] " ++ f.path ++ ": " ++ f.flaw.message

/-- The lines that show a report: errors before warnings, or that there are none. -/
def reportLines (r : LintReport) : List String :=
  if r.findings.isEmpty then ["✅ " ++ r.package ++ " - clean"]
  else (r.errors ++ r.warnings).map findingLine

def check (o : Outcome) (m : Model) (roots : List ElementId) (strict : Bool) : Outcome :=
  let reports := ({} : Linter).lintAll m roots
  let o := (reports.flatMap reportLines).foldl Outcome.print o
  let errors := (reports.flatMap (·.errors)).length
  let warnings := (reports.flatMap (·.warnings)).length
  if errors > 0 || (strict && warnings > 0) then
    o.fail s!"{errors} error(s), {warnings} warning(s)"
  else o

/-- Does what an invocation says. -/
def perform (tree : FileTree) (i : Invocation) : Outcome :=
  let o : Outcome := { files := tree }
  match Configuration.load tree i.settings with
  | .error (.configuration detail) => o.fail ("failed to load configuration: " ++ detail)
  | .error error => o.failTo "load configuration" error
  | .ok c =>
    let input :=
      match i.command with
      | .generate input _ _ | .check input _ | .dump input _ => input
    match load tree c input with
    | .error failure => o.failTo failure.aim failure.error
    | .ok (m, roots) =>
      match i.command with
      | .generate _ path? package? => generate o m c.generation roots path? package?
      | .check _ strict => check o m roots strict
      | .dump _ path? => o.write path? (m.toData.pretty 0)

/-- How the program is called. -/
def usage : String :=
  "Usage: metamodel [-c FILE] <generate|check|dump> INPUT [options]\n\n" ++
    "  generate INPUT [-o FILE] [-p NAME]\n  check INPUT [--strict]\n  dump INPUT [-o FILE]\n"

/-- A whole call of the program. -/
def run (tree : FileTree) (arguments : List String) : Outcome :=
  match Arguments.parse? arguments with
  | none => { exitCode := 2, diagnostics := usage, files := tree }
  | some i => perform tree i

end CommandLine

end Metamodel
