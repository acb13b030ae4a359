import Bundler.Cli.Arguments
import Bundler.Loader.Builtin

/-! Commands: `build` writes the script of a project, `graph` only shows its modules. -/
namespace Bundler.Cli

/-- What a command leaves behind. -/
structure Outcome where
  code : Nat
  /-- What is printed, given the milliseconds that the command took. -/
  output : Nat → String := fun _ => ""
  errors : String := ""
  files : FileTree

/-- The lines of a reason, indented below the first one. -/
def indented (first rest : String) (reason : String) : String :=
  match Text.lines reason.toList with
  | [] => first
  | l :: ls => ("\n" ++ rest).intercalate ((first ++ String.ofList l) :: ls.map String.ofList)

/-- The number of a reason at the end of five columns. -/
def reasonNumber (n : Nat) : String :=
  let ds := toString n
  String.ofList (List.replicate (5 - ds.length) ' ') ++ ds ++ ": "

/-- The text of an error: its reasons, numbered when there is more than one beneath it. -/
def errorText : Reasons → String
  | [] => ""
  | [e] => "Error: " ++ e ++ "\n"
  | [e, cause] => "Error: " ++ e ++ "\n\nCaused by:\n" ++ indented "    " "    " cause ++ "\n"
  | e :: causes =>
    let lines := causes.zipIdx.map fun (c, n) => indented (reasonNumber n) "       " c
    "Error: " ++ e ++ "\n\nCaused by:\n" ++ "\n".intercalate lines ++ "\n"

/-- The name of the program and its version. -/
def versionText (command : Option Command) : String :=
  match command with
  | none => "knit 0.1.0\n"
  | some c => "knit-" ++ c.name ++ " 0.1.0\n"

def helpText : String :=
  "Bundle JavaScript modules into one file

Usage: knit [OPTIONS] [COMMAND]

Commands:
  build  Build the bundle [aliases: b]
  graph  Resolve the module graph without writing anything [aliases: g]
  help   Print this message

Options:
  -c, --config <PATH>    Config file (default: ./knit.toml when present)
  -e, --entry <PATH>     Entry module, relative to the project root
      --out-dir <DIR>    Output directory (relative to the project root), build only
      --out-file <NAME>  Output file name, build only
  -v, --verbose          Enable verbose output
  -q, --quiet            Suppress all output except errors
      --format <FORMAT>  Output format: table or json
      --compact          Single-line JSON, tables without lines
  -h, --help             Print help
  -V, --version          Print version
"

def usageText : String := "error: invalid arguments\n\nFor more information, try '--help'.\n"

namespace Invocation

def style (i : Invocation) : ReportStyle := { format := i.format, compact := i.has .compact }

/-- The compiler of a project. -/
def compiler (i : Invocation) (files : FileTree) (cwd : Path) : Except Reasons Compiler := do
  let project ← Project.load files cwd (i.value? .config)
  let config ← (project.override i.overrides).configure
  return { config, loaders := Loader.builtin }

/-- The summary of a build; a quiet one says something to programs only. -/
def buildOutput (i : Invocation) (root : Path) (out : BuildOutput) (milliseconds : Nat) : String :=
  if i.has .quiet && i.format = .table then ""
  else (BuildReport.ofOutput out root milliseconds).text i.style ++ "\n"

/-- Runs a command in a directory. -/
def run (i : Invocation) (files : FileTree) (cwd : Path) : Outcome :=
  match i.compiler files cwd with
  | .error reasons => { code := 1, errors := errorText reasons, files }
  | .ok c =>
    let root := c.config.root
    match i.command with
    | .build =>
      let (result, progress) := c.run files
      match result with
      | .ok out => { code := 0, output := i.buildOutput root out, files := progress.files }
      | .error e => { code := 1, errors := errorText e.reasons, files := progress.files }
    | .graph =>
      match c.compile files with
      | .ok g =>
        { code := 0, output := fun _ => (GraphReport.ofGraph g root).text i.style ++ "\n", files }
      | .error e => { code := 1, errors := errorText e.reasons, files }

end Invocation

/-- Runs the program with some arguments in a directory. -/
def run (files : FileTree) (cwd : Path) (args : List String) : Outcome :=
  match Invocation.ofArguments args with
  | .ok i => i.run files cwd
  | .error .help => { code := 0, output := fun _ => helpText, files }
  | .error (.version c) => { code := 0, output := fun _ => versionText c, files }
  | .error .usage => { code := 2, errors := usageText, files }

end Bundler.Cli
