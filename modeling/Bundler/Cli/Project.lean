import Bundler.Config
import Bundler.FileTree
import Bundler.Plugin.Builtin
import Bundler.Text.Utf8
import Bundler.Toml.Parser

/-! The options of a project: those of its configuration file, where there is one, under
those of the command line. -/
namespace Bundler

/-- A chain of reasons, the outermost first. -/
abbrev Reasons := List String

/-- The error and what lies beneath it. -/
def BuildError.reasons (e : BuildError) : Reasons := e.message :: e.cause?.toList

/-- Options on the command line. -/
structure Overrides where
  entry : Option String := none
  outputDirectory : Option String := none
  outputFile : Option String := none
deriving Inhabited

structure Project where
  options : BuildOptions
  /-- What relative paths in the options are seen from. -/
  base : Path
  /-- The file the options come from. -/
  source : Option Path
deriving Inhabited

namespace Project

/-- The configuration file that is looked for. -/
def defaultFile : Path := ⟨"knit.toml"⟩

/-- The reason when a file is no configuration. -/
def badToml : String := "TOML parse error"

/-- The file to read: one that was asked for has to exist. -/
def file? (t : FileTree) (cwd : Path) : Option String → Except Reasons (Option Path)
  | some p =>
    let p := cwd.join ⟨p⟩
    if t.isFile p then .ok (some p) else .error ["Config file not found: " ++ p.text]
  | none =>
    let p := cwd.join defaultFile
    .ok (if t.isFile p then some p else none)

/-- Reads a configuration file. -/
def read (t : FileTree) (cwd p : Path) : Except Reasons Project := do
  let unread (reason : String) : Reasons := ["Failed to read " ++ p.text, reason]
  let bytes ← match t.read p with
    | .ok b => pure b
    | .error e => throw (unread e.message)
  let text ← match Text.Utf8.decode bytes with
    | .ok cs => pure cs
    | .error _ => throw (unread "stream did not contain valid UTF-8")
  match (Toml.parse? text).bind (BuildOptions.ofJson? true) with
  | some options => return ⟨options, p.parent?.getD cwd, some p⟩
  | none => throw ["Failed to parse " ++ p.text, badToml]

/-- The options of a command in a directory. -/
def load (t : FileTree) (cwd : Path) (config : Option String) : Except Reasons Project := do
  match ← file? t cwd config with
  | some p => read t cwd p
  | none => return ⟨{}, cwd, none⟩

/-- Puts options of the command line over those of the file. -/
def override (p : Project) (o : Overrides) : Project :=
  let out := p.options.output
  let output : OutputOptions :=
    { path := (o.outputDirectory.map Path.mk).or out.path
      fileName := o.outputFile.or out.fileName }
  { p with options := { p.options with entry := o.entry.or p.options.entry, output } }

def configure (p : Project) : Except Reasons BuildConfig :=
  match p.options.configure p.base Plugin.builtin with
  | .ok c => .ok c
  | .error e =>
    let source := (p.source.map Path.text).getD "defaults"
    .error (("Invalid configuration (" ++ source ++ ")") :: e.reasons)

end Project
end Bundler
