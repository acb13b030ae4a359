import Bundler.Config
import Bundler.Graph.Script
import Bundler.Graph.Walk

/-! The compiler. It finds all modules of a program, and a run then joins them in a script
and writes it; between these steps the hooks are called:

beforeRun, beforeCompile, the modules, afterCompile, the script, emit, the file, afterRun.

A failure ends the run and calls the hooks of `failed`. -/
namespace Bundler

structure Compiler where
  config : BuildConfig
  loaders : Loaders
  frontEnd : FrontEnd := .javaScript

/-- How far a run came. -/
structure Progress where
  files : FileTree
  calls : List Call := []
  /-- The walk, once the run came to it. -/
  walk : Option Walk := none
deriving Inhabited

/-- A step of a run: it keeps its progress also when it fails. -/
abbrev Step := EStateM BuildError Progress

/-- What a run answers. -/
structure BuildOutput where
  graph : ModuleGraph
  artifact : List Char
  artifactPath : Path
deriving Inhabited

/-- The size of the script in bytes. -/
def BuildOutput.size (o : BuildOutput) : Nat := (Text.Utf8.encode o.artifact).size

/-! ### Writing the script -/

/-- The path a file is written to before it takes its name. -/
def Path.temporary (p : Path) : Path := p.withFileName (p.fileName?.getD "" ++ ".tmp")

/-- Writes a file by way of a temporary one, so that no part of it is ever seen. -/
def FileTree.writeWhole (files : FileTree) (p : Path) (content : ByteArray) :
    FileTree × Option BuildError :=
  let (files, failure) := match p.parent? with
    | none => (files, none)
    | some d => match files.makeAll d with
      | (files, some e) => (files, some (BuildError.file d e.message))
      | (files, none) => (files, none)
  match failure with
  | some e => (files, some e)
  | none =>
    match files.write p.temporary content with
    | .error e => (files, some (.file p.temporary e.message))
    | .ok written =>
      match written.rename p.temporary p with
      | .error e => (written, some (.file p e.message))
      | .ok files => (files, none)

namespace Compiler

def hooks (c : Compiler) : Hooks := .ofPlugins c.config.plugins

def workspace (c : Compiler) (files : FileTree) : Workspace :=
  ⟨c.config.root, files, c.config.rules, c.loaders, c.frontEnd⟩

/-- The walk from the entry. -/
def walk (c : Compiler) (files : FileTree) : Walk := Walk.run (c.workspace files) c.config.entry

/-- The verified graph of the program. -/
def compile (c : Compiler) (files : FileTree) : Except BuildError ModuleGraph :=
  (c.walk files).verified

/-! ### The steps of a run -/

/-- What hooks see in a phase before the modules are known. -/
def context (c : Compiler) (phase : Phase) : HookContext :=
  { phase, settings := c.config.toSettings }

/-- Calls the hooks of the context's phase. -/
def callHooks (c : Compiler) (cx : HookContext) : Step Unit := fun s =>
  let r := c.hooks.call cx s.files
  let s := { s with files := r.files, calls := s.calls ++ r.calls }
  match r.error with
  | some e => .error e s
  | none => .ok () s

def ofExcept : Except BuildError α → Step α
  | .ok a => pure a
  | .error e => throw e

/-- Finds the modules. -/
def findModules (c : Compiler) : Step ModuleGraph := fun s =>
  let walk := c.walk s.files
  ofExcept walk.verified { s with walk := some walk }

def writeArtifact (p : Path) (artifact : List Char) : Step Unit := fun s =>
  match s.files.writeWhole p (Text.Utf8.encode artifact) with
  | (files, some e) => .error e { s with files }
  | (files, none) => .ok () { s with files }

/-- A run up to its first failure. -/
def steps (c : Compiler) : Step BuildOutput := do
  c.callHooks (c.context .beforeRun)
  c.callHooks (c.context .beforeCompile)
  let graph ← c.findModules
  c.callHooks { c.context .afterCompile with graph := some graph }
  let artifact ← ofExcept graph.script
  c.callHooks { c.context .emit with graph := some graph, artifact := some artifact }
  let artifactPath := c.config.artifactPath
  writeArtifact artifactPath artifact
  c.callHooks { c.context .afterRun with
    graph := some graph, artifact := some artifact, artifactPath := some artifactPath }
  return { graph, artifact, artifactPath }

/-- A run. When it fails, the hooks of `failed` are called with the text of the error,
and what they answer changes nothing about it. -/
def run (c : Compiler) (files : FileTree) : Except BuildError BuildOutput × Progress :=
  match c.steps { files } with
  | .ok out s => (.ok out, s)
  | .error e s =>
    match c.callHooks { c.context .failed with error := some e.message } s with
    | .ok _ s | .error _ s => (.error e, s)

end Compiler
end Bundler
