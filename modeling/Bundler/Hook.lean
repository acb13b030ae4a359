import Bundler.FileTree
import Bundler.Graph.Basic
import Bundler.Settings

/-! Hooks: what plugins have a build call at its phases. The callbacks of a phase run in
the order they were registered, and the first one that fails ends the phase. -/
namespace Bundler

/-- What a callback sees of a build. -/
structure HookContext where
  phase : Phase
  settings : Settings
  graph : Option ModuleGraph := none
  artifact : Option (List Char) := none
  artifactPath : Option Path := none
  /-- Why the build failed. -/
  error : Option String := none
deriving Inhabited

/-- A callback may change files; it answers the tree after it and why it failed. -/
abbrev Callback := HookContext → FileTree → FileTree × Option String

/-- A callback with the plugin it belongs to. -/
structure Tap where
  plugin : String
  callback : Callback

/-- One callback that was run. -/
structure Call where
  plugin : String
  context : HookContext
  failure : Option String
deriving Inhabited

/-- All taps in the order they were registered. -/
structure Hooks where
  registered : List (Phase × Tap) := []

namespace Hooks

def tap (h : Hooks) (phase : Phase) (t : Tap) : Hooks := ⟨h.registered ++ [(phase, t)]⟩

/-- The taps of a phase. -/
def taps (h : Hooks) (phase : Phase) : List Tap :=
  h.registered.filterMap fun (p, t) => if p = phase then some t else none

/-- The plugins of a phase. -/
def plugins (h : Hooks) (phase : Phase) : List String := (h.taps phase).map (·.plugin)

end Hooks

/-- What running the taps of a phase comes to. -/
structure PhaseRun where
  files : FileTree
  calls : List Call
  error : Option BuildError := none
deriving Inhabited

/-- Runs taps up to the first that fails. -/
def Tap.runAll (cx : HookContext) : FileTree → List Tap → PhaseRun
  | files, [] => ⟨files, [], none⟩
  | files, t :: ts =>
    match t.callback cx files with
    | (files, some reason) =>
      ⟨files, [⟨t.plugin, cx, some reason⟩], some (.plugin t.plugin (some cx.phase) reason)⟩
    | (files, none) =>
      let rest := runAll cx files ts
      { rest with calls := ⟨t.plugin, cx, none⟩ :: rest.calls }

/-- Runs the taps of the context's phase. -/
def Hooks.call (h : Hooks) (cx : HookContext) (files : FileTree) : PhaseRun :=
  Tap.runAll cx files (h.taps cx.phase)

end Bundler
