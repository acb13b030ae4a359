import Bundler.Hook
import Bundler.Options
import Bundler.Registry

/-! Plugins: named groups of taps. Options refer to a plugin by name, and the maker under
that name builds it from its own options. -/
namespace Bundler

structure Plugin where
  name : String
  taps : List (Phase × Tap)

/-- Builds a plugin from its options, which are null when there are none. -/
abbrev PluginMaker := Json → Except String Plugin

abbrev Plugins := Registry PluginMaker

/-- The hooks of some plugins, in their order. -/
def Hooks.ofPlugins (ps : List Plugin) : Hooks := ⟨ps.flatMap (·.taps)⟩

/-- Builds the plugin that options refer to. -/
def PluginSpec.make (s : PluginSpec) (known : Plugins) : Except BuildError Plugin :=
  match known.find? s.plugin with
  | none =>
    .error (.config ("unknown plugin '" ++ s.plugin ++ "' (available: " ++
      ", ".intercalate known.names ++ ")"))
  | some maker =>
    match maker s.options with
    | .ok p => .ok p
    | .error reason => .error (.plugin s.plugin none reason)

end Bundler
