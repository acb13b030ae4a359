import Bundler.Plugin.Basic

/-! The configuration of a build: its settings and its plugins, made from options. -/
namespace Bundler

structure BuildConfig extends Settings where
  plugins : List Plugin := []

namespace BuildOptions

/-- The root: the working directory, or a path seen from there. -/
def rootIn (o : BuildOptions) (cwd : Path) : Path :=
  match o.root with
  | none => cwd
  | some root => cwd.join root

/-- The settings before rules and plugins. -/
def settings (o : BuildOptions) (cwd : Path) : Except BuildError Settings :=
  let base : Settings := { root := o.rootIn cwd }
  let s : Settings := { base with
    entry := o.entry.getD base.entry
    outputPath := match o.output.path with
      | none => base.outputPath
      | some p => base.root.join p
    outputFile := o.output.fileName.getD base.outputFile }
  if s.outputFile == "" then .error (.config "output.fileName must not be empty") else .ok s

/-- Compiles the rules and builds the plugins. -/
def configure (o : BuildOptions) (cwd : Path) (known : Plugins) :
    Except BuildError BuildConfig := do
  let settings ← o.settings cwd
  let rules ← o.rules.mapM LoaderRule.ofOptions
  let plugins ← o.plugins.mapM (·.make known)
  return { settings with rules, plugins }

end BuildOptions
end Bundler
