import Bundler.Json.Printer
import Bundler.Plugin.Basic
import Bundler.Text.Utf8

/-! The built-in plugins: `manifest` lists the modules in a file beside the script, and
`build-log` listens to every phase. -/
namespace Bundler.Plugin

/-- The list of modules with their digests. -/
def manifestJson (settings : Settings) (g : ModuleGraph) : Json :=
  .object [("entry", Json.ofOption Json.string g.entry),
    ("artifact", .string settings.outputFile),
    ("modules", .object (g.assets.map fun (k, h) => (k, .string h)))]

/-- Writes the manifest once there is a graph. -/
def writeManifest (fileName : String) : Callback := fun cx files =>
  match cx.graph with
  | none => (files, none)
  | some g =>
    let text := Json.prettyText 0 (manifestJson cx.settings g) ++ ['\n']
    match files.write (cx.settings.outputPath.join ⟨fileName⟩) (Text.Utf8.encode text) with
    | .ok files => (files, none)
    | .error e => (files, some e.message)

/-- The name of the manifest in the output directory. -/
def manifestFile (options : Json) : Except String String :=
  match options.member? "fileName" with
  | none => .ok "manifest.json"
  | some (.string s) =>
    if s == "" then .error "fileName must be a non-empty string, got \"\"" else .ok s
  | some v => .error ("fileName must be a non-empty string, got " ++ v.compress)

def manifest : PluginMaker := fun options =>
  match manifestFile options with
  | .ok fileName =>
    .ok ⟨"manifest", [(.afterRun, ⟨"manifest", writeManifest fileName⟩)]⟩
  | .error e => .error e

def buildLog : PluginMaker := fun _ =>
  .ok ⟨"build-log", Phase.all.map fun p => (p, ⟨"build-log", fun _ files => (files, none)⟩)⟩

def builtin : Plugins :=
  (({} : Plugins).insert "manifest" manifest).insert "build-log" buildLog

end Bundler.Plugin
