import Bundler.Graph.Basic
import Bundler.Json.Printer

/-! The script that a graph becomes: a function that gets all modules by key, keeps the
exports of those it has run, and runs the entry. -/
namespace Bundler.ModuleGraph

/-- The text before the call for the entry. -/
def scriptHead : String := "(function (modules) \x7b
  var cache = \x7b\x7d;
  function __knit_require__(key) \x7b
    var cached = cache[key];
    if (cached !== undefined) \x7b
      return cached.exports;
    \x7d
    if (!Object.prototype.hasOwnProperty.call(modules, key)) \x7b
      throw new Error(\"Cannot find module '\" + key + \"'\");
    \x7d
    var module = (cache[key] = \x7b exports: \x7b\x7d \x7d);
    modules[key].call(module.exports, module, module.exports, __knit_require__);
    return module.exports;
  \x7d
"

/-- The call that runs the entry. -/
def scriptCall (entry : Key) : List Char :=
  "  return ".toList ++ Rewrite.registry.toList ++ '(' :: Json.literal entry.toList ++ ");\n".toList

/-- A source on lines of its own. -/
def closedLine (source : List Char) : List Char :=
  if source.getLast? == some '\n' then source else source ++ ['\n']

/-- The member of a module: its key and a function around its source. -/
def scriptMember (m : ModuleRecord) : List Char :=
  Json.literal m.key.toList ++ ": function (module, exports, ".toList ++
    Rewrite.registry.toList ++ ") \x7b\n".toList ++ closedLine m.source ++ ['}']

/-- The script of a graph in which every dependency is present. -/
def script (g : ModuleGraph) : Except BuildError (List Char) := do
  g.verify
  match g.entry with
  | none => throw (.config "module graph has no entry module")
  | some entry =>
    return scriptHead.toList ++ scriptCall entry ++ "\x7d)(\x7b\n".toList ++
      ",\n".toList.intercalate (g.modules.map scriptMember) ++ "\n\x7d);\n".toList

end Bundler.ModuleGraph
