import Bundler.Compiler
import Bundler.Proofs.Graph.Identity
import Bundler.Proofs.JavaScript.Links
import Bundler.Proofs.Json.Literal

/-! The links of a script. The members of the script are the modules of its graph, each under
the literal of its key. The argument of every call that a build directs to the registry is such
a literal, and so is that of the call that runs the entry. -/
namespace Bundler

namespace Specifier

/-- No key is a name that an object has by itself. -/
theorem head?_resolve (directory : Path) (s : Specifier) (root : Path) :
    (resolve directory s root).toList.head? = some '.' := by
  have hpath (p : Path) : (Key.ofPath p).toList.head? = some '.' := by
    rw [Key.ofPath]
    split
    · rfl
    · rw [String.toList_append]
      rfl
  rw [resolve]
  split_ifs
  · rw [String.toList_append, String.toList_append]
    rfl
  · rw [String.toList_append, List.head?_append, hpath, Option.some_or]
  · exact hpath _

end Specifier

namespace ModuleGraph

variable {g : ModuleGraph}

/-- Exactly one module of the graph has this literal for its key. -/
def Registers (g : ModuleGraph) (literal : List Char) : Prop :=
  ∃! m, m ∈ g.modules ∧ Json.literal m.key.toList = literal

theorem scriptCall_name : "  return __knit_require__(".toList =
    "  return ".toList ++ Rewrite.registry.toList ++ ['('] := by decide +kernel

theorem scriptCall_eq (entry : Key) : scriptCall entry =
    "  return __knit_require__(".toList ++ Json.literal entry.toList ++ ");\n".toList := by
  rw [scriptCall_name]
  unfold scriptCall
  simp only [List.append_assoc, List.cons_append, List.nil_append]

theorem closedLine_eq (source : List Char) : closedLine source =
    source ++ if source.getLast? = some '\n' then [] else ['\n'] := by
  rw [closedLine, beq_eq_decide]
  split_ifs <;> simp_all

theorem scriptMember_eq : scriptMember = fun m => Json.literal m.key.toList ++
    ": function (module, exports, __knit_require__) \x7b\n".toList ++
    (m.source ++ if m.source.getLast? = some '\n' then [] else ['\n']) ++ "\x7d".toList := by
  have hname : ": function (module, exports, __knit_require__) \x7b\n".toList =
      ": function (module, exports, ".toList ++ Rewrite.registry.toList ++ ") \x7b\n".toList := by
    decide +kernel
  funext m
  simp only [scriptMember, hname, closedLine_eq, List.append_assoc]
  rfl

/-- A script has the call that runs the entry and then the members. -/
theorem script_eq_ok {entry : Key} (hv : g.verify = .ok ()) (he : g.entry = some entry) :
    g.script = .ok (scriptHead.toList ++ scriptCall entry ++ "\x7d)(\x7b\n".toList ++
      ",\n".toList.intercalate (g.modules.map scriptMember) ++ "\n\x7d);\n".toList) := by
  rw [script, hv, he]
  rfl

theorem registers_of_mem {key : Key} (hn : g.keys.Nodup) (h : key ∈ g.keys) :
    g.Registers (Json.literal key.toList) := by
  obtain ⟨m, hm, rfl⟩ := List.mem_map.mp h
  refine ⟨m, ⟨hm, rfl⟩, fun n ⟨hn', heq⟩ => ?_⟩
  have hkey : n.key = m.key := String.toList_injective (Json.literal_injective heq)
  have hm := get?_of_mem hn hm
  rw [← hkey, get?_of_mem hn hn'] at hm
  exact Option.some.inj hm

end ModuleGraph

namespace Workspace

open JavaScript

variable {w : Workspace} {key : Key} {m : ModuleRecord}

/-- A module is its loaded file, rewritten. -/
theorem moduleOf_rewrite (h : w.moduleOf key = .ok m) :
    ∃ file, w.load key = .ok file ∧
      rewrite w.frontEnd w.root key file.content = .ok ⟨m.source, m.dependencies⟩ := by
  simp only [moduleOf, bind, Except.bind, pure, Except.pure] at h
  split at h
  · cases h
  rename_i file hfile
  split at h
  · cases h
  rename_i rewritten hrewrite
  cases h
  exact ⟨file, hfile, hrewrite⟩

/-- A module is the common form of its file, and its edits write the name of the registry and
the keys of dependencies. -/
theorem moduleOf_edits (h : w.moduleOf key = .ok m) :
    ∃ file normal parsed edits, w.load key = .ok file ∧
      w.frontEnd.normalize file.content = .ok normal ∧ w.frontEnd.parsed normal = .ok parsed ∧
      m.source = w.frontEnd.regenerate parsed edits ∧
      (∀ e ∈ edits, e.replacement = Rewrite.registry.toList ∨
        ∃ d ∈ m.dependencies, e.replacement = Json.literal d.key.toList) ∧
      (w.frontEnd = .javaScript → m.source = Edit.apply normal edits ∧
        ∃ p, program normal = .ok p ∧
          Linked 0 ((p.callSites normal).filter (·.calleeIs Rewrite.loader)) m.dependencies
            normal m.source) := by
  obtain ⟨file, hfile, hrewrite⟩ := moduleOf_rewrite h
  obtain ⟨normal, parsed, edits, hnormal, hparsed, hsource, hedits⟩ := rewrite_edits hrewrite
  refine ⟨file, normal, parsed, edits, hfile, hnormal, hparsed, hsource, hedits, fun hjs => ?_⟩
  rw [hjs] at hrewrite hnormal hparsed hsource
  obtain ⟨normal', p, hnormal', hp, hlinked⟩ := rewrite_linked hrewrite
  obtain rfl : normal' = normal := Except.ok.inj (hnormal'.symm.trans hnormal)
  obtain ⟨q, -, rfl⟩ := javaScript_parsed_eq_ok hparsed
  exact ⟨hsource, p, hp, hlinked⟩

end Workspace

namespace Compiler

open JavaScript

variable {c : Compiler} {files : FileTree} {g : ModuleGraph}

/-- The script of a compiled graph runs the entry, and its members are the modules in the order
of their discovery. Each call that the build directs to the registry, in a module or for the
entry, has for its argument the literal of one member, and of no other. The calls of a module are
those of `require` in its common form. -/
theorem compile_links (h : c.compile files = .ok g) :
    ∃ entry, g.entry = some entry ∧ g.script = .ok ("(function (modules) \x7b
  var cache = \x7b\x7d;
  function __knit_require__(key) \x7b
    var cached = cache[key];
    if (cached !== undefined) \x7b
      return cached.exports;
    \x7d
    if (!Object.prototype.hasOwnProperty.call(modules, key)) \x7b
      throw new Error(\"Cannot find module '\" + key + \"'\");
    \x7d
    var module = (cache[key] = \x7b exports: \x7b\x7d \x7d);
    modules[key].call(module.exports, module, module.exports, __knit_require__);
    return module.exports;
  \x7d
".toList ++
        "  return __knit_require__(".toList ++ Json.literal entry.toList ++
        ");\n".toList ++ "\x7d)(\x7b\n".toList ++ ",\n".toList.intercalate (g.modules.map fun m =>
          Json.literal m.key.toList ++
            ": function (module, exports, __knit_require__) \x7b\n".toList ++
            (m.source ++ if m.source.getLast? = some '\n' then [] else ['\n']) ++
            "\x7d".toList) ++ "\n\x7d);\n".toList) ∧
      g.Registers (Json.literal entry.toList) ∧
      Visits g.dependencyKeys [] [entry] g.keys ∧
      ∀ m ∈ g.modules, m.key.toList.head? = some '.' ∧
        (∀ d ∈ m.dependencies, g.Registers (Json.literal d.key.toList)) ∧
        ∃ file normal parsed edits, (c.workspace files).load m.key = .ok file ∧
          c.frontEnd.normalize file.content = .ok normal ∧
          c.frontEnd.parsed normal = .ok parsed ∧ m.source = c.frontEnd.regenerate parsed edits ∧
          (∀ e ∈ edits, e.replacement = "__knit_require__".toList ∨ g.Registers e.replacement) ∧
          (c.frontEnd = .javaScript → m.source = Edit.apply normal edits ∧
            ∃ p, program normal = .ok p ∧
              Linked 0 ((p.callSites normal).filter (·.calleeIs Rewrite.loader)) m.dependencies
                normal m.source) := by
  have hresult : (c.walk files).result = .ok g := Walk.run_verified.mp h
  have hn := Walk.run_keys_nodup hresult
  have hvisits := Walk.run_preorder hresult
  have hregisters : ∀ m ∈ g.modules, ∀ d ∈ m.dependencies,
      g.Registers (Json.literal d.key.toList) := fun m hm d hd =>
    ModuleGraph.registers_of_mem hn (Walk.run_closed hresult m hm d hd)
  have hentry := ModuleGraph.registers_of_mem hn
    (by simpa using hvisits.request_mem _ List.mem_cons_self)
  refine ⟨_, (Walk.run_visits hresult).1, ?_, hentry, hvisits, fun m hm =>
    ⟨?_, hregisters m hm, ?_⟩⟩
  · rw [ModuleGraph.script_eq_ok (Walk.run_verify hresult) (Walk.run_visits hresult).1]
    simp only [ModuleGraph.scriptHead, ModuleGraph.scriptCall_eq, ModuleGraph.scriptMember_eq,
      List.append_assoc]
  · obtain ⟨directory, s, hkey⟩ := Walk.run_isResolved hresult m.key (List.mem_map_of_mem hm)
    rw [hkey]
    exact Specifier.head?_resolve directory s _
  · obtain ⟨file, normal, parsed, edits, hfile, hnormal, hparsed, hsource, hedits, hlinked⟩ :=
      Workspace.moduleOf_edits (Walk.run_moduleOf hresult m hm)
    refine ⟨file, normal, parsed, edits, hfile, hnormal, hparsed, hsource, fun e he => ?_, hlinked⟩
    refine (hedits e he).imp id fun ⟨d, hd, heq⟩ => ?_
    rw [heq]
    exact hregisters m hm d hd

/-- Two modules that load each other; the name of one is written with escapes. -/
def quoted : Compiler where
  config := { root := ⟨"/p"⟩, entry := "main" }
  loaders := {}

def quotedFiles : FileTree :=
  ⟨[(["p"], .directory), (["p", "main.js"], .file "require('./b\"')".toUTF8),
    (["p", "b\".js"], .file "require('./main')\n".toUTF8)]⟩

def quotedGraph : ModuleGraph := (quoted.walk quotedFiles).graph

theorem compile_links_quoted :
    quoted.compile quotedFiles = .ok quotedGraph ∧
      quotedGraph.script = .ok ("(function (modules) \x7b
  var cache = \x7b\x7d;
  function __knit_require__(key) \x7b
    var cached = cache[key];
    if (cached !== undefined) \x7b
      return cached.exports;
    \x7d
    if (!Object.prototype.hasOwnProperty.call(modules, key)) \x7b
      throw new Error(\"Cannot find module '\" + key + \"'\");
    \x7d
    var module = (cache[key] = \x7b exports: \x7b\x7d \x7d);
    modules[key].call(module.exports, module, module.exports, __knit_require__);
    return module.exports;
  \x7d
".toList ++
        "  return __knit_require__(\"./main.js\");
\x7d)(\x7b
\"./main.js\": function (module, exports, __knit_require__) \x7b
__knit_require__(\"./b\\\".js\")
\x7d,
\"./b\\\".js\": function (module, exports, __knit_require__) \x7b
__knit_require__(\"./main.js\")
\x7d
\x7d);
".toList) ∧
      quotedGraph.edges.map (fun e => Json.literal e.2.key.toList) =
        ["\"./b\\\".js\"".toList, "\"./main.js\"".toList] ∧
      ∀ e ∈ quotedGraph.edges, quotedGraph.Registers (Json.literal e.2.key.toList) := by
  have hresult : (quoted.walk quotedFiles).result = .ok quotedGraph :=
    Walk.result_eq_ok.mpr ⟨by decide +kernel, by decide +kernel, rfl⟩
  have h : quoted.compile quotedFiles = .ok quotedGraph := Walk.run_verified.mpr hresult
  obtain ⟨entry, hentry, hscript, -, -, hmodules⟩ := compile_links h
  have hmain : quotedGraph.entry = some "./main.js" := by decide +kernel
  obtain rfl : entry = "./main.js" := Option.some.inj (hentry.symm.trans hmain)
  refine ⟨h, ?_, by decide +kernel, fun e he => ?_⟩
  · rw [hscript]
    simp only [List.append_assoc]
    exact congrArg Except.ok (congrArg₂ HAppend.hAppend rfl (by decide +kernel))
  · obtain ⟨m, hm, he⟩ := List.mem_flatMap.mp he
    obtain ⟨d, hd, rfl⟩ := List.mem_map.mp he
    exact (hmodules m hm).2.1 d hd

/-- A module with a line that names an interpreter. -/
def interpretedFiles : FileTree := ⟨[(["p"], .directory), (["p", "main.js"], .file "#!a\n".toUTF8)]⟩

def interpretedGraph : ModuleGraph := (quoted.walk interpretedFiles).graph

set_option maxRecDepth 20000 in
/-- The head of the script is given by its characters: to decode the text is what takes long. -/
theorem program_interpreted : ∃ head, ModuleGraph.scriptHead.toList = head ∧
    (program (head ++ ModuleGraph.scriptCall "./main.js" ++ "\x7d)(\x7b\n".toList ++
      ",\n".toList.intercalate (interpretedGraph.modules.map ModuleGraph.scriptMember) ++
      "\n\x7d);\n".toList)).toOption = none := by
  have hhead : ModuleGraph.scriptHead = String.ofList _ := rfl
  exact ⟨_, (congrArg String.toList hhead).trans String.toList_ofList, by decide +kernel⟩

/-- A line that names an interpreter stays in the text of its module, but a program can have it
at its start only. So the script of a graph need not be a program. -/
theorem not_script_program :
    ¬ ∀ (c : Compiler) (files : FileTree) (g : ModuleGraph), c.frontEnd = .javaScript →
      c.compile files = .ok g → ∃ text p, g.script = .ok text ∧ program text = .ok p := by
  intro h
  have hresult : (quoted.walk interpretedFiles).result = .ok interpretedGraph :=
    Walk.result_eq_ok.mpr ⟨by decide +kernel, by decide +kernel, rfl⟩
  obtain ⟨text, p, hscript, hp⟩ := h quoted interpretedFiles interpretedGraph rfl
    (Walk.run_verified.mpr hresult)
  obtain ⟨head, hhead, hnone⟩ := program_interpreted
  have hentry : interpretedGraph.entry = some "./main.js" := by decide +kernel
  rw [ModuleGraph.script_eq_ok (Walk.run_verify hresult) hentry, hhead] at hscript
  cases hscript
  rw [hp] at hnone
  cases hnone

end Compiler
end Bundler
