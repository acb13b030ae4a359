import Bundler.Proofs.Graph.Discovery
import Bundler.Proofs.Key.Completion
import Bundler.Proofs.Rewrite

/-! The identity of modules. The keys of a graph come from specifiers, and two of them mean
one file exactly when that file gives them one key. A key is the key of its file when it is
complete; a file that is asked for with and without its completion becomes two modules. -/
namespace Bundler

namespace Walk

variable {w : Workspace} {entry : Specifier} {g : ModuleGraph}

/-- Every key of a graph is one that a specifier resolved to. -/
theorem run_isResolved (h : (run w entry).result = .ok g) :
    ∀ k ∈ g.keys, Key.IsResolved w.root k := by
  intro k hk
  have hreach := ((run_preorder h).mem_iff_reachable k).mp hk
  clear hk
  induction hreach with
  | refl => exact ⟨w.root, _, rfl⟩
  | tail _ hload _ =>
    obtain ⟨m, hm, -, d, hd, rfl⟩ := (ModuleGraph.mem_dependencyKeys (run_keys_nodup h)).mp hload
    obtain ⟨-, _, _, _, -, -, -, -, -, hrw⟩ := Workspace.moduleOf_eq_ok (run_moduleOf h m hm)
    exact ⟨m.key.directory, d.specifier, rewrite_dependencies hrw d hd⟩

theorem run_file (h : (run w entry).result = .ok g) :
    ∀ m ∈ g.modules, Key.file w.files w.root m.key = .ok m.path := by
  intro m hm
  obtain ⟨-, _, _, _, hp, -⟩ := Workspace.moduleOf_eq_ok (run_moduleOf h m hm)
  exact hp

/-- Two modules have one file exactly when the file gives them one key, and so each file is
one module exactly when the keys of the files differ. -/
theorem run_identifies (hr : w.root.isAbsolute = true) (h : (run w entry).result = .ok g) :
    (∀ m ∈ g.modules, ∀ m' ∈ g.modules, m.path = m'.path ↔
      Key.ofFile w.files w.root m.key = Key.ofFile w.files w.root m'.key) ∧
    ((g.modules.map (·.path)).Nodup ↔ (g.keys.map (Key.ofFile w.files w.root)).Nodup) := by
  have hiff : ∀ m ∈ g.modules, ∀ m' ∈ g.modules, m.path = m'.path ↔
      Key.ofFile w.files w.root m.key = Key.ofFile w.files w.root m'.key := by
    intro m hm m' hm'
    exact Key.file_eq_iff hr (run_isResolved h m.key (List.mem_map_of_mem hm))
      (run_isResolved h m'.key (List.mem_map_of_mem hm')) (run_file h m hm) (run_file h m' hm')
  refine ⟨hiff, ?_⟩
  rw [ModuleGraph.keys, List.map_map, List.Nodup, List.Nodup, List.pairwise_map, List.pairwise_map]
  apply List.Pairwise.iff_of_mem
  intro m m' hm hm'
  exact not_congr (hiff m hm m' hm')

/-- One file that is asked for without its `.js` and with it. -/
def doubled : Workspace where
  root := ⟨"/p"⟩
  files := ⟨[(["p"], .directory), (["p", "src"], .directory),
    (["p", "src", "index.js"], .file "require('./a.min'); require('./a.min.js');".toUTF8),
    (["p", "src", "a.min.js"], .file "exports.a = 1;".toUTF8)]⟩
  rules := []
  loaders := {}
  frontEnd := .javaScript

def doubledGraph : ModuleGraph := (run doubled "src/index.js").graph

theorem run_doubled : (run doubled "src/index.js").result = .ok doubledGraph :=
  result_eq_ok.mpr ⟨by decide +kernel, by decide +kernel, rfl⟩

theorem run_identifies_doubled :
    doubled.root.isAbsolute = true ∧
      (run doubled "src/index.js").result = .ok doubledGraph ∧
      doubledGraph.keys.map (Key.ofFile doubled.files doubled.root) =
        ["./src/index.js", "./src/a.min.js", "./src/a.min.js"] ∧
      ¬ (doubledGraph.modules.map (·.path)).Nodup := by
  have hr : doubled.root.isAbsolute = true := by decide
  have hkeys : doubledGraph.keys.map (Key.ofFile doubled.files doubled.root) =
      ["./src/index.js", "./src/a.min.js", "./src/a.min.js"] := by decide +kernel
  refine ⟨hr, run_doubled, hkeys, ?_⟩
  rw [(run_identifies hr run_doubled).2, hkeys]
  decide

/-- The keys `./src/a.min` and `./src/a.min.js` are two modules of one file. -/
theorem not_run_identifies_paths :
    ¬ ∀ (w : Workspace) (entry : Specifier) (g : ModuleGraph), w.root.isAbsolute = true →
      (run w entry).result = .ok g → (g.modules.map (·.path)).Nodup := by
  intro h
  have hn := h doubled "src/index.js" doubledGraph (by decide) run_doubled
  have hpaths : doubledGraph.modules.map (·.path) =
      [⟨"/p/src/index.js"⟩, ⟨"/p/src/a.min.js"⟩, ⟨"/p/src/a.min.js"⟩] := by decide +kernel
  rw [hpaths] at hn
  exact absurd hn (by decide)

end Walk
end Bundler
