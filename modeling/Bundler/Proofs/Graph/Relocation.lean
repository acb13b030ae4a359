import Bundler.Proofs.Graph.Bound
import Bundler.Proofs.Graph.Script
import Bundler.Proofs.Key.Below

/-! Builds of the same files below two roots. While no specifier leads above the root or is
absolute, the two walks take the same steps: they ask for the same keys in the same order, and
the modules they find differ in their paths only, by the root. -/
namespace Bundler

/-- The path of a place below the root. -/
def Workspace.below (w : Workspace) (loc : Location) : Path :=
  Path.ofLocation (w.root.location ++ loc)

/-- The same files stand below the roots of two workspaces, and the loaders make the same of
them. -/
structure Workspace.Relocated (w w' : Workspace) : Prop where
  root : w.root.isAbsolute = true
  root' : w'.root.isAbsolute = true
  frontEnd : w'.frontEnd = w.frontEnd
  files : ∀ loc : Location, loc.IsProper → ∀ bytes,
    w'.files.read (w'.below loc) = .ok bytes ↔ w.files.read (w.below loc) = .ok bytes
  loaders : ∀ (key : Key) (loc : Location) (bytes : ByteArray) (content loaded : List Char),
    loc.IsProper → w.files.read (w.below loc) = .ok bytes → Text.Utf8.decode bytes = .ok content →
    (LoaderRule.applyAll w'.rules w'.loaders key (w'.below loc) content = .ok loaded ↔
      LoaderRule.applyAll w.rules w.loaders key (w.below loc) content = .ok loaded)

/-- Every specifier of the module is relative to it or a package, and none leads above the
root. -/
def ModuleRecord.StaysBelow (m : ModuleRecord) : Prop :=
  ∀ d ∈ m.dependencies, (Path.mk d.specifier).isAbsolute = false ∧
    d.specifier.climbs m.key.directory = false

instance (m : ModuleRecord) : Decidable m.StaysBelow :=
  inferInstanceAs (Decidable (∀ d ∈ m.dependencies, _))

/-- Two modules that differ in their paths only, by the roots of their workspaces. -/
structure ModuleRecord.Alike (w w' : Workspace) (m m' : ModuleRecord) : Prop where
  key : m'.key = m.key
  path : ∃ loc : Location, loc.IsProper ∧ m.path = w.below loc ∧ m'.path = w'.below loc
  source : m'.source = m.source
  hash : m'.hash = m.hash
  dependencies : m'.dependencies = m.dependencies

/-- Graphs of the same modules below two roots. -/
structure ModuleGraph.Alike (w w' : Workspace) (g g' : ModuleGraph) : Prop where
  entry : g'.entry = g.entry
  modules : List.Forall₂ (ModuleRecord.Alike w w') g.modules g'.modules

variable {w w' : Workspace} {entry : Specifier}

namespace Workspace

theorem Relocated.symm (h : Relocated w w') : Relocated w' w where
  root := h.root'
  root' := h.root
  frontEnd := h.frontEnd.symm
  files := fun loc hloc bytes => (h.files loc hloc bytes).symm
  loaders := fun key loc bytes content loaded hloc hread hdecode =>
    (h.loaders key loc bytes content loaded hloc ((h.files loc hloc bytes).mp hread) hdecode).symm

/-- Without rules, all that counts is the files. -/
theorem relocated_of_rules_eq_nil (root : w.root.isAbsolute = true)
    (root' : w'.root.isAbsolute = true) (frontEnd : w'.frontEnd = w.frontEnd)
    (files : ∀ loc : Location, loc.IsProper → ∀ bytes,
      w'.files.read (w'.below loc) = .ok bytes ↔ w.files.read (w.below loc) = .ok bytes)
    (rules : w.rules = []) (rules' : w'.rules = []) : Relocated w w' where
  root := root
  root' := root'
  frontEnd := frontEnd
  files := files
  loaders := by
    intro key loc bytes content loaded _ _ _
    rw [rules, rules']
    rfl

/-- A key that has a module has one in the other workspace as well, which is like it unless a
specifier leads out of the root. -/
theorem moduleOf_relocated {key : Key} {m : ModuleRecord} (h : Relocated w w')
    (hk : Key.IsBelow key) (hm : w.moduleOf key = .ok m) :
    ∃ m', w'.moduleOf key = .ok m' ∧ (m.StaysBelow → m.Alike w w' m') := by
  obtain ⟨hkey, bytes, content, loaded, hfile, hread, hhash, hdecode, hload, hrewrite⟩ :=
    moduleOf_eq_ok hm
  have hfiles : ∀ loc : Location, loc.IsProper → w.files.isFile (w.below loc) =
      w'.files.isFile (w'.below loc) := fun loc hloc => by
    rw [Bool.eq_iff_iff, FileTree.isFile_iff, FileTree.isFile_iff]
    exact exists_congr fun bytes => (h.files loc hloc bytes).symm
  obtain ⟨loc, hloc, hpath, hfile'⟩ := Key.file_of_isBelow h.root h.root' hfiles hk hfile
  rw [hpath] at hread hload
  have hread' := (h.files loc hloc bytes).mpr hread
  have hload' := (h.loaders key loc bytes content loaded hloc hread hdecode).mpr hload
  obtain ⟨r', hrewrite', heq⟩ := rewrite_root w'.root hrewrite
  rw [← h.frontEnd] at hrewrite'
  refine ⟨_, moduleOf_of_file hfile' hread' hdecode hload' hrewrite', fun hstays => ?_⟩
  have hdirectory := Key.isAbsolute_directory (Key.isAbsolute_of_isResolved (by decide) hk).2
  rw [heq fun d hd => Specifier.resolve_root h.root h.root' hdirectory (hstays d hd).1
    (hkey ▸ (hstays d hd).2)]
  exact ⟨hkey.symm, ⟨loc, hloc, hpath, rfl⟩, rfl, hhash.symm, rfl⟩

/-- What a module below the root asks for is below the root. -/
theorem isBelow_requests {key : Key} {m : ModuleRecord} (hr : w.root.isAbsolute = true)
    (hk : Key.IsBelow key) (hm : w.moduleOf key = .ok m) (hstays : m.StaysBelow) :
    ∀ r ∈ m.requests, Key.IsBelow r.key := by
  obtain ⟨hkey, _, _, _, -, -, -, -, -, hrewrite⟩ := moduleOf_eq_ok hm
  have hdirectory := Key.isAbsolute_directory (Key.isAbsolute_of_isResolved (by decide) hk).2
  intro r hr'
  obtain ⟨d, hd, rfl⟩ := List.mem_map.mp hr'
  refine ⟨key.directory, d.specifier, ?_⟩
  rw [← Specifier.resolve_root hr (by decide) hdirectory (hstays d hd).1 (hkey ▸ (hstays d hd).2)]
  exact rewrite_dependencies hrewrite d hd

/-- The entry has the same key below every root, unless it leads out of them. -/
theorem entryRequest_root {root root' : Path} (hr : root.isAbsolute = true)
    (hr' : root'.isAbsolute = true) (ha : (Path.mk entry).isAbsolute = false)
    (hc : entry.climbs ⟨"."⟩ = false) : entryRequest root entry = entryRequest root' entry := by
  have hresolve (s : Specifier) (ha : (Path.mk s).isAbsolute = false)
      (hc : s.climbs ⟨"."⟩ = false) : s.resolve root root = s.resolve root' root' := by
    rw [Specifier.resolve_self hr, Specifier.resolve_self hr']
    exact Specifier.resolve_root hr hr' (by decide) ha hc
  rw [entryRequest, entryRequest]
  split_ifs with hb
  · have hrelative : (Path.mk ("./" ++ entry)).isAbsolute = false := by
      rw [Path.isAbsolute, String.toList_append]
      rfl
    rw [hresolve _ hrelative (Specifier.climbs_of_isBare hb)]
  · rw [hresolve _ ha hc]

end Workspace

namespace ModuleGraph

variable {g g' : ModuleGraph}

/-- What modules that are alike agree on, their graphs agree on. -/
theorem Alike.map_eq {α : Type} {f : ModuleRecord → α} (h : g.Alike w w' g')
    (hf : ∀ m m', m.Alike w w' m' → f m' = f m) : g'.modules.map f = g.modules.map f := by
  have := h.modules
  generalize g.modules = ms, g'.modules = ms' at this
  induction this with
  | nil => rfl
  | cons hm _ ih => rw [List.map_cons, List.map_cons, hf _ _ hm, ih]

theorem Alike.keys (h : g.Alike w w' g') : g'.keys = g.keys := h.map_eq fun _ _ hm => hm.key

theorem Alike.edges (h : g.Alike w w' g') : g'.edges = g.edges := by
  rw [ModuleGraph.edges, ModuleGraph.edges, List.flatMap_def, List.flatMap_def,
    h.map_eq fun m m' hm => by rw [hm.key, hm.dependencies]]

/-- The script does not show where the modules were read from. -/
theorem Alike.script (h : g.Alike w w' g') : g'.script = g.script := by
  have hverify : g'.verify = g.verify := by
    simp only [ModuleGraph.verify, ModuleGraph.contains, h.edges, h.keys]
  rw [ModuleGraph.script, ModuleGraph.script, hverify, h.entry,
    h.map_eq fun m m' hm => by rw [scriptMember, scriptMember, hm.key, hm.source]]

end ModuleGraph

namespace Walk

variable {s s' : Walk}

/-- Two walks that came equally far. -/
structure Alike (w w' : Workspace) (s s' : Walk) : Prop where
  graph : s.graph.Alike w w' s'.graph
  pending : s'.pending = s.pending
  failure : s'.failure = none ↔ s.failure = none

theorem Alike.settle (h : Alike w w' s s') : Alike w w' s.settle s'.settle where
  graph := h.graph
  pending := by
    rw [Walk.settle, Walk.settle]
    simp only [ModuleGraph.contains, h.graph.keys, h.pending]
  failure := h.failure

/-- What a step of one walk does, the same step of the other does as well. -/
theorem step_alike (h : w.Relocated w') (ha : Alike w w' s s')
    (hbelow : ∀ r ∈ s.pending, Key.IsBelow r.key)
    (hstays : ∀ m ∈ (s.step w).graph.modules, m.StaysBelow) :
    Alike w w' (s.step w) (s'.step w') ∧ ∀ r ∈ (s.step w).pending, Key.IsBelow r.key := by
  have hsettled : ∀ r ∈ s.settle.pending, Key.IsBelow r.key := fun r hr =>
    hbelow r ((List.dropWhile_suffix _).subset hr)
  have hpending := ha.settle.pending
  cases hf : s.failure with
  | some f =>
    have hfinished : s.Finished := .inl (by simp [hf])
    have hfinished' : s'.Finished := .inl fun hf' => by simp [ha.failure.mp hf'] at hf
    rw [hfinished.step_eq, hfinished'.step_eq]
    exact ⟨ha.settle, hsettled⟩
  | none =>
  have hf' := ha.failure.mpr hf
  rcases step_cases w hf with ⟨hp, hs⟩ | ⟨r, rs, m, hp, hm, hs⟩ | ⟨r, rs, e, hp, hv, hs⟩
  · -- Nothing is left to visit.
    have hfinished' : s'.Finished := .inr (hpending.trans hp)
    rw [hs, hfinished'.step_eq]
    exact ⟨ha.settle, hsettled⟩
  · -- A module is added.
    have hkey : m.key = r.key := (Workspace.moduleOf_eq_ok hm).1
    have hnew : m.key ∉ s.graph.keys := hkey ▸ settle_head hp
    have hmodules : (s.step w).graph.modules = s.graph.modules ++ [m] := by
      rw [hs, ModuleGraph.insert_of_not_mem hnew]
    have hbelow : Key.IsBelow r.key := hsettled r (hp ▸ List.mem_cons_self)
    have hm' : m.StaysBelow := hstays m (by simp [hmodules])
    obtain ⟨m', hmodule, halike⟩ := Workspace.moduleOf_relocated h hbelow hm
    have hs' : s'.step w' = ⟨s'.graph.insert m', m'.requests ++ rs, none⟩ :=
      step_of_moduleOf hf' (hpending.trans hp) hmodule
    have halike := halike hm'
    have hrequests : m'.requests = m.requests := by
      rw [ModuleRecord.requests, ModuleRecord.requests, halike.key, halike.dependencies]
    have hnew' : m'.key ∉ s'.graph.keys := by
      rwa [halike.key, ha.graph.keys]
    rw [hs, hs', ModuleGraph.insert_of_not_mem hnew, ModuleGraph.insert_of_not_mem hnew', hrequests]
    have hgraph := List.rel_append ha.graph.modules (.cons halike .nil)
    refine ⟨⟨⟨ha.graph.entry, hgraph⟩, rfl, Iff.rfl⟩, fun q hq => ?_⟩
    rcases List.mem_append.mp hq with hq | hq
    · exact Workspace.isBelow_requests h.root hbelow hm hm' q hq
    · exact hsettled q (hp ▸ List.mem_cons_of_mem _ hq)
  · -- The visit fails.
    have hbelow : Key.IsBelow r.key := hsettled r (hp ▸ List.mem_cons_self)
    rcases step_cases w' hf' with ⟨hp', -⟩ | ⟨r', rs', m', hp', hm', -⟩ | ⟨r', rs', e', hp', -, hs'⟩
    · rw [hpending, hp] at hp'
      cases hp'
    · rw [hpending, hp] at hp'
      cases hp'
      obtain ⟨m, hm, -⟩ := Workspace.moduleOf_relocated h.symm hbelow hm'
      rw [Workspace.visit_eq_ok.mpr hm] at hv
      cases hv
    · rw [hpending, hp] at hp'
      cases hp'
      rw [hs, hs']
      exact ⟨⟨ha.graph, rfl, by simp⟩, fun q hq => hsettled q (hp ▸ hq)⟩

theorem mem_step {m : ModuleRecord} (h : m ∈ s.graph.modules) : m ∈ (s.step w).graph.modules := by
  cases hf : s.failure with
  | some f =>
    have hfinished : s.Finished := .inl (by simp [hf])
    rw [hfinished.step_eq]
    exact h
  | none =>
    rcases step_cases w hf with ⟨-, hs⟩ | ⟨r, rs, n, hp, hn, hs⟩ | ⟨r, rs, e, -, -, hs⟩
    · rw [hs]
      exact h
    · rw [hs, ModuleGraph.insert_of_not_mem ((Workspace.moduleOf_eq_ok hn).1 ▸ settle_head hp)]
      exact List.mem_append_left _ h
    · rw [hs]
      exact h

theorem mem_steps {m : ModuleRecord} (n : ℕ) (h : m ∈ s.graph.modules) :
    m ∈ (steps w n s).graph.modules := by
  induction n generalizing s with
  | zero => exact h
  | succ n ih => exact ih (mem_step h)

theorem steps_alike (n : ℕ) (h : w.Relocated w') (ha : Alike w w' s s')
    (hbelow : ∀ r ∈ s.pending, Key.IsBelow r.key)
    (hstays : ∀ m ∈ (steps w n s).graph.modules, m.StaysBelow) :
    Alike w w' (steps w n s) (steps w' n s') := by
  induction n generalizing s s' with
  | zero => exact ha
  | succ n ih =>
    obtain ⟨halike, hbelow⟩ := step_alike h ha hbelow fun m hm => hstays m (mem_steps n hm)
    exact ih halike hbelow hstays

/-- Walks from the same entry are alike when both are finished, whatever their bounds are. -/
theorem run_alike (h : w.Relocated w') (hr : (Path.mk entry).isAbsolute = false)
    (hc : entry.climbs ⟨"."⟩ = false) (hstays : ∀ m ∈ (run w entry).graph.modules, m.StaysBelow) :
    (run w entry).graph.Alike w w' (run w' entry).graph ∧
      ((run w entry).result = .ok (run w entry).graph ↔
        (run w' entry).result = .ok (run w' entry).graph) := by
  have hrequest := Workspace.entryRequest_root h.root h.root' hr hc
  have hstart : Alike w w' (start w entry) (start w' entry) := by
    rw [start, start, hrequest]
    exact ⟨⟨rfl, .nil⟩, rfl, Iff.rfl⟩
  have hbelow : ∀ r ∈ (start w entry).pending, Key.IsBelow r.key := by
    intro r hr'
    obtain rfl := List.mem_singleton.mp hr'
    rw [Workspace.entryRequest_root h.root (by decide : (Path.mk "/").isAbsolute = true) hr hc]
    exact ⟨_, _, rfl⟩
  -- The trees may differ elsewhere, so neither bound need be enough for the other walk.
  obtain ⟨n, hn, hn'⟩ : ∃ n, 3 * w.files.entries.length + 1 ≤ n ∧
      3 * w'.files.entries.length + 1 ≤ n := ⟨_, le_max_left _ _, le_max_right _ _⟩
  obtain ⟨hgraph, hresult⟩ := steps_eq_run h.root entry hn
  obtain ⟨hgraph', hresult'⟩ := steps_eq_run h.root' entry hn'
  have halike := steps_alike n h hstart hbelow (hgraph ▸ hstays)
  rw [← hgraph, ← hgraph', ← hresult, ← hresult']
  refine ⟨halike.graph, ?_⟩
  rw [result_eq_ok, result_eq_ok, halike.failure, halike.settle.pending]
  simp only [and_true]

end Walk

namespace Compiler

variable {c c' : Compiler} {files files' : FileTree}

/-- Builds are relocatable. Where the same files stand below two roots, and every specifier on
the way is relative or a package and stays below the root, a program compiles below both roots
or below none. The two graphs are those of the same modules and have the same script. -/
theorem compile_relocated (h : (c.workspace files).Relocated (c'.workspace files'))
    (hentry : c'.config.entry = c.config.entry)
    (hrelative : (Path.mk c.config.entry).isAbsolute = false)
    (hclimbs : Specifier.climbs ⟨"."⟩ c.config.entry = false)
    (hstays : ∀ m ∈ (c.walk files).graph.modules, m.StaysBelow) :
    ((∃ g, c.compile files = .ok g) ↔ ∃ g', c'.compile files' = .ok g') ∧
      ∀ g g', c.compile files = .ok g → c'.compile files' = .ok g' →
        g'.keys = g.keys ∧ g.Alike (c.workspace files) (c'.workspace files') g' ∧
          ∃ text, g.script = .ok text ∧ g'.script = .ok text := by
  obtain ⟨halike, hiff⟩ := Walk.run_alike h hrelative hclimbs hstays
  have hwalk : Walk.run (c'.workspace files') c.config.entry = c'.walk files' := by
    rw [walk, hentry]
  rw [hwalk] at halike hiff
  change (c.walk files).graph.Alike _ _ _ at halike
  change (c.walk files).result = .ok (c.walk files).graph ↔ _ at hiff
  have hgraph {c : Compiler} {files : FileTree} {g : ModuleGraph} (hg : c.compile files = .ok g) :
      (c.walk files).result = .ok g ∧ (c.walk files).graph = g := by
    have hresult : (c.walk files).result = .ok g := Walk.run_verified.mp hg
    exact ⟨hresult, (Walk.result_eq_ok.mp hresult).2.2⟩
  refine ⟨⟨fun ⟨g, hg⟩ => ?_, fun ⟨g', hg'⟩ => ?_⟩, fun g g' hg hg' => ?_⟩
  · obtain ⟨hresult, rfl⟩ := hgraph hg
    exact ⟨_, Walk.run_verified.mpr (hiff.mp hresult)⟩
  · obtain ⟨hresult, rfl⟩ := hgraph hg'
    exact ⟨_, Walk.run_verified.mpr (hiff.mpr hresult)⟩
  · obtain ⟨hresult, rfl⟩ := hgraph hg
    obtain ⟨-, rfl⟩ := hgraph hg'
    have hscript := ModuleGraph.script_eq_ok (Walk.run_verify hresult) (Walk.run_visits hresult).1
    exact ⟨halike.keys, halike, _, hscript, halike.script.trans hscript⟩

/-- A compiler without rules. -/
def plain (root : Path) (entry : Specifier) : Compiler where
  config := { root, entry }
  loaders := {}

theorem relocated_plain {root root' : Path} {entry entry' : Specifier} {ds ds' : List Location}
    {es : List (Location × Entry)} (hr : root.isAbsolute = true) (hr' : root'.isAbsolute = true)
    (h : (FileTree.placed ds root.location es).Shows root.location (FileTree.mk es).files)
    (h' : (FileTree.placed ds' root'.location es).Shows root'.location (FileTree.mk es).files) :
    ((plain root entry).workspace (.placed ds root.location es)).Relocated
      ((plain root' entry').workspace (.placed ds' root'.location es)) :=
  have hfiles (loc : Location) (hloc : loc.IsProper) (_ : ByteArray) :=
    FileTree.read_placed root.isProper_location root'.isProper_location h h' hloc
  Workspace.relocated_of_rules_eq_nil hr hr' rfl hfiles rfl rfl

/-- Two modules that load each other. -/
def partners : List (Location × Entry) :=
  [(["main.js"], .file "require('./lib/util')".toUTF8), (["lib"], .directory),
    (["lib", "util.js"], .file "require('../main')".toUTF8)]

theorem compile_relocated_partners :
    ∃ g g' text, (plain ⟨"/a"⟩ "main").compile (.placed [["a"]] ["a"] partners) = .ok g ∧
      (plain ⟨"/b/x/../c"⟩ "main").compile (.placed [["b"], ["b", "c"]] ["b", "c"] partners) =
        .ok g' ∧
      g.modules.map (·.path.text) = ["/a/main.js", "/a/lib/util.js"] ∧
      g'.modules.map (·.path.text) = ["/b/c/main.js", "/b/c/lib/util.js"] ∧
      g'.keys = g.keys ∧ g.script = .ok text ∧ g'.script = .ok text := by
  have h : ((plain ⟨"/a"⟩ "main").workspace (.placed [["a"]] ["a"] partners)).Relocated
      ((plain ⟨"/b/x/../c"⟩ "main").workspace (.placed [["b"], ["b", "c"]] ["b", "c"] partners)) :=
    relocated_plain (by decide) (by decide) (by decide +kernel) (by decide +kernel)
  obtain ⟨hiff, hg⟩ := compile_relocated h rfl (by decide) (by decide +kernel) (by decide +kernel)
  have hgraph : (plain ⟨"/a"⟩ "main").compile (.placed [["a"]] ["a"] partners) =
      .ok ((plain ⟨"/a"⟩ "main").walk (.placed [["a"]] ["a"] partners)).graph :=
    Walk.run_verified.mpr (Walk.result_eq_ok.mpr ⟨by decide +kernel, by decide +kernel, rfl⟩)
  obtain ⟨g', hgraph'⟩ := hiff.mp ⟨_, hgraph⟩
  obtain ⟨hkeys, -, text, hscript, hscript'⟩ := hg _ g' hgraph hgraph'
  refine ⟨_, g', text, hgraph, hgraph', by decide +kernel, ?_, hkeys, hscript, hscript'⟩
  obtain ⟨-, -, rfl⟩ := Walk.result_eq_ok.mp (Walk.run_verified.mp hgraph')
  decide +kernel

/-- A module that names another one by an absolute path. -/
def absolute : List (Location × Entry) :=
  [(["main.js"], .file "require('/a/b/c.js')".toUTF8), (["b"], .directory),
    (["b", "c.js"], .file "".toUTF8), (["c.js"], .file "".toUTF8)]

/-- An absolute specifier does not lead above the root, but its key depends on where the root
is. -/
theorem not_compile_relocated_absolute :
    ¬ ∀ (c c' : Compiler) (files files' : FileTree),
      (c.workspace files).Relocated (c'.workspace files') →
      c'.config.entry = c.config.entry → (Path.mk c.config.entry).isAbsolute = false →
      Specifier.climbs ⟨"."⟩ c.config.entry = false →
      (∀ m ∈ (c.walk files).graph.modules, ∀ d ∈ m.dependencies,
        Specifier.climbs m.key.directory d.specifier = false) →
      (∀ m ∈ (c'.walk files').graph.modules, ∀ d ∈ m.dependencies,
        Specifier.climbs m.key.directory d.specifier = false) →
      ∀ g g', c.compile files = .ok g → c'.compile files' = .ok g' → g'.keys = g.keys := by
  intro h
  have hrelocated : ((plain ⟨"/a"⟩ "main").workspace (.placed [["a"]] ["a"] absolute)).Relocated
      ((plain ⟨"/a/b"⟩ "main").workspace (.placed [["a"], ["a", "b"]] ["a", "b"] absolute)) :=
    relocated_plain (by decide) (by decide) (by decide +kernel) (by decide +kernel)
  have hkeys := h _ _ _ _ hrelocated rfl (by decide) (by decide +kernel) (by decide +kernel)
    (by decide +kernel) _ _
    (Walk.run_verified.mpr (Walk.result_eq_ok.mpr ⟨by decide +kernel, by decide +kernel, rfl⟩))
    (Walk.run_verified.mpr (Walk.result_eq_ok.mpr ⟨by decide +kernel, by decide +kernel, rfl⟩))
  exact absurd hkeys (by decide +kernel)

end Compiler
end Bundler
