import Bundler.Loader.Builtin
import Bundler.Plugin.Builtin
import Bundler.Proofs.Rewrite
import Bundler.Proofs.Run.Output

/-! The script beside the files of the built-in plugins. A manifest is written after the script
and may be given any name, so it replaces the script exactly when its path leads to the script. -/
namespace Bundler

theorem Text.Utf8.encode_injective {cs ds : List Char} (h : encode cs = encode ds) : cs = ds :=
  String.ofList_injective (String.toByteArray_inj.mp h)

namespace Plugin

/-- The text of the manifest. -/
def manifestText (settings : Settings) (g : ModuleGraph) : List Char :=
  Json.prettyText 0 (manifestJson settings g) ++ ['\n']

/-- A manifest ends in a brace, a script in a call. -/
theorem manifestText_ne_script {settings : Settings} {g g' : ModuleGraph} {text : List Char}
    (h : g'.script = .ok text) : text ≠ manifestText settings g := by
  rintro rfl
  obtain ⟨-, -, h⟩ := exists_of_bind_eq_ok h
  split at h
  · cases h
  have hback := congrArg (fun cs => cs.reverse.take 2) (Except.ok.inj h)
  simp [manifestText, manifestJson, Json.prettyText] at hback

end Plugin

/-- The name of the manifest that the plugin writes, if it is to write one. -/
def PluginSpec.manifest? (s : PluginSpec) : Option String :=
  if s.plugin = "manifest" then (Plugin.manifestFile s.options).toOption else none

/-- The names of the manifests that a run writes. -/
def BuildOptions.manifests (o : BuildOptions) : List String :=
  o.plugins.filterMap PluginSpec.manifest?

namespace Plugin

/-- The tap writes a manifest of this name, or nothing. -/
def Writes (t : Tap) : Option String → Prop
  | some name => t.callback = writeManifest name
  | none => ∀ cx files, t.callback cx files = (files, none)

theorem find?_builtin {name : String} {maker : PluginMaker} (h : builtin.find? name = some maker) :
    (name = "manifest" ∧ maker = manifest) ∨ (name ≠ "manifest" ∧ maker = buildLog) := by
  have hentries : builtin.entries = [("build-log", buildLog), ("manifest", manifest)] := by
    have hlt : "build-log" < "manifest" := by decide
    simp [builtin, Registry.insert, Registry.insertSorted, hlt]
  rw [Registry.find?, hentries, List.lookup_cons, List.lookup_cons] at h
  split at h
  · rename_i hname
    rw [beq_iff_eq] at hname
    exact .inr ⟨by simp [hname], (Option.some.inj h).symm⟩
  · split at h
    · rename_i hname
      exact .inl ⟨beq_iff_eq.mp hname, (Option.some.inj h).symm⟩
    · cases h

theorem make_builtin {s : PluginSpec} {p : Plugin} (h : s.make builtin = .ok p) :
    (s.plugin = "manifest" ∧ manifest s.options = .ok p) ∨
      (s.plugin ≠ "manifest" ∧ buildLog s.options = .ok p) := by
  rw [PluginSpec.make] at h
  split at h
  · cases h
  rename_i maker hmaker
  have hok : maker s.options = .ok p := by
    split at h
    · rename_i hok
      rw [hok, Except.ok.inj h]
    · cases h
  rcases find?_builtin hmaker with ⟨hname, rfl⟩ | ⟨hname, rfl⟩
  · exact .inl ⟨hname, hok⟩
  · exact .inr ⟨hname, hok⟩

/-- A built-in plugin has one tap for `afterRun`, and its other taps write nothing. -/
theorem taps_builtin {s : PluginSpec} {p : Plugin} (h : s.make builtin = .ok p) :
    (∃ t, (p.taps.filterMap fun (q, t) => if q = .afterRun then some t else none) = [t] ∧
      Writes t s.manifest?) ∧
    ∀ t ∈ p.taps, t.1 ≠ .afterRun → Writes t.2 none := by
  rcases make_builtin h with ⟨hname, hp⟩ | ⟨hname, hp⟩
  · rw [PluginSpec.manifest?, if_pos hname]
    rw [manifest] at hp
    split at hp
    · rename_i name hfile
      cases hp
      refine ⟨⟨_, rfl, ?_⟩, ?_⟩
      · rw [hfile]
        rfl
      · simp
    · cases hp
  · rw [PluginSpec.manifest?, if_neg hname]
    cases hp
    refine ⟨⟨_, rfl, fun _ _ => rfl⟩, fun t ht _ => ?_⟩
    obtain ⟨_, -, rfl⟩ := List.mem_map.mp ht
    exact fun _ _ => rfl

end Plugin

namespace Compiler

open Plugin

variable {c : Compiler} {cx : HookContext} {files : FileTree} {specs : List PluginSpec}
  {g : ModuleGraph} {q : Path} {b : ByteArray}

/-- The plugin that each spec makes, in the order of the specs. -/
theorem configure_plugins {o : BuildOptions} {cwd : Path} {config : BuildConfig} {known : Plugins}
    (h : o.configure cwd known = .ok config) :
    List.Forall₂ (fun s p => s.make known = .ok p) o.plugins config.plugins := by
  obtain ⟨settings, -, h⟩ := exists_of_bind_eq_ok h
  obtain ⟨rules, -, h⟩ := exists_of_bind_eq_ok h
  obtain ⟨plugins, hplugins, h⟩ := exists_of_bind_eq_ok h
  cases h
  exact mapM_eq_ok hplugins

/-- The taps of `afterRun` write the manifests, one spec after the other. -/
theorem afterRun_writes (h : List.Forall₂ (fun s p => s.make builtin = .ok p) specs c.config.plugins) :
    List.Forall₂ (fun s t => Writes t s.manifest?) specs (c.hooks.taps .afterRun) := by
  rw [hooks, Hooks.ofPlugins, Hooks.taps, List.filterMap_flatMap]
  generalize c.config.plugins = plugins at h ⊢
  induction h with
  | nil => exact .nil
  | cons hp _ ih =>
    obtain ⟨⟨t, ht, hwrites⟩, -⟩ := taps_builtin hp
    rw [List.flatMap_cons, ht]
    exact .cons hwrites ih

/-- Before `afterRun` the built-in plugins write nothing. -/
theorem leavesFiles_builtin
    (h : List.Forall₂ (fun s p => s.make builtin = .ok p) specs c.config.plugins) {phase : Phase}
    (hphase : phase ≠ .afterRun) : c.LeavesFiles phase := by
  intro t ht cx files
  obtain ⟨p, hp, hmem⟩ := exists_plugin_of_mem_taps ht
  obtain ⟨s, -, hs⟩ := exists_of_forall₂ h p hp
  rw [(taps_builtin hs).2 _ hmem hphase]

theorem writeManifest_eq_none {name : String} {after : FileTree} (hg : cx.graph = some g)
    (h : writeManifest name cx files = (after, none)) :
    files.write (cx.settings.outputPath.join ⟨name⟩)
      (Text.Utf8.encode (manifestText cx.settings g)) = .ok after := by
  rw [writeManifest, hg] at h
  dsimp only at h
  split at h
  · rename_i hwrite
    cases h
    exact hwrite
  · cases h

/-- After the manifests are written, a file that could be read before can still be read, and has a
new content only when the path of a manifest leads to it. -/
theorem runAll_read {ts : List Tap} (h : List.Forall₂ (fun s t => Writes t s.manifest?) specs ts)
    (hg : cx.graph = some g) (hdone : (Tap.runAll cx files ts).error = none)
    (hq : files.read q = .ok b) :
    (Tap.runAll cx files ts).files.read q =
      .ok (if ∃ name ∈ specs.filterMap PluginSpec.manifest?,
          q.location = (cx.settings.outputPath.join ⟨name⟩).location
        then Text.Utf8.encode (manifestText cx.settings g) else b) := by
  induction h generalizing files b with
  | nil => simpa [Tap.runAll] using hq
  | @cons s t specs ts ht _ ih =>
    rcases hcall : t.callback cx files with ⟨after, reason⟩
    rw [Tap.runAll, hcall] at hdone ⊢
    cases reason with
    | some reason => cases hdone
    | none =>
      have hnext : after.read q = .ok (if ∃ name ∈ s.manifest?,
          q.location = (cx.settings.outputPath.join ⟨name⟩).location
          then Text.Utf8.encode (manifestText cx.settings g) else b) := by
        cases hs : s.manifest? with
        | none =>
          rw [hs] at ht
          obtain ⟨rfl, -⟩ := Prod.mk.inj ((ht cx files).symm.trans hcall)
          simpa using hq
        | some name =>
          rw [hs] at ht
          rw [ht] at hcall
          simpa using FileTree.read_write_of_read (writeManifest_eq_none hg hcall) hq
      rw [ih hdone hnext, List.filterMap_cons]
      cases hs : s.manifest? with
      | none => simp
      | some name =>
        simp only [List.exists_mem_cons_iff]
        by_cases hrest : ∃ name ∈ specs.filterMap PluginSpec.manifest?,
            q.location = (cx.settings.outputPath.join ⟨name⟩).location
        · rw [if_pos hrest, if_pos (.inr hrest)]
        · simp only [hrest, or_false, if_false, Option.mem_some_iff, exists_eq_left']

/-- What a successful run with built-in plugins leaves at the path of the script. -/
theorem read_artifact {out : BuildOutput}
    (h : List.Forall₂ (fun s p => s.make builtin = .ok p) specs c.config.plugins)
    (hrun : (c.run files).1 = .ok out) :
    c.compile files = .ok out.graph ∧ out.graph.script = .ok out.artifact ∧
      out.artifactPath = c.config.artifactPath ∧
      (c.run files).2.files.read c.config.artifactPath =
        .ok (if ∃ name ∈ specs.filterMap PluginSpec.manifest?, c.config.artifactPath.location =
            (c.config.outputPath.join ⟨name⟩).location
          then Text.Utf8.encode (manifestText c.config.toSettings out.graph)
          else (String.ofList out.artifact).toUTF8) := by
  obtain ⟨s₁, s₂, hprepare, hwrite, hcall, hpath⟩ := steps_eq_ok (run_eq_ok hrun)
  have hkeeps := prepare_keeps (fun _ hphase => leavesFiles_builtin h hphase) { files } rfl
  rw [hprepare] at hkeeps
  obtain ⟨-, hgraph, hscript⟩ := hkeeps
  refine ⟨hgraph, hscript, hpath, ?_⟩
  rw [callHooks_eq] at hcall
  dsimp only at hcall
  split at hcall
  · cases hcall
  rename_i hdone
  have hread := runAll_read (afterRun_writes h) rfl hdone (writeArtifact_eq_ok hwrite)
  rw [← (EStateM.Result.ok.inj hcall).2]
  exact hread

/-- A run with built-in plugins that succeeds leaves the whole script at its path, unless a
manifest was given a name that leads to the same file. -/
theorem run_artifact {o : BuildOptions} {cwd : Path} {out : BuildOutput}
    (hconfig : o.configure cwd builtin = .ok c.config) (hrun : (c.run files).1 = .ok out) :
    c.compile files = .ok out.graph ∧ out.graph.script = .ok out.artifact ∧
      out.artifactPath = c.config.artifactPath ∧
      out.size = (String.ofList out.artifact).toUTF8.size ∧
      ((c.run files).2.files.read out.artifactPath = .ok (String.ofList out.artifact).toUTF8 ↔
        ∀ name ∈ o.manifests, c.config.artifactPath.location ≠
          (c.config.outputPath.join ⟨name⟩).location) := by
  obtain ⟨hgraph, hscript, hpath, hread⟩ := read_artifact (configure_plugins hconfig) hrun
  refine ⟨hgraph, hscript, hpath, rfl, ?_⟩
  rw [hpath, hread]
  split_ifs with hreplaced
  · obtain ⟨name, hname, heq⟩ := hreplaced
    constructor
    · intro h
      exact absurd (Text.Utf8.encode_injective (Except.ok.inj h)).symm
        (manifestText_ne_script hscript)
    · intro h
      exact absurd heq (h name hname)
  · simpa [BuildOptions.manifests] using hreplaced

/-- Options with two manifests and a log. One manifest has a name of its own. -/
def listing (name : String) : BuildOptions where
  entry := some "main"
  plugins := [.name "manifest", .name "build-log",
    .configured "manifest" (.object [("fileName", .string name)])]

def lister (name : String) : Compiler where
  config := {
    root := ⟨"/p"⟩
    entry := "main"
    plugins := [⟨"manifest", [(.afterRun, ⟨"manifest", writeManifest "manifest.json"⟩)]⟩,
      ⟨"build-log", Phase.all.map fun p => (p, ⟨"build-log", fun _ files => (files, none)⟩)⟩,
      ⟨"manifest", [(.afterRun, ⟨"manifest", writeManifest name⟩)]⟩] }
  loaders := Loader.builtin

theorem exists_run_lister {name : String} (h : name ∈ ["../list.json", "bundle.js"]) :
    ∃ out, ((lister name).run builtFiles).1 = .ok out := by
  have hok : ∀ name ∈ ["../list.json", "bundle.js"],
      ((lister name).run builtFiles).1.toBool = true := by decide +kernel
  specialize hok name h
  cases hrun : ((lister name).run builtFiles).1 with
  | error e =>
    rw [hrun] at hok
    cases hok
  | ok out => exact ⟨out, rfl⟩

theorem run_artifact_listed :
    (listing "../list.json").configure ⟨"/p"⟩ builtin = .ok (lister "../list.json").config ∧
    (listing "../list.json").manifests = ["manifest.json", "../list.json"] ∧
    ∃ out, ((lister "../list.json").run builtFiles).1 = .ok out ∧
      out.graph.script = .ok out.artifact ∧
      ((lister "../list.json").run builtFiles).2.files.read out.artifactPath =
        .ok (String.ofList out.artifact).toUTF8 := by
  have hconfig : (listing "../list.json").configure ⟨"/p"⟩ builtin =
      .ok (lister "../list.json").config := rfl
  have hmanifests : (listing "../list.json").manifests = ["manifest.json", "../list.json"] := by
    decide +kernel
  obtain ⟨out, hrun⟩ := exists_run_lister (show "../list.json" ∈ _ by decide)
  obtain ⟨-, hscript, -, -, hread⟩ := run_artifact hconfig hrun
  refine ⟨hconfig, hmanifests, out, hrun, hscript, hread.mpr ?_⟩
  rw [hmanifests]
  decide +kernel

/-- A manifest with the name of the script is written over it, and the run succeeds. -/
theorem not_run_artifact :
    ¬ ∀ (o : BuildOptions) (cwd : Path) (c : Compiler) (files : FileTree) (out : BuildOutput),
      o.configure cwd builtin = .ok c.config → c.loaders = Loader.builtin →
      c.frontEnd = .javaScript → (c.run files).1 = .ok out →
      (c.run files).2.files.read out.artifactPath = .ok (String.ofList out.artifact).toUTF8 := by
  intro h
  have hconfig : (listing "bundle.js").configure ⟨"/p"⟩ builtin =
      .ok (lister "bundle.js").config := rfl
  have hreplaced : ∃ name ∈ (listing "bundle.js").plugins.filterMap PluginSpec.manifest?,
      (lister "bundle.js").config.artifactPath.location =
        ((lister "bundle.js").config.outputPath.join ⟨name⟩).location :=
    ⟨"bundle.js", by decide +kernel, by decide +kernel⟩
  obtain ⟨out, hrun⟩ := exists_run_lister (show "bundle.js" ∈ _ by decide)
  obtain ⟨-, hscript, hpath, hread⟩ := read_artifact (configure_plugins hconfig) hrun
  have hscriptLeft := h _ _ _ _ out hconfig rfl rfl hrun
  rw [hpath, hread, if_pos hreplaced] at hscriptLeft
  exact manifestText_ne_script hscript
    (Text.Utf8.encode_injective (Except.ok.inj hscriptLeft)).symm

end Compiler
end Bundler
