import Bundler.Proofs.FileTree.Change
import Bundler.Proofs.Run.Lifecycle

/-! The output of a run. The steps of a run up to the hooks of `emit` only read files; then the
script is written as a whole, and the hooks of `afterRun` follow. So a run that fails before the
script is written leaves the files as they were, and one that fails after it leaves the script. -/
namespace Bundler

/-- No callback of the plugin touches a file. -/
def Plugin.LeavesFiles (p : Plugin) : Prop :=
  ∀ t ∈ p.taps, ∀ cx files, (t.2.callback cx files).1 = files

/-- No callback of the phase touches a file. -/
def Compiler.LeavesFiles (c : Compiler) (phase : Phase) : Prop :=
  ∀ t ∈ c.hooks.taps phase, ∀ cx files, (t.callback cx files).1 = files

theorem FileTree.read_writeWhole {files written : FileTree} {p : Path} {content : ByteArray}
    (h : files.writeWhole p content = (written, none)) : written.read p = .ok content := by
  rw [writeWhole] at h
  dsimp only at h
  split at h
  · cases h
  split at h
  · cases h
  rename_i hwrite
  split at h
  · cases h
  rename_i hrename
  cases h
  rw [read_rename hrename, read_write hwrite]

/-! ### Steps that only read -/

/-- From these files the step leaves the files as they are, and `Q` holds of its answer. -/
def Keeps {α : Type} (files : FileTree) (p : Step α) (Q : α → Prop) : Prop :=
  ∀ s, s.files = files → match p s with
    | .ok a s' => s'.files = files ∧ Q a
    | .error _ s' => s'.files = files

namespace Keeps

variable {α β : Type} {files : FileTree} {p : Step α} {f : α → Step β} {P : α → Prop}
  {Q : β → Prop}

theorem pure {b : β} (h : Q b) : Keeps files (Pure.pure b : Step β) Q := fun _ hs => ⟨hs, h⟩

theorem bind (hp : Keeps files p P) (hf : ∀ a, P a → Keeps files (f a) Q) :
    Keeps files (p >>= f) Q := by
  intro s hs
  have hps := hp s hs
  cases h : p s with
  | error e s' =>
    rw [h] at hps
    rw [show (p >>= f) s = .error e s' by simp [Bind.bind, EStateM.bind, h]]
    exact hps
  | ok a s' =>
    rw [h] at hps
    rw [show (p >>= f) s = f a s' by simp [Bind.bind, EStateM.bind, h]]
    exact hf a hps.2 s' hps.1

end Keeps

namespace Compiler

variable {c : Compiler} {files : FileTree} {cx : HookContext} {e : BuildError}

theorem exists_plugin_of_mem_taps {phase : Phase} {t : Tap} (h : t ∈ c.hooks.taps phase) :
    ∃ p ∈ c.config.plugins, (phase, t) ∈ p.taps := by
  obtain ⟨⟨q, t'⟩, hmem, ht⟩ := List.mem_filterMap.mp h
  obtain ⟨p, hp, hmem⟩ := List.mem_flatMap.mp hmem
  simp only at ht
  split_ifs at ht with hq
  cases ht
  exact ⟨p, hp, hq ▸ hmem⟩

theorem leavesFiles_of_plugins (h : ∀ p ∈ c.config.plugins, p.LeavesFiles) (phase : Phase) :
    c.LeavesFiles phase := by
  intro t ht
  obtain ⟨p, hp, hmem⟩ := exists_plugin_of_mem_taps ht
  exact h p hp _ hmem

theorem runAll_files {ts : List Tap} (h : ∀ t ∈ ts, ∀ cx files, (t.callback cx files).1 = files)
    (cx : HookContext) (files : FileTree) : (Tap.runAll cx files ts).files = files := by
  induction ts with
  | nil => rfl
  | cons t ts ih =>
    have ht := h t List.mem_cons_self cx files
    rw [Tap.runAll]
    rcases hcall : t.callback cx files with ⟨after, reason⟩
    rw [hcall] at ht
    obtain rfl : after = files := ht
    cases reason with
    | some reason => rfl
    | none => exact ih fun t' ht' => h t' (List.mem_cons_of_mem _ ht')

theorem callHooks_keeps (h : c.LeavesFiles cx.phase) :
    Keeps files (c.callHooks cx) fun _ => True := by
  rintro s rfl
  have hfiles := runAll_files h cx s.files
  rw [callHooks_eq]
  dsimp only
  cases (Tap.runAll cx s.files (c.hooks.taps cx.phase)).error with
  | some e => exact hfiles
  | none => exact ⟨hfiles, trivial⟩

theorem ofExcept_keeps {α : Type} (x : Except BuildError α) :
    Keeps files (ofExcept x) fun a => x = .ok a := by
  intro s hs
  cases x with
  | error e => exact hs
  | ok a => exact ⟨hs, rfl⟩

theorem findModules_keeps : Keeps files c.findModules fun g => c.compile files = .ok g := by
  rintro s rfl
  exact ofExcept_keeps (c.compile s.files) { s with walk := some (c.walk s.files) } rfl

/-! ### The parts of a run -/

/-- The steps before the script is written. -/
def prepare (c : Compiler) : Step (ModuleGraph × List Char) := do
  c.callHooks (c.context .beforeRun)
  c.callHooks (c.context .beforeCompile)
  let graph ← c.findModules
  c.callHooks { c.context .afterCompile with graph := some graph }
  let artifact ← ofExcept graph.script
  c.callHooks { c.context .emit with graph := some graph, artifact := some artifact }
  return (graph, artifact)

/-- What the hooks of `afterRun` see. -/
def afterRunContext (c : Compiler) (graph : ModuleGraph) (artifact : List Char) : HookContext :=
  { c.context .afterRun with
    graph := some graph, artifact := some artifact, artifactPath := some c.config.artifactPath }

/-- The steps from there on. -/
def finish (c : Compiler) (graph : ModuleGraph) (artifact : List Char) : Step BuildOutput := do
  writeArtifact c.config.artifactPath artifact
  c.callHooks (c.afterRunContext graph artifact)
  return { graph, artifact, artifactPath := c.config.artifactPath }

theorem steps_eq (c : Compiler) : c.steps = c.prepare >>= fun r => c.finish r.1 r.2 := by
  simp only [steps, prepare, finish, afterRunContext, bind_assoc, pure_bind]

/-- All that happens before the script is written leaves the files as they are. -/
theorem prepare_keeps (h : ∀ phase, phase ≠ .afterRun → c.LeavesFiles phase) :
    Keeps files c.prepare fun r => c.compile files = .ok r.1 ∧ r.1.script = .ok r.2 :=
  (callHooks_keeps (h .beforeRun (by decide))).bind fun _ _ =>
    (callHooks_keeps (h .beforeCompile (by decide))).bind fun _ _ =>
    findModules_keeps.bind fun g hg =>
    (callHooks_keeps (h .afterCompile (by decide))).bind fun _ _ =>
    (ofExcept_keeps g.script).bind fun _ hscript =>
    (callHooks_keeps (h .emit (by decide))).bind fun _ _ => .pure ⟨hg, hscript⟩

/-! ### The output -/

theorem steps_of_prepare_error {s : Progress} (h : c.prepare { files } = .error e s) :
    c.steps { files } = .error e s := by
  rw [steps_eq]
  simp [Bind.bind, EStateM.bind, h]

theorem steps_of_prepare_ok {graph : ModuleGraph} {artifact : List Char} {s s' : Progress}
    (h : c.prepare { files } = .ok (graph, artifact) s)
    (hwrite : writeArtifact c.config.artifactPath artifact s = .ok () s') :
    c.steps { files } = match c.callHooks (c.afterRunContext graph artifact) s' with
      | .ok _ s'' => .ok { graph, artifact, artifactPath := c.config.artifactPath } s''
      | .error e s'' => .error e s'' := by
  rw [steps_eq]
  simp only [Bind.bind, EStateM.bind, h, finish, hwrite]
  cases c.callHooks (c.afterRunContext graph artifact) s' <;> rfl

/-- A run that succeeds went through all its parts. -/
theorem steps_eq_ok {out : BuildOutput} {s : Progress} (h : c.steps { files } = .ok out s) :
    ∃ s₁ s₂, c.prepare { files } = .ok (out.graph, out.artifact) s₁ ∧
      writeArtifact c.config.artifactPath out.artifact s₁ = .ok () s₂ ∧
      c.callHooks (c.afterRunContext out.graph out.artifact) s₂ = .ok () s ∧
      out.artifactPath = c.config.artifactPath := by
  rw [steps_eq] at h
  simp only [Bind.bind, EStateM.bind, finish] at h
  cases hprepare : c.prepare { files } with
  | error e s₁ =>
    rw [hprepare] at h
    cases h
  | ok r s₁ =>
    rw [hprepare] at h
    dsimp only at h
    cases hwrite : writeArtifact c.config.artifactPath r.2 s₁ with
    | error e s₂ =>
      rw [hwrite] at h
      cases h
    | ok u s₂ =>
      rw [hwrite] at h
      dsimp only at h
      cases hcall : c.callHooks (c.afterRunContext r.1 r.2) s₂ with
      | error e s₃ =>
        rw [hcall] at h
        cases h
      | ok u s₃ =>
        rw [hcall] at h
        cases h
        exact ⟨s₁, s₂, rfl, hwrite, hcall, rfl⟩

theorem run_eq_ok {out : BuildOutput} (h : (c.run files).1 = .ok out) :
    c.steps { files } = .ok out (c.run files).2 := by
  rw [run] at h ⊢
  split at h
  · cases h
    assumption
  · split at h <;> cases h

theorem run_files_of_error {s : Progress} (hfailed : c.LeavesFiles .failed)
    (h : c.steps { files } = .error e s) :
    failure? (c.run files).1 = some e ∧ (c.run files).2.files = s.files := by
  rw [run_of_error h]
  exact ⟨rfl, runAll_files hfailed _ _⟩

theorem writeArtifact_eq_ok {p : Path} {artifact : List Char} {s s' : Progress}
    (h : writeArtifact p artifact s = .ok () s') :
    s'.files.read p = .ok (String.ofList artifact).toUTF8 := by
  rw [writeArtifact] at h
  split at h
  · cases h
  rename_i hwrite
  cases h
  exact FileTree.read_writeWhole hwrite

/-- When no plugin touches a file, a run that fails in its hooks up to `emit`, in finding the
modules or in rendering leaves exactly the files it began with. Once the script is written, it
stays there whole, and the run fails only if the hooks of `afterRun` do. -/
theorem run_output (h : ∀ p ∈ c.config.plugins, p.LeavesFiles) (files : FileTree) :
    (∀ e s, c.prepare { files } = .error e s →
      failure? (c.run files).1 = some e ∧ (c.run files).2.files = files) ∧
    ∀ graph artifact s s', c.prepare { files } = .ok (graph, artifact) s →
      writeArtifact c.config.artifactPath artifact s = .ok () s' →
      c.compile files = .ok graph ∧ graph.script = .ok artifact ∧
      failure? (c.run files).1 = (c.hooks.call (c.afterRunContext graph artifact) s'.files).error ∧
      (c.run files).2.files.read c.config.artifactPath = .ok (String.ofList artifact).toUTF8 := by
  have hleaves := leavesFiles_of_plugins h
  have hprepare := prepare_keeps (fun phase _ => hleaves phase) { files } rfl
  constructor
  · intro e s hs
    rw [hs] at hprepare
    obtain ⟨hfailure, hfiles⟩ := run_files_of_error (hleaves .failed) (steps_of_prepare_error hs)
    exact ⟨hfailure, hfiles.trans hprepare⟩
  · intro graph artifact s s' hs hwrite
    rw [hs] at hprepare
    obtain ⟨-, hgraph, hscript⟩ := hprepare
    refine ⟨hgraph, hscript, ?_⟩
    have hread := writeArtifact_eq_ok hwrite
    have hsteps := steps_of_prepare_ok hs hwrite
    have hkeeps := callHooks_keeps (hleaves (c.afterRunContext graph artifact).phase) s' rfl
    rw [callHooks_eq] at hsteps hkeeps
    dsimp only at hsteps hkeeps
    rw [Hooks.call]
    cases herror : (Tap.runAll (c.afterRunContext graph artifact) s'.files
        (c.hooks.taps (c.afterRunContext graph artifact).phase)).error with
    | some e =>
      rw [herror] at hsteps hkeeps
      obtain ⟨hfailure, hfiles⟩ := run_files_of_error (hleaves .failed) hsteps
      exact ⟨hfailure, by rw [hfiles, hkeeps, hread]⟩
    | none =>
      rw [herror] at hsteps hkeeps
      rw [run, hsteps]
      exact ⟨rfl, by rw [hkeeps.1, hread]⟩

/-- A plugin that refuses to go on in a phase. -/
def refusal (phase : Phase) : Plugin :=
  ⟨"guard", [(phase, ⟨"guard", fun _ files => (files, some "refused")⟩)]⟩

def refusing (phase : Phase) : Compiler where
  config := { root := ⟨"/p"⟩, entry := "main", plugins := [refusal phase] }
  loaders := {}

/-- A module, and a script of an earlier run. -/
def builtFiles : FileTree :=
  ⟨[(["p"], .directory), (["p", "main.js"], .file "exports.a = 1;".toUTF8),
    (["p", "dist"], .directory), (["p", "dist", "bundle.js"], .file "old".toUTF8)]⟩

theorem run_output_refusing :
    (∀ phase, ∀ p ∈ (refusing phase).config.plugins, p.LeavesFiles) ∧
    (failure? ((refusing .emit).run builtFiles).1 = some (.plugin "guard" (some .emit) "refused") ∧
      ((refusing .emit).run builtFiles).2.files = builtFiles) ∧
    failure? ((refusing .afterRun).run builtFiles).1 =
      some (.plugin "guard" (some .afterRun) "refused") ∧
    ∃ graph artifact, (refusing .afterRun).compile builtFiles = .ok graph ∧
      graph.script = .ok artifact ∧ ((refusing .afterRun).run builtFiles).2.files.read
        (refusing .afterRun).config.artifactPath = .ok (String.ofList artifact).toUTF8 := by
  have hleaves (phase : Phase) : ∀ p ∈ (refusing phase).config.plugins, p.LeavesFiles := by
    intro p hp t ht cx files
    rw [List.mem_singleton.mp hp] at ht
    rw [List.mem_singleton.mp ht]
  refine ⟨hleaves, ?_, by decide +kernel, ?_⟩
  · have herror : (match (refusing .emit).prepare { files := builtFiles } with
        | .error e _ => some e
        | .ok .. => none) = some (.plugin "guard" (some .emit) "refused") := by decide +kernel
    split at herror
    · rename_i hprepare
      cases herror
      exact (run_output (hleaves .emit) builtFiles).1 _ _ hprepare
    · cases herror
  · have hwritten : (match (refusing .afterRun).prepare { files := builtFiles } with
        | .error .. => false
        | .ok (_, artifact) s =>
          match writeArtifact (refusing .afterRun).config.artifactPath artifact s with
          | .error .. => false
          | .ok .. => true) = true := by decide +kernel
    split at hwritten
    · cases hwritten
    rename_i graph artifact s hprepare
    split at hwritten
    · cases hwritten
    rename_i hwrite
    obtain ⟨hgraph, hscript, -, hread⟩ :=
      (run_output (hleaves .afterRun) builtFiles).2 graph artifact s _ hprepare hwrite
    exact ⟨graph, artifact, hgraph, hscript, hread⟩

end Compiler
end Bundler
