import Bundler.Proofs.Run.History

/-! The lifecycle of a run. The acts of a run are planned by the taps of its plugins; a run
performs them in their order up to the first that fails, and then the calls of `failed`. The
context of a call tells what the run knows by then, and nothing more. -/
namespace Bundler

namespace Compiler

/-- The calls of a phase: of each plugin in turn, the taps on that phase. -/
def acts (c : Compiler) (phase : Phase) : List Act :=
  c.config.plugins.flatMap fun p => (p.taps.filter (·.1 = phase)).map fun t => .call phase t.2

/-- The acts of a run that does not fail. -/
def plan (c : Compiler) : List Act :=
  c.acts .beforeRun ++ (c.acts .beforeCompile ++ ([.compile] ++ (c.acts .afterCompile ++
    ([.render] ++ (c.acts .emit ++ ([.write] ++ c.acts .afterRun))))))

end Compiler

/-- A context tells what is known after some events, and why the run failed. -/
structure Informed (c : Compiler) (events : List Event) (failure : Option BuildError)
    (cx : HookContext) : Prop where
  settings : cx.settings = c.config.toSettings
  graph : (cx.graph.isSome ↔ cx.phase ∈ [.afterCompile, .emit, .afterRun]) ∧
    ∀ g ∈ cx.graph, .compiled (.ok g) ∈ events
  artifact : (cx.artifact.isSome ↔ cx.phase ∈ [.emit, .afterRun]) ∧
    ∀ a ∈ cx.artifact, ∃ g ∈ cx.graph, .rendered g (.ok a) ∈ events
  artifactPath : cx.artifactPath = if cx.phase = .afterRun then some c.config.artifactPath else none
  error : cx.error = if cx.phase = .failed then failure.map BuildError.message else none

/-- An event goes back to others: what is known in a call, what is rendered and what is written
comes from the acts before. -/
def Event.IsGrounded (c : Compiler) (events : List Event) (failure : Option BuildError) :
    Event → Prop
  | called _ cx _ => Informed c events failure cx
  | compiled _ => True
  | rendered g _ => .compiled (.ok g) ∈ events
  | written artifact _ => ∃ g, .rendered g (.ok artifact) ∈ events

/-- All events go back to each other, however the run ends. -/
def AllGrounded (c : Compiler) (events : List Event) : Prop :=
  ∀ x ∈ events, ∀ failure, x.IsGrounded c events failure

variable {c : Compiler} {xs ys : List Event} {cx : HookContext} {failure : Option BuildError}

theorem Informed.mono (h : Informed c xs failure cx) (hsub : xs ⊆ ys) :
    Informed c ys failure cx where
  settings := h.settings
  graph := ⟨h.graph.1, fun g hg => hsub (h.graph.2 g hg)⟩
  artifact := ⟨h.artifact.1, fun a ha =>
    have ⟨g, hg, hr⟩ := h.artifact.2 a ha
    ⟨g, hg, hsub hr⟩⟩
  artifactPath := h.artifactPath
  error := h.error

theorem Event.IsGrounded.mono {x : Event} (h : x.IsGrounded c xs failure) (hsub : xs ⊆ ys) :
    x.IsGrounded c ys failure := by
  cases x with
  | called t cx reason => exact Informed.mono h hsub
  | compiled answer => trivial
  | rendered g answer => exact hsub h
  | written artifact failure =>
    obtain ⟨g, hg⟩ := h
    exact ⟨g, hsub hg⟩

theorem AllGrounded.append (h : AllGrounded c xs)
    (h' : ∀ x ∈ ys, ∀ failure, x.IsGrounded c xs failure) : AllGrounded c (xs ++ ys) := by
  intro x hx failure
  have hx : x.IsGrounded c xs failure := (List.mem_append.mp hx).elim
    (fun hx => h x hx failure) fun hx => h' x hx failure
  exact hx.mono (List.subset_append_left _ _)

/-! ### The steps of a run -/

namespace Compiler

/-- All events are calls with one context. -/
def CallsWith (cx : HookContext) (xs : List Event) : Prop :=
  ∀ x ∈ xs, ∃ t reason, x = .called t cx reason

theorem acts_eq (c : Compiler) (phase : Phase) :
    c.acts phase = (c.hooks.taps phase).map (.call phase) := by
  rw [acts, hooks, Hooks.taps, Hooks.ofPlugins, List.filterMap_flatMap, List.map_flatMap]
  congr 1
  funext p
  induction p.taps with
  | nil => rfl
  | cons t ts ih =>
    obtain ⟨q, t⟩ := t
    by_cases hq : q = phase
    · simp [hq, ih]
    · simp [hq, ih]

theorem runAll_performed (c : Compiler) (cx : HookContext) (ts : List Tap) (files : FileTree) :
    ∃ xs, History c files xs (Tap.runAll cx files ts).files ∧
      (Tap.runAll cx files ts).calls = xs.filterMap Event.call? ∧
      Performed (ts.map (.call cx.phase)) xs (Tap.runAll cx files ts).error ∧ CallsWith cx xs := by
  induction ts generalizing files with
  | nil => exact ⟨[], .nil files, rfl, ⟨rfl, by simp⟩, by simp [CallsWith]⟩
  | cons t ts ih =>
    rcases hcall : t.callback cx files with ⟨mid, reason⟩
    have hleads : (Event.called t cx reason).Leads c files mid := hcall
    rw [Tap.runAll, hcall]
    cases reason with
    | some reason =>
      refine ⟨[.called t cx (some reason)], .cons hleads (.nil mid), rfl, ?_, ?_⟩
      · exact ⟨[], _, rfl, by simp [Event.act], by simp, rfl⟩
      · simp [CallsWith]
    | none =>
      obtain ⟨xs, hxs, hcalls, hperformed, hwith⟩ := ih mid
      refine ⟨.called t cx none :: xs, .cons hleads hxs, ?_, ?_, ?_⟩
      · exact congrArg (_ :: ·) hcalls
      · have hone : Performed [.call cx.phase t] [.called t cx none] none :=
          ⟨rfl, by simp [Event.failure]⟩
        exact hone.append hperformed
      · simpa [CallsWith] using hwith

theorem callHooks_eq (c : Compiler) (cx : HookContext) (s : Progress) :
    c.callHooks cx s =
      let r := Tap.runAll cx s.files (c.hooks.taps cx.phase)
      match r.error with
      | some e => .error e { s with files := r.files, calls := s.calls ++ r.calls }
      | none => .ok () { s with files := r.files, calls := s.calls ++ r.calls } := rfl

variable {past : List Event}

/-- The calls of a phase whose context tells what is known. -/
theorem callHooks_performs (phase : Phase) (hphase : cx.phase = phase) (hpast : AllGrounded c past)
    (hcx : ∀ failure, Informed c past failure cx) :
    Performs c past (c.acts phase) (c.callHooks cx) fun _ now => past ⊆ now ∧ AllGrounded c now := by
  subst hphase
  intro s
  obtain ⟨xs, hxs, hcalls, hperformed, hwith⟩ :=
    runAll_performed c cx (c.hooks.taps cx.phase) s.files
  have hall : AllGrounded c (past ++ xs) := hpast.append fun x hx => by
    obtain ⟨_, _, rfl⟩ := hwith x hx
    exact hcx
  refine ⟨xs, ?_⟩
  rw [← acts_eq] at hperformed
  rw [callHooks, Hooks.call]
  cases herror : (Tap.runAll cx s.files (c.hooks.taps cx.phase)).error with
  | none =>
    exact ⟨⟨hxs, by rw [hcalls]⟩, herror ▸ hperformed, List.subset_append_left _ _, hall⟩
  | some e =>
    exact ⟨⟨hxs, by rw [hcalls]⟩, herror ▸ hperformed, List.subset_append_left _ _, hall⟩

/-- What a step between the phases does is one event. -/
theorem performs_one {α : Type} {p : Step α} {a : Act} {R : Option α → Event → Prop}
    (hpast : AllGrounded c past)
    (hp : ∀ s, ∃ x : Event, x.act = a ∧ x.call? = none ∧ (∀ failure, x.IsGrounded c past failure) ∧
      match p s with
      | .ok b s' =>
        x.Leads c s.files s'.files ∧ s'.calls = s.calls ∧ x.failure = none ∧ R (some b) x
      | .error e s' =>
        x.Leads c s.files s'.files ∧ s'.calls = s.calls ∧ x.failure = some e ∧ R none x) :
    Performs c past [a] p fun b now => past ⊆ now ∧ AllGrounded c now ∧ ∃ x ∈ now, R b x := by
  intro s
  obtain ⟨x, rfl, hcall, hground, hx⟩ := hp s
  have hall : AllGrounded c (past ++ [x]) := hpast.append fun y hy => by
    rw [List.mem_singleton.mp hy]
    exact hground
  have hrecorded {s' : Progress} (h : x.Leads c s.files s'.files) (hcalls : s'.calls = s.calls) :
      Recorded c s [x] s' := ⟨.cons h (.nil _), by simp [hcalls, hcall]⟩
  refine ⟨[x], ?_⟩
  cases h : p s with
  | ok b s' =>
    rw [h] at hx
    obtain ⟨hleads, hcalls, hfailure, hR⟩ := hx
    exact ⟨hrecorded hleads hcalls, ⟨rfl, by simpa using hfailure⟩,
      List.subset_append_left _ _, hall, x, by simp, hR⟩
  | error e s' =>
    rw [h] at hx
    obtain ⟨hleads, hcalls, hfailure, hR⟩ := hx
    exact ⟨hrecorded hleads hcalls, ⟨[], x, rfl, List.prefix_refl _, by simp, hfailure⟩,
      List.subset_append_left _ _, hall, x, by simp, hR⟩

theorem findModules_performs (hpast : AllGrounded c past) :
    Performs c past [.compile] c.findModules fun g now => past ⊆ now ∧ AllGrounded c now ∧
      ∃ x ∈ now, ∀ m ∈ g, x = .compiled (.ok m) := by
  refine performs_one hpast fun s => ⟨.compiled (c.compile s.files), rfl, rfl, fun _ => trivial, ?_⟩
  rw [findModules]
  cases h : c.compile s.files with
  | ok g =>
    rw [show (c.walk s.files).verified = .ok g from h]
    exact ⟨⟨rfl, h⟩, rfl, rfl, by simp⟩
  | error e =>
    rw [show (c.walk s.files).verified = .error e from h]
    exact ⟨⟨rfl, h⟩, rfl, rfl, by simp⟩

theorem render_performs {g : ModuleGraph} (hpast : AllGrounded c past)
    (hg : .compiled (.ok g) ∈ past) :
    Performs c past [.render] (ofExcept g.script) fun a now => past ⊆ now ∧ AllGrounded c now ∧
      ∃ x ∈ now, ∀ t ∈ a, x = .rendered g (.ok t) := by
  refine performs_one hpast fun s => ⟨.rendered g g.script, rfl, rfl, fun _ => hg, ?_⟩
  cases h : g.script with
  | ok a => exact ⟨⟨rfl, h⟩, rfl, rfl, by simp⟩
  | error e => exact ⟨⟨rfl, h⟩, rfl, rfl, by simp⟩

theorem write_performs {g : ModuleGraph} {artifact : List Char} (hpast : AllGrounded c past)
    (hartifact : .rendered g (.ok artifact) ∈ past) :
    Performs c past [.write] (writeArtifact c.config.artifactPath artifact) fun _ now =>
      past ⊆ now ∧ AllGrounded c now ∧ ∃ x ∈ now, True := by
  refine performs_one hpast fun s => ?_
  rcases h : s.files.writeWhole c.config.artifactPath (Text.Utf8.encode artifact) with
    ⟨files, failure⟩
  refine ⟨.written artifact failure, rfl, rfl, fun _ => ⟨g, hartifact⟩, ?_⟩
  rw [writeArtifact, h]
  cases failure with
  | none => exact ⟨h, rfl, rfl, trivial⟩
  | some e => exact ⟨h, rfl, rfl, trivial⟩

/-! ### The whole run -/

/-- Before there is a graph, a context tells the settings. -/
theorem context_informed (c : Compiler) (past : List Event) (phase : Phase)
    (hphase : phase ∉ [.afterCompile, .emit, .afterRun, .failed]) (failure : Option BuildError) :
    Informed c past failure (c.context phase) := by
  simp only [List.mem_cons, List.not_mem_nil, or_false, not_or] at hphase
  constructor <;> simp [context, hphase]

/-- What a run does up to its first failure is its plan. -/
theorem steps_performs (c : Compiler) :
    Performs c [] c.plan c.steps fun _ now => AllGrounded c now := by
  have hnil : AllGrounded c [] := fun _ h => by cases h
  have hrun := c.context_informed [] .beforeRun (by decide)
  unfold steps plan
  refine (callHooks_performs .beforeRun rfl hnil hrun).bind (fun _ now₁ ⟨_, h₁⟩ => ?_)
    fun now h => h.2
  have hcompile := c.context_informed now₁ .beforeCompile (by decide)
  refine (callHooks_performs .beforeCompile rfl h₁ hcompile).bind (fun _ now₂ ⟨_, h₂⟩ => ?_)
    fun now h => h.2
  refine (findModules_performs h₂).bind (fun g now₃ ⟨_, h₃, x, hx, hg⟩ => ?_) fun now h => h.2.1
  have hgraph : .compiled (.ok g) ∈ now₃ := hg g rfl ▸ hx
  refine (callHooks_performs .afterCompile rfl h₃ fun failure => ?_).bind
    (fun _ now₄ ⟨hsub₄, h₄⟩ => ?_) fun now h => h.2
  · constructor <;> simp [context, hgraph]
  have hgraph := hsub₄ hgraph
  refine (render_performs h₄ hgraph).bind (fun a now₅ ⟨hsub₅, h₅, y, hy, ha⟩ => ?_)
    fun now h => h.2.1
  have hgraph := hsub₅ hgraph
  have hartifact : .rendered g (.ok a) ∈ now₅ := ha a rfl ▸ hy
  refine (callHooks_performs .emit rfl h₅ fun failure => ?_).bind
    (fun _ now₆ ⟨hsub₆, h₆⟩ => ?_) fun now h => h.2
  · constructor <;> simp [context, hgraph, hartifact]
  have hgraph := hsub₆ hgraph
  have hartifact := hsub₆ hartifact
  refine (write_performs h₆ hartifact).bind (fun _ now₇ ⟨hsub₇, h₇, _⟩ => ?_) fun now h => h.2.1
  have hgraph := hsub₇ hgraph
  have hartifact := hsub₇ hartifact
  refine (callHooks_performs .afterRun rfl h₇ fun failure => ?_).andPure fun now ⟨_, h⟩ _ => h.2
  constructor <;> simp [context, hgraph, hartifact]

/-- What the hooks of `failed` see. -/
def failedContext (c : Compiler) (e : BuildError) : HookContext :=
  { c.context .failed with error := some e.message }

theorem failedContext_informed (c : Compiler) (e : BuildError) :
    Informed c past (some e) (c.failedContext e) := by
  constructor <;> simp [failedContext, context]

/-- A run that fails returns the failure, whatever the taps of `failed` answer. -/
theorem run_of_error {files : FileTree} {e : BuildError} {s : Progress}
    (h : c.steps { files } = .error e s) :
    c.run files = (.error e, { s with
      files := (Tap.runAll (c.failedContext e) s.files (c.hooks.taps .failed)).files
      calls := s.calls ++
        (Tap.runAll (c.failedContext e) s.files (c.hooks.taps .failed)).calls }) := by
  have hcall := callHooks_eq c (c.failedContext e) s
  rw [show (c.failedContext e).phase = .failed from rfl] at hcall
  unfold run
  rw [h]
  dsimp only [failedContext] at hcall ⊢
  rw [hcall]
  cases (Tap.runAll _ s.files (c.hooks.taps .failed)).error <;> rfl

/-- The lifecycle. What a run does is the plan, each act on the files that the one before left,
up to the first that fails; the run fails with exactly this failure, and it then calls the taps
of `failed`, up to the first that fails. What is recorded of it are the calls. Their contexts
have a graph from `afterCompile` on, a script from `emit` on, its path in `afterRun`, and in
`failed` the text of the error that is returned. -/
theorem run_lifecycle (c : Compiler) (files : FileTree) :
    ∃ main last, History c files (main ++ last) (c.run files).2.files ∧
      (c.run files).2.calls = (main ++ last).filterMap Event.call? ∧
      Performed c.plan main (failure? (c.run files).1) ∧
      (match failure? (c.run files).1 with
        | none => last = []
        | some _ => ∃ failure, Performed (c.acts .failed) last failure) ∧
      ∀ x ∈ main ++ last, x.IsGrounded c main (failure? (c.run files).1) := by
  obtain ⟨main, hmain⟩ := steps_performs c { files }
  cases hsteps : c.steps { files } with
  | ok out s =>
    rw [hsteps] at hmain
    obtain ⟨⟨hfiles, hcalls⟩, hperformed, hall⟩ := hmain
    rw [show c.run files = (.ok out, s) by rw [run, hsteps]]
    refine ⟨main, [], by simpa using hfiles, by simpa using hcalls, hperformed, rfl, fun x hx => ?_⟩
    rw [List.append_nil] at hx
    exact hall x hx none
  | error e s =>
    rw [hsteps] at hmain
    obtain ⟨⟨hfiles, hcalls⟩, hperformed, hall⟩ := hmain
    obtain ⟨last, hlast, hlastcalls, hlastperformed, hwith⟩ :=
      runAll_performed c (c.failedContext e) (c.hooks.taps .failed) s.files
    rw [run_of_error hsteps]
    refine ⟨main, last, hfiles.append hlast, ?_, hperformed, ⟨_, acts_eq c _ ▸ hlastperformed⟩, ?_⟩
    · rw [hcalls, hlastcalls, List.nil_append, List.filterMap_append]
    intro x hx
    rcases List.mem_append.mp hx with hx | hx
    · exact hall x hx (some e)
    · obtain ⟨t, reason, rfl⟩ := hwith x hx
      exact c.failedContext_informed e

end Compiler
end Bundler
