import Bundler.Compiler
import Mathlib.Data.List.Infix

/-! The history of a run. A run performs planned acts: it calls taps, and between the phases
it compiles the modules, renders the script and writes it. What an act did is an event. The
events of a step of a run follow one another, and they are the planned acts, all of them or up
to the first that failed; the main lemmas say this of a single step and of steps in sequence. -/
namespace Bundler

/-- What a run does at a time. -/
inductive Act where
  | call (phase : Phase) (tap : Tap)
  | compile
  | render
  | write

/-- An act that was performed, with what it was given and what it answered. -/
inductive Event where
  | called (tap : Tap) (context : HookContext) (reason : Option String)
  | compiled (answer : Except BuildError ModuleGraph)
  | rendered (graph : ModuleGraph) (answer : Except BuildError (List Char))
  | written (artifact : List Char) (failure : Option BuildError)

namespace Event

def act : Event → Act
  | called t cx _ => .call cx.phase t
  | compiled _ => .compile
  | rendered .. => .render
  | written .. => .write

def failure : Event → Option BuildError
  | called t cx reason => reason.map fun r => .plugin t.plugin (some cx.phase) r
  | compiled (.error e) | rendered _ (.error e) => some e
  | compiled (.ok _) | rendered _ (.ok _) => none
  | written _ failure => failure

/-- How a call is recorded. -/
def call? : Event → Option Call
  | called t cx reason => some ⟨t.plugin, cx, reason⟩
  | compiled _ | rendered .. | written .. => none

/-- The event turns the files `before` into the files `after`. -/
def Leads (c : Compiler) (before after : FileTree) : Event → Prop
  | called t cx reason => t.callback cx before = (after, reason)
  | compiled answer => after = before ∧ c.compile before = answer
  | rendered g answer => after = before ∧ g.script = answer
  | written artifact failure =>
    before.writeWhole c.config.artifactPath (Text.Utf8.encode artifact) = (after, failure)

end Event

/-- Events that follow one another, from some files to others. -/
inductive History (c : Compiler) : FileTree → List Event → FileTree → Prop
  | nil (files : FileTree) : History c files [] files
  | cons {before mid after : FileTree} {x : Event} {xs : List Event} (hx : x.Leads c before mid)
      (h : History c mid xs after) : History c before (x :: xs) after

/-- The planned acts were performed in their order: all of them without failure, or up to the
first that failed. -/
def Performed (planned : List Act) (events : List Event) : Option BuildError → Prop
  | none => events.map Event.act = planned ∧ ∀ x ∈ events, x.failure = none
  | some e => ∃ front stop, events = front ++ [stop] ∧ events.map Event.act <+: planned ∧
      (∀ x ∈ front, x.failure = none) ∧ stop.failure = some e

/-- Why there is no answer. -/
def failure? {α : Type} : Except BuildError α → Option BuildError
  | .ok _ => none
  | .error e => some e

variable {c : Compiler} {planned more : List Act} {xs ys : List Event}

theorem History.append {before mid after : FileTree} (h : History c before xs mid)
    (h' : History c mid ys after) : History c before (xs ++ ys) after := by
  induction h with
  | nil => exact h'
  | cons hx _ ih => exact .cons hx (ih h')

theorem Performed.append {failure : Option BuildError} (h : Performed planned xs none)
    (h' : Performed more ys failure) : Performed (planned ++ more) (xs ++ ys) failure := by
  obtain ⟨rfl, hclean⟩ := h
  cases failure with
  | none =>
    obtain ⟨rfl, hclean'⟩ := h'
    refine ⟨List.map_append, fun x hx => ?_⟩
    exact (List.mem_append.mp hx).elim (hclean x) (hclean' x)
  | some e =>
    obtain ⟨front, stop, rfl, hprefix, hclean', hstop⟩ := h'
    refine ⟨xs ++ front, stop, (List.append_assoc ..).symm, ?_, fun x hx => ?_, hstop⟩
    · rw [List.map_append]
      exact List.prefix_append_right_inj _ |>.mpr hprefix
    · exact (List.mem_append.mp hx).elim (hclean x) (hclean' x)

theorem Performed.weaken {e : BuildError} (h : Performed planned xs (some e)) (more : List Act) :
    Performed (planned ++ more) xs (some e) := by
  obtain ⟨front, stop, hxs, hprefix, hclean, hstop⟩ := h
  exact ⟨front, stop, hxs, hprefix.trans (List.prefix_append _ _), hclean, hstop⟩

/-! ### Steps -/

/-- The events lead from one progress to the other, which has a record of their calls. -/
structure Recorded (c : Compiler) (s : Progress) (events : List Event) (s' : Progress) : Prop where
  files : History c s.files events s'.files
  calls : s'.calls = s.calls ++ events.filterMap Event.call?

theorem Recorded.append {s s' s'' : Progress} (h : Recorded c s xs s') (h' : Recorded c s' ys s'') :
    Recorded c s (xs ++ ys) s'' where
  files := h.files.append h'.files
  calls := by rw [h'.calls, h.calls, List.filterMap_append, List.append_assoc]

/-- The step performs the planned acts. Of its answer, if it has one, and of all that happened
up to its end `Q` holds, where `past` happened before it. -/
def Performs (c : Compiler) (past : List Event) (planned : List Act) (p : Step α)
    (Q : Option α → List Event → Prop) : Prop :=
  ∀ s, ∃ events, match p s with
    | .ok a s' => Recorded c s events s' ∧ Performed planned events none ∧ Q (some a) (past ++ events)
    | .error e s' =>
      Recorded c s events s' ∧ Performed planned events (some e) ∧ Q none (past ++ events)

namespace Performs

variable {α β : Type} {past : List Event} {p : Step α} {f : α → Step β}
  {P : Option α → List Event → Prop} {Q : Option β → List Event → Prop}

theorem bind (hp : Performs c past planned p P)
    (hf : ∀ a now, P (some a) now → Performs c now more (f a) Q)
    (he : ∀ now, P none now → Q none now) : Performs c past (planned ++ more) (p >>= f) Q := by
  intro s
  obtain ⟨xs, hxs⟩ := hp s
  cases hps : p s with
  | error e s' =>
    rw [hps] at hxs
    refine ⟨xs, ?_⟩
    rw [show (p >>= f) s = .error e s' by simp [Bind.bind, EStateM.bind, hps]]
    exact ⟨hxs.1, hxs.2.1.weaken more, he _ hxs.2.2⟩
  | ok a s' =>
    rw [hps] at hxs
    obtain ⟨ys, hys⟩ := hf a _ hxs.2.2 s'
    refine ⟨xs ++ ys, ?_⟩
    rw [show (p >>= f) s = f a s' by simp [Bind.bind, EStateM.bind, hps], ← List.append_assoc]
    cases hfs : f a s' with
    | error e s'' =>
      rw [hfs] at hys
      exact ⟨hxs.1.append hys.1, hxs.2.1.append hys.2.1, hys.2.2⟩
    | ok b s'' =>
      rw [hfs] at hys
      exact ⟨hxs.1.append hys.1, hxs.2.1.append hys.2.1, hys.2.2⟩

/-- An answer that is given at the end needs no act. -/
theorem andPure {b : β} (hp : Performs c past planned p P)
    (hQ : ∀ now, (∃ a, P a now) → ∀ b, Q b now) :
    Performs c past planned (do let _ ← p; pure b) Q := by
  rw [← List.append_nil planned]
  refine hp.bind (fun a now h => ?_) fun now h => hQ now ⟨none, h⟩ none
  exact fun s => ⟨[], ⟨.nil s.files, by simp⟩, ⟨rfl, by simp⟩, by simpa using hQ now ⟨_, h⟩ _⟩

end Performs
end Bundler
