import Bundler.Rewrite
import Mathlib.Data.List.Forall2

/-! What rewriting a module lists as its dependencies. -/
namespace Bundler

theorem mapM_eq_ok {α β ε : Type} {f : α → Except ε β} {xs : List α} {ys : List β}
    (h : xs.mapM f = .ok ys) : List.Forall₂ (fun x y => f x = .ok y) xs ys := by
  induction xs generalizing ys with
  | nil =>
    simp only [List.mapM_nil, pure, Except.pure, Except.ok.injEq] at h
    rw [← h]
    exact .nil
  | cons x xs ih =>
    simp only [List.mapM_cons, bind, Except.bind] at h
    split at h
    · cases h
    rename_i y hy
    split at h
    · cases h
    rename_i zs hz
    cases h
    exact .cons hy (ih hz)

theorem mapM_of_forall₂ {α β ε : Type} {f : α → Except ε β} {xs : List α} {ys : List β}
    (h : List.Forall₂ (fun x y => f x = .ok y) xs ys) : xs.mapM f = .ok ys := by
  induction h with
  | nil => rfl
  | cons hxy _ ih => simp [List.mapM_cons, hxy, ih, bind, Except.bind, pure, Except.pure]

theorem mapM_eq_error {α β ε : Type} {f : α → Except ε β} {xs : List α} {e : ε}
    (h : xs.mapM f = .error e) : ∃ x ∈ xs, f x = .error e := by
  induction xs with
  | nil => cases h
  | cons x xs ih =>
    simp only [List.mapM_cons, bind, Except.bind] at h
    split at h
    · rename_i hx
      cases h
      exact ⟨x, List.mem_cons_self, hx⟩
    split at h
    · rename_i hxs
      cases h
      obtain ⟨y, hy, hfail⟩ := ih hxs
      exact ⟨y, List.mem_cons_of_mem _ hy, hfail⟩
    · cases h

theorem exists_of_forall₂ {α β : Type} {R : α → β → Prop} {xs : List α} {ys : List β}
    (h : List.Forall₂ R xs ys) : ∀ y ∈ ys, ∃ x ∈ xs, R x y := by
  induction h with
  | nil => simp
  | cons hxy _ ih =>
    intro y hy
    rcases List.mem_cons.mp hy with rfl | hy
    · exact ⟨_, List.mem_cons_self, hxy⟩
    · obtain ⟨x, hx, hxy⟩ := ih y hy
      exact ⟨x, List.mem_cons_of_mem _ hx, hxy⟩

namespace Rewrite

open JavaScript

variable {fe : FrontEnd} {key : Key} {root : Path} {source : List Char} {parsed : ParsedSource}

/-- A load call is resolved from its literal: its name and that literal are replaced. -/
theorem resolveCall_eq_ok {load : CallSite} {d : Dependency} {edits : List Edit}
    (h : resolveCall key root source load = .ok (d, edits)) :
    d.key = Specifier.resolve key.directory d.specifier root ∧
      ∃ span, load.arguments.head? = some (.literal d.specifier.toList span) ∧
        edits = (load.callee.toList.map fun w => ⟨w.span, registry.toList⟩) ++
          [⟨span, Json.literal d.key.toList⟩] := by
  rw [resolveCall, specifier] at h
  cases hfirst : load.arguments.head? with
  | none =>
    rw [hfirst] at h
    cases h
  | some first =>
    rw [hfirst] at h
    cases first with
    | literal value span =>
      cases h
      exact ⟨rfl, span, by rw [String.toList_ofList], rfl⟩
    | _ => cases h

theorem rewriteCalls_eq_ok {r : Rewritten} (h : rewriteCalls fe key root parsed = .ok r) :
    ∃ resolved, List.Forall₂ (fun load x => resolveCall key root parsed.source load = .ok x)
        (loadCalls [] parsed.calls) resolved ∧
      r = ⟨fe.regenerate parsed (resolved.flatMap (·.2)), resolved.map (·.1)⟩ := by
  simp only [rewriteCalls, bind, Except.bind, pure, Except.pure] at h
  split at h
  · cases h
  rename_i resolved hresolved
  cases h
  exact ⟨resolved, mapM_eq_ok hresolved, rfl⟩

/-- The root matters to the key of a load call only. -/
theorem resolveCall_root {load : CallSite} {x : Dependency × List Edit} (root' : Path)
    (h : resolveCall key root source load = .ok x) :
    ∃ x', resolveCall key root' source load = .ok x' ∧
      (Specifier.resolve key.directory x.1.specifier root =
        Specifier.resolve key.directory x.1.specifier root' → x' = x) := by
  rw [resolveCall] at h
  rw [resolveCall]
  split at h
  · cases h
  · cases h
    exact ⟨_, rfl, fun heq => by rw [heq]⟩

theorem resolveCalls_root {loads : List CallSite} {resolved : List (Dependency × List Edit)}
    (root' : Path)
    (h : List.Forall₂ (fun load x => resolveCall key root source load = .ok x) loads resolved) :
    ∃ resolved', List.Forall₂ (fun load x => resolveCall key root' source load = .ok x)
        loads resolved' ∧
      ((∀ x ∈ resolved, Specifier.resolve key.directory x.1.specifier root =
        Specifier.resolve key.directory x.1.specifier root') → resolved' = resolved) := by
  induction h with
  | nil => exact ⟨[], .nil, fun _ => rfl⟩
  | cons hx _ ih =>
    obtain ⟨x', hx', heq⟩ := resolveCall_root root' hx
    obtain ⟨xs', hxs', heqs⟩ := ih
    refine ⟨x' :: xs', .cons hx' hxs', fun hroot => ?_⟩
    rw [heq (hroot _ List.mem_cons_self), heqs fun y hy => hroot y (List.mem_cons_of_mem _ hy)]

theorem rewriteCalls_root {r : Rewritten} (root' : Path)
    (h : rewriteCalls fe key root parsed = .ok r) :
    ∃ r', rewriteCalls fe key root' parsed = .ok r' ∧
      ((∀ d ∈ r.dependencies, Specifier.resolve key.directory d.specifier root =
        Specifier.resolve key.directory d.specifier root') → r' = r) := by
  obtain ⟨resolved, hall, rfl⟩ := rewriteCalls_eq_ok h
  obtain ⟨resolved', hall', heq⟩ := resolveCalls_root root' hall
  refine ⟨⟨fe.regenerate parsed (resolved'.flatMap (·.2)), resolved'.map (·.1)⟩, ?_,
    fun hroot => ?_⟩
  · rw [rewriteCalls, mapM_of_forall₂ hall']
    rfl
  · rw [heq fun x hx => hroot x.1 (List.mem_map_of_mem hx)]

end Rewrite

variable {fe : FrontEnd} {root : Path} {key : Key} {source : List Char} {r : Rewritten}

/-- The calls of a source in common form are those of its program. -/
theorem javaScript_parsed {p : JavaScript.Program}
    (h : JavaScript.program source = .ok p) :
    FrontEnd.javaScript.parsed source = .ok ⟨source, p.callSites source⟩ := by
  simp only [FrontEnd.parsed, FrontEnd.javaScript, JavaScript.callSites, h, Except.map]

theorem javaScript_parsed_eq_ok {parsed : ParsedSource}
    (h : FrontEnd.javaScript.parsed source = .ok parsed) :
    ∃ p, JavaScript.program source = .ok p ∧ parsed = ⟨source, p.callSites source⟩ := by
  cases hp : JavaScript.program source with
  | error e => simp [FrontEnd.parsed, FrontEnd.javaScript, JavaScript.callSites, hp, Except.map] at h
  | ok p =>
    rw [javaScript_parsed hp] at h
    cases h
    exact ⟨p, rfl, rfl⟩

theorem rewrite_eq_ok (h : rewrite fe root key source = .ok r) :
    ∃ normal parsed, fe.normalize source = .ok normal ∧ fe.parsed normal = .ok parsed ∧
      Rewrite.rewriteCalls fe key root parsed = .ok r := by
  rw [rewrite] at h
  split at h
  · cases h
  rename_i normal hnormal
  split at h
  · cases h
  rename_i parsed hparsed
  exact ⟨normal, parsed, hnormal, hparsed, h⟩

/-- Of a rewritten module only the keys of its dependencies can depend on the root. -/
theorem rewrite_root (root' : Path) (h : rewrite fe root key source = .ok r) :
    ∃ r', rewrite fe root' key source = .ok r' ∧
      ((∀ d ∈ r.dependencies, Specifier.resolve key.directory d.specifier root =
        Specifier.resolve key.directory d.specifier root') → r' = r) := by
  obtain ⟨normal, parsed, hnormal, hparsed, hr⟩ := rewrite_eq_ok h
  obtain ⟨r', hr', heq⟩ := Rewrite.rewriteCalls_root root' hr
  refine ⟨r', ?_, heq⟩
  rw [rewrite, hnormal]
  dsimp only
  rw [hparsed]
  exact hr'

/-- Rewriting fails on the syntax of a module or on one of its calls. -/
theorem rewrite_eq_error {e : BuildError} (h : rewrite fe root key source = .error e) :
    (∃ bad, e = .badSource key {} bad) ∨ ∃ call reason, e = .rewrite key {} call reason := by
  rw [rewrite] at h
  split at h
  · cases h
    exact .inl ⟨_, rfl⟩
  split at h
  · cases h
    exact .inl ⟨_, rfl⟩
  rename_i parsed _
  rw [Rewrite.rewriteCalls] at h
  cases hall : (Rewrite.loadCalls [] parsed.calls).mapM
      (Rewrite.resolveCall key root parsed.source) with
  | ok resolved =>
    rw [hall] at h
    cases h
  | error e' =>
    rw [hall] at h
    cases h
    obtain ⟨load, -, hload⟩ := mapM_eq_error hall
    rw [Rewrite.resolveCall] at hload
    split at hload <;> cases hload
    exact .inr ⟨_, _, rfl⟩

/-- Every dependency has the key that its specifier resolves to in the module. -/
theorem rewrite_dependencies (h : rewrite fe root key source = .ok r) :
    ∀ d ∈ r.dependencies, d.key = Specifier.resolve key.directory d.specifier root := by
  obtain ⟨normal, parsed, -, -, hr⟩ := rewrite_eq_ok h
  obtain ⟨resolved, hall, rfl⟩ := Rewrite.rewriteCalls_eq_ok hr
  intro d hd
  obtain ⟨x, hx, rfl⟩ := List.mem_map.mp hd
  obtain ⟨load, -, hload⟩ := exists_of_forall₂ hall x hx
  exact (Rewrite.resolveCall_eq_ok hload).1

/-- A rewritten module is its common form after edits, each of which writes the name of the
registry or the key of a dependency. -/
theorem rewrite_edits (h : rewrite fe root key source = .ok r) :
    ∃ normal parsed edits, fe.normalize source = .ok normal ∧ fe.parsed normal = .ok parsed ∧
      r.source = fe.regenerate parsed edits ∧
      ∀ e ∈ edits, e.replacement = Rewrite.registry.toList ∨
        ∃ d ∈ r.dependencies, e.replacement = Json.literal d.key.toList := by
  obtain ⟨normal, parsed, hnormal, hparsed, hr⟩ := rewrite_eq_ok h
  obtain ⟨resolved, hall, rfl⟩ := Rewrite.rewriteCalls_eq_ok hr
  refine ⟨normal, parsed, _, hnormal, hparsed, rfl, fun e he => ?_⟩
  obtain ⟨x, hx, he⟩ := List.mem_flatMap.mp he
  obtain ⟨load, -, hload⟩ := exists_of_forall₂ hall x hx
  obtain ⟨-, span, -, hedits⟩ := Rewrite.resolveCall_eq_ok hload
  rw [hedits, List.mem_append, List.mem_singleton] at he
  obtain he | rfl := he
  · obtain ⟨w, -, rfl⟩ := List.mem_map.mp he
    exact .inl rfl
  · exact .inr ⟨x.1, List.mem_map_of_mem hx, rfl⟩

end Bundler
