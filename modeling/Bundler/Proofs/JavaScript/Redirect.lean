import Bundler.Proofs.Edit.Splice
import Bundler.Proofs.JavaScript.Links
import Bundler.Proofs.JavaScript.Requests

/-! What rewriting does with the calls of a tree. It fails for the first load call that is given no
literal. If there is none, every load call is directed to the registry once, also one that the
helper for default exports is called with, and the edits of no two of them meet. -/
namespace Bundler

open JavaScript

namespace JavaScript

/-- The places of a call that are edited: its callee, when that is a name, and its first
argument. -/
def CallSite.places (c : CallSite) : List Span :=
  (c.callee.map (·.span)).toList ++ (c.arguments.head?.map Argument.span).toList

/-- A source that is accepted has a tree, which fits it. -/
theorem exists_program (source : List Char) (h : (program source).toOption.isSome = true) :
    ∃ p : Program, FrontEnd.javaScript.parsed source = .ok ⟨source, p.callSites source⟩ ∧
      p.Sound source := by
  cases hp : program source with
  | error e => simp [hp, Except.toOption] at h
  | ok p => exact ⟨p, javaScript_parsed hp, program_sound hp⟩

theorem Lead.mem {calls : List CallSite} {c inner : CallSite} {w : Lexeme} (h : Lead calls)
    (hc : c ∈ calls) (hw : c.callee = some w) (hinner : c.arguments.head? = some (.call inner)) :
    inner ∈ calls := by
  induction calls with
  | nil => cases hc
  | cons d ds ih =>
    obtain ⟨hhead, hds⟩ := h
    rcases List.mem_cons.mp hc with rfl | hc
    · exact List.mem_cons_of_mem _ (List.mem_of_mem_head? (hhead w inner hw hinner))
    · exact List.mem_cons_of_mem _ (ih hds hc)

end JavaScript

namespace Edit

variable {low : ℕ} {e : Edit} {es : List Edit}

theorem Chained.low_le (h : Chained low es) : ∀ e ∈ es, low ≤ e.span.start := by
  induction es generalizing low with
  | nil => simp
  | cons e es ih =>
    obtain ⟨hlow, hle, hes⟩ := h
    intro f hf
    rcases List.mem_cons.mp hf with rfl | hf
    · exact hlow
    · have := ih hes f hf
      omega

theorem Chained.pairwise_apart (h : Chained low es) : es.Pairwise Apart := by
  induction es generalizing low with
  | nil => exact List.Pairwise.nil
  | cons e es ih =>
    obtain ⟨-, -, hes⟩ := h
    exact List.pairwise_cons.mpr ⟨fun f hf => .inl (hes.low_le f hf), ih hes⟩

end Edit

namespace Rewrite

variable {key : Key} {root : Path} {source : List Char} {calls loads : List CallSite}
  {load : CallSite} {resolved : List (Dependency × List Edit)} {e : BuildError}

/-! ### Load calls without a literal -/

theorem resolveCall_of_none (root : Path) (key : Key) (source : List Char)
    (h : load.specifier? = none) :
    ∃ reason, specifier source load = .error reason ∧ resolveCall key root source load =
      .error (.rewrite key {} (String.ofList (Text.slice source load.span)) reason) := by
  have hspecifier : ∃ reason, specifier source load = .error reason := by
    rw [CallSite.specifier?] at h
    rw [specifier]
    cases hfirst : load.arguments.head? with
    | none => exact ⟨_, rfl⟩
    | some first =>
      cases first with
      | literal value span => simp [hfirst] at h
      | call site => exact ⟨_, rfl⟩
      | other text span => exact ⟨_, rfl⟩
  obtain ⟨reason, hreason⟩ := hspecifier
  exact ⟨reason, hreason, by rw [resolveCall, hreason]⟩

theorem resolveCall_of_some (root : Path) (key : Key) (source : List Char) {value : List Char}
    (h : load.specifier? = some value) :
    ∃ x, resolveCall key root source load = .ok x := by
  rw [CallSite.specifier?] at h
  rw [resolveCall, specifier]
  split at h
  · rename_i hfirst
    rw [hfirst]
    exact ⟨_, rfl⟩
  · cases h

/-- Of several load calls the first one without a literal is the one that fails. -/
theorem mapM_resolveCall_eq_error :
    loads.mapM (resolveCall key root source) = .error e ↔
      ∃ load, loads.find? (·.specifier?.isNone) = some load ∧
        resolveCall key root source load = .error e := by
  induction loads with
  | nil => simp [pure, Except.pure]
  | cons load loads ih =>
    rw [List.mapM_cons]
    cases hload : load.specifier? with
    | none =>
      obtain ⟨reason, -, hresolve⟩ := resolveCall_of_none root key source hload
      simp [hload, hresolve, bind, Except.bind]
    | some value =>
      obtain ⟨x, hresolve⟩ := resolveCall_of_some root key source hload
      have hfind : (load :: loads).find? (·.specifier?.isNone) =
          loads.find? (·.specifier?.isNone) := by simp [hload]
      rw [hfind, ← ih, hresolve]
      cases loads.mapM (resolveCall key root source) <;>
        simp [bind, Except.bind, pure, Except.pure]

/-! ### The load calls of a tree -/

theorem mem_filter_loader (hlead : Lead calls) :
    load ∈ calls.filter (·.calleeIs loader) ↔ ∃ c ∈ calls, loadCall? c = some load := by
  rw [List.mem_filter]
  constructor
  · rintro ⟨hmem, hloader⟩
    exact ⟨load, hmem, loadCall?_of_calleeIs hloader⟩
  · rintro ⟨c, hc, hload⟩
    by_cases hloader : c.calleeIs loader = true
    · rw [loadCall?_of_calleeIs hloader, Option.some.injEq] at hload
      exact ⟨hload ▸ hc, hload ▸ hloader⟩
    · obtain ⟨⟨w, hw⟩, hinner, hloader⟩ := loadCall?_eq_some hloader hload
      exact ⟨hlead.mem hc hw hinner, hloader⟩

/-- A load call that is met twice is met first where it is handed on, right in front of itself. -/
theorem find?_filterMap_loadCall? (hlead : Lead calls) (p : CallSite → Bool) :
    (calls.filterMap loadCall?).find? p = (calls.filter (·.calleeIs loader)).find? p := by
  induction calls with
  | nil => rfl
  | cons c cs ih =>
    obtain ⟨hhead, hcs⟩ := hlead
    by_cases hc : c.calleeIs loader = true
    · rw [List.filterMap_cons_some (loadCall?_of_calleeIs hc), List.filter_cons_of_pos hc,
        List.find?_cons, List.find?_cons, ih hcs]
    · rw [List.filter_cons_of_neg hc, ← ih hcs]
      cases hload : loadCall? c with
      | none => rw [List.filterMap_cons_none hload]
      | some load =>
        obtain ⟨⟨w, hw⟩, hinner, hloader⟩ := loadCall?_eq_some hc hload
        obtain ⟨rest, rfl⟩ := List.head?_eq_some_iff.mp (hhead w load hw hinner)
        rw [List.filterMap_cons_some hload,
          List.filterMap_cons_some (loadCall?_of_calleeIs hloader)]
        cases hp : p load <;> simp [hp]

/-! ### Load calls with a literal -/

theorem places_of_resolveCall {x : Dependency × List Edit}
    (h : resolveCall key root source load = .ok x) : x.2.map (·.span) = load.places := by
  obtain ⟨-, span, hfirst, hedits⟩ := resolveCall_eq_ok h
  rw [hedits, CallSite.places, hfirst]
  cases load.callee <;> rfl

theorem places_of_resolveCalls
    (h : List.Forall₂ (fun load x => resolveCall key root source load = .ok x) loads resolved) :
    (resolved.flatMap (·.2)).map (·.span) = loads.flatMap CallSite.places := by
  induction h with
  | nil => rfl
  | cons hx _ ih =>
    rw [List.flatMap_cons, List.flatMap_cons, List.map_append, ih, places_of_resolveCall hx]

/-- A load call with a literal starts in front of all that stands behind the literal. -/
theorem start_lt_of_precedes {c d : CallSite} {value : List Char} (hc : c.Stands source)
    (hloader : c.calleeIs loader = true) (hvalue : c.specifier? = some value)
    (h : c.Precedes d) : c.span.start < d.span.start := by
  obtain ⟨w, hname, hw⟩ := (Option.any_eq_true _ c.callee).mp hloader
  rw [CallSite.specifier?] at hvalue
  split at hvalue
  · rename_i value' span hfirst
    obtain ⟨l, -, rfl, hwstands, hlstands, hstart, hbetween⟩ := hc w _ _ hname hfirst
    have hbehind := h.2 w _ _ hname hfirst
    have hliteral := hlstands.span.le
    have hsize : 0 < Text.size w.text := by
      rw [beq_iff_eq.mp hw]
      decide
    obtain ⟨-, -, -, -, hstop⟩ := hwstands
    omega
  · cases hvalue

/-! ### Trees -/

variable {p : Program} {fe : FrontEnd}

/-- Rewriting fails with the first load call, in the order of the list, that has no literal. -/
theorem rewriteCalls_eq_error (hsound : p.Sound source) :
    rewriteCalls fe key root ⟨source, p.callSites source⟩ = .error e ↔ ∃ load reason,
      ((p.callSites source).filterMap loadCall?).find? (·.specifier?.isNone) = some load ∧
        specifier source load = .error reason ∧
        e = .rewrite key {} (String.ofList (Text.slice source load.span)) reason := by
  have hmapM : rewriteCalls fe key root ⟨source, p.callSites source⟩ = .error e ↔
      ((p.callSites source).filter (·.calleeIs loader)).mapM (resolveCall key root source) =
        .error e := by
    rw [rewriteCalls, loadCalls_callSites hsound]
    cases List.mapM (resolveCall key root source) _ <;> simp [bind, Except.bind, pure, Except.pure]
  rw [hmapM, mapM_resolveCall_eq_error, find?_filterMap_loadCall? p.callSites_lead]
  refine exists_congr fun load => ?_
  constructor
  · rintro ⟨hfind, he⟩
    have hnone : load.specifier? = none := by simpa using List.find?_some hfind
    obtain ⟨reason, hreason, hresolve⟩ := resolveCall_of_none root key source hnone
    exact ⟨reason, hfind, hreason, Except.error.inj (he.symm.trans hresolve)⟩
  · rintro ⟨reason, hfind, hreason, rfl⟩
    exact ⟨hfind, by rw [resolveCall, hreason]⟩

theorem rewriteCalls_fails_iff (hsound : p.Sound source) :
    (∃ e, rewriteCalls fe key root ⟨source, p.callSites source⟩ = .error e) ↔
      ∃ c ∈ p.callSites source, ∃ load, loadCall? c = some load ∧ load.specifier? = none := by
  constructor
  · rintro ⟨e, he⟩
    obtain ⟨load, reason, hfind, -⟩ := (rewriteCalls_eq_error hsound).mp he
    obtain ⟨c, hc, hload⟩ := List.mem_filterMap.mp (List.mem_of_find?_eq_some hfind)
    exact ⟨c, hc, load, hload, by simpa using List.find?_some hfind⟩
  · rintro ⟨c, hc, load, hload, hnone⟩
    have hsome : (((p.callSites source).filterMap loadCall?).find? (·.specifier?.isNone)).isSome := by
      rw [List.find?_isSome]
      exact ⟨load, List.mem_filterMap.mpr ⟨c, hc, hload⟩, by simp [hnone]⟩
    obtain ⟨first, hfirst⟩ := Option.isSome_iff_exists.mp hsome
    have hnone : first.specifier? = none := by simpa using List.find?_some hfirst
    obtain ⟨reason, hreason, -⟩ := resolveCall_of_none root key source hnone
    exact ⟨_, (rewriteCalls_eq_error hsound).mpr ⟨first, reason, hfirst, hreason, rfl⟩⟩

theorem dependency_of_resolveCall {x : Dependency × List Edit}
    (h : resolveCall key root source load = .ok x) :
    load.specifier? = some x.1.specifier.toList ∧
      x.1.key = Specifier.resolve key.directory x.1.specifier root := by
  obtain ⟨hkey, span, hfirst, -⟩ := resolveCall_eq_ok h
  exact ⟨by rw [CallSite.specifier?, hfirst], hkey⟩

/-- Load calls that are resolved stand in the order of the text. -/
theorem pairwise_start_lt (hsound : p.Sound source)
    (hresolved : List.Forall₂ (fun load x => resolveCall key root source load = .ok x)
      ((p.callSites source).filter (·.calleeIs loader)) resolved) :
    ((p.callSites source).filter (·.calleeIs loader)).Pairwise
      fun c d => c.span.start < d.span.start := by
  refine (hsound.callSites_pairwise.filter _).imp_of_mem fun {c d} hc _ hcd => ?_
  obtain ⟨x, -, hx⟩ := exists_of_forall₂ hresolved.flip c hc
  obtain ⟨hmem, hloader⟩ := List.mem_filter.mp hc
  exact start_lt_of_precedes (hsound.callSites_stand c hmem) hloader
    (dependency_of_resolveCall hx).1 hcd

end Rewrite

/-- Rewriting a tree fails exactly when a load call has no literal, and reports the first of them.
Otherwise every load call is handled, each once and in the order of the text: its callee and its
first argument are replaced, which are apart from those of the others, and all else stands. The
dependencies are the keys and the specifiers of these calls. A front end may parse another text than
it was given, and may regenerate it in another way than by making the edits; it is given just these. -/
theorem rewrite_exact {fe : FrontEnd} {root : Path} {key : Key} {source normal text : List Char}
    {p : Program} (hnormal : fe.normalize source = .ok normal)
    (hparsed : fe.parsed normal = .ok ⟨text, p.callSites text⟩) (hsound : p.Sound text) :
    ((∃ e, rewrite fe root key source = .error e) ↔
      ∃ c ∈ p.callSites text, ∃ load, Rewrite.loadCall? c = some load ∧ load.specifier? = none) ∧
    (∀ e, rewrite fe root key source = .error e ↔ ∃ load reason,
      ((p.callSites text).filterMap Rewrite.loadCall?).find? (·.specifier?.isNone) = some load ∧
        Rewrite.specifier text load = .error reason ∧
        e = .rewrite key {} (String.ofList (Text.slice text load.span)) reason) ∧
    ∀ r, rewrite fe root key source = .ok r → ∃ (loads : List CallSite) (edits : List Edit),
      (∀ load, load ∈ loads ↔ ∃ c ∈ p.callSites text, Rewrite.loadCall? c = some load) ∧
      loads.Pairwise (fun c d => c.span.start < d.span.start) ∧
      List.Forall₂ (fun load d => load.specifier? = some d.specifier.toList ∧
        d.key = Specifier.resolve key.directory d.specifier root) loads r.dependencies ∧
      edits.map (·.span) = loads.flatMap CallSite.places ∧ edits.Pairwise Edit.Apart ∧
      Edit.kept 0 (Edit.sort edits) = edits ∧
      Linked 0 loads r.dependencies text (Edit.apply text edits) ∧
      r.source = fe.regenerate ⟨text, p.callSites text⟩ edits ∧
      (fe.regenerate = ParsedSource.edited → r.source = Edit.apply text edits) := by
  have hrewrite : rewrite fe root key source =
      Rewrite.rewriteCalls fe key root ⟨text, p.callSites text⟩ := by
    rw [rewrite, hnormal]
    dsimp only
    rw [hparsed]
  rw [hrewrite]
  refine ⟨Rewrite.rewriteCalls_fails_iff hsound, fun e => Rewrite.rewriteCalls_eq_error hsound,
    fun r hr => ?_⟩
  obtain ⟨resolved, hall, rfl⟩ := Rewrite.rewriteCalls_eq_ok hr
  rw [Rewrite.loadCalls_callSites hsound] at hall
  obtain ⟨hchained, hlinked⟩ := Rewrite.callSites_linked hsound hall
  have hdependencies : List.Forall₂ (fun load d => load.specifier? = some d.specifier.toList ∧
      d.key = Specifier.resolve key.directory d.specifier root)
      ((p.callSites text).filter (·.calleeIs Rewrite.loader)) (resolved.map (·.1)) := by
    rw [List.forall₂_map_right_iff]
    exact hall.imp fun _ _ hx => Rewrite.dependency_of_resolveCall hx
  refine ⟨_, resolved.flatMap (·.2), fun load => Rewrite.mem_filter_loader p.callSites_lead,
    Rewrite.pairwise_start_lt hsound hall, hdependencies, Rewrite.places_of_resolveCalls hall,
    hchained.pairwise_apart, ?_, ?_, rfl, fun hedited => ?_⟩
  · rw [hchained.sort_eq, hchained.kept_eq]
  · rw [hchained.apply_eq]
    exact hlinked
  · exact congrFun (congrFun hedited _) _

/-- A load call that is handed on, and one inside the arguments of another. -/
def nested : List Char :=
  "_interopRequireDefault(require('./a'));require('./b',require('./a'))".toList

def nestedText : List Char :=
  ("_interopRequireDefault(__knit_require__(\"./src/a.js\"));" ++
    "__knit_require__(\"./src/b.js\",__knit_require__(\"./src/a.js\"))").toList

theorem rewrite_exact_nested :
    ∃ p : Program, FrontEnd.javaScript.normalize nested = .ok nested ∧
      FrontEnd.javaScript.parsed nested = .ok ⟨nested, p.callSites nested⟩ ∧ p.Sound nested ∧
      rewrite .javaScript ⟨"/p"⟩ "./src/index.js" nested = .ok ⟨nestedText,
        [⟨"./src/a.js", "./a"⟩, ⟨"./src/b.js", "./b"⟩, ⟨"./src/a.js", "./a"⟩]⟩ ∧
      ∃ (loads : List CallSite) (edits : List Edit),
        loads.Pairwise (fun c d => c.span.start < d.span.start) ∧
        edits.map (·.span) = loads.flatMap CallSite.places ∧
        Edit.kept 0 (Edit.sort edits) = edits ∧ nestedText = Edit.apply nested edits := by
  have hnormal : FrontEnd.javaScript.normalize nested = .ok nested := by decide +kernel
  have hrewrite : rewrite .javaScript ⟨"/p"⟩ "./src/index.js" nested = .ok ⟨nestedText,
      [⟨"./src/a.js", "./a"⟩, ⟨"./src/b.js", "./b"⟩, ⟨"./src/a.js", "./a"⟩]⟩ := by decide +kernel
  obtain ⟨p, hparsed, hsound⟩ := exists_program nested (by decide +kernel)
  obtain ⟨loads, edits, -, horder, -, hplaces, -, hkept, -, -, htext⟩ :=
    (rewrite_exact hnormal hparsed hsound).2.2 _ hrewrite
  replace htext := htext rfl
  dsimp only at htext
  exact ⟨p, hnormal, hparsed, hsound, hrewrite, loads, edits, horder, hplaces, hkept, htext⟩

end Bundler
