import Bundler.Proofs.Graph.Termination

/-! Whom an error blames. A walk that fails does so on the first key in depth-first preorder
that has no module, and the load its error names is the first one that asked for this key. -/
namespace Bundler

/-- An error about the module of a key, with the load that asked for it. -/
inductive BuildError.Blames (key : Key) (s : Specifier) (importer : Option Key) : BuildError → Prop
  | resolution : Blames key s importer (.resolution key s importer)
  | unknownLoader (loader : String) :
      Blames key s importer (.unknownLoader loader key ⟨some s, importer⟩)
  | loaderFailed (loader reason : String) :
      Blames key s importer (.loaderFailed loader key ⟨some s, importer⟩ reason)
  | rewrite (call reason : String) :
      Blames key s importer (.rewrite key ⟨some s, importer⟩ call reason)
  | badSource (e : SyntaxError) : Blames key s importer (.badSource key ⟨some s, importer⟩ e)

/-! ### One module -/

theorem LoaderEntry.run_eq_error {ls : Loaders} {key : Key} {p : Path} {content : List Char}
    {entry : LoaderEntry} {e : BuildError} (h : entry.run ls key p content = .error e) :
    (∃ loader, e = .unknownLoader loader key {}) ∨
      ∃ loader reason, e = .loaderFailed loader key {} reason := by
  rw [LoaderEntry.run] at h
  split at h
  · cases h
    exact .inl ⟨_, rfl⟩
  split at h
  · cases h
  · cases h
    exact .inr ⟨_, _, rfl⟩

theorem foldlM_eq_error {α β ε : Type} {f : β → α → Except ε β} {xs : List α} {init : β} {e : ε}
    (h : xs.foldlM f init = .error e) : ∃ x ∈ xs, ∃ b, f b x = .error e := by
  induction xs generalizing init with
  | nil => cases h
  | cons x xs ih =>
    simp only [List.foldlM_cons, bind, Except.bind] at h
    split at h
    · rename_i hx
      cases h
      exact ⟨x, List.mem_cons_self, init, hx⟩
    · obtain ⟨y, hy, hfail⟩ := ih h
      exact ⟨y, List.mem_cons_of_mem _ hy, hfail⟩

theorem SourceFile.read_eq_error {t : FileTree} {p : Path} {e : BuildError}
    (h : SourceFile.read t p = .error e) : ∃ reason, e = .file p reason := by
  rw [SourceFile.read] at h
  split at h
  · cases h
    exact ⟨_, rfl⟩
  split at h
  · cases h
    exact ⟨_, rfl⟩
  · cases h

namespace Workspace

variable {w : Workspace} {key : Key} {cause : BuildError}

/-- What can go wrong with a key: there is no file for it, its file cannot be read, or what is
read is no module. -/
theorem moduleOf_eq_error (h : w.moduleOf key = .error cause) (s : Specifier)
    (importer : Option Key) :
    (cause.withOrigin s importer).Blames key s importer ∨
      ∃ path reason, cause.withOrigin s importer = .file path reason ∧
        Key.file w.files w.root key = .ok path := by
  simp only [moduleOf, load, bind, Except.bind, pure, Except.pure] at h
  split at h
  · rename_i hload
    cases h
    split at hload
    · rename_i hfile
      cases hload
      rw [Key.file] at hfile
      split at hfile <;> cases hfile
      exact .inl .resolution
    rename_i path hpath
    split at hload
    · rename_i hread
      cases hload
      obtain ⟨reason, rfl⟩ := SourceFile.read_eq_error hread
      exact .inr ⟨path, reason, rfl, hpath⟩
    split at hload
    · rename_i hloaders
      cases hload
      obtain ⟨rule, -, given, hrule⟩ := foldlM_eq_error hloaders
      obtain ⟨entry, -, content, hrun⟩ := foldlM_eq_error hrule
      rcases LoaderEntry.run_eq_error hrun with ⟨loader, rfl⟩ | ⟨loader, reason, rfl⟩
      · exact .inl (.unknownLoader loader)
      · exact .inl (.loaderFailed loader reason)
    · cases hload
  split at h
  · rename_i hrewrite
    cases h
    rcases rewrite_eq_error hrewrite with ⟨bad, rfl⟩ | ⟨call, reason, rfl⟩
    · exact .inl (.badSource bad)
    · exact .inl (.rewrite call reason)
  · cases h

theorem visit_eq_error {r : Request} {e : BuildError} :
    w.visit r = .error e ↔
      ∃ cause, w.moduleOf r.key = .error cause ∧ e = cause.withOrigin r.specifier r.importer := by
  rw [visit]
  cases w.moduleOf r.key <;> simp [Except.mapError, eq_comm]

/-- What the module of a key asks for. -/
def requests (w : Workspace) (key : Key) : List Request :=
  match w.moduleOf key with
  | .ok m => m.requests
  | .error _ => []

theorem requests_eq {m : ModuleRecord} (h : w.moduleOf key = .ok m) :
    w.requests key = m.requests := by
  rw [requests, h]

theorem requests_keys (w : Workspace) (key : Key) :
    (w.requests key).map (·.key) = w.loads key := by
  rw [requests, loads]
  cases w.moduleOf key with
  | ok m => exact ModuleRecord.requests_keys m
  | error e => rfl

end Workspace

/-! ### Requests in the order of the walk -/

/-- A search that has met the keys `seen` and is asked for `requests` takes up `asked` in turn,
and then `r`. What a key asks for comes before the requests that are left. -/
inductive Takes (next : Key → List Request) :
    List Key → List Request → List Request → Request → Prop
  | here {seen : List Key} {requests : List Request} (r : Request) :
      Takes next seen (r :: requests) [] r
  | pass {seen : List Key} {requests asked : List Request} {q r : Request} (hq : q.key ∈ seen)
      (h : Takes next seen requests asked r) : Takes next seen (q :: requests) (q :: asked) r
  | enter {seen : List Key} {requests asked : List Request} {q r : Request} (hq : q.key ∉ seen)
      (h : Takes next (seen ++ [q.key]) (next q.key ++ requests) asked r) :
      Takes next seen (q :: requests) (q :: asked) r

namespace Takes

variable {next : Key → List Request} {seen : List Key} {requests asked : List Request} {r : Request}

/-- What is taken up was asked for at the start or by what was taken up before. -/
theorem origin (h : Takes next seen requests asked r) :
    r ∈ requests ∨ ∃ q ∈ asked, r ∈ next q.key := by
  induction h with
  | here => exact .inl List.mem_cons_self
  | pass _ _ ih =>
    rcases ih with hr | ⟨q, hq, hr⟩
    · exact .inl (List.mem_cons_of_mem _ hr)
    · exact .inr ⟨q, List.mem_cons_of_mem _ hq, hr⟩
  | @enter _ _ _ q _ _ _ ih =>
    rcases ih with hr | ⟨p, hp, hr⟩
    · rcases List.mem_append.mp hr with hr | hr
      · exact .inr ⟨q, List.mem_cons_self, hr⟩
      · exact .inl (List.mem_cons_of_mem _ hr)
    · exact .inr ⟨p, List.mem_cons_of_mem _ hp, hr⟩

/-- The first request is taken up first. -/
theorem head {q : Request} (h : Takes next seen (q :: requests) asked r) :
    q = r ∨ q ∈ asked := by
  cases h with
  | here => exact .inl rfl
  | pass => exact .inr List.mem_cons_self
  | enter => exact .inr List.mem_cons_self

/-- A key that was not met before it is asked for is met right after what was asked for. -/
theorem visits {deps : Key → List Key} {found : List Key}
    (hdeps : ∀ k, (next k).map (·.key) = deps k) (h : Takes next seen requests asked r)
    (hseen : r.key ∉ seen) (hasked : ∀ q ∈ asked, q.key ≠ r.key)
    (hv : Visits deps seen (requests.map (·.key)) found) :
    ∃ before after, found = before ++ r.key :: after ∧ ∀ k ∈ before, ∃ q ∈ asked, q.key = k := by
  induction h generalizing found with
  | here =>
    cases hv with
    | pass hk _ => exact absurd hk hseen
    | @enter _ _ _ below after _ _ _ => exact ⟨[], below ++ after, rfl, by simp⟩
  | pass hq _ ih =>
    cases hv with
    | enter hk _ _ => exact absurd hq hk
    | pass _ hv =>
      obtain ⟨before, after, rfl, hbefore⟩ :=
        ih hseen (fun p hp => hasked p (List.mem_cons_of_mem _ hp)) hv
      refine ⟨before, after, rfl, fun k hk => ?_⟩
      obtain ⟨p, hp, rfl⟩ := hbefore k hk
      exact ⟨p, List.mem_cons_of_mem _ hp, rfl⟩
  | @enter seen _ _ q _ hq _ ih =>
    cases hv with
    | pass hk _ => exact absurd hk hq
    | @enter _ _ _ below rest _ hbelow hrest =>
      have hsearch := hbelow.append (by simpa using hrest)
      rw [← hdeps, ← List.map_append] at hsearch
      obtain ⟨before, after, hfound, hbefore⟩ :=
        ih (by simpa using ⟨hseen, (hasked q List.mem_cons_self).symm⟩)
          (fun p hp => hasked p (List.mem_cons_of_mem _ hp)) hsearch
      refine ⟨q.key :: before, after, by rw [List.cons_append, hfound, List.cons_append], ?_⟩
      intro k hk
      rcases List.mem_cons.mp hk with rfl | hk
      · exact ⟨q, List.mem_cons_self, rfl⟩
      · obtain ⟨p, hp, rfl⟩ := hbefore k hk
        exact ⟨p, List.mem_cons_of_mem _ hp, rfl⟩

end Takes

namespace Walk

variable {w : Workspace} {s : Walk} {entry : Specifier} {asked : List Request} {r : Request}
  {e cause : BuildError}

/-- A request fails, and all that were taken up before it have a module. -/
structure FirstFailure (w : Workspace) (seen : List Key) (requests asked : List Request)
    (r : Request) (cause : BuildError) : Prop where
  taken : Takes w.requests seen requests asked r
  before : ∀ q ∈ asked, ∃ m, w.moduleOf q.key = .ok m
  fails : w.moduleOf r.key = .error cause

/-- The walk fails with an error after some number of steps. -/
def FailsWith (w : Workspace) (s : Walk) (e : BuildError) : Prop :=
  ∃ n r, (steps w n s).failure = some (r, e)

/-- A key that fails was not asked for before. -/
theorem FirstFailure.other {seen : List Key} {requests : List Request}
    (h : FirstFailure w seen requests asked r cause) : ∀ q ∈ asked, q.key ≠ r.key := by
  intro q hq hkey
  obtain ⟨m, hm⟩ := h.before q hq
  rw [hkey, h.fails] at hm
  cases hm

theorem FirstFailure.pass {seen : List Key} {requests : List Request} {q : Request}
    (hq : q.key ∈ seen) (hm : ∃ m, w.moduleOf q.key = .ok m)
    (h : FirstFailure w seen requests asked r cause) :
    FirstFailure w seen (q :: requests) (q :: asked) r cause :=
  ⟨.pass hq h.taken, List.forall_mem_cons.mpr ⟨hm, h.before⟩, h.fails⟩

theorem FirstFailure.enter {seen : List Key} {requests : List Request} {q : Request}
    (hq : q.key ∉ seen) {m : ModuleRecord} (hm : w.moduleOf q.key = .ok m)
    (h : FirstFailure w (seen ++ [q.key]) (m.requests ++ requests) asked r cause) :
    FirstFailure w seen (q :: requests) (q :: asked) r cause := by
  rw [← Workspace.requests_eq hm] at h
  exact ⟨.enter hq h.taken, List.forall_mem_cons.mpr ⟨⟨m, hm⟩, h.before⟩, h.fails⟩

/-! ### The walk follows the search -/

theorem Sound.moduleOf_mem (h : s.Sound w) {k : Key} (hk : k ∈ s.graph.keys) :
    ∃ m, w.moduleOf k = .ok m := by
  obtain ⟨m, hm, rfl⟩ := List.mem_map.mp hk
  exact ⟨m, h.moduleOf m hm⟩

theorem settle_cons_of_mem {graph : ModuleGraph} {pending : List Request} {q : Request}
    {failure : Option (Request × BuildError)} (hq : q.key ∈ graph.keys) :
    settle ⟨graph, q :: pending, failure⟩ = settle ⟨graph, pending, failure⟩ := by
  simp only [settle]
  rw [List.dropWhile_cons_of_pos (by exact ModuleGraph.contains_iff.mpr hq)]

theorem settle_cons_of_not_mem {graph : ModuleGraph} {pending : List Request} {q : Request}
    {failure : Option (Request × BuildError)} (hq : q.key ∉ graph.keys) :
    settle ⟨graph, q :: pending, failure⟩ = ⟨graph, q :: pending, failure⟩ := by
  simp only [settle]
  rw [List.dropWhile_cons_of_neg (by rwa [ModuleGraph.contains_iff])]

/-- Requests that are passed over come before the first failure. -/
theorem Sound.firstFailure_of_settle (h : s.Sound w)
    (hfirst : FirstFailure w s.graph.keys s.settle.pending asked r cause) :
    ∃ asked, FirstFailure w s.graph.keys s.pending asked r cause := by
  obtain ⟨graph, pending, failure⟩ := s
  have hmodule : ∀ k ∈ graph.keys, ∃ m, w.moduleOf k = .ok m := fun k hk => h.moduleOf_mem hk
  clear h
  induction pending with
  | nil => exact ⟨asked, hfirst⟩
  | cons q rs ih =>
    by_cases hq : q.key ∈ graph.keys
    · rw [settle_cons_of_mem hq] at hfirst
      obtain ⟨asked, hfirst⟩ := ih hfirst
      exact ⟨q :: asked, hfirst.pass hq (hmodule q.key hq)⟩
    · rw [settle_cons_of_not_mem hq] at hfirst
      exact ⟨asked, hfirst⟩

/-- A walk that fails does so on a first failure. -/
theorem Sound.exists_firstFailure (h : s.Sound w) (hf : s.failure = none)
    (hfails : FailsWith w s e) :
    ∃ asked r cause, FirstFailure w s.graph.keys s.pending asked r cause ∧
      e = cause.withOrigin r.specifier r.importer := by
  obtain ⟨n, r, hn⟩ := hfails
  induction n generalizing s with
  | zero =>
    rw [Walk.steps, hf] at hn
    cases hn
  | succ n ih =>
    rw [Walk.steps] at hn
    have hnext := h.step hf
    rcases step_cases w hf with ⟨-, hs⟩ | ⟨q, rs, m, hp, hm, hs⟩ | ⟨q, rs, e', hp, hv, hs⟩
    · obtain ⟨asked, r, cause, hfirst, he⟩ := ih hnext (by rw [hs]; exact hf) hn
      rw [hs] at hfirst
      obtain ⟨asked, hfirst⟩ := h.firstFailure_of_settle hfirst
      exact ⟨asked, r, cause, hfirst, he⟩
    · obtain ⟨asked, r, cause, hfirst, he⟩ := ih hnext (by rw [hs]) hn
      have hkey : m.key = q.key := (Workspace.moduleOf_eq_ok hm).1
      have hnew : q.key ∉ s.graph.keys := settle_head hp
      rw [hs, ModuleGraph.insert_of_not_mem (hkey ▸ hnew)] at hfirst
      simp only [ModuleGraph.keys, List.map_append, List.map_singleton, hkey] at hfirst
      have hfirst := hfirst.enter hnew hm
      rw [← hp] at hfirst
      obtain ⟨asked, hfirst⟩ := h.firstFailure_of_settle hfirst
      exact ⟨asked, r, cause, hfirst, he⟩
    · rw [steps_failed n (congrArg failure hs)] at hn
      cases hn
      obtain ⟨cause, hcause, rfl⟩ := Workspace.visit_eq_error.mp hv
      have hfirst : FirstFailure w s.graph.keys s.settle.pending [] r cause :=
        ⟨hp ▸ .here r, by simp, hcause⟩
      obtain ⟨asked, hfirst⟩ := h.firstFailure_of_settle hfirst
      exact ⟨asked, r, cause, hfirst, rfl⟩

/-- The walk comes to every first failure. -/
theorem FirstFailure.failsWith {seen : List Key} {requests : List Request}
    (h : FirstFailure w seen requests asked r cause) (hsound : s.Sound w) (hf : s.failure = none)
    (hseen : s.graph.keys = seen) (hpending : s.pending = requests) :
    FailsWith w s (cause.withOrigin r.specifier r.importer) := by
  obtain ⟨htaken, hbefore, hfails⟩ := h
  obtain ⟨graph, pending, failure⟩ := s
  cases hf
  induction htaken generalizing graph pending with
  | here q =>
    cases hpending
    have hnew : q.key ∉ graph.keys := fun hmem => by
      obtain ⟨m, hm⟩ := hsound.moduleOf_mem hmem
      rw [hfails] at hm
      cases hm
    refine ⟨1, q, ?_⟩
    have hvisit := Workspace.visit_eq_error.mpr ⟨cause, hfails, rfl⟩
    rw [steps, steps, step, settle_cons_of_not_mem hnew]
    simp only [hvisit]
  | @pass seen requests asked q r hq _ ih =>
    cases hpending
    cases hseen
    have hsound' : Sound w ⟨graph, requests, none⟩ :=
      ⟨hsound.nodup, hsound.moduleOf, hsound.keys,
        fun p hp => hsound.pending p (List.mem_cons_of_mem _ hp)⟩
    obtain ⟨n, p, hn⟩ := ih (fun p hp => hbefore p (List.mem_cons_of_mem _ hp)) hfails graph
      requests hsound' rfl rfl
    cases n with
    | zero => cases hn
    | succ n =>
      refine ⟨n + 1, p, ?_⟩
      rw [steps, step] at hn ⊢
      rwa [settle_cons_of_mem hq]
  | @enter seen requests asked q r hq _ ih =>
    cases hpending
    cases hseen
    obtain ⟨m, hm⟩ := hbefore q List.mem_cons_self
    have hkey : m.key = q.key := (Workspace.moduleOf_eq_ok hm).1
    have hsettle : (settle ⟨graph, q :: requests, none⟩).pending = q :: requests := by
      rw [settle_cons_of_not_mem hq]
    have hstep := step_of_moduleOf rfl hsettle hm
    have hsound' := hsound.step rfl
    rw [hstep] at hsound'
    obtain ⟨n, p, hn⟩ := ih (fun p hp => hbefore p (List.mem_cons_of_mem _ hp)) hfails
      (graph.insert m) (m.requests ++ requests) hsound'
      (by rw [ModuleGraph.insert_of_not_mem (hkey ▸ hq)]; simp [ModuleGraph.keys, hkey])
      (by rw [Workspace.requests_eq hm])
    exact ⟨n + 1, p, by rwa [steps, hstep]⟩

/-! ### The result -/

theorem failsWith_iff (w : Workspace) (entry : Specifier) (e : BuildError) :
    FailsWith w (start w entry) e ↔ ∃ asked r cause,
      FirstFailure w [] [Workspace.entryRequest w.root entry] asked r cause ∧
        e = cause.withOrigin r.specifier r.importer := by
  constructor
  · exact (sound_start w entry).exists_firstFailure rfl
  · rintro ⟨asked, r, cause, hfirst, rfl⟩
    exact hfirst.failsWith (sound_start w entry) rfl rfl rfl

/-- Below an absolute root the walk is long enough to come to its failure. -/
theorem run_eq_error_iff (hr : w.root.isAbsolute = true) :
    (run w entry).result = .error e ↔ FailsWith w (start w entry) e := by
  have hvisit : (start w entry).FailsByVisit w := by
    intro r e hfail
    cases hfail
  constructor
  · intro h
    rcases (run_finished hr entry).result_cases (hvisit.steps _) with hg | ⟨r, e', hf, -, he⟩
    · rw [h] at hg
      cases hg
    · rw [h] at he
      cases he
      exact ⟨_, r, hf⟩
  · rintro ⟨n, r, hn⟩
    have hlong := steps_failed (w := w) (3 * w.files.entries.length + 1) hn
    rw [← steps_add] at hlong
    rw [← (steps_eq_run hr entry (Nat.le_add_left _ n)).2, result, hlong]

theorem loads_resolved {k : Key} :
    ∀ d ∈ w.loads k, Key.IsResolved w.root d := by
  intro d hd
  rw [Workspace.loads] at hd
  split at hd
  · rename_i m hm
    obtain ⟨x, hx, rfl⟩ := List.mem_map.mp hd
    obtain ⟨-, _, _, _, -, -, -, -, -, hrewrite⟩ := Workspace.moduleOf_eq_ok hm
    exact ⟨_, _, rewrite_dependencies hrewrite x hx⟩
  · cases hd

/-- Below an absolute root the search for what the entry reaches has an end, also when some of
it is no module. -/
theorem exists_visits_entry (hr : w.root.isAbsolute = true) (entry : Specifier) :
    ∃ found, Visits w.loads [] [(Workspace.entryRequest w.root entry).key] found := by
  refine exists_visits {k | Key.IsResolved w.root k} ?_ (fun _ _ => loads_resolved) [] ?_
  · refine (Key.finite_existing hr w.files).subset fun k hk => ⟨hk.1, ?_⟩
    obtain ⟨-, hleads⟩ := hk
    rw [Workspace.loads] at hleads
    split at hleads
    · rename_i m hm
      obtain ⟨-, _, _, _, hp, -⟩ := Workspace.moduleOf_eq_ok hm
      exact ⟨_, hp⟩
    · exact absurd rfl hleads
  · intro k hk
    rw [List.mem_singleton.mp hk]
    exact ⟨w.root, _, rfl⟩

/-- The error of a build is that of its first failure in depth-first preorder, and it names the
load that was the first to ask for the failing key: the entry, or a load of a module that was
processed before. Only an error about its file names that file instead. -/
theorem run_blames_first (w : Workspace) (entry : Specifier) :
    (w.root.isAbsolute = true →
      (∃ found, Visits w.loads [] [(Workspace.entryRequest w.root entry).key] found) ∧
      ∀ e, (run w entry).result = .error e ↔ FailsWith w (start w entry) e) ∧
    (∀ e, FailsWith w (start w entry) e ↔ ∃ asked r cause,
      FirstFailure w [] [Workspace.entryRequest w.root entry] asked r cause ∧
        e = cause.withOrigin r.specifier r.importer) ∧
    ∀ asked r cause, FirstFailure w [] [Workspace.entryRequest w.root entry] asked r cause →
      (∀ q ∈ asked, q.key ≠ r.key) ∧
      (∀ found, Visits w.loads [] [(Workspace.entryRequest w.root entry).key] found →
        ∃ before after, found = before ++ r.key :: after ∧
          ∀ k ∈ before, ∃ m, w.moduleOf k = .ok m) ∧
      (r.key = (Workspace.entryRequest w.root entry).key →
        r.specifier = entry ∧ r.importer = none) ∧
      (r.key ≠ (Workspace.entryRequest w.root entry).key → ∃ q ∈ asked, ∃ m,
        w.moduleOf q.key = .ok m ∧ r.importer = some q.key ∧
          ⟨r.key, r.specifier⟩ ∈ m.dependencies) ∧
      ((cause.withOrigin r.specifier r.importer).Blames r.key r.specifier r.importer ∨
        ∃ path reason, cause.withOrigin r.specifier r.importer = .file path reason ∧
          Key.file w.files w.root r.key = .ok path) := by
  refine ⟨fun hr => ⟨exists_visits_entry hr entry, fun e => run_eq_error_iff hr⟩,
    failsWith_iff w entry, fun asked r cause h => ?_⟩
  have hother : ∀ q ∈ asked, q.key ≠ r.key := h.other
  refine ⟨hother, fun found hfound => ?_, fun hkey => ?_, fun hkey => ?_,
    Workspace.moduleOf_eq_error h.fails r.specifier r.importer⟩
  · obtain ⟨before, after, hsplit, hbefore⟩ :=
      h.taken.visits w.requests_keys (by simp) hother hfound
    refine ⟨before, after, hsplit, fun k hk => ?_⟩
    obtain ⟨q, hq, rfl⟩ := hbefore k hk
    exact h.before q hq
  · rcases h.taken.head with rfl | hentry
    · exact ⟨rfl, rfl⟩
    · exact absurd hkey.symm (hother _ hentry)
  · rcases h.taken.origin with hentry | ⟨q, hq, hnext⟩
    · exact absurd (congrArg _ (List.mem_singleton.mp hentry)) hkey
    · obtain ⟨m, hm⟩ := h.before q hq
      rw [Workspace.requests_eq hm] at hnext
      obtain ⟨d, hd, rfl⟩ := List.mem_map.mp hnext
      exact ⟨q, hq, m, hm, congrArg some (Workspace.moduleOf_eq_ok hm).1, hd⟩

/-- Two modules load a file that is missing, by different names; one of them loads the other
first. -/
def shared : Workspace where
  root := ⟨"/p"⟩
  files := ⟨[(["p"], .directory),
    (["p", "main.js"], .file "require('./a');require('./gone.js')".toUTF8),
    (["p", "a.js"], .file "require('./main');require('./gone')".toUTF8)]⟩
  rules := []
  loaders := {}
  frontEnd := .javaScript

/-- The error names the load of the inner module. -/
theorem run_blames_first_shared :
    (run shared "main").result = .error (.resolution "./gone.js" "./gone" (some "./a.js")) ∧
      ∃ asked r cause,
        FirstFailure shared [] [Workspace.entryRequest shared.root "main"] asked r cause ∧
        r = ⟨"./gone.js", "./gone", some "./a.js"⟩ ∧ ∃ q ∈ asked, q.key = "./a.js" ∧
          ∃ m, shared.moduleOf q.key = .ok m ∧ ⟨"./gone.js", "./gone"⟩ ∈ m.dependencies := by
  have hrun : (run shared "main").result =
      .error (.resolution "./gone.js" "./gone" (some "./a.js")) := by decide +kernel
  obtain ⟨habsolute, hfails, hblames⟩ := run_blames_first shared "main"
  obtain ⟨asked, ⟨key, specifier, importer⟩, cause, hfirst, he⟩ :=
    (hfails _).mp (((habsolute (by decide)).2 _).mp hrun)
  obtain ⟨-, -, -, hload, hkind⟩ := hblames asked _ cause hfirst
  rw [← he] at hkind
  dsimp only at hkind hload
  rcases hkind with hkind | ⟨_, _, hfile, -⟩
  · cases hkind
    obtain ⟨q, hq, m, hm, himporter, hd⟩ := hload (by decide +kernel)
    exact ⟨hrun, asked, _, cause, hfirst, rfl, q, hq, (Option.some.inj himporter).symm, m, hm, hd⟩
  · cases hfile

end Walk
end Bundler
