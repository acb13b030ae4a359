import Bundler.Proofs.Graph.Bound
import Bundler.Proofs.Graph.Discovery
import Bundler.Proofs.Graph.Spelling
import Bundler.Proofs.FileTree.Change
import Bundler.Plugin.Builtin
import Bundler.Report.Basic

/-! The listing of a graph. It has the modules in the order of the graph. The file of a module is
shown from the root where it lies below it, but only for a root that is written without a step up:
paths of modules are normal, the root is compared as it is written, and a step up in it is never
found in a normal path. -/
namespace Bundler

open Component

namespace Path

variable {base : Path} {loc : Location} {names ss rest : List String} {cs : List Component}

/-! ### What is left of a path below another one -/

theorem intercalate_eq_append {names : List String} (h : names ≠ []) :
    ∃ a, "/".intercalate names = a ++ names.getLast h := by
  obtain ⟨front, s, rfl⟩ := (List.eq_nil_or_concat names).resolve_left h
  simp only [List.concat_eq_append, List.getLast_append_singleton]
  cases front with
  | nil => exact ⟨"", by simp⟩
  | cons t ts => exact ⟨_, intercalate_append_singleton (List.cons_ne_nil t ts) s⟩

theorem ofLocation_eq (h : loc.IsProper) : ofLocation loc = ⟨"/" ++ "/".intercalate loc⟩ := by
  induction loc using List.reverseRecOn with
  | nil => decide
  | append_singleton loc s ih =>
    have hs : (name s).IsMove := h s (by simp)
    rw [ofLocation_append, ih fun t ht => h t (by simp [ht])]
    by_cases hloc : loc = []
    · have hrelative : (mk s).isAbsolute = false := isAbsolute_segment hs
      rw [hloc, join, if_neg (by simp [hrelative])]
      simp
    · have hlast : (name (loc.getLast hloc)).IsMove := h _ (by simp)
      obtain ⟨a, ha⟩ := intercalate_eq_append hloc
      rw [intercalate_append_singleton hloc, ha, ← String.append_assoc]
      refine (join_segment hlast hs _).trans ?_
      simp only [Component.segment, String.append_assoc]

theorem segments_ofLocation (h : loc.IsProper) (hne : loc ≠ []) :
    (ofLocation loc).segments = "" :: loc := by
  have happend := segments_append_slash "" ("/".intercalate loc)
  rw [String.empty_append, segments_intercalate hne fun s hs => (h s hs).no_slash] at happend
  rw [ofLocation_eq h, happend]
  rfl

theorem map_name_injective : Function.Injective (List.map name) :=
  List.map_injective_iff.mpr fun _ _ h => by injection h

/-- Names are left behind the components that they start with. -/
theorem afterNames_eq_some (h : ∀ s ∈ ss, Proper s) :
    afterNames cs ss = some rest ↔ ss.map name = cs ++ rest.map name := by
  induction cs generalizing ss with
  | nil => rw [afterNames, Option.some_inj, List.nil_append, map_name_injective.eq_iff]
  | cons c cs ih =>
    cases ss with
    | nil => simp [afterNames]
    | cons s ss =>
      rw [afterNames, ofSegment?_of_proper (h s List.mem_cons_self), List.map_cons,
        List.cons_append, List.cons.injEq, ← ih fun t ht => h t (List.mem_cons_of_mem s ht)]
      by_cases hc : name s = c
      · simp [hc]
      · simp [hc]

theorem dropWhile_of_proper (h : ∀ s ∈ ss, Proper s) :
    ss.dropWhile (fun t => t == "" || t == ".") = ss := by
  cases ss with
  | nil => rfl
  | cons s ss =>
    have hs := h s List.mem_cons_self
    rw [List.dropWhile_cons_of_neg]
    simp [hs.ne_empty, hs.ne_here]

theorem trimSegments_of_proper (h : ∀ s ∈ ss, Proper s) : trimSegments ss = ss := by
  cases ss with
  | nil => rfl
  | cons s ss =>
    rw [trimSegments, dropWhile_of_proper, List.reverse_reverse]
    exact fun t ht => h t (List.mem_cons_of_mem s (List.mem_reverse.mp ht))

theorem below?_ofLocation (hb : base.isAbsolute = true) (h : loc.IsProper) :
    (ofLocation loc).below? base = (afterNames base.moves loc).map ofSegments := by
  rw [below?, components_of_isAbsolute hb, components_of_isAbsolute (isAbsolute_ofLocation loc)]
  simp only
  by_cases hloc : loc = []
  · rw [hloc, show (ofLocation []).segments.tail = [""] by decide]
    cases base.moves with
    | nil => rfl
    | cons c cs => rfl
  · rw [segments_ofLocation h hloc, List.tail_cons]
    refine Option.map_congr fun rest hrest => ?_
    have hproper : ∀ s ∈ rest, Proper s := by
      intro s hs
      have hname : name s ∈ loc.map name := by
        rw [(afterNames_eq_some h).mp hrest]
        exact List.mem_append_right _ (List.mem_map_of_mem hs)
      obtain ⟨t, ht, heq⟩ := List.mem_map.mp hname
      exact name.inj heq ▸ h t ht
    rw [dropWhile_of_proper hproper, trimSegments_of_proper hproper]

/-! ### Paths as they are shown -/

theorem moves_of_up_notMem (hb : base.isAbsolute = true) (hup : up ∉ base.components) :
    base.moves = base.location.map name := by
  rw [components_of_isAbsolute hb, List.mem_cons, not_or] at hup
  obtain ⟨names, hnames⟩ : ∃ names : List String, base.moves = names.map name := by
    refine ⟨base.moves.map segment, ?_⟩
    rw [List.map_map]
    refine (List.map_id base.moves).symm.trans (List.map_congr_left fun c hc => ?_)
    have hmove := isMove_of_mem_moves hc
    cases c with
    | name s => rfl
    | up => exact absurd hc hup.2
    | root => exact hmove.elim
    | here => exact hmove.elim
  rw [location, hnames, Location.follow_names, List.nil_append]

/-- Below a base without a step up, the names behind the base are shown. -/
theorem shownFrom_of_up_notMem (hb : base.isAbsolute = true) (hup : up ∉ base.components)
    (h : (base.location ++ names).IsProper) :
    (ofLocation (base.location ++ names)).shownFrom base = "/".intercalate names := by
  have hrest : afterNames base.moves (base.location ++ names) = some names := by
    rw [afterNames_eq_some h, moves_of_up_notMem hb hup, List.map_append]
  rw [shownFrom, below?_ofLocation hb h, hrest]
  rfl

/-- Elsewhere, and with a step up in the base, the whole path is shown. -/
theorem shownFrom_of_outside (hb : base.isAbsolute = true) (h : loc.IsProper)
    (hout : up ∈ base.components ∨ ¬ base.location <+: loc) :
    (ofLocation loc).shownFrom base = (ofLocation loc).text := by
  have hnone : afterNames base.moves loc = none := by
    rw [Option.eq_none_iff_forall_ne_some]
    intro rest hrest
    have hloc := (afterNames_eq_some h).mp hrest
    have hup : up ∉ base.components := by
      rw [components_of_isAbsolute hb, List.mem_cons, not_or]
      refine ⟨nofun, fun hup => ?_⟩
      have hmem : up ∈ loc.map name := hloc ▸ List.mem_append_left _ hup
      simp at hmem
    rw [moves_of_up_notMem hb hup, ← List.map_append] at hloc
    exact hout.elim hup fun hprefix => hprefix ⟨rest, (map_name_injective hloc).symm⟩
  rw [shownFrom, below?_ofLocation hb h, hnone]
  rfl

theorem intercalate_ne_text (h : ∀ s ∈ names, Proper s) :
    "/".intercalate names ≠ (ofLocation loc).text := by
  intro heq
  have hrelative : (mk ("/".intercalate names)).isAbsolute = false := by
    cases names with
    | nil => decide
    | cons s ss =>
      have hsegments := segments_intercalate (List.cons_ne_nil s ss) fun t ht => (h t ht).no_slash
      exact isAbsolute_of_segments hsegments (h s List.mem_cons_self).ne_empty
  rw [heq] at hrelative
  exact absurd (isAbsolute_ofLocation loc) (Bool.eq_false_iff.mp hrelative)

/-- Two spellings of a base show a path alike unless it lies below and one of them has a step up
where the other has none. -/
theorem shownFrom_eq_iff {base' : Path} (hb : base.isAbsolute = true)
    (hb' : base'.isAbsolute = true) (hlocation : base'.location = base.location)
    (h : loc.IsProper) :
    (ofLocation loc).shownFrom base' = (ofLocation loc).shownFrom base ↔
      (up ∈ base'.components ↔ up ∈ base.components) ∨ ¬ base.location <+: loc := by
  by_cases hin : base.location <+: loc
  · obtain ⟨names, rfl⟩ := hin
    have hne : "/".intercalate names ≠ (ofLocation (base.location ++ names)).text :=
      intercalate_ne_text fun s hs => h s (List.mem_append_right _ hs)
    have hbelow (hup : up ∉ base.components) :
        (ofLocation (base.location ++ names)).shownFrom base = "/".intercalate names :=
      shownFrom_of_up_notMem hb hup h
    have hbelow' (hup' : up ∉ base'.components) :
        (ofLocation (base.location ++ names)).shownFrom base' = "/".intercalate names := by
      rw [← hlocation] at h ⊢
      exact shownFrom_of_up_notMem hb' hup' h
    by_cases hup : up ∈ base.components <;> by_cases hup' : up ∈ base'.components
    · rw [shownFrom_of_outside hb h (.inl hup), shownFrom_of_outside hb' h (.inl hup')]
      simp [hup, hup']
    · rw [shownFrom_of_outside hb h (.inl hup), hbelow' hup']
      simp [hup, hup', hne]
    · rw [hbelow hup, shownFrom_of_outside hb' h (.inl hup')]
      simp [hup, hup', hne.symm]
    · rw [hbelow hup, hbelow' hup']
      simp [hup, hup']
  · rw [shownFrom_of_outside hb h (.inr hin),
      shownFrom_of_outside hb' h (.inr (hlocation.symm ▸ hin))]
    simp [hin]

theorem location_eq_of_normalize_eq {p q : Path} (hp : p.isAbsolute = true)
    (hq : q.isAbsolute = true) (h : p.normalize = q.normalize) : p.location = q.location := by
  rw [normalize_of_isAbsolute hp, normalize_of_isAbsolute hq] at h
  exact ofLocation_injective p.isProper_location q.isProper_location h

end Path

namespace Key

variable {t : FileTree} {root p : Path} {key : Key}

theorem candidates_subset (root : Path) (key : Key) : candidates root key ⊆
    [exactPath root key, exactPath root (key ++ ".js"), (exactPath root key).join indexFile] := by
  simp only [candidates, exactPath]
  split_ifs <;> simp

/-- The file of a key is a normal path. -/
theorem file_eq_ofLocation (hr : root.isAbsolute = true) (h : file t root key = .ok p) :
    p = Path.ofLocation p.location := by
  have hmem : p ∈ candidates root key := by
    rw [file] at h
    split at h
    · rename_i hfind
      cases h
      exact List.mem_of_find?_eq_some hfind
    · cases h
  have hexact (k : Key) := ofLocation_exactPath hr k
  rcases List.mem_cons.mp (candidates_subset root key hmem) with hp | hmem
  · rw [hp, hexact]
  rcases List.mem_pair.mp hmem with hp | hp
  · rw [hp, hexact]
  · have hindex : (exactPath root key).join indexFile =
        Path.ofLocation ((exactPath root key).location ++ ["index.js"]) := by
      rw [Path.ofLocation_append, hexact]
      rfl
    have hproper : Location.IsProper ((exactPath root key).location ++ ["index.js"]) := by
      intro s hs
      rcases List.mem_append.mp hs with hs | hs
      · exact Path.isProper_location _ s hs
      · rw [List.mem_singleton.mp hs]
        exact ⟨by decide, by decide, by decide, by decide⟩
    rw [hp, hindex, Path.location_ofLocation hproper]

end Key

/-! ### Configurations for the spellings of a root -/

namespace BuildOptions

variable {o : BuildOptions} {cwd : Path} {known : Plugins} {config : BuildConfig}

theorem configure_root (h : o.configure cwd known = .ok config) : config.root = o.rootIn cwd := by
  obtain ⟨settings, hsettings, h⟩ := exists_of_bind_eq_ok h
  obtain ⟨rules, -, h⟩ := exists_of_bind_eq_ok h
  obtain ⟨plugins, -, h⟩ := exists_of_bind_eq_ok h
  cases h
  simp only [BuildOptions.settings] at hsettings
  split_ifs at hsettings
  cases hsettings
  rfl

theorem isAbsolute_rootIn (hcwd : cwd.isAbsolute = true) : (o.rootIn cwd).isAbsolute = true := by
  rw [rootIn]
  split
  · exact hcwd
  · exact Path.join_isAbsolute hcwd

/-- Whether options can be used does not depend on their root. -/
theorem configure_withRoot (h : o.configure cwd known = .ok config) (root : Path) :
    ∃ config', { o with root := some root }.configure cwd known = .ok config' ∧
      config'.root = cwd.join root ∧ config'.entry = config.entry ∧ config'.rules = config.rules := by
  obtain ⟨settings, hsettings, h⟩ := exists_of_bind_eq_ok h
  obtain ⟨rules, hrules, h⟩ := exists_of_bind_eq_ok h
  obtain ⟨plugins, hplugins, h⟩ := exists_of_bind_eq_ok h
  cases h
  simp only [BuildOptions.settings] at hsettings
  split_ifs at hsettings with hfile
  cases hsettings
  simp only [configure, BuildOptions.settings, if_neg hfile, hrules, hplugins, bind, Except.bind,
    pure, Except.pure]
  exact ⟨_, rfl, rfl, rfl, rfl⟩

end BuildOptions

/-! ### The listing -/

/-- What the listing says of a module: its key, its digest and what it loads as they are, and its
file by the names behind the root exactly when it lies below a root without a step up. -/
structure ModuleEntry.Lists (root : Path) (m : ModuleRecord) (e : ModuleEntry) : Prop where
  key : e.key = m.key
  hash : e.hash = m.hash
  dependencies : e.dependencies = m.dependencies.map (·.key)
  below : ∀ names, m.path.location = root.location ++ names →
    (e.path = "/".intercalate names ↔ up ∉ root.components)
  elsewhere : up ∈ root.components ∨ ¬ root.location <+: m.path.location → e.path = m.path.text

theorem ModuleEntry.lists_ofRecord {root : Path} {m : ModuleRecord} (hr : root.isAbsolute = true)
    (hpath : m.path = Path.ofLocation m.path.location) :
    ModuleEntry.Lists root m (.ofRecord root m) where
  key := rfl
  hash := rfl
  dependencies := rfl
  below names hnames := by
    have hproper : (root.location ++ names).IsProper := hnames ▸ m.path.isProper_location
    rw [ModuleEntry.ofRecord, hpath, hnames]
    constructor
    · intro heq hup
      rw [Path.shownFrom_of_outside hr hproper (.inl hup)] at heq
      exact Path.intercalate_ne_text (fun s hs => hproper s (List.mem_append_right _ hs)) heq.symm
    · exact fun hup => Path.shownFrom_of_up_notMem hr hup hproper
  elsewhere hout := by
    rw [ModuleEntry.ofRecord, hpath]
    exact Path.shownFrom_of_outside hr m.path.isProper_location hout

namespace GraphReport

variable {o : BuildOptions} {cwd : Path} {known : Plugins} {c : Compiler} {files : FileTree}
  {g : ModuleGraph}

/-- The listing has the modules in depth-first preorder, and each file that lies below the root is
shown from there exactly when the root is written without a step up. Another spelling of the root
in the options gives the same graph, and the same listing unless one of the two spellings has a
step up, the other has none, and some module lies below the root. -/
theorem ofGraph_lists (hcwd : cwd.isAbsolute = true) (hconfig : o.configure cwd known = .ok c.config)
    (hg : c.compile files = .ok g) :
    (List.Forall₂ (ModuleEntry.Lists c.config.root) g.modules (ofGraph g c.config.root).modules ∧
      Visits g.dependencyKeys [] [(Workspace.entryRequest c.config.root c.config.entry).key]
        ((ofGraph g c.config.root).modules.map (·.key))) ∧
    ∀ root : Path, (cwd.join root).normalize = c.config.root.normalize →
      ∃ config, { o with root := some root }.configure cwd known = .ok config ∧
        config.root = cwd.join root ∧ { c with config }.compile files = .ok g ∧
        (ofGraph g config.root = ofGraph g c.config.root ↔
          (up ∈ config.root.components ↔ up ∈ c.config.root.components) ∨
            ∀ m ∈ g.modules, ¬ c.config.root.location <+: m.path.location) := by
  have hr : c.config.root.isAbsolute = true :=
    o.configure_root hconfig ▸ o.isAbsolute_rootIn hcwd
  have hresult : (Walk.run (c.workspace files) c.config.entry).result = .ok g :=
    Walk.run_verified.mp hg
  have hpath : ∀ m ∈ g.modules, m.path = Path.ofLocation m.path.location := by
    intro m hm
    obtain ⟨-, _, _, _, hfile, -⟩ := Workspace.moduleOf_eq_ok (Walk.run_moduleOf hresult m hm)
    exact Key.file_eq_ofLocation hr hfile
  refine ⟨⟨?_, ?_⟩, fun root hroot => ?_⟩
  · rw [ofGraph, List.forall₂_map_right_iff, List.forall₂_same]
    exact fun m hm => ModuleEntry.lists_ofRecord hr (hpath m hm)
  · have hkeys : (ofGraph g c.config.root).modules.map (·.key) = g.keys := by
      rw [ofGraph, List.map_map]
      rfl
    have hpreorder := Walk.run_preorder hresult
    rwa [hkeys]
  · obtain ⟨config, hconfig', hroot', hentry, hrules⟩ := BuildOptions.configure_withRoot hconfig root
    have hr' : config.root.isAbsolute = true := hroot' ▸ Path.join_isAbsolute hcwd
    rw [← hroot'] at hroot
    have hcompile : Compiler.compile { c with config } files = c.compile files :=
      @Compiler.compile_spelling c { c with config } hr hr' hroot hentry hrules rfl rfl files
    refine ⟨config, hconfig', hroot', hcompile.trans hg, ?_⟩
    have hshown : ∀ m ∈ g.modules,
        (ModuleEntry.ofRecord config.root m = ModuleEntry.ofRecord c.config.root m ↔
          (up ∈ config.root.components ↔ up ∈ c.config.root.components) ∨
            ¬ c.config.root.location <+: m.path.location) := by
      intro m hm
      have hiff := Path.shownFrom_eq_iff hr hr' (Path.location_eq_of_normalize_eq hr' hr hroot)
        m.path.isProper_location
      rw [← hpath m hm] at hiff
      simpa [ModuleEntry.ofRecord] using hiff
    rw [ofGraph, ofGraph, GraphReport.mk.injEq, List.map_inj_left, ← forall_or_left]
    simp only [true_and, and_true, ← forall_or_left]
    exact forall₂_congr hshown

/-- Options with a spelling of the root. -/
def spelled (root : Path) : BuildOptions := { root := some root }

def speller (root : Path) : Compiler where
  config := { root }
  loaders := {}

/-- One module below `/p`. -/
def alone : FileTree := ⟨[(["p"], .directory), (["p", "src"], .directory),
  (["p", "src", "index.js"], .file "exports.a = 1;".toUTF8)]⟩

theorem compile_alone (root : Path) (h : root ∈ [⟨"/p/."⟩, ⟨"/p/../p"⟩]) :
    (speller root).compile alone = .ok ((speller root).walk alone).graph := by
  have hdone : ∀ root ∈ [Path.mk "/p/.", Path.mk "/p/../p"],
      ((speller root).walk alone).failure.isNone = true ∧
        ((speller root).walk alone).settle.pending = [] := by decide +kernel
  obtain ⟨hfailure, hpending⟩ := hdone root h
  exact Walk.run_verified.mpr
    (Walk.result_eq_ok.mpr ⟨Option.isNone_iff_eq_none.mp hfailure, hpending, rfl⟩)

/-- The root `.` shows `src/index.js`; `../p` is the same directory and does not. -/
theorem ofGraph_lists_alone : ∃ g, (speller ⟨"/p/."⟩).compile alone = .ok g ∧
    (spelled ⟨"."⟩).configure ⟨"/p"⟩ Plugin.builtin = .ok (speller ⟨"/p/."⟩).config ∧
    (ofGraph g ⟨"/p/."⟩).modules.map (·.path) = ["src/index.js"] ∧
    ofGraph g ⟨"/p/../p"⟩ ≠ ofGraph g ⟨"/p/."⟩ := by
  have hconfig : (spelled ⟨"."⟩).configure ⟨"/p"⟩ Plugin.builtin = .ok (speller ⟨"/p/."⟩).config := rfl
  have hg := compile_alone ⟨"/p/."⟩ (by decide)
  obtain ⟨⟨hlists, -⟩, hspelling⟩ := ofGraph_lists (by decide) hconfig hg
  obtain ⟨config, -, hroot, -, hiff⟩ := hspelling ⟨"../p"⟩ (by decide)
  replace hroot : config.root = ⟨"/p/../p"⟩ := hroot.trans (by decide)
  refine ⟨_, hg, hconfig, by decide +kernel, fun heq => ?_⟩
  rw [hroot] at hiff
  rcases hiff.mp heq with hup | hbelow
  · exact absurd hup (by decide)
  · exact absurd hbelow (by decide +kernel)

/-- A root with a step up is never removed from a path. -/
theorem not_ofGraph_lists :
    ¬ ∀ (o : BuildOptions) (cwd : Path) (known : Plugins) (c : Compiler) (files : FileTree)
      (g : ModuleGraph), cwd.isAbsolute = true → o.configure cwd known = .ok c.config →
      c.compile files = .ok g →
      List.Forall₂ (fun m e => ∀ names, m.path.location = c.config.root.location ++ names →
        e.path = "/".intercalate names) g.modules (ofGraph g c.config.root).modules := by
  intro h
  have hconfig : (spelled ⟨"../p"⟩).configure ⟨"/p"⟩ Plugin.builtin =
      .ok (speller ⟨"/p/../p"⟩).config := rfl
  have hlists := h _ _ _ _ alone _ (by decide) hconfig (compile_alone _ (by decide))
  rw [ofGraph, List.forall₂_map_right_iff, List.forall₂_same] at hlists
  obtain ⟨m, hm, hbelow, hpath⟩ : ∃ m ∈ ((speller ⟨"/p/../p"⟩).walk alone).graph.modules,
      m.path.location = ["p"] ++ ["src", "index.js"] ∧
        (ModuleEntry.ofRecord ⟨"/p/../p"⟩ m).path ≠ "/".intercalate ["src", "index.js"] := by
    decide +kernel
  exact hpath (hlists m hm ["src", "index.js"] hbelow)

end GraphReport
end Bundler
