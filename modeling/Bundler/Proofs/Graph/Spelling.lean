import Bundler.Compiler
import Bundler.Proofs.Key.Below
import Bundler.Proofs.Path.Algebra

/-! Spellings of the root. Every path that a walk makes from the root goes through its normal form
before it is used, so two absolute roots with one normal form give the same walk: the same keys,
the same files, the same graph or the same error. -/
namespace Bundler

variable {root root' : Path}

theorem Path.normalize_join_of_normalize_eq {p p' : Path} (h : p'.normalize = p.normalize) (q : Path) :
    (p'.join q).normalize = (p.join q).normalize := by
  rw [normalize_join p' q, h, ← normalize_join]

namespace Specifier

theorem target_spelling (h : root'.normalize = root.normalize) (directory : Path) (s : Specifier) :
    target directory s root' = target directory s root := by
  have hdirectory := Path.normalize_join_of_normalize_eq h directory
  rw [target, target, Path.normalize_join_of_normalize_eq hdirectory]

theorem resolve_spelling (h : root'.normalize = root.normalize) (directory : Path) (s : Specifier) :
    resolve directory s root' = resolve directory s root := by
  rw [resolve, resolve, target_spelling h, h]

end Specifier

theorem Key.file_spelling (h : root'.normalize = root.normalize) (t : FileTree) (key : Key) :
    file t root' key = file t root key := by
  rw [file, file, candidates, candidates]
  simp only [Path.normalize_join_of_normalize_eq h]

theorem rewrite_spelling (h : root'.normalize = root.normalize) (fe : FrontEnd) (key : Key)
    (source : List Char) : rewrite fe root' key source = rewrite fe root key source := by
  have hcall : Rewrite.resolveCall key root' = Rewrite.resolveCall key root := by
    funext source load
    simp only [Rewrite.resolveCall, Specifier.resolve_spelling h]
  simp only [rewrite, Rewrite.rewriteCalls, hcall]

namespace Workspace

/-- A workspace with another root. -/
def withRoot (w : Workspace) (root : Path) : Workspace := { w with root }

variable {w : Workspace}

theorem visit_spelling (h : root.normalize = w.root.normalize) (r : Request) :
    (w.withRoot root).visit r = w.visit r := by
  simp only [visit, moduleOf, load, withRoot, Key.file_spelling h, rewrite_spelling h]

theorem entryRequest_spelling (hr : root.isAbsolute = true) (hr' : root'.isAbsolute = true)
    (h : root'.normalize = root.normalize) (entry : Specifier) :
    entryRequest root' entry = entryRequest root entry := by
  have hself (s : Specifier) : Specifier.resolve root' s root' = Specifier.resolve root s root := by
    rw [Specifier.resolve_self hr', Specifier.resolve_self hr, Specifier.resolve_spelling h]
  simp only [entryRequest, hself]

end Workspace

namespace Walk

variable {w : Workspace}

theorem step_spelling (h : root.normalize = w.root.normalize) :
    step (w.withRoot root) = step w := by
  funext s
  simp only [step, Workspace.visit_spelling h]

theorem run_spelling (hr : w.root.isAbsolute = true) (hroot : root.isAbsolute = true)
    (h : root.normalize = w.root.normalize) (entry : Specifier) :
    run (w.withRoot root) entry = run w entry := by
  have hsteps (n : ℕ) (s : Walk) : steps (w.withRoot root) n s = steps w n s := by
    induction n generalizing s with
    | zero => rfl
    | succ n ih => rw [steps, steps, step_spelling h, ih]
  simp only [run, Workspace.withRoot] at hsteps ⊢
  rw [Workspace.entryRequest_spelling hr hroot h, hsteps]

end Walk

/-- A build that differs in the spelling of the root only has the same graph or the same error. -/
theorem Compiler.compile_spelling {c c' : Compiler} (hr : c.config.root.isAbsolute = true)
    (hr' : c'.config.root.isAbsolute = true)
    (hroot : c'.config.root.normalize = c.config.root.normalize)
    (hentry : c'.config.entry = c.config.entry) (hrules : c'.config.rules = c.config.rules)
    (hloaders : c'.loaders = c.loaders) (hfrontEnd : c'.frontEnd = c.frontEnd) (files : FileTree) :
    c'.compile files = c.compile files := by
  have hworkspace : c'.workspace files = (c.workspace files).withRoot c'.config.root := by
    rw [workspace, workspace, hrules, hloaders, hfrontEnd]
    rfl
  rw [compile, compile, walk, walk, hworkspace, hentry]
  rw [Walk.run_spelling (w := c.workspace files) hr hr' hroot]

end Bundler
