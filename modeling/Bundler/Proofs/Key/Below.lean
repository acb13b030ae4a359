import Bundler.Proofs.Key.Completion
import Bundler.Proofs.Path.Below
import Mathlib.Data.List.Find

/-! Keys below the root. A specifier that does not lead above the root of the project has the
same key whatever the root is, and the files that such a key may mean stand at the same places
below every root. -/
namespace Bundler

open Component

namespace Specifier

variable {directory root root' : Path} {s : Specifier}

/-- A relative specifier that leads above the root of the project on its way, in a module of this
directory. -/
def climbs (directory : Path) (s : Specifier) : Bool :=
  !s.isBare && !(Path.mk s).isAbsolute &&
    !Location.staysBelow 0 (directory.moves ++ (Path.mk s).moves)

theorem target_eq_follow (hr : root.isAbsolute = true) (hd : directory.isAbsolute = false)
    (hs : (Path.mk s).isAbsolute = false) : target directory s root =
      Path.ofLocation (root.location.follow (directory.moves ++ (Path.mk s).moves)) := by
  rw [target, if_neg (by simp [hs]),
    Path.normalize_of_isAbsolute (Path.join_isAbsolute (Path.join_isAbsolute hr)),
    Path.location_join _ hs, Path.location_join _ hd, ← Location.follow_append]

/-- The root is not part of the key of a specifier that stays below it. -/
theorem ofPath_target (hr : root.isAbsolute = true) (hd : directory.isAbsolute = false)
    (hs : (Path.mk s).isAbsolute = false)
    (h : Location.staysBelow 0 (directory.moves ++ (Path.mk s).moves) = true) :
    Key.ofPath (Path.relative root.normalize (target directory s root)) =
      Key.ofMoves ((Location.follow [] (directory.moves ++ (Path.mk s).moves)).map .name) := by
  have hmoves : ∀ c ∈ directory.moves ++ (Path.mk s).moves, c.IsMove := fun c hc =>
    (List.mem_append.mp hc).elim Path.isMove_of_mem_moves Path.isMove_of_mem_moves
  have hloc := Location.isProper_follow root.isProper_location hmoves
  have hbelow := Location.follow_of_staysBelow_zero root.location h
  rw [target_eq_follow hr hd hs, Path.normalize_of_isAbsolute hr,
    Path.relative_ofLocation root.isProper_location hloc,
    Key.ofPath_ofComponents (Location.isMove_of_mem_between root.location hloc), hbelow,
    Location.between_self_append]

theorem resolve_root (hr : root.isAbsolute = true) (hr' : root'.isAbsolute = true)
    (hd : directory.isAbsolute = false) (hs : (Path.mk s).isAbsolute = false)
    (hc : climbs directory s = false) : resolve directory s root = resolve directory s root' := by
  rw [resolve, resolve]
  by_cases hb : s.isBare = true
  · rw [if_pos hb, if_pos hb]
  · have h : Location.staysBelow 0 (directory.moves ++ (Path.mk s).moves) = true := by
      simpa [climbs, hb, hs] using hc
    rw [if_neg hb, if_neg hb, ofPath_target hr hd hs h, ofPath_target hr' hd hs h]

/-- The root as a directory is the directory `.` of the project. -/
theorem resolve_self (hr : root.isAbsolute = true) (s : Specifier) :
    resolve root s root = resolve ⟨"."⟩ s root := by
  have htarget : target root s root = target ⟨"."⟩ s root := by
    have hdot : (Path.mk ".").moves = [] := by decide
    rw [target, target]
    split_ifs with hs
    · rfl
    · rw [Bool.not_eq_true] at hs
      rw [Path.normalize_of_isAbsolute (Path.join_isAbsolute (Path.join_isAbsolute hr)),
        Path.normalize_of_isAbsolute (Path.join_isAbsolute (Path.join_isAbsolute hr)),
        Path.location_join _ hs, Path.location_join _ hs,
        Path.location_join root (by decide : (Path.mk ".").isAbsolute = false), hdot,
        Path.join, if_pos hr]
      rfl
  rw [resolve, resolve, htarget]

/-- The file of a package name in the root lies below the root. -/
theorem climbs_of_isBare (h : s.isBare = true) : climbs ⟨"."⟩ ("./" ++ s) = false := by
  have hdot : (Path.mk ".").moves = [] := by decide
  have hmoves : (Path.mk ("./" ++ s)).moves = [name s] := by
    have hs : (Path.mk s).moves = [name s] :=
      Path.moves_segment (c := name s) (proper_of_isBare h)
    rw [show "./" ++ s = "." ++ "/" ++ s from rfl, Path.moves_append_slash, hdot, hs]
    rfl
  rw [climbs, hdot, hmoves]
  simp [Location.staysBelow]

end Specifier

namespace Key

variable {key k : Key} {root root' : Path} {t t' : FileTree}

/-- A key that some specifier has below every root. -/
def IsBelow (key : Key) : Prop := IsResolved ⟨"/"⟩ key

theorem isAbsolute_directory (h : (Path.mk key).isAbsolute = false) :
    key.directory.isAbsolute = false := by
  have hprefix : (key.toList.reverse.dropWhile (· != '/')).reverse.dropLast <+: key.toList := by
    refine (List.dropLast_prefix _).trans ?_
    rw [← List.reverse_suffix, List.reverse_reverse]
    exact List.dropWhile_suffix _
  have hhead : (key.toList.head? == some '/') = false := h
  rw [directory]
  generalize (key.toList.reverse.dropWhile (· != '/')).reverse.dropLast = front at hprefix
  obtain ⟨back, hback⟩ := hprefix
  cases front with
  | nil =>
    rw [hhead]
    decide
  | cons c front =>
    rw [← hback] at hhead
    change ((String.ofList (c :: front)).toList.head? == some '/') = false
    rw [String.toList_ofList]
    exact hhead

/-- A completion of a key means the same place below every root. -/
theorem exactPath_of_isBelow (hk : IsBelow key) (h : k ∈ completions key) :
    ∃ loc : Location, loc.IsProper ∧ ∀ root : Path, root.isAbsolute = true →
      exactPath root k = Path.ofLocation (root.location ++ loc) := by
  have hroot : (Path.mk "/").location = [] := by decide
  obtain ⟨cs, f, hdirect, hmove, hmoves, habsolute, -⟩ :=
    spellsOut_of_mem_completions (by decide) hk h
  rw [hroot, Location.Direct, ← List.nil_append (Location.follow [] cs),
    Location.between_self_append] at hdirect
  have hnames : (Path.mk k).moves = (Location.follow [] cs ++ [f]).map .name := by
    rw [hmoves, List.map_append, hdirect]
    rfl
  refine ⟨Location.follow [] cs ++ [f], ?_, fun root hr => ?_⟩
  · intro s hs
    exact hmove (name s) (by
      rw [hmoves] at hnames
      rw [hnames]
      exact List.mem_map_of_mem hs)
  · rw [exactPath_eq hr habsolute, hnames, Location.follow_names]

/-- Where the same files stand below two roots, a key means the same one of them. -/
theorem file_of_isBelow (hr : root.isAbsolute = true) (hr' : root'.isAbsolute = true)
    (hfiles : ∀ loc : Location, loc.IsProper →
      t.isFile (Path.ofLocation (root.location ++ loc)) =
        t'.isFile (Path.ofLocation (root'.location ++ loc)))
    (hk : IsBelow key) {p : Path} (h : file t root key = .ok p) :
    ∃ loc : Location, loc.IsProper ∧ p = Path.ofLocation (root.location ++ loc) ∧
      file t' root' key = .ok (Path.ofLocation (root'.location ++ loc)) := by
  obtain ⟨hne, habsolute⟩ := isAbsolute_of_isResolved (by decide) hk
  have hcongr : (completions key).find? (t.isFile ∘ exactPath root) =
      (completions key).find? (t'.isFile ∘ exactPath root') := by
    refine List.find?_congr fun k hk' => ?_
    obtain ⟨loc, hloc, hexact⟩ := exactPath_of_isBelow hk hk'
    rw [Function.comp_apply, Function.comp_apply, hexact root hr, hexact root' hr', hfiles loc hloc]
  rw [file, candidates_eq hr habsolute hne, List.find?_map] at h
  rw [file, candidates_eq hr' habsolute hne, List.find?_map, ← hcongr]
  cases hfind : (completions key).find? (t.isFile ∘ exactPath root) with
  | none =>
    rw [hfind] at h
    cases h
  | some k =>
    rw [hfind] at h
    obtain ⟨loc, hloc, hexact⟩ := exactPath_of_isBelow hk (List.mem_of_find?_eq_some hfind)
    refine ⟨loc, hloc, ?_, ?_⟩
    · rw [← hexact root hr]
      exact (Except.ok.inj h).symm
    · rw [← hexact root' hr']
      rfl

end Key
end Bundler
