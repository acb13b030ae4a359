import Bundler.Proofs.Path.Location
import Bundler.Specifier

/-! The keys that specifiers resolve to. A specifier means a location; its key writes the
way there from the root, with `.js` added when the specifier lacks an extension. -/
namespace Bundler

open Component

namespace Key

variable {cs : List Component}

/-- The key that writes moves. -/
def ofMoves (cs : List Component) : Key := "/".intercalate ("." :: cs.map segment)

theorem ofMoves_append (cs : List Component) (c : Component) :
    ofMoves (cs ++ [c]) = ofMoves cs ++ "/" ++ c.segment := by
  rw [ofMoves, List.map_append, ← List.cons_append]
  exact Path.intercalate_append_singleton (List.cons_ne_nil _ _) c.segment

theorem segments_ofMoves (h : ∀ c ∈ cs, c.IsMove) :
    (Path.mk (ofMoves cs)).segments = "." :: cs.map segment := by
  apply Path.segments_intercalate (List.cons_ne_nil _ _)
  intro s hs
  rcases List.mem_cons.mp hs with rfl | hs
  · decide
  · obtain ⟨c, hc, rfl⟩ := List.mem_map.mp hs
    exact segment_no_slash (h c hc)

theorem isAbsolute_ofMoves (h : ∀ c ∈ cs, c.IsMove) :
    (Path.mk (ofMoves cs)).isAbsolute = false :=
  Path.isAbsolute_of_segments (segments_ofMoves h) (by decide)

theorem moves_ofMoves (h : ∀ c ∈ cs, c.IsMove) : (Path.mk (ofMoves cs)).moves = cs := by
  rw [Path.moves, segments_ofMoves h, List.filterMap_cons, filterMap_segment h]
  exact filter_ne_here h

theorem components_ofMoves (h : ∀ c ∈ cs, c.IsMove) :
    (Path.mk (ofMoves cs)).components = .here :: cs := by
  simp only [Path.components, segments_ofMoves h, isAbsolute_ofMoves h, filterMap_segment h,
    filter_ne_here h]
  rfl

theorem ofPath_ofComponents (h : ∀ c ∈ cs, c.IsMove) :
    ofPath (Path.ofComponents cs) = ofMoves cs := by
  rw [ofPath, Path.components_ofComponents h]
  cases cs with
  | nil => rfl
  | cons c cs => simp [ofMoves]

end Key

namespace Specifier

variable {root : Path}

/-- Every specifier means a location. -/
theorem target_eq (hr : root.isAbsolute = true) (directory : Path) (s : Specifier) :
    ∃ loc : Location, loc.IsProper ∧ target directory s root = Path.ofLocation loc := by
  rw [target]
  split_ifs with hs
  · exact ⟨_, Path.isProper_location _, Path.normalize_of_isAbsolute hs⟩
  · exact ⟨_, Path.isProper_location _,
      Path.normalize_of_isAbsolute (Path.join_isAbsolute (Path.join_isAbsolute hr))⟩

theorem proper_of_isBare {s : Specifier} (h : s.isBare = true) : Proper s := by
  refine ⟨?_, ?_, ?_, ?_⟩
  · rintro rfl
    exact absurd h (by decide)
  · rintro rfl
    exact absurd h (by decide)
  · rintro rfl
    exact absurd h (by decide)
  · intro hs
    rw [isBare] at h
    cases hl : s.toList with
    | nil => simp [hl] at hs
    | cons c cs =>
      simp only [hl, Bool.and_eq_true, List.all_eq_true] at h
      rcases List.mem_cons.mp (hl ▸ hs) with rfl | hs
      · exact absurd h.1 (by decide)
      · exact absurd (h.2 '/' hs) (by decide)

/-- A key writes the way from the root to where its specifier leads, and `.js` after it when the
specifier lacks an extension. -/
theorem resolve_of_target (hr : root.isAbsolute = true) {directory : Path} {s : Specifier}
    {loc : Location} (hb : ¬ s.isBare = true) (hloc : loc.IsProper)
    (ht : target directory s root = Path.ofLocation loc) :
    resolve directory s root = if s.lacksExtension then
      Key.ofMoves (root.location.between loc) ++ ".js" else
      Key.ofMoves (root.location.between loc) := by
  have hkey : Key.ofPath (Path.relative root.normalize (target directory s root)) =
      Key.ofMoves (root.location.between loc) := by
    rw [ht, Path.normalize_of_isAbsolute hr,
      Path.relative_ofLocation root.isProper_location hloc,
      Key.ofPath_ofComponents (Location.isMove_of_mem_between root.location hloc)]
  rw [resolve, if_neg hb]
  simp only [hkey]

/-- Also the key of a package writes a way, that to its directory. -/
theorem resolve_eq (hr : root.isAbsolute = true) (directory : Path) (s : Specifier) :
    ∃ loc : Location, loc.IsProper ∧
      (resolve directory s root = Key.ofMoves (root.location.between loc) ∨
       resolve directory s root = Key.ofMoves (root.location.between loc) ++ ".js") := by
  by_cases hb : s.isBare = true
  · refine ⟨root.location ++ [packageDirectory, s], ?_, .inl ?_⟩
    · intro t ht
      rcases List.mem_append.mp ht with ht | ht
      · exact root.isProper_location t ht
      · rcases List.mem_pair.mp ht with rfl | rfl
        · exact ⟨by decide, by decide, by decide, by decide⟩
        · exact proper_of_isBare hb
    · rw [resolve, if_pos hb, Location.between_self_append]
      simp [Key.ofMoves, Component.segment, String.append_assoc]
  · obtain ⟨loc, hloc, ht⟩ := target_eq hr directory s
    refine ⟨loc, hloc, ?_⟩
    rw [resolve_of_target hr hb hloc ht]
    split_ifs
    · exact .inr rfl
    · exact .inl rfl

end Specifier
end Bundler
