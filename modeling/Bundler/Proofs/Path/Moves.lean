import Bundler.Path
import Mathlib.Data.List.Basic
import Mathlib.Data.List.Induction

/-! The text of a path and the moves it stands for. The moves of a path are its steps up and
down, without `.` segments and without the root; joining paths appends their moves, and
writing moves as a path and reading them again gives them back. -/
namespace Bundler

theorem splitSlash_eq (cs : List Char) : splitSlash cs = cs.splitOn '/' := by
  induction cs with
  | nil => rfl
  | cons c cs ih =>
    rw [splitSlash, ih, List.splitOn_cons_eq_if_modifyHead]
    by_cases hc : c = '/'
    · simp [hc]
    · rw [if_neg hc, if_neg (by simpa using hc)]
      cases hs : cs.splitOn '/' with
      | nil => exact absurd hs (List.splitOn_ne_nil _ _)
      | cons s ss => rfl

theorem splitSlash_no_slash (cs : List Char) : ∀ s ∈ splitSlash cs, '/' ∉ s := by
  induction cs with
  | nil => simp [splitSlash]
  | cons c cs ih =>
    rw [splitSlash]
    split
    · simpa using ih
    · rename_i hc
      cases hs : splitSlash cs with
      | nil => simpa using Ne.symm hc
      | cons s ss =>
        rw [hs] at ih
        intro l hl
        rcases List.mem_cons.mp hl with rfl | hl
        · simp [Ne.symm hc, ih s (by simp)]
        · exact ih l (by simp [hl])

namespace Component

/-- What may stand between two slashes as a name. -/
structure Proper (s : String) : Prop where
  ne_empty : s ≠ ""
  ne_here : s ≠ "."
  ne_up : s ≠ ".."
  no_slash : '/' ∉ s.toList

/-- A step up, or down to a name. -/
def IsMove : Component → Prop
  | up => True
  | name s => Proper s
  | root | here => False

theorem ofSegment?_of_proper {s : String} (h : Proper s) : ofSegment? s = some (name s) := by
  simp [ofSegment?, h.ne_empty, h.ne_here, h.ne_up]

theorem ofSegment?_segment {c : Component} (h : c.IsMove) : ofSegment? c.segment = some c := by
  cases c with
  | up => rfl
  | name s => exact ofSegment?_of_proper h
  | root => exact h.elim
  | here => exact h.elim

theorem segment_no_slash {c : Component} (h : c.IsMove) : '/' ∉ c.segment.toList := by
  cases c with
  | up => decide
  | name s => exact h.no_slash
  | root => exact h.elim
  | here => exact h.elim

theorem segment_ne_empty {c : Component} (h : c.IsMove) : c.segment ≠ "" := by
  cases c with
  | up => decide
  | name s => exact h.ne_empty
  | root => exact h.elim
  | here => exact h.elim

theorem isMove_ne_here {c : Component} (h : c.IsMove) : c ≠ here := by
  rintro rfl
  exact h

/-- A segment is no move only when it is empty or a `.`. -/
theorem isMove_of_ofSegment? {s : String} {c : Component} (hs : '/' ∉ s.toList)
    (h : ofSegment? s = some c) (hc : c ≠ here) : c.IsMove := by
  simp only [ofSegment?, beq_iff_eq] at h
  split_ifs at h with h1 h2 h3
  · exact absurd (Option.some.inj h).symm hc
  · cases h; trivial
  · cases h; exact ⟨h1, h2, h3, hs⟩

theorem filterMap_segment {cs : List Component} (h : ∀ c ∈ cs, c.IsMove) :
    (cs.map segment).filterMap ofSegment? = cs := by
  rw [List.filterMap_map, List.filterMap_congr (g := some)]
  · exact List.filterMap_some
  · exact fun c hc => ofSegment?_segment (h c hc)

theorem filter_ne_here {cs : List Component} (h : ∀ c ∈ cs, c.IsMove) :
    cs.filter (· != here) = cs := by
  rw [List.filter_eq_self]
  exact fun c hc => by simpa using isMove_ne_here (h c hc)

end Component

namespace Path

open Component

/-! ### Segments -/

theorem segments_eq (p : Path) : p.segments = (p.text.toList.splitOn '/').map String.ofList := by
  rw [segments, splitSlash_eq]

theorem segments_append_slash (a b : String) :
    (mk (a ++ "/" ++ b)).segments = (mk a).segments ++ (mk b).segments := by
  simp only [segments_eq, String.toList_append]
  rw [show a.toList ++ "/".toList ++ b.toList = a.toList ++ '/' :: b.toList by simp,
    List.splitOn_append_cons_self, List.map_append]

theorem segments_intercalate {ss : List String} (hne : ss ≠ []) (h : ∀ s ∈ ss, '/' ∉ s.toList) :
    (mk ("/".intercalate ss)).segments = ss := by
  rw [segments_eq]
  simp only [String.toList_intercalate]
  rw [show "/".toList = ['/'] from rfl, List.splitOn_intercalate]
  · rw [List.map_map, List.map_congr_left (g := id) (by simp), List.map_id]
  · intro l hl
    obtain ⟨s, hs, rfl⟩ := List.mem_map.mp hl
    exact h s hs
  · simpa using hne

theorem segments_no_slash (p : Path) : ∀ s ∈ p.segments, '/' ∉ s.toList := by
  intro s hs
  obtain ⟨l, hl, rfl⟩ := List.mem_map.mp hs
  rw [String.toList_ofList]
  exact splitSlash_no_slash _ l hl

theorem segments_of_isAbsolute {p : Path} (h : p.isAbsolute = true) :
    ∃ ss, p.segments = "" :: ss := by
  obtain ⟨cs, hcs⟩ : ∃ cs, p.text.toList = '/' :: cs := by
    simpa [isAbsolute, List.head?_eq_some_iff] using h
  exact ⟨(splitSlash cs).map String.ofList, by simp [segments, hcs, splitSlash]⟩

theorem isAbsolute_of_segments {p : Path} {s : String} {ss : List String}
    (h : p.segments = s :: ss) (hs : s ≠ "") : p.isAbsolute = false := by
  rw [← Bool.not_eq_true]
  intro ha
  obtain ⟨ts, hts⟩ := segments_of_isAbsolute ha
  rw [h] at hts
  exact hs (List.cons.inj hts).1

/-! ### Moves -/

/-- The steps that a path takes, from wherever it starts. -/
def moves (p : Path) : List Component := (p.segments.filterMap ofSegment?).filter (· != .here)

theorem isMove_of_mem_moves {p : Path} {c : Component} (h : c ∈ p.moves) : c.IsMove := by
  obtain ⟨hc, hne⟩ := List.mem_filter.mp h
  obtain ⟨s, hs, hsc⟩ := List.mem_filterMap.mp hc
  exact isMove_of_ofSegment? (p.segments_no_slash s hs) hsc (by simpa using hne)

theorem moves_of_segments {p : Path} {cs : List Component} (hs : p.segments = cs.map segment)
    (h : ∀ c ∈ cs, c.IsMove) : p.moves = cs := by
  rw [moves, hs, filterMap_segment h, filter_ne_here h]

theorem moves_append_slash (a b : String) :
    (mk (a ++ "/" ++ b)).moves = (mk a).moves ++ (mk b).moves := by
  simp [moves, segments_append_slash]

theorem join_isAbsolute {p q : Path} (hp : p.isAbsolute = true) : (p.join q).isAbsolute = true := by
  obtain ⟨a⟩ := p
  rw [join]
  have hne : a.toList ≠ [] := by
    rintro h
    simp [isAbsolute, h] at hp
  split_ifs with hq
  · exact hq
  all_goals
    simp only [isAbsolute, String.toList_append, List.append_assoc] at hp ⊢
    rwa [List.head?_append_of_ne_nil _ hne]

theorem moves_slash (a : String) : (mk (a ++ "/")).moves = (mk a).moves := by
  have h := moves_append_slash a ""
  rw [String.append_empty] at h
  rw [h]
  simp [moves, segments, splitSlash, ofSegment?]

/-- Joining a relative path goes on from where the first path ends. -/
theorem moves_join {p q : Path} (hq : q.isAbsolute = false) :
    (p.join q).moves = p.moves ++ q.moves := by
  obtain ⟨a⟩ := p
  obtain ⟨b⟩ := q
  rw [join, if_neg (by simp [hq])]
  by_cases ha : a = ""
  · subst ha
    simp [moves, segments, splitSlash, ofSegment?]
  · by_cases hl : a.toList.getLast? = some '/'
    · obtain ⟨l, hl'⟩ := List.getLast?_eq_some_iff.mp hl
      obtain rfl : a = String.ofList l ++ "/" := by
        apply String.toList_injective
        simp [hl']
      rw [if_pos (by simp), moves_append_slash, moves_slash]
    · rw [if_neg (by simp [ha, hl]), moves_append_slash]

/-! ### Writing moves -/

theorem segments_segment {c : Component} (h : c.IsMove) :
    (mk c.segment).segments = [c.segment] := by
  have := segments_intercalate (List.cons_ne_nil c.segment [])
    (by simpa using segment_no_slash h)
  rwa [String.intercalate_singleton] at this

theorem moves_segment {c : Component} (h : c.IsMove) : (mk c.segment).moves = [c] :=
  moves_of_segments (segments_segment h) (by simpa using h)

theorem isAbsolute_segment {c : Component} (h : c.IsMove) :
    (mk c.segment).isAbsolute = false :=
  isAbsolute_of_segments (segments_segment h) (segment_ne_empty h)

theorem ofComponents_append (cs : List Component) (c : Component) :
    ofComponents (cs ++ [c]) = (ofComponents cs).join ⟨c.segment⟩ := by
  simp [ofComponents]

/-- A text that ends in a move gets a slash before the next one. -/
theorem join_segment {c d : Component} (hc : c.IsMove) (hd : d.IsMove) (a : String) :
    (mk (a ++ c.segment)).join ⟨d.segment⟩ = ⟨a ++ c.segment ++ "/" ++ d.segment⟩ := by
  have hne : c.segment.toList ≠ [] := by simpa using segment_ne_empty hc
  have hlast : c.segment.toList.getLast hne ≠ '/' := fun h =>
    segment_no_slash hc (h ▸ List.getLast_mem hne)
  rw [join, if_neg (by simp [isAbsolute_segment hd]), if_neg]
  simp [List.getLast?_append_of_ne_nil _ hne, List.getLast?_eq_some_getLast hne, hlast,
    segment_ne_empty hc]

theorem intercalate_append_singleton {ss : List String} (h : ss ≠ []) (s : String) :
    "/".intercalate (ss ++ [s]) = "/".intercalate ss ++ "/" ++ s := by
  rw [String.intercalate_append_of_ne_nil h (List.cons_ne_nil s []), String.intercalate_singleton]

/-- Moves are written with slashes between them. -/
theorem ofComponents_eq {cs : List Component} (h : ∀ c ∈ cs, c.IsMove) :
    ofComponents cs = ⟨"/".intercalate (cs.map segment)⟩ := by
  induction cs using List.reverseRecOn with
  | nil => rfl
  | append_singleton cs d ih =>
    have hd : d.IsMove := h d (by simp)
    rw [ofComponents_append, ih fun c hc => h c (by simp [hc]), List.map_append]
    rcases List.eq_nil_or_concat cs with rfl | ⟨front, c, rfl⟩
    · simp [join, isAbsolute_segment hd]
    · have hc : c.IsMove := h c (by simp)
      obtain ⟨a, ha⟩ : ∃ a, "/".intercalate ((front.concat c).map segment) = a ++ c.segment := by
        rw [List.concat_eq_append, List.map_append]
        cases front with
        | nil => exact ⟨"", by simp⟩
        | cons x xs => exact ⟨_, intercalate_append_singleton (by simp) c.segment⟩
      rw [ha, join_segment hc hd, ← ha]
      rw [List.map_singleton, intercalate_append_singleton (by simp)]

theorem components_ofComponents {cs : List Component} (h : ∀ c ∈ cs, c.IsMove) :
    (ofComponents cs).components = cs := by
  rw [ofComponents_eq h]
  cases cs with
  | nil => decide
  | cons c cs =>
    have hc : c.IsMove := h c (by simp)
    have hseg := segments_intercalate (List.cons_ne_nil c.segment (cs.map segment))
      (by simpa using ⟨segment_no_slash hc, fun d hd => segment_no_slash (h d (by simp [hd]))⟩)
    have hcs : ∀ d ∈ cs, d.IsMove := fun d hd => h d (by simp [hd])
    rw [components, List.map_cons, hseg, isAbsolute_of_segments hseg (segment_ne_empty hc)]
    simp [ofSegment?_segment hc, filterMap_segment hcs, filter_ne_here hcs]

end Path
end Bundler
