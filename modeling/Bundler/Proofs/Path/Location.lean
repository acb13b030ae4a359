import Bundler.FileTree
import Bundler.Proofs.Path.Moves

/-! Locations and the paths that lead to them. A normal absolute path writes one location
and determines it. The way between two locations goes up to what they share and down from
there; every front part of such a way is again the way to where it leads. -/
namespace Bundler

open Component

namespace Location

/-- One move; a step up from the root stays there. -/
def move (loc : Location) : Component → Location
  | .up => loc.dropLast
  | .name s => loc ++ [s]
  | .root | .here => loc

def follow (loc : Location) (cs : List Component) : Location := cs.foldl move loc

/-- A location that has a path. -/
def IsProper (loc : Location) : Prop := ∀ s ∈ loc, Proper s

variable {loc base target : Location}

theorem follow_append (loc : Location) (as bs : List Component) :
    follow loc (as ++ bs) = follow (follow loc as) bs := List.foldl_append

theorem isProper_move {c : Component} (hl : IsProper loc) (hc : c.IsMove) :
    IsProper (move loc c) := by
  intro s hs
  cases c with
  | up => exact hl s (List.dropLast_subset loc hs)
  | name t =>
    rcases List.mem_append.mp hs with hs | hs
    · exact hl s hs
    · rw [List.mem_singleton.mp hs]
      exact hc
  | root => exact hc.elim
  | here => exact hc.elim

theorem isProper_follow {cs : List Component} (hl : IsProper loc) (hc : ∀ c ∈ cs, c.IsMove) :
    IsProper (follow loc cs) := by
  induction cs generalizing loc with
  | nil => exact hl
  | cons c cs ih =>
    exact ih (isProper_move hl (hc c (by simp))) fun d hd => hc d (by simp [hd])

theorem follow_names (loc : Location) (names : List String) :
    follow loc (names.map .name) = loc ++ names := by
  induction names generalizing loc with
  | nil => simp [follow]
  | cons s ss ih =>
    rw [List.map_cons, follow, List.foldl_cons, ← follow, ih]
    simp [move]

theorem follow_up (loc : Location) (k : ℕ) :
    follow loc (List.replicate k .up) = loc.take (loc.length - k) := by
  induction k with
  | zero => simp [follow]
  | succ k ih =>
    rw [List.replicate_succ', follow_append, ih]
    simp only [follow, List.foldl_cons, List.foldl_nil, move]
    rw [List.dropLast_eq_take, List.take_take, List.length_take]
    congr 1
    omega

/-! ### The way between two locations -/

/-- The way from one location to another. -/
def between (base target : Location) : List Component :=
  Path.relativeComponents (base.map .name) (target.map .name)

end Location

namespace Path

variable {as bs cs : List Component}

theorem commonLength_le_left (as bs : List Component) : commonLength as bs ≤ as.length := by
  fun_induction commonLength as bs <;> simp_all

theorem take_commonLength (as bs : List Component) :
    as.take (commonLength as bs) = bs.take (commonLength as bs) := by
  fun_induction commonLength as bs <;> simp_all

theorem commonLength_take (n : ℕ) (h : n ≤ as.length) : commonLength as (as.take n) = n := by
  induction as generalizing n with
  | nil => simp_all [commonLength]
  | cons a as ih =>
    cases n with
    | zero => simp [commonLength]
    | succ n => simp [commonLength, ih n (by simpa using h)]

theorem commonLength_self_append (as bs : List Component) :
    commonLength as (as ++ bs) = as.length := by
  induction as with
  | nil => rfl
  | cons a as ih => simp [commonLength, ih]

/-- What lies behind the common part does not matter for it. -/
theorem commonLength_append (h : commonLength as (bs ++ cs) ≤ bs.length) :
    commonLength as (bs ++ cs) = commonLength as bs := by
  induction as generalizing bs with
  | nil => simp [commonLength]
  | cons a as ih =>
    cases bs with
    | nil => simpa [commonLength] using h
    | cons b bs =>
      simp only [List.cons_append, commonLength] at h ⊢
      split_ifs with hab
      · rw [if_pos hab] at h
        rw [ih (by simpa using h)]
      · rfl

theorem relativeComponents_root :
    relativeComponents (.root :: as) (.root :: bs) = relativeComponents as bs := by
  simp [relativeComponents, commonLength]

end Path

namespace Location

variable {loc base target : Location}

/-- The way between two locations leads from the one to the other. -/
theorem follow_between (base target : Location) : follow base (between base target) = target := by
  rw [between, Path.relativeComponents]
  set n := Path.commonLength (base.map .name) (target.map .name)
  have hn : n ≤ base.length := by simpa using Path.commonLength_le_left (base.map .name) (target.map .name)
  have htake : base.take n = target.take n := by
    have := Path.take_commonLength (base.map .name) (target.map .name)
    rw [← List.map_take, ← List.map_take] at this
    exact List.map_injective_iff.mpr (fun _ _ h => by injection h) this
  rw [follow_append, follow_up, List.length_map, ← List.map_drop, follow_names,
    show base.length - (base.length - n) = n by omega, htake, List.take_append_drop]

theorem isMove_of_mem_between (base : Location) (ht : IsProper target) : ∀ c ∈ between base target, c.IsMove := by
  intro c hc
  rcases List.mem_append.mp hc with hc | hc
  · rw [List.eq_of_mem_replicate hc]
    trivial
  · rw [← List.map_drop] at hc
    obtain ⟨s, hs, rfl⟩ := List.mem_map.mp hc
    exact ht s (List.mem_of_mem_drop hs)

/-- Moves that take the way to where they lead. -/
def Direct (base : Location) (cs : List Component) : Prop := between base (follow base cs) = cs

theorem direct_between (base target : Location) : Direct base (between base target) := by
  rw [Direct, follow_between]

theorem between_self_append (base : Location) (names : List String) :
    between base (base ++ names) = names.map .name := by
  rw [between, Path.relativeComponents, List.map_append, Path.commonLength_self_append]
  simp

theorem between_take {n : ℕ} (h : n ≤ base.length) :
    between base (base.take n) = List.replicate (base.length - n) .up := by
  rw [between, Path.relativeComponents, List.map_take, Path.commonLength_take n (by simpa using h)]
  simp

/-- A front part of a direct way is direct: the way up is shorter by a step, or the way
down is. -/
theorem Direct.front {cs : List Component} {c : Component} (h : Direct base (cs ++ [c])) :
    Direct base cs := by
  rw [Direct] at h
  set target := follow base (cs ++ [c])
  set n := Path.commonLength (base.map .name) (target.map .name) with hn
  have hcs : List.replicate (base.length - n) .up ++ (target.drop n).map .name = cs ++ [c] := by
    simpa [between, Path.relativeComponents, ← hn] using h
  rcases List.eq_nil_or_concat (target.drop n) with hd | ⟨l, s, hd⟩
  · have hup : cs = List.replicate (base.length - n - 1) .up := by
      simpa [hd] using (congrArg List.dropLast hcs).symm
    rw [Direct, hup, follow_up, between_take (by omega)]
    congr 1
    omega
  · obtain ⟨front, hfront⟩ : ∃ front, target = front ++ [s] :=
      ⟨target.take n ++ l, by rw [List.append_assoc, ← List.concat_eq_append, ← hd, List.take_append_drop]⟩
    have hlen : n ≤ front.length := by
      have := congrArg List.length hd
      rw [hfront] at this
      simp at this
      omega
    have hway : between base front = cs := by
      rw [hfront, List.drop_append_of_le_length hlen] at hcs
      have : n = Path.commonLength (base.map .name) (front.map .name) := by
        rw [hn, hfront, List.map_append] at hlen ⊢
        rw [Path.commonLength_append (by simpa using hlen)]
      rw [between, Path.relativeComponents, ← this]
      simpa using congrArg List.dropLast hcs
    rw [← hway]
    exact direct_between base front

end Location

/-! ### Absolute paths -/

namespace Path

variable {p q : Path} {loc : Location}

/-- The normal path to a location. -/
def ofLocation (loc : Location) : Path := ofComponents (.root :: loc.map .name)

theorem components_of_isAbsolute (h : p.isAbsolute = true) : p.components = .root :: p.moves := by
  obtain ⟨ss, hss⟩ := segments_of_isAbsolute h
  simp [components, moves, hss, h, ofSegment?]

theorem ofLocation_append (loc : Location) (s : String) :
    ofLocation (loc ++ [s]) = (ofLocation loc).join ⟨s⟩ := by
  rw [ofLocation, List.map_append, ← List.cons_append]
  exact ofComponents_append _ _

theorem isAbsolute_ofLocation (loc : Location) : (ofLocation loc).isAbsolute = true := by
  induction loc using List.reverseRecOn with
  | nil => decide
  | append_singleton loc s ih =>
    rw [ofLocation_append]
    exact join_isAbsolute ih

theorem moves_ofLocation (h : loc.IsProper) : (ofLocation loc).moves = loc.map .name := by
  induction loc using List.reverseRecOn with
  | nil => decide
  | append_singleton loc s ih =>
    have hs : (name s).IsMove := h s (by simp)
    rw [ofLocation_append, moves_join (q := ⟨s⟩) (isAbsolute_segment hs),
      ih fun t ht => h t (by simp [ht]), List.map_append]
    exact congrArg _ (moves_segment hs)

theorem ofLocation_injective {a b : Location} (ha : a.IsProper) (hb : b.IsProper)
    (h : ofLocation a = ofLocation b) : a = b := by
  have := congrArg moves h
  rw [moves_ofLocation ha, moves_ofLocation hb] at this
  exact List.map_injective_iff.mpr (fun _ _ h => by injection h) this

/-- The normal form follows the moves, on the reversed components so far. -/
theorem foldl_normalStep {cs : List Component} (hc : ∀ c ∈ cs, c.IsMove) (loc : Location) :
    cs.foldl normalStep ((loc.map .name).reverse ++ [.root]) =
      ((loc.follow cs).map .name).reverse ++ [.root] := by
  induction cs generalizing loc with
  | nil => rfl
  | cons c cs ih =>
    have hstep : normalStep ((loc.map .name).reverse ++ [.root]) c =
        ((loc.move c).map .name).reverse ++ [.root] := by
      cases c with
      | up =>
        rcases List.eq_nil_or_concat loc with rfl | ⟨front, s, rfl⟩
        · rfl
        · simp [normalStep, Location.move]
      | name s => simp [normalStep, Location.move]
      | root => exact (hc root (by simp)).elim
      | here => exact (hc here (by simp)).elim
    rw [List.foldl_cons, hstep, ih fun d hd => hc d (by simp [hd])]
    rfl

/-- Where an absolute path leads. -/
def location (p : Path) : Location := Location.follow [] p.moves

theorem isProper_location (p : Path) : p.location.IsProper :=
  Location.isProper_follow (by simp [Location.IsProper]) fun _ hc => isMove_of_mem_moves hc

theorem location_ofLocation (h : loc.IsProper) : (ofLocation loc).location = loc := by
  rw [location, moves_ofLocation h, Location.follow_names, List.nil_append]

theorem location_join (p : Path) {q : Path} (hq : q.isAbsolute = false) :
    (p.join q).location = p.location.follow q.moves := by
  rw [location, moves_join hq, Location.follow_append, location]

theorem normalize_of_isAbsolute (h : p.isAbsolute = true) : p.normalize = ofLocation p.location := by
  have := foldl_normalStep (fun c hc => isMove_of_mem_moves (p := p) hc) []
  rw [normalize, normalComponents, components_of_isAbsolute h, List.foldl_cons]
  rw [show normalStep [] .root = ((List.map name []).reverse ++ [.root]) from rfl, this]
  simp [ofLocation, location]

/-- The way from one normal absolute path to another. -/
theorem relative_ofLocation {a b : Location} (ha : a.IsProper) (hb : b.IsProper) :
    relative (ofLocation a) (ofLocation b) = ofComponents (a.between b) := by
  rw [relative, components_of_isAbsolute (isAbsolute_ofLocation a),
    components_of_isAbsolute (isAbsolute_ofLocation b), relativeComponents_root,
    moves_ofLocation ha, moves_ofLocation hb, Location.between]

end Path
end Bundler
