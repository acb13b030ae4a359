import Bundler.Proofs.Path.Location

/-! The lexical algebra of paths. The components of a path run through a machine with a stack: a
step up takes away the name on top, stays at the root, and piles up where there is neither. What
the machine leaves, it takes again as it is. So a normal form is its own normal form and can stand
for its path in front of any other, and the way between two normal paths leads from the one to the
other. -/
namespace Bundler

open Component

/-! ### The stack -/

/-- What the machine may hold, the top in front: names above the root, above steps up, or above
nothing. -/
inductive Settled : List Component → Prop
  | nil : Settled []
  | root : Settled [.root]
  | up {out : List Component} (h : ∀ c ∈ out, c = .up) : Settled (.up :: out)
  | name {s : String} {out : List Component} (h : Settled out) : Settled (.name s :: out)

namespace Settled

variable {out cs : List Component} {c : Component}

/-- What a step up does depends on the top: nothing, the root, another step up, or a name. -/
theorem step (h : Settled out) (hc : c ≠ .root) : Settled (Path.normalStep out c) := by
  cases c with
  | root => exact absurd rfl hc
  | here => exact h
  | name s => exact .name h
  | up =>
    cases h with
    | nil => exact .up (by simp)
    | root => exact .root
    | up hups => exact .up (by simpa using hups)
    | name h => exact h

theorem foldl (h : Settled out) (hcs : .root ∉ cs) : Settled (cs.foldl Path.normalStep out) := by
  induction cs generalizing out with
  | nil => exact h
  | cons c cs ih =>
    rw [List.mem_cons, not_or] at hcs
    exact ih (h.step (Ne.symm hcs.1)) hcs.2

/-- From the bottom up, the machine takes what it holds without a change. -/
theorem replay (h : Settled out) : out.reverse.foldl Path.normalStep [] = out := by
  induction h with
  | nil => rfl
  | root => rfl
  | @up out hups =>
    induction out with
    | nil => rfl
    | cons c out ih =>
      obtain rfl := hups c List.mem_cons_self
      rw [List.reverse_cons, List.foldl_append, ih fun d hd => hups d (List.mem_cons_of_mem _ hd)]
      rfl
  | name h ih =>
    rw [List.reverse_cons, List.foldl_append, ih]
    rfl

end Settled

namespace Path

variable {p q : Path}

/-! ### Normal forms -/

/-- What the machine starts with. -/
def origin (p : Path) : List Component := if p.isAbsolute then [.root] else []

/-- What the machine holds at the end of a path. -/
def stack (p : Path) : List Component := p.moves.foldl normalStep p.origin

theorem foldl_components (p : Path) : p.components.foldl normalStep [] = p.stack := by
  rw [stack, origin]
  cases hp : p.isAbsolute with
  | true =>
    rw [components_of_isAbsolute hp]
    rfl
  | false =>
    simp only [components, moves, hp, Bool.false_eq_true, if_false]
    cases p.segments with
    | nil => rfl
    | cons s ss =>
      cases hs : ofSegment? s with
      | none => rw [List.filterMap_cons_none hs]; simp only [hs]
      | some c =>
        rw [List.filterMap_cons_some hs]
        simp only [hs]
        cases c <;> rfl

theorem settled_stack (p : Path) : Settled p.stack := by
  refine Settled.foldl ?_ fun h => isMove_of_mem_moves h
  rw [origin]
  split_ifs
  · exact .root
  · exact .nil

theorem mem_foldl_normalStep {c : Component} {cs out : List Component}
    (h : c ∈ cs.foldl normalStep out) : c ∈ cs ∨ c ∈ out := by
  induction cs generalizing out with
  | nil => exact .inr h
  | cons d cs ih =>
    rcases ih h with h | h
    · exact .inl (List.mem_cons_of_mem d h)
    · rw [normalStep.eq_def] at h
      split at h
      · exact .inr h
      · exact .inr (List.mem_cons_of_mem _ h)
      · exact .inr h
      · rcases List.mem_cons.mp h with rfl | h
        · exact .inl List.mem_cons_self
        · exact .inr h

theorem normalize_eq (p : Path) : p.normalize = ofComponents p.stack.reverse := by
  rw [normalize, normalComponents, foldl_components]

/-- The normal form is written so that it is read as what the machine holds. -/
theorem components_normalize (p : Path) : p.normalize.components = p.stack.reverse := by
  cases hp : p.isAbsolute with
  | true =>
    have hstack : p.stack = (p.location.map name).reverse ++ [.root] := by
      rw [stack, origin, hp]
      exact foldl_normalStep (fun c hc => isMove_of_mem_moves hc) []
    rw [normalize_of_isAbsolute hp, components_of_isAbsolute (isAbsolute_ofLocation _),
      moves_ofLocation p.isProper_location, hstack]
    simp
  | false =>
    rw [normalize_eq]
    refine components_ofComponents fun c hc => ?_
    rcases mem_foldl_normalStep (List.mem_reverse.mp hc) with hc | hc
    · exact isMove_of_mem_moves hc
    · rw [origin, hp] at hc
      cases hc

/-- A path and its normal form leave the same on the stack. -/
theorem stack_normalize (p : Path) : p.normalize.stack = p.stack := by
  rw [← foldl_components, components_normalize, (settled_stack p).replay]

theorem normalize_normalize (p : Path) : p.normalize.normalize = p.normalize := by
  rw [normalize_eq p.normalize, stack_normalize, ← normalize_eq]

theorem isAbsolute_join (hq : q.isAbsolute = false) : (p.join q).isAbsolute = p.isAbsolute := by
  cases hp : p.isAbsolute with
  | true => exact join_isAbsolute hp
  | false =>
    by_cases hempty : p.text = ""
    · rw [join, if_neg (by simp [hq]), if_pos (by simp [hempty]), hempty, String.empty_append]
      exact hq
    · have hne : p.text.toList ≠ [] := by simpa using hempty
      rw [isAbsolute] at hp
      rw [join, if_neg (by simp [hq])]
      split_ifs
      all_goals
        simp only [isAbsolute, String.toList_append, List.append_assoc]
        rw [List.head?_append_of_ne_nil _ hne]
        exact hp

/-- Behind a path the machine goes on with the stack that the path left. -/
theorem stack_join (hq : q.isAbsolute = false) :
    (p.join q).stack = q.moves.foldl normalStep p.stack := by
  rw [stack, origin, isAbsolute_join hq, moves_join hq, List.foldl_append, stack, origin]

theorem normalize_join (p q : Path) : (p.join q).normalize = (p.normalize.join q).normalize := by
  cases hq : q.isAbsolute with
  | true => rw [join, join, if_pos hq, if_pos hq]
  | false =>
    rw [normalize_eq, normalize_eq (p.normalize.join q), stack_join hq, stack_join hq,
      stack_normalize]

theorem components_ofLocation {loc : Location} (h : loc.IsProper) :
    (ofLocation loc).components = .root :: loc.map name := by
  rw [components_of_isAbsolute (isAbsolute_ofLocation _), moves_ofLocation h]

theorem components_normalize_of_isAbsolute (hp : p.isAbsolute = true) :
    p.normalize.components = .root :: p.location.map name := by
  rw [normalize_of_isAbsolute hp, components_ofLocation p.isProper_location]

/-! ### The way between two paths -/

/-- A path that is its own normal form, however it is written. -/
def IsNormal (p : Path) : Prop := p.normalize.components = p.components

instance (p : Path) : Decidable p.IsNormal := inferInstanceAs (Decidable (_ = _))

variable {base target : Path}

theorem IsNormal.components (hp : p.isAbsolute = true) (h : p.IsNormal) :
    p.components = .root :: p.location.map name :=
  h.symm.trans (components_normalize_of_isAbsolute hp)

theorem relative_of_isNormal (hb : base.isAbsolute = true) (ht : target.isAbsolute = true)
    (hbase : base.IsNormal) (htarget : target.IsNormal) :
    relative base target = ofComponents (base.location.between target.location) := by
  rw [relative, hbase.components hb, htarget.components ht, relativeComponents_root,
    Location.between]

theorem components_relative (hb : base.isAbsolute = true) (ht : target.isAbsolute = true)
    (hbase : base.IsNormal) (htarget : target.IsNormal) :
    (relative base target).components = relativeComponents base.components target.components := by
  rw [relative_of_isNormal hb ht hbase htarget,
    components_ofComponents (Location.isMove_of_mem_between _ target.isProper_location),
    hbase.components hb, htarget.components ht, relativeComponents_root, Location.between]

theorem moves_ofComponents {cs : List Component} (h : ∀ c ∈ cs, c.IsMove) :
    (ofComponents cs).moves = cs := by
  rw [ofComponents_eq h]
  cases cs with
  | nil => decide
  | cons c cs =>
    refine moves_of_segments (segments_intercalate (by simp) fun s hs => ?_) h
    obtain ⟨d, hd, rfl⟩ := List.mem_map.mp hs
    exact segment_no_slash (h d hd)

/-- No front part that two lists share is longer than what `commonLength` finds. -/
theorem prefix_take_commonLength {front as bs : List Component} (ha : front <+: as)
    (hb : front <+: bs) : front <+: as.take (commonLength as bs) := by
  induction front generalizing as bs with
  | nil => exact List.nil_prefix
  | cons c front ih =>
    obtain ⟨as', rfl⟩ := ha
    obtain ⟨bs', rfl⟩ := hb
    rw [List.cons_append, List.cons_append, commonLength, if_pos rfl, List.take_succ_cons]
    exact List.cons_prefix_cons.mpr ⟨rfl, ih (List.prefix_append ..) (List.prefix_append ..)⟩

/-- The way from one normal path to another leads there. -/
theorem normalize_join_relative (hb : base.isAbsolute = true) (ht : target.isAbsolute = true)
    (hbase : base.IsNormal) (htarget : target.IsNormal) :
    (base.join (relative base target)).normalize = target.normalize := by
  have hmoves := Location.isMove_of_mem_between base.location target.isProper_location
  have hway := relative_of_isNormal hb ht hbase htarget
  have hrelative : (relative base target).isAbsolute = false := by
    rw [← Bool.not_eq_true]
    intro habsolute
    have hroot := components_of_isAbsolute habsolute
    rw [hway, components_ofComponents hmoves] at hroot
    exact hmoves root (hroot ▸ List.mem_cons_self)
  have hsteps : (relative base target).moves = base.location.between target.location := by
    rw [hway, moves_ofComponents hmoves]
  rw [normalize_of_isAbsolute (join_isAbsolute hb), normalize_of_isAbsolute ht,
    location_join base hrelative, hsteps, Location.follow_between]

/-- The laws of the normal form and of the way between two normal absolute paths: where `ups` and
`downs` are what `base` and `target` have behind their longest common front part, the way takes
one step up for each of `ups` and then goes down. -/
theorem lexical_laws :
    (∀ p : Path, p.normalize.normalize = p.normalize) ∧
    (∀ p q : Path, (p.join q).normalize = (p.normalize.join q).normalize) ∧
    (∀ p : Path, p.isAbsolute = true → ∀ c ∈ p.normalize.components, c ≠ here ∧ c ≠ up) ∧
    ∀ base target : Path, base.isAbsolute = true → target.isAbsolute = true →
      base.IsNormal → target.IsNormal →
      (base.join (relative base target)).normalize.components = target.components ∧
      ∃ common ups downs, base.components = common ++ ups ∧ target.components = common ++ downs ∧
        (∀ front, front <+: base.components → front <+: target.components → front <+: common) ∧
        (relative base target).components = List.replicate ups.length up ++ downs ∧
        up ∉ downs := by
  refine ⟨normalize_normalize, normalize_join, ?_, ?_⟩
  · intro p hp c hc
    rw [components_normalize_of_isAbsolute hp] at hc
    rcases List.mem_cons.mp hc with rfl | hc
    · exact ⟨nofun, nofun⟩
    · obtain ⟨s, -, rfl⟩ := List.mem_map.mp hc
      exact ⟨nofun, nofun⟩
  · intro base target hb ht hbase htarget
    have hway := components_relative hb ht hbase htarget
    set n := commonLength base.components target.components with hn
    refine ⟨?_, base.components.take n, base.components.drop n, target.components.drop n,
      (List.take_append_drop ..).symm, ?_, fun front => prefix_take_commonLength, ?_, ?_⟩
    · rw [normalize_join_relative hb ht hbase htarget, htarget]
    · rw [take_commonLength, List.take_append_drop]
    · rw [hway, relativeComponents, List.length_drop]
    · intro hup
      have htop := List.mem_of_mem_drop hup
      rw [htarget.components ht] at htop
      simp at htop

/-- From `/a/b/c` to `/a/d` it is two steps up and one down. -/
theorem lexical_laws_sibling :
    (mk "/a/b/c").isAbsolute = true ∧ (mk "/a/d").isAbsolute = true ∧ (mk "/a/b/c").IsNormal ∧
    (mk "/a/d").IsNormal ∧
    ((mk "/a/b/c").join (relative ⟨"/a/b/c"⟩ ⟨"/a/d"⟩)).normalize.components =
      [root, name "a", name "d"] ∧
    relative ⟨"/a/b/c"⟩ ⟨"/a/d"⟩ = ⟨"../../d"⟩ := by
  have hb : (mk "/a/b/c").isAbsolute = true := by decide
  have ht : (mk "/a/d").isAbsolute = true := by decide
  have hbase : (mk "/a/b/c").IsNormal := by decide
  have htarget : (mk "/a/d").IsNormal := by decide
  have hlead := (lexical_laws.2.2.2 ⟨"/a/b/c"⟩ ⟨"/a/d"⟩ hb ht hbase htarget).1
  refine ⟨hb, ht, hbase, htarget, hlead.trans (by decide), by decide⟩

end Path
end Bundler
