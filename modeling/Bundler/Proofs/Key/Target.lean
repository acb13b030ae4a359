import Bundler.Proofs.Key.Completion

/-! What a key denotes. A specifier means a path, and its key writes the way to that path from
the root, unless `.js` is added to a way that ends in a step up: then the specifier means a file
beside the root or beside a directory that the root lies in, and its key denotes another. -/
namespace Bundler

open Component

namespace Path

variable {p : Path} {loc : Location} {n : String}

/-- Before its moves a path has at most the root or a `.`. -/
theorem components_cases (p : Path) :
    p.components = p.moves ∨ ∃ c, (∀ n, c ≠ name n) ∧ p.components = c :: p.moves := by
  cases ha : p.isAbsolute with
  | true => exact .inr ⟨root, by simp, components_of_isAbsolute ha⟩
  | false =>
    rw [components, moves, ha]
    cases hss : p.segments with
    | nil => exact .inl rfl
    | cons s ss =>
      simp only [Bool.false_eq_true, if_false, List.filterMap_cons]
      cases hs : ofSegment? s with
      | none => exact .inl rfl
      | some c =>
        by_cases hc : c = here
        · exact .inr ⟨here, by simp, by simp [hc]⟩
        · exact .inl (by simp [hc])

theorem exists_moves_of_getLast? (h : p.components.getLast? = some (name n)) :
    ∃ cs, p.moves = cs ++ [name n] := by
  have hlast : p.moves.getLast? = some (name n) := by
    rcases components_cases p with hp | ⟨c, hc, hp⟩
    · rwa [hp] at h
    · rw [hp, List.getLast?_cons, Option.some.injEq] at h
      cases hl : p.moves.getLast? with
      | none =>
        rw [hl] at h
        exact absurd h (hc n)
      | some d => simpa [hl] using h
  exact List.getLast?_eq_some_iff.mp hlast

/-- The text of a path ends in its file name. -/
theorem text_ofLocation_append (loc : Location) (hn : Proper n) (hext : Proper (n ++ ".js")) :
    (⟨(ofLocation (loc ++ [n])).text ++ ".js"⟩ : Path) = ofLocation (loc ++ [n ++ ".js"]) := by
  have ha (s : String) (hs : Proper s) : (Path.mk s).isAbsolute = false :=
    isAbsolute_segment (c := name s) hs
  rw [ofLocation_append, ofLocation_append, join, join, ha n hn, ha _ hext]
  simp only [Bool.false_eq_true, if_false]
  split_ifs
  · simp [String.append_assoc]
  · simp [String.append_assoc]

end Path

namespace Component

theorem isSome_extensionOf_append_js {n : String} (hn : n ≠ "") :
    (extensionOf (n ++ ".js")).isSome = true := by
  have hne : n.toList.reverse ≠ [] := by simpa using hn
  obtain ⟨c, cs, hcs⟩ := List.exists_cons_of_ne_nil hne
  have hext : n ++ ".js" ≠ ".." := by
    intro he
    have := congrArg (fun s => s.toList.getLast?) he
    simp at this
  simp [extensionOf, hcs, hext]

end Component

namespace Location

variable {base loc : Location} {n : String}

theorem IsProper.front (h : IsProper (loc ++ [n])) : loc.IsProper :=
  fun s hs => h s (List.mem_append_left _ hs)

theorem IsProper.last (h : IsProper (loc ++ [n])) : Proper n := h n (by simp)

theorem isMove_of_mem_between_append (base : Location) (h : IsProper (loc ++ [n])) :
    ∀ c ∈ between base loc ++ [name n], c.IsMove :=
  Key.isMove_append_name (isMove_of_mem_between base h.front) h.last

/-- The way to what lies in a directory goes on from the way to that directory, unless it ends
in a step up. -/
theorem between_append_name (h : ¬ loc ++ [n] <+: base) :
    between base (loc ++ [n]) = between base loc ++ [name n] := by
  have hle : Path.commonLength (base.map name) ((loc ++ [n]).map name) ≤ loc.length := by
    by_contra hlt
    apply h
    have hlen : ((loc ++ [n]).map name).length ≤
        Path.commonLength (base.map name) ((loc ++ [n]).map name) := by
      rw [List.length_map, List.length_append, List.length_singleton]
      omega
    have hprefix : (loc ++ [n]).map name <+: base.map name := by
      rw [← List.take_of_length_le hlen, ← Path.take_commonLength]
      exact List.take_prefix _ _
    exact (List.prefix_map_iff_of_injective fun a b hab => by injection hab).mp hprefix
  have hlen : (loc.map name).length = loc.length := List.length_map name
  rw [List.map_append, ← hlen] at hle
  have hcommon := Path.commonLength_append hle
  rw [hcommon] at hle
  rw [between, between, Path.relativeComponents, Path.relativeComponents, List.map_append,
    hcommon, List.drop_append_of_le_length hle, List.append_assoc]
  rfl

/-- A way is steps up, then names. -/
theorem exists_between_eq (base : Location) (hl : loc.IsProper) :
    ∃ (ups : ℕ) (names : List String), between base loc = List.replicate ups up ++ names.map name ∧
      ∀ s ∈ names, Proper s := by
  set n := Path.commonLength (base.map name) (loc.map name)
  refine ⟨base.length - n, loc.drop n, ?_, ?_⟩
  · rw [between, Path.relativeComponents, List.map_drop, List.length_map]
  · exact fun s hs => hl s (List.mem_of_mem_drop hs)

/-- The way to a directory on the path to the base is steps up alone. -/
theorem between_of_above (h : loc <+: base) :
    between base loc = List.replicate (base.length - loc.length) up := by
  have hle := h.length_le
  conv_lhs => rw [List.prefix_iff_eq_take.mp h]
  exact between_take hle

end Location

namespace Key

variable {cs : List Component}

/-- The way that a canonical key writes: steps up, then names. `.` is the key of no steps. -/
def IsCanonical (key : Key) : Prop :=
  ∃ ups names, (∀ s ∈ names, Proper s) ∧
    key = "/".intercalate ("." :: (List.replicate ups ".." ++ names))

theorem isCanonical_ofMoves (ups : ℕ) (names : List String) (h : ∀ s ∈ names, Proper s) :
    IsCanonical (ofMoves (List.replicate ups up ++ names.map name)) :=
  ⟨ups, names, h, by simp [ofMoves, Component.segment, Function.comp_def]⟩

theorem exactPath_ofMoves {root : Path} (hr : root.isAbsolute = true) (h : ∀ c ∈ cs, c.IsMove) :
    exactPath root (ofMoves cs) = Path.ofLocation (root.location.follow cs) := by
  rw [exactPath_eq hr (isAbsolute_ofMoves h), moves_ofMoves h]

/-- The way to a location leads there. -/
theorem exactPath_between {root : Path} {loc : Location} (hr : root.isAbsolute = true)
    (h : loc.IsProper) : exactPath root (ofMoves (root.location.between loc)) =
      Path.ofLocation loc := by
  rw [exactPath_ofMoves hr (Location.isMove_of_mem_between _ h), Location.follow_between]

theorem not_isCanonical_dotdotjs : ¬ IsCanonical "..js" := by
  rintro ⟨ups, names, hnames, hkey⟩
  have hseg : (Path.mk "..js").segments = "." :: (List.replicate ups ".." ++ names) := by
    rw [hkey]
    apply Path.segments_intercalate (List.cons_ne_nil _ _)
    intro s hs
    rcases List.mem_cons.mp hs with rfl | hs
    · decide
    rcases List.mem_append.mp hs with hs | hs
    · rw [List.eq_of_mem_replicate hs]
      decide
    · exact (hnames s hs).no_slash
  rw [show (Path.mk "..js").segments = ["..js"] by decide] at hseg
  exact absurd (List.cons.inj hseg).1 (by decide)

end Key

namespace Specifier

variable {root directory : Path} {s : Specifier}

/-- The path a specifier means, with `.js` added to a file name without an extension. -/
def meant (directory : Path) (s : Specifier) (root : Path) : Path :=
  if s.lacksExtension then ⟨(target directory s root).text ++ ".js"⟩ else target directory s root

theorem exists_moves_of_lacksExtension (h : s.lacksExtension = true) :
    ∃ cs n, (Path.mk s).moves = cs ++ [name n] := by
  rw [lacksExtension] at h
  split at h
  · cases h
  · cases h
  split at h
  · rename_i n hlast
    obtain ⟨cs, hcs⟩ := Path.exists_moves_of_getLast? hlast
    exact ⟨cs, n, hcs⟩
  · cases h

/-- A specifier is followed from the top or from its directory. -/
theorem exists_target_eq_follow (hr : root.isAbsolute = true) (directory : Path) (s : Specifier) :
    ∃ base : Location, base.IsProper ∧
      target directory s root = Path.ofLocation (base.follow (Path.mk s).moves) := by
  rw [target]
  split_ifs with hs
  · exact ⟨[], by simp [Location.IsProper], Path.normalize_of_isAbsolute hs⟩
  · have hd := Path.join_isAbsolute (q := directory) hr
    refine ⟨_, Path.isProper_location (root.join directory), ?_⟩
    rw [Path.normalize_of_isAbsolute (Path.join_isAbsolute hd),
      Path.location_join _ (by simpa using hs)]

/-- A file name without an extension stands in a directory. -/
theorem exists_target_of_lacksExtension (hr : root.isAbsolute = true) (directory : Path)
    (h : s.lacksExtension = true) :
    ∃ loc n, Location.IsProper (loc ++ [n]) ∧ Location.IsProper (loc ++ [n ++ ".js"]) ∧
      target directory s root = Path.ofLocation (loc ++ [n]) ∧
      meant directory s root = Path.ofLocation (loc ++ [n ++ ".js"]) := by
  obtain ⟨cs, n, hmoves⟩ := exists_moves_of_lacksExtension h
  obtain ⟨base, hbase, htarget⟩ := exists_target_eq_follow hr directory s
  have hmove : ∀ c ∈ cs ++ [name n], c.IsMove := fun c hc =>
    Path.isMove_of_mem_moves (hmoves ▸ hc)
  have hdir : (base.follow cs).IsProper :=
    Location.isProper_follow hbase fun c hc => hmove c (List.mem_append_left _ hc)
  have hn : Proper n := hmove (name n) (by simp)
  have hext := Key.proper_append_js hn.no_slash
  rw [hmoves, Location.follow_append] at htarget
  refine ⟨base.follow cs, n, Location.isProper_move (c := name n) hdir hn,
    Location.isProper_move (c := name _) hdir hext, htarget, ?_⟩
  rw [meant, if_pos h, htarget]
  exact Path.text_ofLocation_append _ hn hext

/-! ### The keys of file names without an extension -/

variable {loc : Location} {n : String}

/-- Such a key writes the way to the directory and then the file. -/
theorem resolve_of_not_above (hr : root.isAbsolute = true) (hb : ¬ s.isBare = true)
    (hl : s.lacksExtension = true) (hloc : Location.IsProper (loc ++ [n]))
    (ht : target directory s root = Path.ofLocation (loc ++ [n]))
    (h : ¬ loc ++ [n] <+: root.location) :
    resolve directory s root = Key.ofMoves (root.location.between loc ++ [name (n ++ ".js")]) := by
  rw [resolve_of_target hr hb hloc ht, if_pos hl, Location.between_append_name h]
  exact Key.ofMoves_append_js _ (name n)

/-- The way to the root has no last step for `.js` to go to. -/
theorem resolve_of_eq_root (hr : root.isAbsolute = true) (hb : ¬ s.isBare = true)
    (hl : s.lacksExtension = true) (ht : target directory s root = Path.ofLocation root.location) :
    resolve directory s root = "..js" := by
  rw [resolve_of_target hr hb root.isProper_location ht, if_pos hl,
    Location.between_of_above (List.prefix_refl _), Nat.sub_self]
  decide

/-- The way to a directory above the root ends in a step up, which `.js` makes a name. -/
theorem resolve_of_above (hr : root.isAbsolute = true) (hb : ¬ s.isBare = true)
    (hl : s.lacksExtension = true) (ht : target directory s root = Path.ofLocation loc)
    (h : loc <+: root.location) (hne : loc ≠ root.location) :
    resolve directory s root =
      Key.ofMoves (List.replicate (root.location.length - loc.length - 1) up ++ [name "...js"]) := by
  have hloc : loc.IsProper := fun t ht => root.isProper_location t (h.subset ht)
  obtain ⟨k, hk⟩ : ∃ k, root.location.length - loc.length = k + 1 := by
    have hlt : loc.length ≠ root.location.length := fun hlen => hne (h.eq_of_length hlen)
    have hle := h.length_le
    exact ⟨root.location.length - loc.length - 1, by omega⟩
  rw [resolve_of_target hr hb hloc ht, if_pos hl, Location.between_of_above h, hk,
    List.replicate_succ', Key.ofMoves_append_js, Nat.add_sub_cancel]
  rfl

/-- Either way the key leads to a file, and not to an index, in a directory at least as deep as
the one that `.js` was to be added to. -/
theorem exists_exactPath_of_above (hr : root.isAbsolute = true) (hb : ¬ s.isBare = true)
    (hl : s.lacksExtension = true) (ht : target directory s root = Path.ofLocation loc)
    (h : loc <+: root.location) :
    ∃ (front : Location) (file : String), Location.IsProper (front ++ [file]) ∧
      loc.length ≤ front.length ∧ file ≠ "index.js" ∧
      Key.exactPath root (resolve directory s root) = Path.ofLocation (front ++ [file]) := by
  have hroot := root.isProper_location
  by_cases hne : loc = root.location
  · subst hne
    refine ⟨root.location, "..js", ?_, Nat.le_refl _, by decide, ?_⟩
    · exact Location.isProper_move (c := name _) hroot (by constructor <;> decide)
    · rw [resolve_of_eq_root hr hb hl ht, Key.exactPath_eq hr (by decide),
        show (Path.mk "..js").moves = [name "..js"] by decide]
      rfl
  · have hname : Proper "...js" := by constructor <;> decide
    have hmove : ∀ c ∈ List.replicate (root.location.length - loc.length - 1) up ++
        [name "...js"], c.IsMove :=
      Key.isMove_append_name (fun c hc => by rw [List.eq_of_mem_replicate hc]; trivial) hname
    have hproper := Location.isProper_follow hroot hmove
    rw [resolve_of_above hr hb hl ht h hne, Key.exactPath_ofMoves hr hmove]
    rw [Location.follow_append] at hproper ⊢
    refine ⟨_, "...js", hproper, ?_, by decide, rfl⟩
    have hlt : loc.length < root.location.length :=
      Nat.lt_of_le_of_ne h.length_le fun hlen => hne (h.eq_of_length hlen)
    rw [Location.follow_up, List.length_take]
    omega

/-! ### What a key denotes -/

/-- When `.js` is added, it is not added to the root or to a directory that the root lies in. -/
def AddsBelow (directory : Path) (s : Specifier) (root : Path) : Prop :=
  s.lacksExtension = true → ¬ (target directory s root).location <+: root.location

/-- Nor is the root, or a directory that it lies in, what the specifier means then. -/
def IsClear (directory : Path) (s : Specifier) (root : Path) : Prop :=
  AddsBelow directory s root ∧
    (s.lacksExtension = true → ¬ (meant directory s root).location <+: root.location)

/-- A key denotes what its specifier means unless `.js` meets a step up. -/
theorem exactPath_resolve_eq_iff (hr : root.isAbsolute = true) (directory : Path)
    (hb : ¬ s.isBare = true) :
    Key.exactPath root (resolve directory s root) = meant directory s root ↔
      AddsBelow directory s root := by
  by_cases hl : s.lacksExtension = true
  · obtain ⟨loc, n, hloc, hfile, ht, hm⟩ := exists_target_of_lacksExtension hr directory hl
    rw [AddsBelow, ht, Path.location_ofLocation hloc, hm]
    by_cases hprefix : loc ++ [n] <+: root.location
    · -- The key leads deeper than the file that it should name.
      refine iff_of_false (fun heq => ?_) fun h => h hl hprefix
      obtain ⟨front, file, hproper, hle, -, hkey⟩ := exists_exactPath_of_above hr hb hl ht hprefix
      rw [hkey] at heq
      have hlen := congrArg List.length (Path.ofLocation_injective hproper hfile heq)
      simp only [List.length_append, List.length_singleton] at hlen hle
      omega
    · refine iff_of_true ?_ fun _ => hprefix
      have hmove := Location.isMove_of_mem_between_append root.location hfile
      rw [resolve_of_not_above hr hb hl hloc ht hprefix, Key.exactPath_ofMoves hr hmove,
        Location.follow_append, Location.follow_between]
      rfl
  · obtain ⟨loc, hloc, ht⟩ := target_eq hr directory s
    refine iff_of_true ?_ fun h => absurd h hl
    rw [meant, if_neg hl, resolve_of_target hr hb hloc ht, if_neg hl, ht,
      Key.exactPath_between hr hloc]

/-- A key is canonical unless `.js` is added to the root. -/
theorem isCanonical_resolve_iff (hr : root.isAbsolute = true) (directory : Path)
    (hb : ¬ s.isBare = true) :
    (resolve directory s root).IsCanonical ↔
      (s.lacksExtension = true → (target directory s root).location ≠ root.location) := by
  by_cases hl : s.lacksExtension = true
  · obtain ⟨loc, n, hloc, hfile, ht, -⟩ := exists_target_of_lacksExtension hr directory hl
    rw [ht, Path.location_ofLocation hloc]
    by_cases hroot : loc ++ [n] = root.location
    · rw [resolve_of_eq_root hr hb hl (hroot ▸ ht)]
      exact iff_of_false Key.not_isCanonical_dotdotjs fun h => h hl hroot
    refine iff_of_true ?_ fun _ => hroot
    by_cases hprefix : loc ++ [n] <+: root.location
    · rw [resolve_of_above hr hb hl ht hprefix hroot]
      refine Key.isCanonical_ofMoves _ ["...js"] fun t ht => ?_
      rw [List.mem_singleton.mp ht]
      constructor <;> decide
    · obtain ⟨ups, names, hway, hnames⟩ := Location.exists_between_eq root.location hloc.front
      rw [resolve_of_not_above hr hb hl hloc ht hprefix, hway, List.append_assoc]
      have := Key.isCanonical_ofMoves ups (names ++ [n ++ ".js"]) fun t ht => by
        rcases List.mem_append.mp ht with ht | ht
        · exact hnames t ht
        · rw [List.mem_singleton.mp ht]
          exact hfile.last
      rwa [List.map_append] at this
  · obtain ⟨loc, hloc, ht⟩ := target_eq hr directory s
    obtain ⟨ups, names, hway, hnames⟩ := Location.exists_between_eq root.location hloc
    refine iff_of_true ?_ fun h => absurd h hl
    rw [resolve_of_target hr hb hloc ht, if_neg hl, hway]
    exact Key.isCanonical_ofMoves ups names hnames

theorem exists_meant_eq (hr : root.isAbsolute = true) (directory : Path) (s : Specifier) :
    ∃ loc : Location, loc.IsProper ∧ meant directory s root = Path.ofLocation loc := by
  by_cases hl : s.lacksExtension = true
  · obtain ⟨loc, n, -, hfile, -, hm⟩ := exists_target_of_lacksExtension hr directory hl
    exact ⟨_, hfile, hm⟩
  · rw [meant, if_neg hl]
    exact target_eq hr directory s

/-- A key is the direct way to what its specifier means exactly when that is clear of the root. -/
theorem resolve_eq_between_iff (hr : root.isAbsolute = true) (directory : Path)
    (hb : ¬ s.isBare = true) :
    resolve directory s root =
        Key.ofMoves (root.location.between (meant directory s root).location) ↔
      IsClear directory s root := by
  by_cases hl : s.lacksExtension = true
  · by_cases hbelow : AddsBelow directory s root
    · obtain ⟨loc, n, hloc, hfile, ht, hm⟩ := exists_target_of_lacksExtension hr directory hl
      have hprefix := hbelow hl
      rw [ht, Path.location_ofLocation hloc] at hprefix
      have hmove := Location.isMove_of_mem_between_append root.location hfile
      rw [IsClear, hm, Path.location_ofLocation hfile,
        resolve_of_not_above hr hb hl hloc ht hprefix]
      by_cases habove : loc ++ [n ++ ".js"] <+: root.location
      · -- The direct way would be steps up alone.
        refine iff_of_false (fun heq => ?_) fun h => h.2 hl habove
        have hmoves := congrArg (fun k => (Path.mk k).moves) heq
        simp only [Key.moves_ofMoves hmove,
          Key.moves_ofMoves (Location.isMove_of_mem_between _ hfile)] at hmoves
        rw [Location.between_of_above habove] at hmoves
        have hname : name (n ++ ".js") ∈ _ := hmoves ▸ List.mem_append_right _ (by simp)
        cases List.eq_of_mem_replicate hname
      · exact iff_of_true (by rw [Location.between_append_name habove]) ⟨hbelow, fun _ => habove⟩
    · refine iff_of_false (fun heq => hbelow ?_) fun h => hbelow h.1
      obtain ⟨loc, hloc, hm⟩ := exists_meant_eq hr directory s
      rw [← exactPath_resolve_eq_iff hr directory hb, heq, hm, Path.location_ofLocation hloc,
        Key.exactPath_between hr hloc]
  · obtain ⟨loc, hloc, ht⟩ := target_eq hr directory s
    refine iff_of_true ?_ ⟨fun h => absurd h hl, fun h => absurd h hl⟩
    rw [meant, if_neg hl, resolve_of_target hr hb hloc ht, if_neg hl, ht,
      Path.location_ofLocation hloc]

/-- Specifiers that are clear of the root have one key exactly when they mean one path. -/
theorem resolve_eq_iff {directory' : Path} {s' : Specifier} (hr : root.isAbsolute = true)
    (hb : ¬ s.isBare = true) (hb' : ¬ s'.isBare = true)
    (hs : IsClear directory s root) (hs' : IsClear directory' s' root) :
    resolve directory s root = resolve directory' s' root ↔
      meant directory s root = meant directory' s' root := by
  constructor
  · intro h
    rw [← (exactPath_resolve_eq_iff hr directory hb).mpr hs.1, h,
      (exactPath_resolve_eq_iff hr directory' hb').mpr hs'.1]
  · intro h
    rw [(resolve_eq_between_iff hr directory hb).mpr hs, h,
      (resolve_eq_between_iff hr directory' hb').mpr hs']

theorem not_isBare_of_isAbsolute (h : (Path.mk s).isAbsolute = true) : ¬ s.isBare = true := by
  obtain ⟨cs, hcs⟩ : ∃ cs, s.toList = '/' :: cs := by
    simpa [Path.isAbsolute, List.head?_eq_some_iff] using h
  simp [isBare, hcs, isWordStart]

theorem lacksExtension_ofLocation_js (h : Location.IsProper (loc ++ [n ++ ".js"])) (hn : n ≠ "") :
    lacksExtension (Path.ofLocation (loc ++ [n ++ ".js"])).text = false := by
  have hlast : (Path.mk (Path.ofLocation (loc ++ [n ++ ".js"])).text).components.getLast? =
      some (name (n ++ ".js")) := by
    rw [Path.components_of_isAbsolute (Path.isAbsolute_ofLocation _), Path.moves_ofLocation h,
      List.map_append, ← List.cons_append]
    exact List.getLast?_concat
  rw [lacksExtension]
  split
  · rfl
  · rfl
  · rw [hlast]
    simpa [Option.isNone_iff_eq_none, Option.isSome_iff_ne_none] using
      Component.isSome_extensionOf_append_js hn

/-- What a specifier means can be written in full, extension included. -/
theorem exists_full (hr : root.isAbsolute = true) (directory : Path)
    (hl : s.lacksExtension = true) :
    ∃ full : Specifier, ¬ full.isBare = true ∧ full.lacksExtension = false ∧
      meant directory full root = meant directory s root := by
  obtain ⟨loc, n, hloc, hfile, ht, hm⟩ := exists_target_of_lacksExtension hr directory hl
  have ha := Path.isAbsolute_ofLocation (loc ++ [n ++ ".js"])
  have hlacks := lacksExtension_ofLocation_js hfile hloc.last.ne_empty
  refine ⟨(Path.ofLocation (loc ++ [n ++ ".js"])).text, not_isBare_of_isAbsolute ha, hlacks, ?_⟩
  rw [meant, hlacks, target, if_pos ha, hm, Path.normalize_of_isAbsolute ha,
    Path.location_ofLocation hfile]
  rfl

/-- A specifier that is not clear of the root has another key than its path in full. -/
theorem isClear_iff (hr : root.isAbsolute = true) (directory : Path) (hb : ¬ s.isBare = true) :
    IsClear directory s root ↔ ∀ directory' s', ¬ s'.isBare = true → IsClear directory' s' root →
      (resolve directory s root = resolve directory' s' root ↔
        meant directory s root = meant directory' s' root) := by
  refine ⟨fun h directory' s' hb' hs' => resolve_eq_iff hr hb hb' h hs', fun h => ?_⟩
  by_cases hl : s.lacksExtension = true
  · obtain ⟨full, hbare, hfull, hm⟩ := exists_full hr directory hl
    have hclear : IsClear directory full root := by simp [IsClear, AddsBelow, hfull]
    rw [← resolve_eq_between_iff hr directory hb, (h directory full hbare hclear).mpr hm.symm,
      ← hm, resolve_eq_between_iff hr directory hbare]
    exact hclear
  · exact ⟨fun hl' => absurd hl' hl, fun hl' => absurd hl' hl⟩

/-- A key denotes what its specifier means unless `.js` is added to the root or above it, and is
canonical unless `.js` is added to the root. Specifiers that are clear of the root have one key
exactly when they mean one path, and no other specifiers do so. -/
theorem resolve_denotes (hr : root.isAbsolute = true) (directory : Path) (hb : ¬ s.isBare = true) :
    (Key.exactPath root (resolve directory s root) = meant directory s root ↔
      AddsBelow directory s root) ∧
    ((resolve directory s root).IsCanonical ↔
      (s.lacksExtension = true → (target directory s root).location ≠ root.location)) ∧
    (IsClear directory s root ↔ ∀ directory' s', ¬ s'.isBare = true → IsClear directory' s' root →
      (resolve directory s root = resolve directory' s' root ↔
        meant directory s root = meant directory' s' root)) :=
  ⟨exactPath_resolve_eq_iff hr directory hb, isCanonical_resolve_iff hr directory hb,
    isClear_iff hr directory hb⟩

/-- A file beside the directory that the root lies in. -/
theorem resolve_denotes_beside :
    Path.isAbsolute ⟨"/a/b"⟩ = true ∧ ¬ isBare "../c" = true ∧
      Key.exactPath ⟨"/a/b"⟩ (resolve ⟨"."⟩ "../c" ⟨"/a/b"⟩) = meant ⟨"."⟩ "../c" ⟨"/a/b"⟩ ∧
      (resolve ⟨"."⟩ "../c" ⟨"/a/b"⟩).IsCanonical := by
  have hr : Path.isAbsolute ⟨"/a/b"⟩ = true := by decide
  have hb : ¬ isBare "../c" = true := by decide
  obtain ⟨hdenotes, hcanonical, -⟩ := resolve_denotes hr ⟨"."⟩ hb
  exact ⟨hr, hb, hdenotes.mpr fun _ => by decide, hcanonical.mpr fun _ => by decide⟩

/-- A file that has the name of the root and stands beside it gets the key `..js`. -/
theorem not_resolve_denotes :
    Path.isAbsolute ⟨"/project"⟩ = true ∧ ¬ isBare "../project" = true ∧
      ¬ isBare "../project.js" = true ∧
      Key.exactPath ⟨"/project"⟩ (resolve ⟨"."⟩ "../project" ⟨"/project"⟩) ≠
        meant ⟨"."⟩ "../project" ⟨"/project"⟩ ∧
      ¬ (resolve ⟨"."⟩ "../project" ⟨"/project"⟩).IsCanonical ∧
      resolve ⟨"."⟩ "../project" ⟨"/project"⟩ ≠ resolve ⟨"."⟩ "../project.js" ⟨"/project"⟩ ∧
      meant ⟨"."⟩ "../project" ⟨"/project"⟩ = meant ⟨"."⟩ "../project.js" ⟨"/project"⟩ := by
  have hkey : resolve ⟨"."⟩ "../project" ⟨"/project"⟩ = "..js" := by decide +kernel
  have hcanonical : ¬ (resolve ⟨"."⟩ "../project" ⟨"/project"⟩).IsCanonical := by
    rw [hkey]
    exact Key.not_isCanonical_dotdotjs
  exact ⟨by decide, by decide, by decide, by decide +kernel, hcanonical, by decide +kernel,
    by decide +kernel⟩

end Specifier

end Bundler
