import Bundler.ModuleFile
import Bundler.Proofs.Key.Resolved

/-! The files that keys mean. A key means the file of its completion: of the key itself, or
of the key with `.js` or `/index.js` added. The completion of a resolved key writes the
shortest way from the root to a directory and a file name in it, so two of them lead to one
file only when they take the same moves. -/
namespace Bundler

open Component

namespace Key

variable {t : FileTree} {root p : Path} {key : Key} {cs : List Component}

/-! ### Completions -/

/-- The keys that spell out what a key may mean, best first. -/
def completions (key : Key) : List Key :=
  if key.endsWith ".js" then [key]
  else if key.isDirectory then [key ++ "/index.js"]
  else
    (if (Path.mk key).extension?.isSome then [key] else []) ++ [key ++ ".js", key ++ "/index.js"]

/-- The path of a key as it is. -/
def exactPath (root : Path) (key : Key) : Path := (root.join ⟨key⟩).normalize

/-- The first completion that is a file. -/
def completion (t : FileTree) (root : Path) (key : Key) : Key :=
  ((completions key).find? fun k => t.isFile (exactPath root k)).getD key

theorem exactPath_eq (hr : root.isAbsolute = true) (hk : (Path.mk key).isAbsolute = false) :
    exactPath root key = Path.ofLocation (root.location.follow (Path.mk key).moves) := by
  rw [exactPath, Path.normalize_of_isAbsolute (Path.join_isAbsolute hr), Path.location_join root hk]

theorem isAbsolute_append (hk : (Path.mk key).isAbsolute = false) (hne : key ≠ "") (s : String) :
    (Path.mk (key ++ s)).isAbsolute = false := by
  have : key.toList ≠ [] := by simpa using hne
  simp only [Path.isAbsolute, String.toList_append] at hk ⊢
  rwa [List.head?_append_of_ne_nil _ this]

/-- The index of a directory is one step below it. -/
theorem exactPath_index (hr : root.isAbsolute = true) (hk : (Path.mk key).isAbsolute = false)
    (hne : key ≠ "") : exactPath root (key ++ "/index.js") = (exactPath root key).join indexFile := by
  have hmoves : (Path.mk (key ++ "/index.js")).moves =
      (Path.mk key).moves ++ [name "index.js"] := by
    have := Path.moves_append_slash key "index.js"
    rw [String.append_assoc] at this
    exact this
  rw [exactPath_eq hr (isAbsolute_append hk hne _), exactPath_eq hr hk, hmoves,
    Location.follow_append]
  exact Path.ofLocation_append _ _

theorem candidates_eq (hr : root.isAbsolute = true) (hk : (Path.mk key).isAbsolute = false)
    (hne : key ≠ "") : candidates root key = (completions key).map (exactPath root) := by
  have hexact : ∀ k : Key, (root.join ⟨k⟩).normalize = exactPath root k := fun _ => rfl
  simp only [candidates, completions, hexact, ← exactPath_index hr hk hne]
  split_ifs <;> rfl

/-- The file of a key is the file of its completion. -/
theorem file_eq_ok (hr : root.isAbsolute = true) (hk : (Path.mk key).isAbsolute = false)
    (hne : key ≠ "") (h : file t root key = .ok p) :
    completion t root key ∈ completions key ∧ p = exactPath root (completion t root key) := by
  rw [file, candidates_eq hr hk hne, List.find?_map, Function.comp_def] at h
  cases hf : (completions key).find? fun k => t.isFile (exactPath root k) with
  | none =>
    rw [hf] at h
    cases h
  | some k =>
    have hc : completion t root key = k := by rw [completion, hf, Option.getD_some]
    rw [hf] at h
    rw [hc]
    exact ⟨List.mem_of_find?_eq_some hf, (Except.ok.inj h).symm⟩

/-! ### The completions of resolved keys -/

/-- A key with `./` before it. Of the keys that name a file, only `..js` can lack it. -/
def dotted (key : Key) : Key := if key = "..js" then "./..js" else key

/-- The key of the file that a key means: its completion, written with `./` before it. -/
def ofFile (t : FileTree) (root : Path) (key : Key) : Key := dotted (completion t root key)

/-- A key that writes the shortest way from a location to a directory, and the name of a
file there. -/
def SpellsOut (base : Location) (key : Key) : Prop :=
  ∃ cs f, base.Direct cs ∧ (∀ c ∈ cs ++ [name f], c.IsMove) ∧
    (Path.mk key).moves = cs ++ [name f] ∧ (Path.mk key).isAbsolute = false ∧
    dotted key = ofMoves (cs ++ [name f])

variable {base : Location}

theorem dotted_ofMoves (h : ∀ c ∈ cs, c.IsMove) : dotted (ofMoves cs) = ofMoves cs := by
  rw [dotted, if_neg]
  intro he
  have hseg := segments_ofMoves h
  rw [he, show (Path.mk "..js").segments = ["..js"] by decide] at hseg
  exact absurd (List.cons.inj hseg).1 (by decide)

theorem spellsOut_ofMoves {f : String} (hd : base.Direct cs) (h : ∀ c ∈ cs ++ [name f], c.IsMove) :
    SpellsOut base (ofMoves (cs ++ [name f])) :=
  ⟨cs, f, hd, h, moves_ofMoves h, isAbsolute_ofMoves h, dotted_ofMoves h⟩

theorem isMove_append_name {f : String} (h : ∀ c ∈ cs, c.IsMove) (hf : Proper f) :
    ∀ c ∈ cs ++ [name f], c.IsMove := by
  intro c hc
  rcases List.mem_append.mp hc with hc | hc
  · exact h c hc
  · rw [List.mem_singleton.mp hc]
    exact hf

theorem proper_append_js {s : String} (h : '/' ∉ s.toList) : Proper (s ++ ".js") := by
  have hlen : 3 ≤ (s ++ ".js").toList.length := by simp
  refine ⟨?_, ?_, ?_, ?_⟩
  · intro he
    rw [he] at hlen
    exact absurd hlen (by decide)
  · intro he
    rw [he] at hlen
    exact absurd hlen (by decide)
  · intro he
    rw [he] at hlen
    exact absurd hlen (by decide)
  · simpa using h

/-- With `.js` added, the last move becomes a file name. -/
theorem ofMoves_append_js (cs : List Component) (c : Component) :
    ofMoves (cs ++ [c]) ++ ".js" = ofMoves (cs ++ [name (c.segment ++ ".js")]) := by
  simp [ofMoves_append, Component.segment, String.append_assoc]

/-- The empty way becomes `..js`. -/
theorem spellsOut_js (hd : base.Direct cs) (h : ∀ c ∈ cs, c.IsMove) :
    SpellsOut base (ofMoves cs ++ ".js") := by
  rcases List.eq_nil_or_concat cs with rfl | ⟨front, c, rfl⟩
  · have hf : Proper ("." ++ ".js") := proper_append_js (by decide)
    exact ⟨[], "." ++ ".js", hd, isMove_append_name h hf, by decide, by decide, by decide⟩
  · rw [List.concat_eq_append] at hd h ⊢
    rw [ofMoves_append_js]
    have hf : Proper (c.segment ++ ".js") :=
      proper_append_js (segment_no_slash (h c (by simp)))
    exact spellsOut_ofMoves hd.front
      (isMove_append_name (fun d hd => h d (List.mem_append_left _ hd)) hf)

theorem spellsOut_index (hd : base.Direct cs) (h : ∀ c ∈ cs, c.IsMove) :
    SpellsOut base (ofMoves cs ++ "/index.js") := by
  have hfile : ofMoves cs ++ "/index.js" = ofMoves (cs ++ [name "index.js"]) := by
    simp [ofMoves_append, Component.segment, String.append_assoc]
  rw [hfile]
  exact spellsOut_ofMoves hd
    (isMove_append_name h ⟨by decide, by decide, by decide, by decide⟩)

theorem endsWith_iff {s e : String} : s.endsWith e = true ↔ e.toList <:+ s.toList := by
  rw [String.endsWith, String.Slice.endsWith_string_iff]
  simp

/-- A key that is taken as it is ends in a name. -/
theorem spellsOut_self (hd : base.Direct cs) (h : ∀ c ∈ cs, c.IsMove)
    (hname : (ofMoves cs).endsWith ".js" = true ∨ (Path.mk (ofMoves cs)).extension?.isSome = true) :
    SpellsOut base (ofMoves cs) := by
  rcases List.eq_nil_or_concat cs with rfl | ⟨front, c, rfl⟩
  · exact absurd hname (by decide +kernel)
  · rw [List.concat_eq_append] at hd h hname ⊢
    cases c with
    | name f => exact spellsOut_ofMoves hd.front h
    | up =>
      rcases hname with hname | hname
      · rw [endsWith_iff, ofMoves_append, String.toList_append] at hname
        have := hname.getLast (by simp)
        simp [Component.segment] at this
      · simp [Path.extension?, Path.fileName?, components_ofMoves h, List.getLast?_cons] at hname
    | root => exact (h root (by simp)).elim
    | here => exact (h here (by simp)).elim

/-- A key that a specifier resolves to. -/
def IsResolved (root : Path) (key : Key) : Prop :=
  ∃ directory s, key = Specifier.resolve directory s root

/-- Every completion of a resolved key spells out a file. -/
theorem spellsOut_of_mem_completions (hr : root.isAbsolute = true) (hk : IsResolved root key)
    {k : Key} (h : k ∈ completions key) : SpellsOut root.location k := by
  obtain ⟨directory, s, rfl⟩ := hk
  obtain ⟨loc, hloc, hkey⟩ := Specifier.resolve_eq hr directory s
  have hd := Location.direct_between root.location loc
  have hm := Location.isMove_of_mem_between root.location hloc
  rcases hkey with hkey | hkey
  · rw [hkey, completions] at h
    split_ifs at h with hjs hdir hext
    · rw [List.mem_singleton.mp h]
      exact spellsOut_self hd hm (.inl hjs)
    · rw [List.mem_singleton.mp h]
      exact spellsOut_index hd hm
    · simp only [List.cons_append, List.nil_append, List.mem_cons, List.not_mem_nil, or_false] at h
      rcases h with rfl | rfl | rfl
      · exact spellsOut_self hd hm (.inr hext)
      · exact spellsOut_js hd hm
      · exact spellsOut_index hd hm
    · simp only [List.nil_append, List.mem_cons, List.not_mem_nil, or_false] at h
      rcases h with rfl | rfl
      · exact spellsOut_js hd hm
      · exact spellsOut_index hd hm
  · have hjs : (Key.ofMoves (root.location.between loc) ++ ".js").endsWith ".js" = true := by
      rw [endsWith_iff, String.toList_append]
      exact List.suffix_append _ _
    rw [hkey, completions, if_pos hjs, List.mem_singleton] at h
    rw [h]
    exact spellsOut_js hd hm

/-- Keys that spell out one file are the same once they are written with `./`. -/
theorem exactPath_eq_iff (hr : root.isAbsolute = true) {a b : Key}
    (ha : SpellsOut root.location a) (hb : SpellsOut root.location b) :
    exactPath root a = exactPath root b ↔ dotted a = dotted b := by
  obtain ⟨as, f, hda, hma, ha, haa, hna⟩ := ha
  obtain ⟨bs, e, hdb, hmb, hb, hab, hnb⟩ := hb
  rw [exactPath_eq hr haa, exactPath_eq hr hab, ha, hb, hna, hnb]
  constructor
  · intro h
    have hloc := Path.ofLocation_injective (Location.isProper_follow root.isProper_location hma)
      (Location.isProper_follow root.isProper_location hmb) h
    rw [Location.follow_append, Location.follow_append] at hloc
    obtain ⟨hdir, hfile⟩ := List.append_inj' hloc rfl
    obtain rfl : as = bs := by rw [← hda, hdir, hdb]
    rw [(List.cons.inj hfile).1]
  · intro h
    have := congrArg (fun k => (Path.mk k).moves) h
    simp only [moves_ofMoves hma, moves_ofMoves hmb] at this
    rw [this]

theorem isAbsolute_of_isResolved (hr : root.isAbsolute = true) (hk : IsResolved root key) :
    key ≠ "" ∧ (Path.mk key).isAbsolute = false := by
  obtain ⟨directory, s, rfl⟩ := hk
  obtain ⟨loc, hloc, hkey⟩ := Specifier.resolve_eq hr directory s
  have hm := Location.isMove_of_mem_between root.location hloc
  have hne : ofMoves (root.location.between loc) ≠ "" := by
    intro he
    have hseg := segments_ofMoves hm
    rw [he, show (Path.mk "").segments = [""] by decide] at hseg
    exact absurd (List.cons.inj hseg).1 (by decide)
  rcases hkey with hkey | hkey
  · rw [hkey]
    exact ⟨hne, isAbsolute_ofMoves hm⟩
  · rw [hkey]
    exact ⟨by simp [hne], isAbsolute_append (isAbsolute_ofMoves hm) hne _⟩

/-- Two resolved keys mean one file exactly when that file gives them one key. -/
theorem file_eq_iff (hr : root.isAbsolute = true) {a b : Key} {p q : Path}
    (ha : IsResolved root a) (hb : IsResolved root b)
    (hp : file t root a = .ok p) (hq : file t root b = .ok q) :
    p = q ↔ ofFile t root a = ofFile t root b := by
  obtain ⟨hna, haa⟩ := isAbsolute_of_isResolved hr ha
  obtain ⟨hnb, hab⟩ := isAbsolute_of_isResolved hr hb
  obtain ⟨hca, hpa⟩ := file_eq_ok hr haa hna hp
  obtain ⟨hcb, hqb⟩ := file_eq_ok hr hab hnb hq
  have hsa := spellsOut_of_mem_completions hr ha hca
  have hsb := spellsOut_of_mem_completions hr hb hcb
  rw [hpa, hqb, ofFile, ofFile]
  exact exactPath_eq_iff hr hsa hsb

end Key
end Bundler
