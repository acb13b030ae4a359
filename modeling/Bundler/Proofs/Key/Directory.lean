import Bundler.Proofs.Key.Target

/-! Specifiers that name a directory. Such a specifier should load the index of its directory
and nothing else, but its key is the way to the directory, without the slash or the dot segment
that told a directory from a file. Only a way of steps up alone still names a directory; any
other is completed like the name of a file, and what stands beside the directory comes first. -/
namespace Bundler

open Component

namespace Path

variable {loc : Location} {n : String}

/-- The file name at the end of a path follows a slash. -/
theorem exists_text_ofLocation_append (loc : Location) (hn : Proper n) :
    ∃ a, (ofLocation (loc ++ [n])).text = a ++ "/" ++ n := by
  have ha : (Path.mk n).isAbsolute = false := isAbsolute_segment (c := name n) hn
  have hloc := isAbsolute_ofLocation loc
  rw [ofLocation_append, join, if_neg (by simp [ha])]
  split_ifs with h
  · rw [Bool.or_eq_true, beq_iff_eq, beq_iff_eq] at h
    rcases h with h | h
    · simp [isAbsolute, h] at hloc
    · obtain ⟨a, ha⟩ := List.getLast?_eq_some_iff.mp h
      refine ⟨String.ofList a, ?_⟩
      apply String.toList_injective
      simp [ha]
  · exact ⟨_, rfl⟩

theorem extension?_ofLocation_append (h : Location.IsProper (loc ++ [n])) :
    (ofLocation (loc ++ [n])).extension? = extensionOf n := by
  rw [extension?, fileName?, components_of_isAbsolute (isAbsolute_ofLocation _),
    moves_ofLocation h, List.map_append, ← List.cons_append, List.map_singleton,
    List.getLast?_concat, Option.bind_some]

end Path

namespace Key

variable {t : FileTree} {root p q : Path} {key : Key} {cs : List Component} {n : String}

/-! ### What a key means in a tree -/

/-- The key means this file, whenever it is there, and no other file. -/
def Means (t : FileTree) (root : Path) (key : Key) (p : Path) : Prop :=
  ∀ q, file t root key = .ok q ↔ q = p ∧ t.isFile p = true

theorem file_eq_ok_iff : file t root key = .ok q ↔ (candidates root key).find? t.isFile = some q := by
  rw [file]
  cases (candidates root key).find? t.isFile <;> simp

/-- A key means its last candidate if no candidate before it is a file. -/
theorem means_iff_of_append {rivals : List Path} (hc : candidates root key = rivals ++ [p])
    (hp : p ∉ rivals) : Means t root key p ↔ ∀ q ∈ rivals, t.isFile q = false := by
  constructor
  · intro h q hq
    by_contra hfile
    obtain ⟨r, hr⟩ := Option.isSome_iff_exists.mp
      (List.find?_isSome.mpr ⟨q, hq, by simpa using hfile⟩)
    have hfound := (h r).mp (by rw [file_eq_ok_iff, hc, List.find?_append, hr, Option.some_or])
    exact hp (hfound.1 ▸ List.mem_of_find?_eq_some hr)
  · intro h q
    have hnone : rivals.find? t.isFile = none := by simpa using h
    rw [file_eq_ok_iff, hc, List.find?_append, hnone, Option.none_or, List.find?_singleton]
    by_cases hp : t.isFile p = true
    · simp [hp, eq_comm]
    · simp [hp]

/-- A key whose one candidate is another file means nothing at best. -/
theorem means_iff_of_singleton (hc : candidates root key = [q]) (hne : q ≠ p) :
    Means t root key p ↔ t.isFile q = false ∧ t.isFile p = false := by
  have hfile (r : Path) : file t root key = .ok r ↔ r = q ∧ t.isFile q = true := by
    rw [file_eq_ok_iff, hc, List.find?_singleton]
    by_cases hq : t.isFile q = true
    · simp [hq, eq_comm]
    · simp [hq]
  constructor
  · intro h
    constructor
    · by_contra hq
      exact hne ((h q).mp ((hfile q).mpr ⟨rfl, by simpa using hq⟩)).1
    · by_contra hp
      exact hne ((hfile p).mp ((h p).mpr ⟨rfl, by simpa using hp⟩)).1.symm
  · rintro ⟨hq, hp⟩ r
    rw [hfile]
    simp [hq, hp]

/-! ### The candidates of a way -/

theorem endsWith_js_append_slash (a n : String) :
    (a ++ "/" ++ n).endsWith ".js" = n.endsWith ".js" := by
  rw [Bool.eq_iff_iff, endsWith_iff, endsWith_iff]
  have hn : n.toList <:+ (a ++ "/" ++ n).toList := by
    rw [String.toList_append]
    exact List.suffix_append _ _
  constructor
  · intro h
    by_cases hlen : ".js".toList.length ≤ n.toList.length
    · exact List.suffix_of_suffix_length_le h hn hlen
    · -- a shorter name leaves room for the slash before it
      have hslash : '/' :: n.toList <:+ (a ++ "/" ++ n).toList := by
        simp
      have := List.suffix_of_suffix_length_le hslash h (by simp at hlen ⊢; omega)
      exact absurd (this.subset List.mem_cons_self) (by decide)
  · exact fun h => h.trans hn

/-- Steps up alone name a directory. -/
theorem candidates_replicate_up (root : Path) (k : ℕ) :
    (ofMoves (List.replicate k up)).isDirectory = true ∧
      candidates root (ofMoves (List.replicate k up)) =
        [(exactPath root (ofMoves (List.replicate k up))).join indexFile] := by
  have hmove : ∀ c ∈ List.replicate k up, c.IsMove := by
    intro c hc
    rw [List.eq_of_mem_replicate hc]
    trivial
  have hdir : (ofMoves (List.replicate k up)).isDirectory = true := by
    rw [isDirectory, components_ofMoves hmove]
    cases k with
    | zero => simp
    | succ k => simp [List.replicate_succ', List.getLast?_cons]
  have hend : (ofMoves (List.replicate k up)).endsWith ".js" = false := by
    cases k with
    | zero => decide +kernel
    | succ k =>
      rw [List.replicate_succ', ofMoves_append, endsWith_js_append_slash]
      decide +kernel
  refine ⟨hdir, ?_⟩
  simp only [candidates, hend, hdir]
  rfl

/-- A way that ends in a name may mean the file of this name, with `.js` or without. -/
theorem candidates_append_name (root : Path) (h : ∀ c ∈ cs ++ [name n], c.IsMove) :
    (ofMoves (cs ++ [name n])).isDirectory = false ∧
      candidates root (ofMoves (cs ++ [name n])) =
        if n.endsWith ".js" then [exactPath root (ofMoves (cs ++ [name n]))] else
          (if (extensionOf n).isSome then [exactPath root (ofMoves (cs ++ [name n]))] else []) ++
            [exactPath root (ofMoves (cs ++ [name (n ++ ".js")])),
              (exactPath root (ofMoves (cs ++ [name n]))).join indexFile] := by
  have hn : Proper n := h (name n) (by simp)
  have hne : n.toList ≠ [] := by simpa using hn.ne_empty
  have hlast : (ofMoves (cs ++ [name n])).toList.getLast? ≠ some '/' := by
    rw [ofMoves_append, Component.segment, String.toList_append,
      List.getLast?_append_of_ne_nil _ hne]
    exact fun hl => hn.no_slash (List.mem_of_getLast? hl)
  have hcomp : (Path.mk (ofMoves (cs ++ [name n]))).components.getLast? = some (name n) := by
    rw [components_ofMoves h, ← List.cons_append, List.getLast?_concat]
  have hdir : (ofMoves (cs ++ [name n])).isDirectory = false := by
    simp [isDirectory, hcomp, hlast]
  have hend : (ofMoves (cs ++ [name n])).endsWith ".js" = n.endsWith ".js" := by
    rw [ofMoves_append, endsWith_js_append_slash]
    rfl
  have hext : (Path.mk (ofMoves (cs ++ [name n]))).extension? = extensionOf n := by
    rw [Path.extension?, Path.fileName?, hcomp, Option.bind_some]
  refine ⟨hdir, ?_⟩
  simp only [candidates, hend, hdir, hext, ofMoves_append_js]
  rfl

/-- `.js` at the end of a key makes it the name of one file. -/
theorem candidates_append_js (root : Path) (hm : ∀ c ∈ cs, c.IsMove) :
    (ofMoves cs ++ ".js").isDirectory = false ∧
      candidates root (ofMoves cs ++ ".js") = [exactPath root (ofMoves cs ++ ".js")] := by
  have hend : (ofMoves cs ++ ".js").endsWith ".js" = true := by
    rw [endsWith_iff, String.toList_append]
    exact List.suffix_append _ _
  refine ⟨?_, by simp only [candidates, hend]; rfl⟩
  rcases List.eq_nil_or_concat cs with rfl | ⟨front, c, rfl⟩
  · decide +kernel
  · rw [List.concat_eq_append] at hm ⊢
    rw [ofMoves_append_js]
    have hf : Proper (c.segment ++ ".js") :=
      proper_append_js (segment_no_slash (hm c (by simp)))
    exact (candidates_append_name root
      (isMove_append_name (fun d hd => hm d (List.mem_append_left _ hd)) hf)).1

end Key

namespace Specifier

variable {root directory : Path} {s : Specifier} {loc : Location} {n : String}

/-- Specifiers that end in a slash or in a dot segment. -/
def NamesDirectory (s : Specifier) : Prop :=
  s.toList.getLast? = some '/' ∨ (Path.mk s).segments.getLast? ∈ [some ".", some ".."]

instance : Decidable (NamesDirectory s) := inferInstanceAs (Decidable (_ ∨ _))

/-- The index of the directory that a specifier names. -/
def index (directory : Path) (s : Specifier) (root : Path) : Path :=
  (target directory s root).join Key.indexFile

theorem NamesDirectory.not_isBare (h : NamesDirectory s) : ¬ s.isBare = true := by
  intro hb
  have hs := proper_of_isBare hb
  rcases h with h | h
  · exact hs.no_slash (List.mem_of_getLast? h)
  · rw [show (Path.mk s).segments = [s] from Path.segments_segment (c := name s) hs] at h
    simp [hs.ne_here, hs.ne_up] at h

theorem index_of_target (ht : target directory s root = Path.ofLocation loc) :
    index directory s root = Path.ofLocation (loc ++ ["index.js"]) := by
  rw [index, ht, Path.ofLocation_append]
  rfl

theorem proper_index : Proper "index.js" := by constructor <;> decide

/-- A key with `.js` added does not lead to the index. -/
theorem exactPath_ne_index (hr : root.isAbsolute = true) (hb : ¬ s.isBare = true)
    (hl : s.lacksExtension = true) :
    Key.exactPath root (resolve directory s root) ≠ index directory s root := by
  obtain ⟨loc, n, hloc, hfile, ht, hm⟩ := exists_target_of_lacksExtension hr directory hl
  have hindex : Location.IsProper (loc ++ [n] ++ ["index.js"]) :=
    Location.isProper_move (c := name _) hloc proper_index
  rw [index_of_target ht]
  intro heq
  by_cases h : loc ++ [n] <+: root.location
  · obtain ⟨front, file, hproper, -, hne, hkey⟩ := exists_exactPath_of_above hr hb hl ht h
    rw [hkey] at heq
    have := Path.ofLocation_injective hproper hindex heq
    exact hne (by simpa using (List.append_inj' this rfl).2)
  · have hbelow : AddsBelow directory s root := by
      rwa [AddsBelow, ht, Path.location_ofLocation hloc, imp_iff_right hl]
    rw [(exactPath_resolve_eq_iff hr directory hb).mpr hbelow, hm] at heq
    have := Path.ofLocation_injective hfile hindex heq
    simp at this

/-! ### What is loaded for a directory -/

/-- With `.js` added, the key names one file, and this is no index. -/
theorem means_of_lacksExtension (hr : root.isAbsolute = true) (directory : Path)
    (hb : ¬ s.isBare = true) (hl : s.lacksExtension = true) (t : FileTree) :
    (resolve directory s root).isDirectory = false ∧
      (Key.Means t root (resolve directory s root) (index directory s root) ↔
        t.isFile (Key.exactPath root (resolve directory s root)) = false ∧
          t.isFile (index directory s root) = false) := by
  obtain ⟨loc, hloc, ht⟩ := target_eq hr directory s
  have hkey := resolve_of_target hr hb hloc ht
  rw [if_pos hl] at hkey
  obtain ⟨hdir, hcand⟩ :=
    Key.candidates_append_js root (Location.isMove_of_mem_between root.location hloc)
  rw [← hkey] at hdir hcand
  exact ⟨hdir, Key.means_iff_of_singleton hcand (exactPath_ne_index hr hb hl)⟩

/-- The way up to the root, or above it, still names a directory. -/
theorem means_of_above (hr : root.isAbsolute = true) (hb : ¬ s.isBare = true)
    (hl : s.lacksExtension = false)
    (h : (target directory s root).location <+: root.location) (t : FileTree) :
    (resolve directory s root).isDirectory = true ∧
      Key.Means t root (resolve directory s root) (index directory s root) := by
  obtain ⟨loc, hloc, ht⟩ := target_eq hr directory s
  rw [ht, Path.location_ofLocation hloc] at h
  have hkey := resolve_of_target hr hb hloc ht
  rw [if_neg (by simp [hl])] at hkey
  have hindex : (Key.exactPath root (resolve directory s root)).join Key.indexFile =
      index directory s root := by
    rw [hkey, Key.exactPath_between hr hloc, index, ht]
  rw [Location.between_of_above h] at hkey
  obtain ⟨hdir, hcand⟩ := Key.candidates_replicate_up root (root.location.length - loc.length)
  rw [← hkey] at hdir hcand
  rw [hindex] at hcand
  rw [← List.nil_append [index directory s root]] at hcand
  refine ⟨hdir, (Key.means_iff_of_append hcand List.not_mem_nil).mpr ?_⟩
  simp

/-- The files that are taken for a path that may name a file, before its index. -/
def beside (p : Path) : List Path :=
  (if p.extension?.isSome then [p] else []) ++ [⟨p.text ++ ".js"⟩]

/-- Any other way is that of a file. -/
theorem candidates_of_not_above (hr : root.isAbsolute = true) (hb : ¬ s.isBare = true)
    (hl : s.lacksExtension = false) (hloc : Location.IsProper (loc ++ [n]))
    (ht : target directory s root = Path.ofLocation (loc ++ [n]))
    (h : ¬ loc ++ [n] <+: root.location) :
    (resolve directory s root).isDirectory = false ∧
      Key.candidates root (resolve directory s root) =
        if (target directory s root).text.endsWith ".js" then [target directory s root]
        else beside (target directory s root) ++ [index directory s root] := by
  have hn := hloc.last
  have hext := Key.proper_append_js hn.no_slash
  have hfile := Location.isMove_of_mem_between_append root.location
    (Location.isProper_move (c := name (n ++ ".js")) hloc.front hext)
  have hexact : Key.exactPath root (Key.ofMoves (root.location.between loc ++ [name n])) =
      Path.ofLocation (loc ++ [n]) := by
    rw [← Location.between_append_name h, Key.exactPath_between hr hloc]
  have hbeside :
      Key.exactPath root (Key.ofMoves (root.location.between loc ++ [name (n ++ ".js")])) =
        ⟨(Path.ofLocation (loc ++ [n])).text ++ ".js"⟩ := by
    rw [Path.text_ofLocation_append loc hn hext, Key.exactPath_ofMoves hr hfile,
      Location.follow_append, Location.follow_between]
    rfl
  obtain ⟨hdir, hcand⟩ :=
    Key.candidates_append_name root (Location.isMove_of_mem_between_append root.location hloc)
  obtain ⟨a, ha⟩ := Path.exists_text_ofLocation_append loc hn
  have hend : (Path.ofLocation (loc ++ [n])).text.endsWith ".js" = n.endsWith ".js" := by
    rw [ha, Key.endsWith_js_append_slash]
  rw [resolve_of_target hr hb hloc ht, if_neg (by simp [hl]), Location.between_append_name h, hcand,
    hexact, hbeside, index, ht, beside, Path.extension?_ofLocation_append hloc, hend,
    List.append_assoc]
  exact ⟨hdir, rfl⟩

/-- The index of a directory is neither its path nor the path of a file beside it. -/
theorem index_not_mem_beside (hloc : Location.IsProper (loc ++ [n]))
    (ht : target directory s root = Path.ofLocation (loc ++ [n])) :
    target directory s root ≠ index directory s root ∧
      index directory s root ∉ beside (target directory s root) := by
  have hindex : Location.IsProper (loc ++ [n] ++ ["index.js"]) :=
    Location.isProper_move (c := name _) hloc proper_index
  have hext := Key.proper_append_js hloc.last.no_slash
  have hfile : Location.IsProper (loc ++ [n ++ ".js"]) :=
    Location.isProper_move (c := name _) hloc.front hext
  have hself : target directory s root ≠ index directory s root := by
    rw [index_of_target ht, ht]
    intro heq
    simpa using Path.ofLocation_injective hloc hindex heq
  have hjs : index directory s root ≠ ⟨(target directory s root).text ++ ".js"⟩ := by
    rw [index_of_target ht, ht, Path.text_ofLocation_append loc hloc.last hext]
    intro heq
    have := Path.ofLocation_injective hindex hfile heq
    simp at this
  refine ⟨hself, ?_⟩
  rw [beside]
  split_ifs
  · simp [hself.symm, hjs]
  · simp [hjs]

/-- A way that ends in the name of the directory is completed like the name of a file. -/
theorem means_of_not_above (hr : root.isAbsolute = true) (hb : ¬ s.isBare = true)
    (hl : s.lacksExtension = false)
    (h : ¬ (target directory s root).location <+: root.location) (t : FileTree) :
    (resolve directory s root).isDirectory = false ∧
      (Key.Means t root (resolve directory s root) (index directory s root) ↔
        if (target directory s root).text.endsWith ".js" then
          t.isFile (target directory s root) = false ∧ t.isFile (index directory s root) = false
        else ∀ p ∈ beside (target directory s root), t.isFile p = false) := by
  obtain ⟨loc, hloc, ht⟩ := target_eq hr directory s
  rw [ht, Path.location_ofLocation hloc] at h
  rcases List.eq_nil_or_concat loc with rfl | ⟨front, n, rfl⟩
  · exact absurd List.nil_prefix h
  rw [List.concat_eq_append] at hloc ht h
  obtain ⟨hdir, hcand⟩ := candidates_of_not_above hr hb hl hloc ht h
  obtain ⟨hself, hbeside⟩ := index_not_mem_beside hloc ht
  refine ⟨hdir, ?_⟩
  split_ifs at hcand ⊢
  · exact Key.means_iff_of_singleton hcand hself
  · exact Key.means_iff_of_append hcand hbeside

/-- The key of a specifier that names a directory names one itself just when the specifier leads
to the root or above it and no `.` behind a name hides this. Then the index is loaded whenever it
is there, and no other file is. Any other key is completed like the name of a file: when it ends in
`.js` the index is never loaded, and otherwise the files beside the directory come first. -/
theorem resolve_directory (hr : root.isAbsolute = true) (directory : Path)
    (hs : NamesDirectory s) (t : FileTree) :
    ((resolve directory s root).isDirectory = true ↔
      s.lacksExtension = false ∧ (target directory s root).location <+: root.location) ∧
    (Key.Means t root (resolve directory s root) (index directory s root) ↔
      if s.lacksExtension then
        t.isFile (Key.exactPath root (resolve directory s root)) = false ∧
          t.isFile (index directory s root) = false
      else (target directory s root).location <+: root.location ∨
        if (target directory s root).text.endsWith ".js" then
          t.isFile (target directory s root) = false ∧ t.isFile (index directory s root) = false
        else ∀ p ∈ beside (target directory s root), t.isFile p = false) := by
  have hb := hs.not_isBare
  cases hl : s.lacksExtension with
  | true =>
    obtain ⟨hdir, hmeans⟩ := means_of_lacksExtension hr directory hb hl t
    exact ⟨by simp [hdir], by simpa using hmeans⟩
  | false =>
    by_cases h : (target directory s root).location <+: root.location
    · obtain ⟨hdir, hmeans⟩ := means_of_above hr hb hl h t
      exact ⟨by simp [hdir, h], by simp [hmeans, h]⟩
    · obtain ⟨hdir, hmeans⟩ := means_of_not_above hr hb hl h t
      exact ⟨by simp [hdir, h], by simpa [h] using hmeans⟩

/-- A directory with an index, and files beside it. -/
def library (files : List String) : FileTree :=
  ⟨[(["p"], .directory), (["p", "lib"], .directory),
    (["p", "lib", "index.js"], .file "exports.b = 2;".toUTF8)] ++
      files.map fun f => (["p", f], .file "exports.a = 1;".toUTF8)⟩

theorem resolve_directory_library :
    Path.isAbsolute ⟨"/p"⟩ = true ∧ NamesDirectory "./lib/" ∧
      Key.Means (library ["main.js"]) ⟨"/p"⟩ (resolve ⟨"./lib/a"⟩ ".." ⟨"/p"⟩)
        ⟨"/p/lib/index.js"⟩ ∧
      Key.Means (library ["main.js"]) ⟨"/p"⟩ (resolve ⟨"."⟩ "./lib/" ⟨"/p"⟩)
        ⟨"/p/lib/index.js"⟩ := by
  have hr : Path.isAbsolute ⟨"/p"⟩ = true := by decide
  have hs : NamesDirectory "./lib/" := by decide
  have hup := (resolve_directory hr ⟨"./lib/a"⟩ (s := "..") (by decide)
    (library ["main.js"])).2.mpr (by decide +kernel)
  have hlib := (resolve_directory hr ⟨"."⟩ hs (library ["main.js"])).2.mpr (by decide +kernel)
  rw [show index ⟨"./lib/a"⟩ ".." ⟨"/p"⟩ = ⟨"/p/lib/index.js"⟩ by decide +kernel] at hup
  rw [show index ⟨"."⟩ "./lib/" ⟨"/p"⟩ = ⟨"/p/lib/index.js"⟩ by decide +kernel] at hlib
  exact ⟨hr, hs, hup, hlib⟩

/-- The file that has the name of a directory is loaded in its place. -/
theorem not_resolve_directory :
    Path.isAbsolute ⟨"/p"⟩ = true ∧ NamesDirectory "./lib/" ∧
      index ⟨"."⟩ "./lib/" ⟨"/p"⟩ = ⟨"/p/lib/index.js"⟩ ∧
      (library ["lib.js"]).isFile ⟨"/p/lib/index.js"⟩ = true ∧
      Key.file (library ["lib.js"]) ⟨"/p"⟩ (resolve ⟨"."⟩ "./lib/" ⟨"/p"⟩) =
        .ok ⟨"/p/lib.js"⟩ := by
  refine ⟨by decide, by decide, by decide +kernel, by decide +kernel, ?_⟩
  rw [Key.file_eq_ok_iff]
  decide +kernel

end Specifier

end Bundler
