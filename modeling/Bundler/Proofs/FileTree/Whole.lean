import Bundler.Compiler
import Bundler.Proofs.FileTree.Change

/-! What writing a file as a whole does to all files. Of its three steps the first makes nothing
but directories and the second writes the temporary file. Only the third can find out that the
path itself takes no file, and then the temporary file stays behind. -/
namespace Bundler

namespace FileTree

variable {t t' made written : FileTree} {p q : Path} {loc target d : Location} {n : String}
  {e : BuildError} {b content : ByteArray}

/-- The content of the file at a location. -/
def content? (t : FileTree) (loc : Location) : Option ByteArray :=
  match t.get? loc with
  | some (.file b) => some b
  | _ => none

/-- The trees have the same files with the same content. Their directories may differ. -/
def SameFiles (t t' : FileTree) : Prop := ∀ loc, t'.content? loc = t.content? loc

theorem content?_congr (h : t'.get? loc = t.get? loc) : t'.content? loc = t.content? loc := by
  rw [content?, h, content?]

theorem content?_eq_some : t.content? loc = some b ↔ t.get? loc = some (.file b) := by
  rw [content?]
  split <;> simp_all

theorem content?_put (h : target ≠ []) (loc : Location) :
    (t.put target (.file b)).content? loc = if loc = target then some b else t.content? loc := by
  split_ifs with heq
  · rw [heq, content?_eq_some]
    exact get?_put_self h
  · exact content?_congr (get?_put_of_ne heq)

theorem content?_erase (h : t.get? target = some (.file b)) (loc : Location) :
    (t.erase target).content? loc = if loc = target then none else t.content? loc := by
  split_ifs with heq
  · have hne : target ≠ [] := by
      rintro rfl
      cases h
    rw [heq, content?, get?_of_ne_nil _ hne, erase, List.lookup_eq_none_iff.mpr]
    intro x hx
    have hx' : x.1 ≠ target := by simpa using (List.mem_filter.mp hx).2
    simpa using hx'.symm
  · exact content?_congr (get?_erase_of_ne heq)

/-! ### Making directories -/

theorem SameFiles.put_directory (h : t.get? target = none) :
    SameFiles t (t.put target .directory) := by
  intro loc
  rcases eq_or_ne loc target with rfl | hne
  · have htarget : loc ≠ [] := by
      rintro rfl
      cases h
    rw [content?, get?_put_self htarget, content?, h]
  · exact content?_congr (get?_put_of_ne hne)

theorem makeDirectory_sameFiles (h : t.makeDirectory p = .ok t') : SameFiles t t' := by
  obtain ⟨s, -, h⟩ := exists_of_bind_eq_ok h
  split at h
  · cases h
  split at h
  · cases h
  · rename_i hfree
    cases h
    exact .put_directory hfree

theorem finishDirectory_sameFiles (t : FileTree) (p : Path) :
    SameFiles t (t.finishDirectory p).1 := by
  rw [finishDirectory]
  split
  · exact makeDirectory_sameFiles ‹_›
  · split_ifs <;> exact fun _ => rfl

theorem SameFiles.trans (h : SameFiles t made) (h' : SameFiles made t') : SameFiles t t' :=
  fun loc => (h' loc).trans (h loc)

theorem makeDirectories_sameFiles (fuel : ℕ) (t : FileTree) (p : Path) :
    SameFiles t (makeDirectories fuel t p).1 := by
  induction fuel generalizing p with
  | zero => exact fun _ => rfl
  | succ fuel ih =>
    rw [makeDirectories]
    split
    · exact fun _ => rfl
    split
    · exact makeDirectory_sameFiles ‹_›
    · split
      · exact fun _ => rfl
      rename_i parent _
      have hparent := ih parent
      split
      · rename_i hmade
        rwa [hmade] at hparent
      · rename_i hmade
        rw [hmade] at hparent
        exact hparent.trans (finishDirectory_sameFiles _ p)
    · split_ifs <;> exact fun _ => rfl

/-- Makes the directories that a file at the path lies in. -/
def makeParents (t : FileTree) (p : Path) : FileTree × Option FileError :=
  match p.parent? with
  | none => (t, none)
  | some d => t.makeAll d

theorem makeParents_sameFiles (t : FileTree) (p : Path) : SameFiles t (t.makeParents p).1 := by
  rw [makeParents]
  split
  · exact fun _ => rfl
  · exact makeDirectories_sameFiles _ _ _

/-! ### Paths that take a file -/

/-- A file can be put where the path leads: that is a name in a directory, and no directory. -/
def Receives (t : FileTree) (p : Path) : Prop :=
  ∃ d n, t.Names p d n ∧ t.get? p.location ≠ some .directory

theorem Names.slot_eq (h : t.Names p d n) : t.slot p = .ok (.name d n false) := by
  obtain ⟨ss, hss, hwalk⟩ := h.segments
  obtain ⟨hne, hhere, hup⟩ := h.proper
  have hfront : (p.segments.reverse.dropWhile (· == "")).reverse = ss ++ [n] := by
    rw [hss, List.reverse_append, List.reverse_singleton, List.singleton_append,
      List.dropWhile_cons_of_neg (by simpa using hne), List.reverse_cons, List.reverse_reverse]
  rw [slot, if_neg (by simpa using h.text), if_neg (by simpa using h.noNul)]
  simp only [hfront, List.getLast?_concat, List.dropLast_concat, hwalk, bind, Except.bind,
    h.directory]
  rw [hss, if_neg (by simp [hhere, hup]), if_neg (Nat.not_lt.mpr h.short), List.getLast?_concat]
  simp [hne, pure, Except.pure]

theorem write_of_receives (h : t.Receives p) (content : ByteArray) :
    t.write p content = .ok (t.put p.location (.file content)) := by
  obtain ⟨d, n, hnames, hopen⟩ := h
  rw [← hnames.eq_location] at hopen ⊢
  rw [write, hnames.slot_eq]
  simp only [bind, Except.bind]
  split
  · contradiction
  · rfl

theorem receives_of_write (h : t.write p content = .ok t') : t.Receives p := by
  obtain ⟨d, n, hnames, hopen, -⟩ := write_eq_ok h
  exact ⟨d, n, hnames, hopen⟩

/-- A path that takes a file is one that can be written to. -/
theorem isOk_write_iff (content : ByteArray) : (t.write p content).isOk = true ↔ t.Receives p := by
  constructor
  · intro h
    cases hwrite : t.write p content with
    | error failure =>
      rw [hwrite] at h
      cases h
    | ok written => exact receives_of_write hwrite
  · intro h
    rw [write_of_receives h]
    rfl

instance (t : FileTree) (p : Path) : Decidable (t.Receives p) :=
  decidable_of_iff _ (isOk_write_iff ByteArray.empty)

theorem exists_rename_of_receives (h : t.Receives p) (hread : t.read q = .ok b) :
    ∃ t', t.rename q p = .ok t' := by
  obtain ⟨d, n, hnames, hopen⟩ := h
  rw [← hnames.eq_location] at hopen
  rw [rename, (get?_of_read hread).1, hread, hnames.slot_eq]
  simp only [bind, Except.bind, Bool.false_eq_true, if_false]
  split <;> exact ⟨_, rfl⟩

theorem receives_of_rename (h : t.rename q p = .ok t') : t.Receives p := by
  obtain ⟨d, n, _, hnames, hopen, -⟩ := rename_eq_ok h
  exact ⟨d, n, hnames, hopen⟩

/-- A file that was written changes nothing about what other paths take. -/
theorem receives_put_iff (hq : t.Receives q) :
    (t.put q.location (.file b)).Receives p ↔ t.Receives p := by
  obtain ⟨d', n', hnames', hopen'⟩ := hq
  have hself : (t.put q.location (.file b)).get? q.location = some (.file b) :=
    get?_put_self (by simp [← hnames'.eq_location])
  have hdirectory (loc : Location) :
      (t.put q.location (.file b)).get? loc = some .directory ↔ t.get? loc = some .directory := by
    rcases eq_or_ne loc q.location with rfl | hne
    · simp [hself, hopen']
    · rw [get?_put_of_ne hne]
  constructor
  · rintro ⟨d, n, hnames, hopen⟩
    exact ⟨d, n, hnames.keep fun loc => (hdirectory loc).1, mt (hdirectory _).2 hopen⟩
  · rintro ⟨d, n, hnames, hopen⟩
    exact ⟨d, n, hnames.keep fun loc => (hdirectory loc).2, mt (hdirectory _).1 hopen⟩

/-! ### The temporary file -/

theorem Names.properName (h : t.Names p d n) : Component.Proper n := by
  obtain ⟨ss, hss, -⟩ := h.segments
  obtain ⟨hne, hhere, hup⟩ := h.proper
  exact ⟨hne, hhere, hup, p.segments_no_slash n (by simp [hss])⟩

/-- The name at the end of the path is its last component. -/
theorem Names.exists_components (h : t.Names p d n) : ∃ cs, p.components = cs ++ [.name n] := by
  obtain ⟨ss, hss, -⟩ := h.segments
  have hname := Component.ofSegment?_of_proper h.properName
  rw [Path.components, hss]
  cases ss with
  | nil => exact ⟨[], by simp [Path.isAbsolute_of_segments hss h.properName.ne_empty, hname]⟩
  | cons s ss =>
    have hlast : ((ss ++ [n]).filterMap Component.ofSegment?).filter (· != .here) =
        (ss.filterMap Component.ofSegment?).filter (· != .here) ++ [.name n] := by
      simp [List.filterMap_append, hname]
    rw [List.cons_append]
    dsimp only
    rw [hlast]
    split
    · exact ⟨_ :: _, rfl⟩
    split
    · exact ⟨_, rfl⟩
    · exact ⟨_ :: _, rfl⟩

theorem Names.fileName?_eq (h : t.Names p d n) : p.fileName? = some n := by
  obtain ⟨cs, hcs⟩ := h.exists_components
  rw [Path.fileName?, hcs, List.getLast?_concat]

theorem isMove_temporary (h : Component.Proper n) : (Component.name (n ++ ".tmp")).IsMove := by
  have hlength : 4 ≤ (n ++ ".tmp").toList.length := by simp
  refine ⟨?_, ?_, ?_, by simpa using h.no_slash⟩ <;> intro heq <;> rw [heq] at hlength <;>
    exact absurd hlength (by decide)

theorem Names.temporary_ne (h : t.Names p d n) : p.temporary.location ≠ p.location := by
  have hmove := isMove_temporary h.properName
  have hjoin : p.temporary.location = (p.parent?.getD p).location ++ [n ++ ".tmp"] := by
    rw [Path.temporary, h.fileName?_eq, Path.withFileName, h.fileName?_eq]
    change ((p.parent?.getD p).join ⟨(Component.name (n ++ ".tmp")).segment⟩).location = _
    rw [Path.location_join _ (Path.isAbsolute_segment hmove), Path.moves_segment hmove]
    rfl
  rw [hjoin, ← h.eq_location]
  intro heq
  have hname := (List.append_inj' heq rfl).2
  have htext := congrArg String.length (List.singleton_injective hname)
  simp at htext

/-! ### All three steps -/

theorem writeWhole_eq (t : FileTree) (p : Path) (content : ByteArray) :
    t.writeWhole p content = match t.makeParents p with
      | (made, some e) => (made, some (.file (p.parent?.getD p) e.message))
      | (made, none) => match made.write p.temporary content with
        | .error e => (made, some (.file p.temporary e.message))
        | .ok written => match written.rename p.temporary p with
          | .error e => (written, some (.file p e.message))
          | .ok moved => (moved, none) := by
  rw [writeWhole, makeParents]
  cases p.parent? with
  | none => rfl
  | some parent =>
    dsimp only
    rcases t.makeAll parent with ⟨made, _ | e⟩ <;> rfl

/-- The directories of the path can be made and the temporary file can be written there, but the
path itself takes no file. -/
def Blocked (t : FileTree) (p : Path) : Prop :=
  ∃ made, t.makeParents p = (made, none) ∧ made.Receives p.temporary ∧ ¬ made.Receives p

theorem blocked_iff (h : t.makeParents p = (made, none)) :
    t.Blocked p ↔ made.Receives p.temporary ∧ ¬ made.Receives p := by
  constructor
  · rintro ⟨made', hmade', hblocked⟩
    cases h.symm.trans hmade'
    exact hblocked
  · exact fun hblocked => ⟨made, h, hblocked⟩

theorem not_blocked_of_unmade {failure : FileError} (h : t.makeParents p = (made, some failure)) :
    ¬ t.Blocked p := by
  rintro ⟨made', hmade', -⟩
  cases h.symm.trans hmade'

instance (t : FileTree) (p : Path) : Decidable (t.Blocked p) :=
  match h : t.makeParents p with
  | (_, none) => decidable_of_iff _ (blocked_iff h).symm
  | (_, some _) => .isFalse (not_blocked_of_unmade h)

theorem content?_write (h : t.write p content = .ok written) (loc : Location) :
    written.content? loc = if loc = p.location then some content else t.content? loc := by
  obtain ⟨d, n, hnames, -, rfl⟩ := write_eq_ok h
  exact content?_put (by simp [← hnames.eq_location]) loc

theorem content?_rename (h : t.rename q p = .ok t') (hne : q.location ≠ p.location)
    (hloc : loc ≠ p.location) :
    t'.content? loc = if loc = q.location then none else t.content? loc := by
  obtain ⟨d, n, content, hnames, -, hread, rfl⟩ := rename_eq_ok h
  rw [if_neg hne.symm, content?_put (by simp [← hnames.eq_location]), if_neg hloc,
    content?_erase (get?_of_read hread).2]

/-- Whether the last step fails is settled before the temporary file is written. -/
theorem rename_temporary_isOk_iff (h : t.write p.temporary content = .ok written) :
    (∃ t', written.rename p.temporary p = .ok t') ↔ t.Receives p := by
  have hwritten : written.Receives p ↔ t.Receives p := by
    obtain ⟨d, n, hnames, hopen, rfl⟩ := write_eq_ok h
    exact receives_put_iff ⟨d, n, hnames, hopen⟩
  rw [← hwritten]
  constructor
  · rintro ⟨t', hrename⟩
    exact receives_of_rename hrename
  · exact fun hreceives => exists_rename_of_receives hreceives (read_write h)

/-- There are three ways for it to go: nothing is written, only the temporary file is, or the
file is. -/
theorem writeWhole_cases (t : FileTree) (p : Path) (content : ByteArray) :
    (∃ made e, t.writeWhole p content = (made, some e) ∧ ¬ t.Blocked p ∧ SameFiles t made) ∨
    (∃ written reason, t.writeWhole p content = (written, some (.file p reason)) ∧ t.Blocked p ∧
      ∀ loc, written.content? loc =
        if loc = p.temporary.location then some content else t.content? loc) ∨
    ∃ moved, t.writeWhole p content = (moved, none) ∧ ¬ t.Blocked p ∧
      moved.read p = .ok content ∧ ∀ loc, loc ≠ p.location →
        moved.content? loc = if loc = p.temporary.location then none else t.content? loc := by
  have hsame := t.makeParents_sameFiles p
  rw [writeWhole_eq]
  rcases hmade : t.makeParents p with ⟨made, _ | failure⟩
  case some =>
    rw [hmade] at hsame
    exact .inl ⟨made, _, rfl, not_blocked_of_unmade hmade, hsame⟩
  rw [hmade] at hsame
  rw [blocked_iff hmade]
  dsimp only
  cases hwrite : made.write p.temporary content with
  | error failure =>
    refine .inl ⟨made, _, rfl, ?_, hsame⟩
    rintro ⟨hreceives, -⟩
    cases hwrite.symm.trans (write_of_receives hreceives content)
  | ok written =>
    have hreceives := rename_temporary_isOk_iff hwrite
    have hcontent (loc : Location) : written.content? loc =
        if loc = p.temporary.location then some content else t.content? loc := by
      rw [content?_write hwrite, hsame]
    cases hrename : written.rename p.temporary p with
    | error failure =>
      refine .inr (.inl ⟨written, failure.message, by simp only [hrename], ?_, hcontent⟩)
      refine ⟨receives_of_write hwrite, fun htakes => ?_⟩
      obtain ⟨t', ht'⟩ := hreceives.2 htakes
      cases hrename.symm.trans ht'
    | ok moved =>
      have htakes := hreceives.1 ⟨moved, hrename⟩
      obtain ⟨d, n, hnames, -⟩ := receives_of_rename hrename
      refine .inr (.inr ⟨moved, by simp only [hrename], fun h => h.2 htakes, ?_, ?_⟩)
      · rw [read_rename hrename, read_write hwrite]
      · intro loc hloc
        rw [content?_rename hrename hnames.temporary_ne hloc]
        split_ifs with htemporary
        · rfl
        · rw [hcontent, if_neg htemporary]

/-- A file that is written as a whole is there, without the temporary one, and all other files are
what they were. When this fails all files are what they were, except that a path which takes no
file, though its directory does, leaves exactly the temporary file behind. -/
theorem writeWhole_files (t : FileTree) (p : Path) (content : ByteArray) :
    (∀ t', t.writeWhole p content = (t', none) → t'.read p = .ok content ∧
      ∀ loc, loc ≠ p.location →
        t'.content? loc = if loc = p.temporary.location then none else t.content? loc) ∧
    (∀ t' e, t.writeWhole p content = (t', some e) → ¬ t.Blocked p → SameFiles t t') ∧
    (t.Blocked p → ∃ t' reason, t.writeWhole p content = (t', some (.file p reason)) ∧
      ∀ loc, t'.content? loc =
        if loc = p.temporary.location then some content else t.content? loc) := by
  rcases t.writeWhole_cases p content with
    ⟨made, e, hwhole, hblocked, hsame⟩ | ⟨written, reason, hwhole, hblocked, hcontent⟩ |
      ⟨moved, hwhole, hblocked, hread, hcontent⟩ <;> rw [hwhole]
  · refine ⟨nofun, ?_, fun h => absurd h hblocked⟩
    rintro t' e' h -
    cases h
    exact hsame
  · exact ⟨nofun, fun _ _ _ h => absurd hblocked h, fun _ => ⟨written, reason, rfl, hcontent⟩⟩
  · refine ⟨?_, nofun, fun h => absurd h hblocked⟩
    intro t' h
    cases h
    exact ⟨hread, hcontent⟩

/-! ### One place, three trees -/

def script : Path := ⟨"/p/dist/bundle.js"⟩

/-- The file of an earlier write, and another one beside it. -/
def rebuilt : FileTree :=
  ⟨[(["p"], .directory), (["p", "dist"], .directory),
    (["p", "dist", "bundle.js"], .file "old".toUTF8), (["p", "main.js"], .file "1;".toUTF8)]⟩

/-- A file where a directory should be made. -/
def obstructed : FileTree := ⟨[(["p"], .directory), (["p", "dist"], .file "old".toUTF8)]⟩

/-- A directory where the file should be. -/
def occupied : FileTree :=
  ⟨[(["p"], .directory), (["p", "dist"], .directory), (["p", "dist", "bundle.js"], .directory)]⟩

theorem writeWhole_files_script :
    (∃ t', rebuilt.writeWhole script "new".toUTF8 = (t', none) ∧
      t'.read script = .ok "new".toUTF8 ∧ ∀ loc, loc ≠ script.location →
        t'.content? loc = if loc = script.temporary.location then none else rebuilt.content? loc) ∧
    (∃ t' e, obstructed.writeWhole script "new".toUTF8 = (t', some e) ∧ ¬ obstructed.Blocked script ∧
      SameFiles obstructed t') ∧
    occupied.Blocked script ∧
    ∃ t' reason, occupied.writeWhole script "new".toUTF8 = (t', some (.file script reason)) ∧
      ∀ loc, t'.content? loc =
        if loc = script.temporary.location then some "new".toUTF8 else occupied.content? loc := by
  refine ⟨?_, ?_, ?_⟩
  · have hnone : (rebuilt.writeWhole script "new".toUTF8).2 = none := by decide +kernel
    have hwhole := Prod.ext rfl hnone
    exact ⟨_, hwhole, (rebuilt.writeWhole_files script "new".toUTF8).1 _ hwhole⟩
  · have hblocked : ¬ obstructed.Blocked script := by decide +kernel
    have hsome : (obstructed.writeWhole script "new".toUTF8).2 =
      some (.file ⟨"/p/dist"⟩ FileError.alreadyExists.message) := by decide +kernel
    have hwhole := Prod.ext rfl hsome
    exact ⟨_, _, hwhole, hblocked,
      (obstructed.writeWhole_files script "new".toUTF8).2.1 _ _ hwhole hblocked⟩
  · have hblocked : occupied.Blocked script := by decide +kernel
    exact ⟨hblocked, (occupied.writeWhole_files script "new".toUTF8).2.2 hblocked⟩

/-- A write that fails can leave its temporary file behind. -/
theorem not_writeWhole_sameFiles :
    ¬ ∀ (t : FileTree) (p : Path) (content : ByteArray) (t' : FileTree) (e : BuildError),
      t.writeWhole p content = (t', some e) → SameFiles t t' := by
  intro h
  have hsome : (occupied.writeWhole script "new".toUTF8).2 =
    some (.file script FileError.isADirectory.message) := by decide +kernel
  have hleft : ((occupied.writeWhole script "new".toUTF8).1.content?
      ["p", "dist", "bundle.js.tmp"]).isSome = true := by decide +kernel
  generalize hwhole : occupied.writeWhole script "new".toUTF8 = r at hsome hleft
  obtain ⟨t', outcome⟩ := r
  dsimp only at hsome hleft
  rw [hsome] at hwhole
  rw [h _ _ _ _ _ hwhole] at hleft
  exact absurd hleft (by decide +kernel)

end FileTree
end Bundler
