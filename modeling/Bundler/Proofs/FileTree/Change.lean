import Bundler.Proofs.Path.Reading

/-! Files after a change. A file is written or moved to a place that is no directory, so every
directory stays one and paths lead where they led before; what can be read at the place is what
was written there, and everywhere else it is what it was. -/
namespace Bundler

/-- What succeeds has succeeded so far. -/
theorem exists_of_bind_eq_ok {ε α β : Type} {x : Except ε α} {f : α → Except ε β} {b : β}
    (h : x >>= f = .ok b) : ∃ a, x = .ok a ∧ f a = .ok b := by
  cases x with
  | error e => cases h
  | ok a => exact ⟨a, rfl, h⟩

namespace FileTree

variable {t t' : FileTree} {p q : Path} {loc target d : Location} {n : String} {e : Entry}
  {b content : ByteArray}

/-! ### Places -/

theorem get?_of_ne_nil (t : FileTree) (h : loc ≠ []) : t.get? loc = t.entries.lookup loc := by
  rw [get?, if_neg (by simpa using h)]

theorem get?_erase_of_ne (h : loc ≠ target) : (t.erase target).get? loc = t.get? loc := by
  rcases eq_or_ne loc [] with rfl | hne
  · rfl
  rw [get?_of_ne_nil _ hne, get?_of_ne_nil _ hne, erase]
  induction t.entries with
  | nil => rfl
  | cons x xs ih =>
    obtain ⟨l, e⟩ := x
    by_cases hl : l = target
    · have hlookup : List.lookup loc ((l, e) :: xs) = xs.lookup loc := by
        rw [List.lookup_cons, beq_eq_false_iff_ne.mpr (hl ▸ h)]
      rw [List.filter_cons_of_neg (by simpa using hl), ih, hlookup]
    · rw [List.filter_cons_of_pos (by simpa using hl), List.lookup_cons, List.lookup_cons, ih]

theorem get?_put_of_ne (h : loc ≠ target) : (t.put target e).get? loc = t.get? loc := by
  rw [← get?_erase_of_ne (t := t) h]
  rcases eq_or_ne loc [] with rfl | hne
  · rfl
  rw [get?_of_ne_nil _ hne, get?_of_ne_nil _ hne, put, List.lookup_append]
  simp [List.lookup_cons, beq_eq_false_iff_ne.mpr h]

theorem get?_put_self (h : loc ≠ []) : (t.put loc e).get? loc = some e := by
  have hnone : (t.erase loc).entries.lookup loc = none := by
    rw [List.lookup_eq_none_iff]
    intro x hx
    have hne : x.1 ≠ loc := by simpa using (List.mem_filter.mp hx).2
    simpa using hne.symm
  rw [get?_of_ne_nil _ h, put, List.lookup_append, hnone]
  simp

/-! ### Walks after a change -/

theorem walk_cons (t : FileTree) (loc : Location) (s : String) (ss : List String) :
    t.walk loc (s :: ss) = (t.walk loc [s]).bind (t.walk · ss) := by
  simp only [walk]
  cases t.get? loc with
  | none => rfl
  | some e =>
    cases e with
    | file b => rfl
    | directory =>
      simp only
      split_ifs
      · rfl
      · rfl
      · rfl
      · cases t.get? (loc ++ [s]) <;> rfl

theorem walk_append (t : FileTree) (loc : Location) (as bs : List String) :
    t.walk loc (as ++ bs) = (t.walk loc as).bind (t.walk · bs) := by
  induction as generalizing loc with
  | nil => rfl
  | cons s ss ih =>
    rw [List.cons_append, walk_cons, walk_cons t loc s ss]
    cases t.walk loc [s] with
    | error e => rfl
    | ok mid => exact ih mid

theorem directory_of_walk {s : String} (h : t.walk loc [s] = .ok target) :
    t.get? loc = some .directory := by
  rw [walk] at h
  split at h
  · cases h
  · cases h
  · assumption

/-- A walk passes directories only, so it takes no other way while these stay directories. -/
theorem walk_of_directories {ss : List String}
    (hkeep : ∀ l, t.get? l = some .directory → t'.get? l = some .directory)
    (htarget : (t.get? target).isSome → (t'.get? target).isSome)
    (h : t.walk loc ss = .ok target) : t'.walk loc ss = .ok target := by
  induction ss using List.reverseRecOn generalizing target with
  | nil => exact h
  | append_singleton ss s ih =>
    rw [walk_append] at h
    obtain ⟨mid, hss, hs⟩ := exists_of_bind_eq_ok h
    have hmid := directory_of_walk hs
    rw [walk_append, ih (fun _ => by simp [hkeep mid hmid]) hss]
    change t'.walk mid [s] = .ok target
    rw [walk, hmid] at hs
    rw [walk, hkeep mid hmid]
    simp only at hs ⊢
    split_ifs at hs ⊢ with hhere hup hlong
    · exact hs
    · exact hs
    · cases hnext : t.get? (mid ++ [s]) with
      | none =>
        rw [hnext] at hs
        cases hs
      | some e =>
        rw [hnext] at hs
        cases hs
        obtain ⟨e', he'⟩ := Option.isSome_iff_exists.mp (htarget (by simp [hnext]))
        rw [he']
        rfl

theorem locate_of_directories
    (hkeep : ∀ l, t.get? l = some .directory → t'.get? l = some .directory)
    (htarget : (t.get? target).isSome → (t'.get? target).isSome)
    (h : t.locate p = .ok target) : t'.locate p = .ok target := by
  rw [locate] at h ⊢
  split_ifs at h ⊢
  exact walk_of_directories hkeep htarget h

/-! ### Names in directories -/

/-- The path is a name in a directory that is there; the name may be free. -/
structure Names (t : FileTree) (p : Path) (d : Location) (n : String) : Prop where
  text : p.text ≠ ""
  noNul : '\x00' ∉ p.text.toList
  segments : ∃ ss, p.segments = ss ++ [n] ∧ t.walk [] ss = .ok d
  directory : t.get? d = some .directory
  proper : n ≠ "" ∧ n ≠ "." ∧ n ≠ ".."
  short : n.utf8ByteSize ≤ maxName

theorem names_of_slot (h : t.slot p = .ok (.name d n false)) : t.Names p d n := by
  rw [slot] at h
  split_ifs at h with htext hnul
  simp only at h
  split at h
  · cases h
  rename_i last hlast
  obtain ⟨directory, hwalk, hslot⟩ := exists_of_bind_eq_ok h
  split at hslot
  · rename_i hdirectory
    split_ifs at hslot with hdot hlong
    · cases hslot
    · obtain ⟨rfl, rfl, hslash⟩ := Slot.name.inj (Except.ok.inj hslot)
      rcases List.eq_nil_or_concat p.segments with hnil | ⟨ss, s, hss⟩
      · simp [hnil] at hlast
      · rw [List.concat_eq_append] at hss
        have hs : s ≠ "" := by simpa [hss] using hslash
        have hfront : (p.segments.reverse.dropWhile (· == "")).reverse = ss ++ [s] := by
          rw [hss, List.reverse_append, List.reverse_singleton, List.singleton_append,
            List.dropWhile_cons_of_neg (by simpa using hs), List.reverse_cons, List.reverse_reverse]
        rw [hfront, List.dropLast_concat] at hwalk
        obtain rfl : s = last := by simpa [hfront] using hlast
        refine ⟨by simpa using htext, by simpa using hnul, ⟨ss, hss, hwalk⟩, hdirectory,
          ⟨hs, ?_⟩, Nat.not_lt.mp hlong⟩
        simpa using hdot
  · cases hslot
  · cases hslot

theorem Names.keep (hkeep : ∀ l, t.get? l = some .directory → t'.get? l = some .directory)
    (h : t.Names p d n) : t'.Names p d n where
  text := h.text
  noNul := h.noNul
  segments := by
    obtain ⟨ss, hss, hwalk⟩ := h.segments
    exact ⟨ss, hss, walk_of_directories hkeep (fun _ => by simp [hkeep d h.directory]) hwalk⟩
  directory := hkeep d h.directory
  proper := h.proper
  short := h.short

theorem Names.locate_eq (h : t.Names p d n) (he : t.get? (d ++ [n]) = some e) :
    t.locate p = .ok (d ++ [n]) := by
  obtain ⟨ss, hss, hwalk⟩ := h.segments
  obtain ⟨hne, hhere, hup⟩ := h.proper
  rw [locate, if_neg (by simpa using h.text), if_neg (by simpa using h.noNul), hss, walk_append, hwalk]
  change t.walk d [n] = _
  rw [walk, h.directory]
  simp only
  rw [if_neg (by simp [hne, hhere]), if_neg (by simpa using hup),
    if_neg (Nat.not_lt.mpr h.short), he]
  rfl

theorem Names.eq_location (h : t.Names p d n) : d ++ [n] = p.location := by
  have hput : (t.put (d ++ [n]) .directory).Names p d n := by
    refine h.keep fun l hl => ?_
    rcases eq_or_ne l (d ++ [n]) with rfl | hne
    · exact get?_put_self (by simp)
    · rw [get?_put_of_ne hne, hl]
  exact locate_eq_ok (hput.locate_eq (get?_put_self (by simp)))

/-! ### Writing -/

/-- A new entry at a place that is no directory leaves all directories where they are. -/
theorem directory_put (hopen : t.get? target ≠ some .directory)
    (h : t.get? loc = some .directory) : (t.put target e).get? loc = some .directory := by
  have hne : loc ≠ target := by
    rintro rfl
    exact hopen h
  rw [get?_put_of_ne hne, h]

theorem read_put (h : t.Names p d n) (hopen : t.get? p.location ≠ some .directory) :
    (t.put p.location (.file content)).read p = .ok content := by
  have hself : (t.put p.location (.file content)).get? p.location = some (.file content) :=
    get?_put_self (by simp [← h.eq_location])
  have hlocate := (h.keep fun l hl => directory_put hopen hl).locate_eq (e := .file content)
    (by rw [h.eq_location, hself])
  rw [read, hlocate, h.eq_location]
  simp only [hself]

/-- Writing puts the content where the path leads, which is a name in a directory. -/
theorem write_eq_ok (h : t.write p content = .ok t') :
    ∃ d n, t.Names p d n ∧ t.get? p.location ≠ some .directory ∧
      t' = t.put p.location (.file content) := by
  obtain ⟨s, hslot, h⟩ := exists_of_bind_eq_ok h
  split at h
  · cases h
  rename_i d n slash
  simp only at h
  split at h
  · cases h
  rename_i hopen
  split_ifs at h with hslash
  obtain rfl : slash = false := by simpa using hslash
  have hnames := names_of_slot hslot
  rw [← hnames.eq_location]
  exact ⟨d, n, hnames, hopen, (Except.ok.inj h).symm⟩

theorem read_write (h : t.write p content = .ok t') : t'.read p = .ok content := by
  obtain ⟨d, n, hnames, hopen, rfl⟩ := write_eq_ok h
  exact read_put hnames hopen

theorem get?_of_read (h : t.read p = .ok b) :
    t.locate p = .ok p.location ∧ t.get? p.location = some (.file b) := by
  rw [read] at h
  split at h
  · cases h
  rename_i loc hloc
  obtain rfl := locate_eq_ok hloc
  split at h
  · rename_i hget
    cases h
    exact ⟨hloc, hget⟩
  · cases h
  · cases h

/-- A file can be read after another was written, and has a new content only when it is the one
that was written. -/
theorem read_write_of_read (h : t.write p content = .ok t') (hq : t.read q = .ok b) :
    t'.read q = .ok (if q.location = p.location then content else b) := by
  obtain ⟨d, n, hnames, hopen, rfl⟩ := write_eq_ok h
  obtain ⟨hlocate, hget⟩ := get?_of_read hq
  have hnew : (t.put p.location (.file content)).get? q.location =
      some (.file (if q.location = p.location then content else b)) := by
    split_ifs with heq
    · rw [heq]
      exact get?_put_self (by simp [← hnames.eq_location])
    · rw [get?_put_of_ne heq, hget]
  rw [read, locate_of_directories (fun l hl => directory_put hopen hl) (fun _ => by simp [hnew])
    hlocate]
  simp only [hnew]

/-! ### Moving -/

theorem directory_erase (hfile : t.get? target = some (.file b))
    (h : t.get? loc = some .directory) : (t.erase target).get? loc = some .directory := by
  have hne : loc ≠ target := by
    rintro rfl
    rw [hfile] at h
    cases h
  rw [get?_erase_of_ne hne, h]

/-- Moving a file puts its content where the other path leads. -/
theorem rename_eq_ok (h : t.rename p q = .ok t') :
    ∃ d n content, t.Names q d n ∧ t.get? q.location ≠ some .directory ∧
      t.read p = .ok content ∧ t' = if q.location = p.location then t
        else (t.erase p.location).put q.location (.file content) := by
  obtain ⟨old, hold, h⟩ := exists_of_bind_eq_ok h
  obtain ⟨content, hcontent, h⟩ := exists_of_bind_eq_ok h
  obtain ⟨s, hslot, h⟩ := exists_of_bind_eq_ok h
  obtain rfl := locate_eq_ok hold
  split at h
  · cases h
  rename_i d n slash
  cases slash with
  | true => cases h
  | false =>
    have hnames := names_of_slot hslot
    simp only [hnames.eq_location, Bool.false_eq_true, if_false, beq_iff_eq] at h
    split at h
    · cases h
    rename_i hopen
    refine ⟨d, n, content, hnames, hopen, hcontent, ?_⟩
    split_ifs at h ⊢
    · exact (Except.ok.inj h).symm
    · exact (Except.ok.inj h).symm

/-- A file that was moved is read where it went. -/
theorem read_rename (h : t.rename p q = .ok t') : t'.read q = t.read p := by
  obtain ⟨d, n, content, hnames, hopen, hcontent, rfl⟩ := rename_eq_ok h
  obtain ⟨-, hfile⟩ := get?_of_read hcontent
  rw [hcontent]
  split_ifs with heq
  · have hget : t.get? (d ++ [n]) = some (.file content) := by rw [hnames.eq_location, heq, hfile]
    rw [read, hnames.locate_eq hget]
    simp only [hget]
  · refine read_put (hnames.keep fun l hl => directory_erase hfile hl) ?_
    rwa [get?_erase_of_ne heq]

end FileTree
end Bundler
