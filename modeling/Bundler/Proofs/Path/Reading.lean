import Bundler.Proofs.Path.Location

/-! Reading files by their paths. There are no links, so a path that leads to anything leads
to its location, whatever is on the way. -/
namespace Bundler

open Component

namespace FileTree

variable {t : FileTree} {p : Path} {loc target : Location} {b : ByteArray}

theorem walk_eq_ok {ss : List String} (h : t.walk loc ss = .ok target) :
    target = loc.follow ((ss.filterMap ofSegment?).filter (· != .here)) := by
  induction ss generalizing loc with
  | nil =>
    cases h
    rfl
  | cons s ss ih =>
    rw [walk] at h
    split at h
    · cases h
    · cases h
    split_ifs at h with hhere hup hlong
    · rw [ih h]
      rw [Bool.or_eq_true, beq_iff_eq, beq_iff_eq] at hhere
      rcases hhere with rfl | rfl <;> rfl
    · rw [beq_iff_eq] at hup
      rw [ih h, hup]
      rfl
    · split at h
      · cases h
      rw [Bool.not_eq_true, Bool.or_eq_false_iff, beq_eq_false_iff_ne, beq_eq_false_iff_ne] at hhere
      have hname : ofSegment? s = some (name s) := by
        simp [ofSegment?, hhere.1, hhere.2, show s ≠ ".." by simpa using hup]
      rw [ih h, List.filterMap_cons_some hname]
      rfl

theorem locate_eq_ok (h : t.locate p = .ok target) : target = p.location := by
  rw [locate] at h
  split_ifs at h
  exact walk_eq_ok h

theorem read_eq_ok (h : t.read p = .ok b) : (p.location, .file b) ∈ t.entries := by
  rw [read] at h
  split at h
  · cases h
  rename_i target htarget
  obtain rfl := locate_eq_ok htarget
  split at h
  · rename_i hget
    cases h
    rw [get?] at hget
    split_ifs at hget
    · cases hget
    · obtain ⟨front, back, hentries, -⟩ := List.lookup_eq_some_iff.mp hget
      rw [hentries]
      simp
  · cases h
  · cases h

theorem isFile_iff : t.isFile p = true ↔ ∃ b, t.read p = .ok b := by
  rw [isFile, stat?, read]
  cases t.locate p with
  | error e => simp
  | ok target =>
    simp only
    cases t.get? target with
    | none => simp
    | some e => cases e <;> simp

/-! ### Trees with the same files -/

variable {top top' : Location} {entries : List (Location × Entry)} {ds ds' : List Location}

/-- These files can be read below this directory. -/
def Shows (t : FileTree) (top : Location) (files : List (Location × ByteArray)) : Prop :=
  ∀ f ∈ files, t.read (Path.ofLocation (top ++ f.1)) = .ok f.2

instance (files : List (Location × ByteArray)) : Decidable (t.Shows top files) :=
  inferInstanceAs (Decidable (∀ f ∈ files, _))

/-- Files and directories below one directory, beside some other directories. -/
def placed (ds : List Location) (top : Location) (entries : List (Location × Entry)) : FileTree :=
  ⟨ds.map (·, .directory) ++ entries.map fun e => (top ++ e.1, e.2)⟩

theorem mem_files_of_read_placed (ht : top.IsProper) (hl : loc.IsProper)
    (h : (placed ds top entries).read (Path.ofLocation (top ++ loc)) = .ok b) :
    (loc, b) ∈ (FileTree.mk entries).files := by
  have hproper : (top ++ loc).IsProper := fun s hs => (List.mem_append.mp hs).elim (ht s) (hl s)
  have hentry := read_eq_ok h
  rw [Path.location_ofLocation hproper] at hentry
  rcases List.mem_append.mp hentry with hentry | hentry
  · obtain ⟨d, -, hd⟩ := List.mem_map.mp hentry
    cases hd
  · obtain ⟨⟨loc', e⟩, he, heq⟩ := List.mem_map.mp hentry
    obtain ⟨hloc, rfl⟩ := Prod.mk.injEq .. ▸ heq
    obtain rfl := List.append_cancel_left hloc
    exact List.mem_filterMap.mpr ⟨_, he, rfl⟩

/-- The same files are the same wherever they are placed, if they can be read at all. -/
theorem read_placed (ht : top.IsProper) (ht' : top'.IsProper)
    (h : (placed ds top entries).Shows top (FileTree.mk entries).files)
    (h' : (placed ds' top' entries).Shows top' (FileTree.mk entries).files) (hl : loc.IsProper) :
    (placed ds' top' entries).read (Path.ofLocation (top' ++ loc)) = .ok b ↔
      (placed ds top entries).read (Path.ofLocation (top ++ loc)) = .ok b :=
  ⟨fun hb => h _ (mem_files_of_read_placed ht' hl hb),
    fun hb => h' _ (mem_files_of_read_placed ht hl hb)⟩

end FileTree
end Bundler
