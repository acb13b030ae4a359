import Bundler.JavaScript.CommonForm
import Bundler.Proofs.JavaScript.Literal

/-! What an access to a property denotes. The name of an export is a word or a literal, and so is
what stands behind a point or between brackets; both denote code units, and only one sequence of
them, since a literal can be read in one way. The access that is written for a name denotes that
name unless the name is a word with an escape in it, whose letters are quoted as they stand. -/
namespace Bundler.JavaScript

/-! ### One reading of a literal -/

namespace Piece

/-- What a character stands for behind a backslash, if it starts no number and is no line end. -/
def escapeValue (c : Char) : Char := if c = '0' then '\x00' else (singleEscapes.lookup c).getD c

/-- The first piece of a text and what is behind it. -/
def read : List Char → Option (Piece × List Char)
  | '\\' :: 'x' :: cs => (hexNumber? (cs.take 2)).map fun n => (.code n, cs.drop 2)
  | '\\' :: 'u' :: '{' :: cs =>
    (hexNumber? (cs.takeWhile (· != '}'))).map fun n => (.code n, (cs.dropWhile (· != '}')).tail)
  | '\\' :: 'u' :: cs => (hexNumber? (cs.take 4)).map fun n => (.code n, cs.drop 4)
  | '\\' :: '\r' :: '\n' :: cs => some (.continuation ['\r', '\n'], cs)
  | '\\' :: c :: cs =>
    some (if [c] ∈ lineEnds then .continuation [c] else .escape c (escapeValue c), cs)
  | '\r' :: '\n' :: cs => some (.lineEnd ['\r', '\n'], cs)
  | '\r' :: cs => some (.lineEnd ['\r'], cs)
  | c :: cs => some (.char c, cs)
  | [] => none

theorem escapeValue_single : ∀ e ∈ singleEscapes, escapeValue e.1 = e.2 := by decide

theorem escapeValue_itself {c : Char} (hc : c ∉ singleEscapes.map Prod.fst) (hzero : c ≠ '0') :
    escapeValue c = c := by
  have hnone : singleEscapes.lookup c = none := by
    rw [List.lookup_eq_none_iff]
    intro e he
    rw [bne_iff_ne]
    rintro rfl
    exact hc (List.mem_map_of_mem he)
  rw [escapeValue, if_neg hzero, hnone, Option.getD_none]

variable {quote c : Char} {p : Piece} {text rest : List Char} {n : ℕ}

theorem read_escape (rest : List Char) (hx : c ≠ 'x') (hu : c ≠ 'u') (hline : [c] ∉ lineEnds) :
    read ('\\' :: c :: rest) = some (.escape c (escapeValue c), rest) := by
  have hreturn : c ≠ '\r' := by rintro rfl; exact hline (by decide)
  simp [read, hu, hreturn, hline]

theorem read_unicode (rest : List Char) (hn : UnicodeEscape text n) :
    read ('\\' :: 'u' :: (text ++ rest)) = some (.code n, rest) := by
  cases hn with
  | four hlength hn =>
    have hbrace : ∀ cs, text ++ rest ≠ '{' :: cs := by
      intro cs heq
      obtain ⟨d, ds, rfl⟩ := List.exists_cons_of_length_eq_add_one hlength
      obtain ⟨rfl, -⟩ := List.cons.inj heq
      exact absurd ((Literal.hexNumber?_eq_some hn).2.2 _ List.mem_cons_self) (by decide)
    rw [read, List.take_left' hlength, List.drop_left' hlength, hn, Option.map_some]
    exact fun cs => hbrace cs
  | @braced digits _ hne hn hle =>
    have hdigits : ∀ c ∈ digits, (c != '}') = true := fun c hc => by
      rw [bne_iff_ne]
      rintro rfl
      exact absurd ((Literal.hexNumber?_eq_some hn).2.2 _ hc) (by decide)
    have htext : '{' :: digits ++ ['}'] ++ rest = '{' :: (digits ++ '}' :: rest) := by simp
    rw [htext, read, List.takeWhile_append_of_pos hdigits, List.dropWhile_append_of_pos hdigits]
    simp [hn]

/-- The first piece of a text is the only one that the text can start with. -/
theorem At.read (h : p.At quote text rest) : Piece.read (text ++ rest) = some (p, rest) := by
  cases h with
  | @char c _ hslash hquote hreturn => simp [Piece.read, hslash, hreturn]
  | lineEnd hquote htext =>
    rcases htext with rfl | ⟨rfl, hrest⟩
    · rfl
    · cases rest with
      | nil => rfl
      | cons d ds =>
        have hd : d ≠ '\n' := fun hd => hrest (hd ▸ rfl)
        simp [Piece.read, hd]
  | @single c v _ hc =>
    have hkinds : ∀ e ∈ singleEscapes, e.1 ≠ 'x' ∧ e.1 ≠ 'u' ∧ [e.1] ∉ lineEnds := by decide
    obtain ⟨hx, hu, hline⟩ := hkinds _ hc
    have hread := read_escape rest hx hu hline
    rwa [escapeValue_single _ hc] at hread
  | null => rfl
  | @itself c _ hc hu hx hdigit hline =>
    have hzero : c ≠ '0' := by
      rintro rfl
      rcases (hdigit (by decide)).2 with h | h <;> cases h
    have hread := read_escape rest hx hu hline
    rwa [escapeValue_itself hc hzero] at hread
  | hex hlength hn =>
    rw [List.cons_append, List.cons_append, Piece.read, List.take_left' hlength,
      List.drop_left' hlength, hn, Option.map_some]
  | unicode hn => exact read_unicode _ hn
  | @continuation text _ htext hreturn =>
    simp only [lineEnds, List.mem_cons, List.not_mem_nil, or_false] at htext
    rcases htext with rfl | rfl | rfl | rfl | rfl
    · rfl
    · rfl
    · cases rest with
      | nil => rfl
      | cons d ds =>
        have hd : d ≠ '\n' := fun hd => hreturn rfl (hd ▸ rfl)
        simp [Piece.read, hd, lineEnds]
    · rfl
    · rfl

end Piece

theorem Consists.unique {quote : Char} {cs : List Char} {ps ps' : List Piece}
    (h : Consists quote cs ps) (h' : Consists quote cs ps') : ps = ps' := by
  induction h generalizing ps' with
  | nil =>
    generalize hcs : [] = cs at h'
    cases h' with
    | nil => rfl
    | cons hp h =>
      have hread := hp.read
      rw [← hcs] at hread
      cases hread
  | @cons p text rest ps hp h ih =>
    have hread := hp.read
    generalize text ++ rest = cs at h' hread
    cases h' with
    | nil => cases hread
    | cons hp' h' =>
      rw [hp'.read] at hread
      obtain ⟨rfl, rfl⟩ := Prod.mk.inj (Option.some.inj hread)
      rw [ih h']

/-! ### Names and accesses -/

/-- The code units that a word spells: those of its characters and of the codes of its escapes. -/
inductive Spells : List Char → List ℕ → Prop
  | nil : Spells [] []
  | char {c : Char} {cs : List Char} {units : List ℕ} (hc : isWordChar c = true)
      (h : Spells cs units) : Spells (c :: cs) (codeUnits c.toNat ++ units)
  | escape {text rest : List Char} {n : ℕ} {units : List ℕ} (hn : UnicodeEscape text n)
      (h : Spells rest units) : Spells ('\\' :: 'u' :: text ++ rest) (codeUnits n ++ units)

def quotes : List Char := ['"', '\x27']

/-- A name that is a literal and no word. -/
def IsLiteral (name : List Char) : Prop := ∃ c ∈ name.head?, c ∈ quotes

/-- What a name of an import or export denotes. -/
inductive Names : List Char → List ℕ → Prop
  | word {w : List Char} {units : List ℕ} (hw : w ≠ []) (hdigit : ∀ c ∈ w.head?, ¬ c.isDigit)
      (h : Spells w units) : Names w units
  | literal {quote : Char} {cs : List Char} {ps : List Piece} (hquote : quote ∈ quotes)
      (h : Consists quote cs ps) : Names (quote :: cs ++ [quote]) (ps.flatMap Piece.units)

/-- What the name of the property denotes in an access, which is a name itself: a word behind a
point, or a literal in brackets. -/
inductive Accesses : List Char → List ℕ → Prop
  | point {w : List Char} {units : List ℕ} (hw : ¬ IsLiteral w) (h : Names w units) :
      Accesses ('.' :: w) units
  | bracket {w : List Char} {units : List ℕ} (hw : IsLiteral w) (h : Names w units) :
      Accesses ('[' :: w ++ [']']) units

/-! ### Words -/

theorem not_isWordChar : ∀ c ∈ '\\' :: quotes, isWordChar c = false := by
  simp [quotes, isWordChar]

theorem length_codeUnits (n : ℕ) : 1 ≤ (codeUnits n).length ∧ (codeUnits n).length ≤ 2 := by
  rw [codeUnits]
  split_ifs <;> simp

theorem length_le_utf16 (w : List Char) : w.length ≤ (utf16 w).length := by
  induction w with
  | nil => exact Nat.le_refl _
  | cons c w ih =>
    have hunits := (length_codeUnits c.toNat).1
    rw [utf16_cons, List.length_append, List.length_cons]
    omega

namespace Spells

variable {w : List Char} {units : List ℕ}

theorem not_isLiteral (h : Spells w units) : ¬ IsLiteral w := by
  rintro ⟨c, hc, hquote⟩
  cases h with
  | nil => cases hc
  | char hchar h =>
    cases hc
    rw [not_isWordChar _ (List.mem_cons_of_mem _ hquote)] at hchar
    cases hchar
  | escape hn h =>
    cases hc
    exact absurd hquote (by decide)

theorem null_not_mem (h : Spells w units) : '\x00' ∉ w := by
  induction h with
  | nil => simp
  | char hc h ih =>
    rw [List.mem_cons, not_or]
    refine ⟨?_, ih⟩
    rintro rfl
    cases hc
  | @escape text rest n units hn h ih =>
    have htext : '\x00' ∉ text := by
      cases hn with
      | four hlength hn =>
        exact fun hmem => absurd ((Literal.hexNumber?_eq_some hn).2.2 _ hmem) (by decide)
      | @braced digits _ hne hn =>
        have hdigits : '\x00' ∉ digits := fun hmem =>
          absurd ((Literal.hexNumber?_eq_some hn).2.2 _ hmem) (by decide)
        simpa using hdigits
    simpa using ⟨htext, ih⟩

/-- A word without escapes spells its own characters. -/
theorem eq_utf16 (h : Spells w units) (hslash : '\\' ∉ w) : utf16 w = units := by
  induction h with
  | nil => rfl
  | char hc h ih => rw [utf16_cons, ih fun hmem => hslash (List.mem_cons_of_mem _ hmem)]
  | escape hn h => exact absurd List.mem_cons_self hslash

/-- An escape is longer than what it stands for. -/
theorem length_le (h : Spells w units) :
    units.length ≤ (utf16 w).length ∧ ('\\' ∈ w → units.length < (utf16 w).length) := by
  induction h with
  | nil => simp
  | char hc h ih =>
    rw [utf16_cons, List.length_append, List.length_append]
    refine ⟨by omega, fun hmem => ?_⟩
    rcases List.mem_cons.mp hmem with rfl | hmem
    · cases hc
    · have := ih.2 hmem
      omega
  | @escape text rest n units hn h ih =>
    have hcode := (length_codeUnits n).2
    have htext := length_le_utf16 ('\\' :: 'u' :: text)
    have hne : 1 ≤ text.length := by
      cases hn with
      | four hlength => omega
      | braced => simp
    rw [utf16_append, List.length_append, List.length_append]
    simp only [List.length_cons] at htext
    omega

/-- A word spells one sequence of code units. -/
theorem unique {units' : List ℕ} (h : Spells w units) (h' : Spells w units') : units = units' := by
  induction h generalizing units' with
  | nil => cases h'; rfl
  | @char c cs units hc h ih =>
    generalize htext : c :: cs = w at h'
    cases h' with
    | nil => cases htext
    | char hc' h' =>
      obtain ⟨rfl, rfl⟩ := List.cons.inj htext
      rw [ih h']
    | escape hn h' =>
      obtain ⟨rfl, -⟩ := List.cons.inj htext
      cases hc
  | @escape text rest n units hn h ih =>
    have hread := Piece.read_unicode rest hn
    generalize htext : '\\' :: 'u' :: text ++ rest = w at h'
    cases h' with
    | nil => cases htext
    | char hc' h' =>
      obtain ⟨rfl, -⟩ := List.cons.inj htext
      cases hc'
    | @escape text' rest' _ _ hn' h' =>
      have htail : text ++ rest = text' ++ rest' := (List.cons.inj (List.cons.inj htext).2).2
      rw [htail, Piece.read_unicode _ hn'] at hread
      cases hread
      rw [ih h']

theorem utf16_eq_iff (h : Spells w units) : utf16 w = units ↔ '\\' ∉ w := by
  refine ⟨fun heq hmem => ?_, h.eq_utf16⟩
  have hlt := h.length_le.2 hmem
  rw [heq] at hlt
  omega

end Spells

/-- A name between quotes denotes what its pieces stand for. -/
theorem Names.exists_consists {quote : Char} {cs : List Char} {units : List ℕ}
    (hquote : quote ∈ quotes) (h : Names (quote :: cs ++ [quote]) units) :
    ∃ ps, Consists quote cs ps ∧ ps.flatMap Piece.units = units := by
  generalize htext : quote :: cs ++ [quote] = text at h
  cases h with
  | word hw hdigit h =>
    refine absurd ⟨quote, ?_, hquote⟩ h.not_isLiteral
    rw [← htext]
    rfl
  | literal hquote' h =>
    obtain ⟨rfl, hrest⟩ := List.cons.inj htext
    obtain rfl := List.append_cancel_right hrest
    exact ⟨_, h, rfl⟩

theorem Names.unique {w : List Char} {units units' : List ℕ} (h : Names w units)
    (h' : Names w units') : units = units' := by
  cases h with
  | word hw hdigit h =>
    cases h' with
    | word hw' hdigit' h' => exact h.unique h'
    | literal hquote h' => exact absurd ⟨_, rfl, hquote⟩ h.not_isLiteral
  | literal hquote h =>
    obtain ⟨ps', hread, rfl⟩ := h'.exists_consists hquote
    rw [h.unique hread]

namespace Accesses

variable {w : List Char} {units units' : List ℕ}

theorem names_of_point (h : Accesses ('.' :: w) units) : Names w units := by
  cases h with
  | point hw h => exact h

theorem names_of_bracket (h : Accesses ('[' :: w ++ [']']) units) : Names w units := by
  generalize htext : '[' :: w ++ [']'] = text at h
  cases h with
  | point => cases htext
  | bracket hw h =>
    obtain rfl := List.append_cancel_right (List.cons.inj htext).2
    exact h

theorem unique {access : List Char} (h : Accesses access units) (h' : Accesses access units') :
    units = units' := by
  cases h with
  | point hw h => exact h.unique h'.names_of_point
  | bracket hw h => exact h.unique h'.names_of_bracket

end Accesses

/-! ### Quoted words -/

theorem digitChar_hexDigit? : ∀ n < 16, hexDigit? n.digitChar = some n := by decide

/-- The digits of a number write that number. -/
theorem hexNumber?_toDigits (n : ℕ) : hexNumber? (Nat.toDigits 16 n) = some n := by
  have hdigits : ∃ values, (Nat.toDigits 16 n).mapM hexDigit? = some values ∧
      Nat.ofDigits 16 values.reverse = n := by
    induction n using Nat.strong_induction_on with
    | _ n ih =>
      rw [Nat.toDigits_eq_if (by decide)]
      split_ifs with hlt
      · exact ⟨[n], by simp [digitChar_hexDigit? n hlt], by simp⟩
      · obtain ⟨values, hvalues, hn⟩ := ih (n / 16) (by omega)
        refine ⟨values ++ [n % 16], ?_, ?_⟩
        · simp [List.mapM_append, hvalues, digitChar_hexDigit? _ (Nat.mod_lt n (by decide))]
        · rw [List.reverse_append, List.reverse_singleton, List.singleton_append,
            Nat.ofDigits_cons, hn]
          exact Nat.mod_add_div n 16
  obtain ⟨values, hvalues, hn⟩ := hdigits
  rw [hexNumber?, hvalues, Option.map_some, hn]

/-- Each character but the null is quoted as a piece of a literal, which stands for it. -/
theorem exists_at_escape {c : Char} (hc : c ≠ '\x00') : ∃ p : Piece,
    (∀ rest, p.At '"' (Text.Quoted.escape c) rest) ∧ p.units = codeUnits c.toNat := by
  rw [Text.Quoted.escape.eq_def]
  split
  case h_6 => exact absurd rfl hc
  case h_7 hquote hslash hline hreturn htab hnull =>
    have hchar : ∃ p : Piece, (∀ rest, p.At '"' [c] rest) ∧ p.units = codeUnits c.toNat :=
      ⟨.char c, fun rest => .char hslash hquote hreturn (fun h => absurd h hline)
        (fun h => absurd h.1 (by decide)), rfl⟩
    have hcode : ∃ p : Piece, (∀ rest, p.At '"' (Text.Quoted.codeEscape c) rest) ∧
        p.units = codeUnits c.toNat :=
      ⟨.code c.toNat, fun rest => .unicode (.braced Nat.toDigits_ne_nil (hexNumber?_toDigits _)
        (Nat.le_of_lt_succ (toNat_valid c).2)), rfl⟩
    split_ifs
    · exact hchar
    · exact hcode
    · exact hchar
  all_goals exact ⟨.escape _ _, fun rest => .single (by decide), rfl⟩

/-- The quoted text of a word is a literal that denotes the characters of the word. -/
theorem exists_consists_quoted {w : List Char} (h : '\x00' ∉ w) : ∃ ps,
    Consists '"' (w.flatMap Text.Quoted.escape) ps ∧ ps.flatMap Piece.units = utf16 w := by
  have hat (c : Char) (hc : c ∈ w) := exists_at_escape fun hnull : c = '\x00' => h (hnull ▸ hc)
  obtain ⟨ps, hread, hunits, -⟩ := exists_consists_flatMap (K := fun _ => True) (C := fun _ => True)
    fun c hc => (hat c hc).imp fun p hp => ⟨hp.1, hp.2, Iff.rfl⟩
  exact ⟨ps, hread, hunits⟩

/-! ### The access for a name -/

namespace CommonForm

theorem slash_not_mem {w : List Char} (h : isPlainName w = true) : '\\' ∉ w := by
  rw [isPlainName.eq_def] at h
  split at h
  · cases h
  · rename_i c cs
    rw [Bool.and_eq_true, List.all_eq_true] at h
    intro hmem
    rcases List.mem_cons.mp hmem with rfl | hmem
    · exact absurd h.1 (by decide)
    · exact absurd (h.2 _ hmem) (by decide)

theorem not_isPlainName {w : List Char} (h : IsLiteral w) : isPlainName w = false := by
  obtain ⟨c, hc, hquote⟩ := h
  cases w with
  | nil => cases hc
  | cons d cs =>
    cases hc
    have hfirst : ∀ c ∈ quotes, (c.isAlpha || c == '_' || c == '$') = false := by
      simp [quotes]
    rw [isPlainName, hfirst c hquote, Bool.false_and]

theorem member_of_isLiteral {w : List Char} (h : IsLiteral w) : member w = '[' :: w ++ [']'] := by
  rw [member, not_isPlainName h]
  obtain ⟨c, hc, hquote⟩ := h
  rw [Option.mem_def.mp hc]
  simp only [quotes, List.mem_cons, List.not_mem_nil, or_false] at hquote
  rcases hquote with rfl | rfl <;> rfl

theorem member_of_not_isLiteral {w : List Char} (hplain : isPlainName w = false)
    (h : ¬ IsLiteral w) : member w = '[' :: Text.quoted w ++ [']'] := by
  have hhead : ∀ c ∈ quotes, (w.head? == some c) = false := fun c hc =>
    beq_eq_false_iff_ne.mpr fun heq => h ⟨c, heq, hc⟩
  rw [member, hplain, hhead '"' (by decide), hhead '\x27' (by decide)]
  rfl

theorem exists_accesses {w : List Char} {units : List ℕ} (h : Names w units) :
    ∃ denoted, Accesses (member w) denoted ∧ (denoted = units ↔ IsLiteral w ∨ '\\' ∉ w) := by
  have hnames := h
  cases h with
  | @literal quote cs ps hquote h =>
    have hliteral : IsLiteral (quote :: cs ++ [quote]) := ⟨quote, rfl, hquote⟩
    rw [member_of_isLiteral hliteral]
    exact ⟨_, .bracket hliteral hnames, iff_of_true rfl (.inl hliteral)⟩
  | word hw hdigit h =>
    have hword := h.not_isLiteral
    cases hplain : isPlainName w with
    | true =>
      refine ⟨units, ?_, iff_of_true rfl (.inr (slash_not_mem hplain))⟩
      rw [member, hplain]
      exact .point hword hnames
    | false =>
      obtain ⟨ps, hread, hunits⟩ := exists_consists_quoted h.null_not_mem
      rw [member_of_not_isLiteral hplain hword, ← h.utf16_eq_iff.trans (or_iff_right hword).symm]
      refine ⟨utf16 w, ?_, Iff.rfl⟩
      rw [← hunits]
      exact .bracket ⟨'"', rfl, by decide⟩ (.literal (by decide) hread)

/-- The access that is written for a name denotes something, and it denotes the name unless the
name is a word with an escape in it. -/
theorem member_accesses {w : List Char} {units : List ℕ} (h : Names w units) :
    (∃! denoted, Accesses (member w) denoted) ∧
      (Accesses (member w) units ↔ IsLiteral w ∨ '\\' ∉ w) := by
  obtain ⟨denoted, haccess, hiff⟩ := exists_accesses h
  refine ⟨⟨denoted, haccess, fun _ h => h.unique haccess⟩, ?_⟩
  rw [← hiff]
  exact ⟨haccess.unique, fun h => h ▸ haccess⟩

end CommonForm
end Bundler.JavaScript
