import Bundler.Json.Parser
import Bundler.Json.Printer
import Bundler.Proofs.JavaScript.Cursor

/-! String literals are read back. So two texts have one literal only when they are the same. -/
namespace Bundler.Json

variable {rest : List Char} {fuel : ℕ}

/-- A character is escaped by a letter of its own, by its code, or not at all. -/
theorem escapeChar_cases (c : Char) :
    (∃ e, escapeChar c = ['\\', e] ∧ e ≠ 'u' ∧ simpleEscape? e = some c) ∨
    (escapeChar c = ['\\', 'u', '0', '0', hexDigit (c.toNat / 16), hexDigit (c.toNat % 16)] ∧
      c.toNat < 32) ∨
    (escapeChar c = [c] ∧ c ≠ '"' ∧ c ≠ '\\' ∧ 32 ≤ c.toNat) := by
  by_cases hsimple : c ∈ ['"', '\\', '\n', '\r', '\t', '\x08', '\x0c']
  · simp only [List.mem_cons, List.not_mem_nil, or_false] at hsimple
    left
    rcases hsimple with rfl | rfl | rfl | rfl | rfl | rfl | rfl
    all_goals exact ⟨_, rfl, by decide, rfl⟩
  simp only [List.mem_cons, List.not_mem_nil, or_false, not_or] at hsimple
  obtain ⟨hquote, hslash, hn, hr, ht, hb, hf⟩ := hsimple
  have hescape : escapeChar c = if c.toNat < 32 then
      ['\\', 'u', '0', '0', hexDigit (c.toNat / 16), hexDigit (c.toNat % 16)] else [c] := by
    rw [escapeChar.eq_def]
    split <;> first | contradiction | rfl
  right
  by_cases hc : c.toNat < 32
  · exact .inl ⟨by rw [hescape, if_pos hc], hc⟩
  · exact .inr ⟨by rw [hescape, if_neg hc], hquote, hslash, Nat.not_lt.mp hc⟩

theorem hexNumber?_code : ∀ n < 32,
    hexNumber? ['0', '0', hexDigit (n / 16), hexDigit (n % 16)] = some n ∧
      4 ≤ Text.size ['0', '0', hexDigit (n / 16), hexDigit (n % 16)] := by decide

@[simp] theorem Cursor.advance_rest (s : Cursor) : s.advance.rest = s.rest.tail := by
  rw [advance]
  split <;> simp_all

/-- The code of a control character is read as that character. -/
theorem unicodeEscape_code {c : Char} {s : Cursor} (hc : c.toNat < 32)
    (hs : s.rest = '0' :: '0' :: hexDigit (c.toNat / 16) :: hexDigit (c.toNat % 16) :: rest) :
    ∃ t : Cursor, t.rest = rest ∧ unicodeEscape s = .ok (c, t) := by
  obtain ⟨hnumber, hsize⟩ := hexNumber?_code c.toNat hc
  refine ⟨Cursor.advanceBy 4 s, by simp [Cursor.advanceBy, hs], ?_⟩
  have hhex : hexEscape s = .ok (c.toNat, Cursor.advanceBy 4 s) := by
    dsimp only [hexEscape]
    rw [hs, List.take_succ_cons, List.take_succ_cons, List.take_succ_cons, List.take_succ_cons,
      List.take_zero, hnumber, if_neg (Nat.not_lt.mpr hsize)]
  rw [unicodeEscape, hhex]
  have hlow : (decide (0xDC00 ≤ c.toNat) && decide (c.toNat ≤ 0xDFFF)) = false := by
    rw [Bool.and_eq_false_iff, decide_eq_false_iff_not]
    left
    omega
  have hhigh : (decide (c.toNat < 0xD800) || decide (0xDBFF < c.toNat)) = true := by
    rw [Bool.or_eq_true, decide_eq_true_iff]
    left
    omega
  simp [bind, Except.bind, hlow, hhigh, pure, Except.pure]

/-- An escaped character is read in one step. -/
theorem stringBody_escapeChar {s : Cursor} (c : Char) (hs : s.rest = escapeChar c ++ rest)
    (fuel : ℕ)
    (out : List Char) :
    ∃ t : Cursor, t.rest = rest ∧ stringBody (fuel + 1) s out = stringBody fuel t (c :: out) := by
  rw [stringBody.eq_def]
  rcases escapeChar_cases c with ⟨e, he, hu, hsimple⟩ | ⟨he, hc⟩ | ⟨he, hquote, hslash, hc⟩
  · refine ⟨s.advance.advance, by simp [hs, he], ?_⟩
    simp [hs, he, hsimple]
  · have hrest : s.advance.advance.rest =
        '0' :: '0' :: hexDigit (c.toNat / 16) :: hexDigit (c.toNat % 16) :: rest := by simp [hs, he]
    obtain ⟨t, ht, hcode⟩ := unicodeEscape_code hc hrest
    refine ⟨t, ht, ?_⟩
    simp [hs, he, bind, Except.bind, hcode]
  · refine ⟨s.advance, by simp [hs, he], ?_⟩
    simp [hs, he, Nat.not_lt.mpr hc]

theorem stringBody_literal {s : Cursor} {text : List Char}
    (hs : s.rest = text.flatMap escapeChar ++ '"' :: rest) (h : text.length < fuel)
    (out : List Char) :
    ∃ t : Cursor, t.rest = rest ∧
      stringBody fuel s out = .ok (String.ofList (out.reverse ++ text), t) := by
  obtain ⟨fuel, rfl⟩ := Nat.exists_eq_add_one.2 (Nat.zero_lt_of_lt h)
  induction text generalizing fuel s out with
  | nil =>
    refine ⟨s.advance, by simp [hs], ?_⟩
    rw [stringBody.eq_def]
    simp [hs]
  | cons c text ih =>
    rw [List.flatMap_cons, List.append_assoc] at hs
    obtain ⟨t, ht, hstep⟩ := stringBody_escapeChar c hs fuel out
    have hfuel : text.length < fuel := Nat.lt_of_succ_lt_succ h
    obtain ⟨fuel, rfl⟩ := Nat.exists_eq_add_one.2 (Nat.zero_lt_of_lt hfuel)
    obtain ⟨u, hu, hbody⟩ := ih ht (c :: out) fuel hfuel
    refine ⟨u, hu, ?_⟩
    rw [hstep, hbody]
    simp

theorem length_le_escaped (s : List Char) : s.length ≤ (s.flatMap escapeChar).length := by
  induction s with
  | nil => exact Nat.le_refl _
  | cons c s ih =>
    have hc : 1 ≤ (escapeChar c).length := by
      rcases escapeChar_cases c with ⟨e, he, -⟩ | ⟨he, -⟩ | ⟨he, -⟩ <;> simp [he]
    rw [List.flatMap_cons, List.length_append, List.length_cons]
    omega

/-- The literal of a text is read as that text. -/
theorem parse_literal (s : List Char) : parse (literal s) = .ok (.string (String.ofList s)) := by
  have hrest : (Cursor.advance ⟨literal s, 1, 0⟩).rest = s.flatMap escapeChar ++ '"' :: [] := by
    simp [literal]
  have hfuel : s.length < (Cursor.advance ⟨literal s, 1, 0⟩).rest.length + 1 := by
    have := length_le_escaped s
    rw [hrest, List.length_append]
    omega
  obtain ⟨t, ht, hbody⟩ := stringBody_literal hrest hfuel []
  have hvalue : value depthLimit ⟨literal s, 1, 0⟩ = .ok (.string (String.ofList s), t) := by
    rw [value.eq_def]
    change (stringAfterQuote (Cursor.advance ⟨literal s, 1, 0⟩) >>= fun r =>
      pure (Json.string r.1, r.2)) = _
    rw [stringAfterQuote, hbody]
    rfl
  rw [parse, hvalue]
  simp [bind, Except.bind, Cursor.skipBlanks, ht, Cursor.advanceBy, pure, Except.pure]

theorem literal_injective : Function.Injective literal := by
  intro s t h
  have hs := parse_literal s
  rw [h, parse_literal t] at hs
  exact (String.ofList_injective (Json.string.inj (Except.ok.inj hs))).symm

end Bundler.Json
