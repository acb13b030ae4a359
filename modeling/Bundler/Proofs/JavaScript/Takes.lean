import Bundler.JavaScript.Calls
import Bundler.JavaScript.Program
import Bundler.Proofs.Json.Literal
import Bundler.Proofs.Json.Numeral
import Bundler.Proofs.JavaScript.Trivia
import Mathlib.Tactic.IntervalCases

/-! What parsers are sure to take. Where the other modules say what has been read once a parser
succeeds, a parser here succeeds on a text that is known, whatever place it stands at, and leaves
what follows. -/
namespace Bundler.JavaScript

namespace Parser

variable {α β : Type} {p q : Parser α} {f : α → Parser β} {P Q : α → Prop} {R : β → Prop}
  {cs ds r : List Char}

/-- In front of `r` the parser takes the text `cs`, and its answer is as `Q` tells. -/
def Takes (p : Parser α) (cs r : List Char) (Q : α → Prop) : Prop :=
  ∀ pos, ∃ a stop, p ⟨cs ++ r, pos⟩ = .ok (a, ⟨r, stop⟩) ∧ Q a

/-- Looking at the text the parser answers `a`, and it stays where it is. -/
def Sees (p : Parser α) (cs : List Char) (a : α) : Prop :=
  ∀ pos, p ⟨cs, pos⟩ = .ok (a, ⟨cs, pos⟩)

/-- The parser refuses the text. -/
def Refuses (p : Parser α) (cs : List Char) : Prop := ∀ pos, ∃ e, p ⟨cs, pos⟩ = .error e

theorem bind_ok {c d : Cursor} {a : α} (h : p c = .ok (a, d)) : (p >>= f) c = f a d := by
  simp [Bind.bind, h]

theorem bind_error {c : Cursor} {e : ℕ} (h : p c = .error e) : (p >>= f) c = .error e := by
  simp [Bind.bind, h]

namespace Takes

theorem bind (h : Takes p cs (ds ++ r) P) (hf : ∀ a, P a → Takes (f a) ds r R) :
    Takes (p >>= f) (cs ++ ds) r R := by
  intro pos
  obtain ⟨a, stop, hp, ha⟩ := h pos
  obtain ⟨b, stop', hb, hR⟩ := hf a ha stop
  exact ⟨b, stop', by rw [List.append_assoc, bind_ok hp, hb], hR⟩

/-- A parser that takes all, and one that takes nothing behind it. -/
theorem before (h : Takes p cs r P) (hf : ∀ a, P a → Takes (f a) [] r R) :
    Takes (p >>= f) cs r R := by
  have hbind : Takes (p >>= f) (cs ++ []) r R := bind h hf
  rwa [List.append_nil] at hbind

theorem look {a : α} (h : Sees p (cs ++ r) a) (hf : Takes (f a) cs r R) : Takes (p >>= f) cs r R := by
  intro pos
  obtain ⟨b, stop, hb, hR⟩ := hf pos
  exact ⟨b, stop, by rw [bind_ok (h pos), hb], hR⟩

theorem pure {a : α} (h : Q a) : Takes (pure a) [] r Q := fun pos => ⟨a, pos, rfl, h⟩

theorem cursor {f : Cursor → Parser β} (h : ∀ c : Cursor, c.rest = cs ++ r → Takes (f c) cs r R) :
    Takes (cursor >>= f) cs r R := fun pos => h ⟨cs ++ r, pos⟩ rfl pos

theorem orElse_left (h : Takes p cs r Q) : Takes (orElse p q) cs r Q := by
  intro pos
  obtain ⟨a, stop, hp, ha⟩ := h pos
  refine ⟨a, stop, ?_, ha⟩
  rw [orElse, hp]

theorem orElse_right (hp : Refuses p (cs ++ r)) (h : Takes q cs r Q) : Takes (orElse p q) cs r Q := by
  intro pos
  obtain ⟨e, he⟩ := hp pos
  obtain ⟨a, stop, hq, ha⟩ := h pos
  refine ⟨a, stop, ?_, ha⟩
  rw [orElse, he]
  dsimp only
  rw [hq]

theorem located (h : Takes p cs r Q) : Takes (located p) cs r fun a => Q a.2 := by
  intro pos
  obtain ⟨a, stop, hp, ha⟩ := h pos
  exact ⟨_, stop, by rw [Parser.located, hp], ha⟩

theorem piece {p : Parser (List Node)} (h : Takes p cs r fun ns => Node.callsOf ns = []) :
    Takes (piece p) cs r fun n => n.calls = [] :=
  h.located.before fun _ ha => .pure ha

end Takes

namespace Sees

variable {a : α} {b : β}

theorem bind (h : Sees p cs a) (hf : Sees (f a) cs b) : Sees (p >>= f) cs b := by
  intro pos
  rw [bind_ok (h pos), hf pos]

theorem cursor {f : Cursor → Parser β} (h : ∀ c : Cursor, c.rest = cs → Sees (f c) cs b) :
    Sees (cursor >>= f) cs b := fun pos => h ⟨cs, pos⟩ rfl pos

end Sees

theorem bind_congr {c d : Cursor} (h : p c = p d) : (p >>= f) c = (p >>= f) d := by
  cases hd : p d with
  | ok a => rw [bind_ok hd, bind_ok (h.trans hd)]
  | error e => rw [bind_error hd, bind_error (h.trans hd)]

theorem Refuses.bind (h : Refuses p cs) : Refuses (p >>= f) cs := by
  intro pos
  obtain ⟨e, he⟩ := h pos
  exact ⟨e, bind_error he⟩

theorem Takes.refuses (h : Takes p cs r P) (hf : ∀ a, P a → Refuses (f a) r) :
    Refuses (p >>= f) (cs ++ r) := by
  intro pos
  obtain ⟨a, stop, hp, ha⟩ := h pos
  obtain ⟨e, he⟩ := hf a ha stop
  exact ⟨e, by rw [bind_ok hp, he]⟩

/-! ### Tokens -/

/-- Nothing is skipped in front of the text. -/
structure Solid (cs : List Char) : Prop where
  skip : ∀ pos, (⟨cs, pos⟩ : Cursor).skip = ⟨cs, pos⟩
  skipMarkup : ∀ pos, (⟨cs, pos⟩ : Cursor).skipMarkup = ⟨cs, pos⟩

theorem isDigit_cases {c : Char} (hc : c.isDigit = true) :
    c ∈ ['0', '1', '2', '3', '4', '5', '6', '7', '8', '9'] := by
  rw [Char.isDigit, Bool.and_eq_true, decide_eq_true_iff, decide_eq_true_iff] at hc
  have hlow : 48 ≤ c.toNat := UInt32.le_iff_toNat_le.1 hc.1
  have hhigh : c.toNat ≤ 57 := UInt32.le_iff_toNat_le.1 hc.2
  rw [← Char.ofNat_toNat c]
  interval_cases c.toNat <;> decide

theorem advanceBy_append (cs r : List Char) (pos : ℕ) :
    Cursor.advanceBy cs.length ⟨cs ++ r, pos⟩ = ⟨r, pos + Text.size cs⟩ := by
  rw [Cursor.advanceBy_eq]
  simp

theorem take_takes (cs r : List Char) : Takes (take cs.length) cs r fun _ => True := fun pos =>
  ⟨(), _, by rw [take, advanceBy_append], trivial⟩

theorem lexeme_takes : Takes (lexeme cs.length) cs r fun _ => True := fun pos =>
  ⟨_, _, by rw [lexeme, advanceBy_append], trivial⟩

namespace Solid

variable {s : String} (h : Solid cs)
include h

theorem sees_skip : Sees Parser.skip cs () := fun pos => by rw [Parser.skip, h.skip pos]

theorem sees_skipMarkup : Sees Parser.skipMarkup cs () := fun pos => by rw [Parser.skipMarkup, h.skipMarkup pos]

theorem sees_ahead : Sees ahead cs cs := fun pos => by rw [ahead, h.skip pos]

theorem sees_isAhead : Sees (isAhead s) cs (startsWith s.toList cs) := fun pos => by
  rw [isAhead, h.skip pos]

theorem sees_wordAhead : Sees wordAhead cs ((word? cs).map String.ofList) := fun pos => by
  rw [wordAhead, h.skip pos]

theorem refuses_symbol (hs : startsWith s.toList cs = false) : Refuses (symbol s) cs := by
  intro pos
  rw [startsWith, Option.isSome_eq_false_iff, Option.isNone_iff_eq_none] at hs
  refine ⟨pos, ?_⟩
  rw [symbol, h.skip pos, hs]

theorem sees_isWordAhead : Sees (isWordAhead s) cs ((word? cs).map String.ofList == some s) := by
  rw [isWordAhead]
  exact .bind h.sees_wordAhead fun _ => rfl

theorem refuses_keyword (hs : (word? cs).map String.ofList ≠ some s) : Refuses (keyword s) cs := by
  intro pos
  refine ⟨(⟨cs, pos⟩ : Cursor).skip.pos, ?_⟩
  rw [keyword, bind_ok (h.sees_isWordAhead pos), beq_false_of_ne hs]
  rfl

theorem sees_optional (hs : startsWith s.toList cs = false) : Sees (optional s) cs false := by
  refine .bind h.sees_isAhead fun pos => ?_
  rw [hs]
  rfl

end Solid

theorem startsWith_of_head {p : Char} {ps : List Char} (h : p ∉ cs.head?) :
    startsWith (p :: ps) cs = false := by
  cases cs with
  | nil => rfl
  | cons c cs =>
    have hne : p ≠ c := by rintro rfl; exact h rfl
    rw [startsWith, after?, if_neg hne]
    rfl

theorem word_takes (hsolid : Solid (cs ++ r)) (hword : word? (cs ++ r) = some cs) :
    Takes word cs r fun _ => True := by
  refine .look hsolid.sees_skip (.cursor fun c hc => ?_)
  rw [hc, hword]
  exact lexeme_takes

theorem sees_accepts (h : Refuses p cs) : Sees (accepts p) cs false := by
  intro pos
  obtain ⟨e, he⟩ := h pos
  rw [accepts, he]

section Symbol

variable {s : String} (h : Solid (s.toList ++ r))
include h

theorem symbol_takes : Takes (symbol s) s.toList r fun _ => True := by
  intro pos
  refine ⟨(), pos + Text.size s.toList, ?_, trivial⟩
  rw [symbol, h.skip pos, after?_eq_some.2 rfl]

theorem optional_takes : Takes (optional s) s.toList r (· = true) := by
  have hahead : startsWith s.toList (s.toList ++ r) = true := by
    rw [startsWith, after?_eq_some.2 rfl]
    rfl
  refine .look h.sees_isAhead ?_
  rw [hahead, if_pos rfl]
  exact (symbol_takes h).before fun _ _ => .pure rfl

end Symbol

/-- A number ends in front of what is no part of one. -/
def NumberEnds (r : List Char) : Prop :=
  ∀ c ∈ r.head?, c.isDigit = false ∧ c ∉ ['_', '.', 'e', 'E', 'n', 'x', 'X', 'o', 'O', 'b', 'B']

theorem digitRun_append (hds : ∀ c ∈ ds, c.isDigit = true)
    (hr : ∀ c ∈ r.head?, c.isDigit = false ∧ c ≠ '_') :
    digitRun Char.isDigit (ds ++ r) = ds.length := by
  induction ds with
  | nil =>
    rcases r with _ | ⟨c, _ | ⟨d, r⟩⟩
    · rfl
    all_goals simp [digitRun, (hr c rfl).1]
  | cons c ds ih =>
    have hc := hds c (List.mem_cons_self ..)
    have hrun := ih fun x hx => hds x (List.mem_cons_of_mem c hx)
    rcases ds with _ | ⟨d, ds⟩
    · rcases r with _ | ⟨d, r⟩
      · simp [digitRun, hc]
      · simp [digitRun, hc, (hr d rfl).1, (hr d rfl).2]
    · have hd := hds d (List.mem_cons_of_mem c (List.mem_cons_self ..))
      rw [List.cons_append] at hrun
      rw [List.cons_append, List.cons_append, digitRun, hrun]
      simp [hc, hd]

variable (n : Json.Numeral)

theorem exponentLength_append (hr : NumberEnds r) :
    exponentLength (n.exponentText ++ r) = n.exponentText.length := by
  rw [Json.Numeral.exponentText]
  split_ifs with hnil
  · rcases r with _ | ⟨c, r⟩
    · rfl
    · obtain ⟨-, hne⟩ := hr c rfl
      simp only [List.mem_cons, List.not_mem_nil, or_false, not_or] at hne
      simp [exponentLength, hne]
  · have hrun := digitRun_append n.exponent_digits (r := r) fun c hc => ⟨(hr c hc).1, fun h =>
      (hr c hc).2 (by simp [h])⟩
    obtain ⟨c, cs, hcs⟩ := List.exists_cons_of_ne_nil hnil
    have hdigit := n.exponent_digits c (hcs ▸ List.mem_cons_self ..)
    have hminus : c ≠ '-' := by rintro rfl; cases hdigit
    have hplus : c ≠ '+' := by rintro rfl; cases hdigit
    have hsign := n.sign_mem
    simp only [List.mem_cons, List.not_mem_nil, or_false] at hsign
    rw [hcs] at hrun ⊢
    rcases hsign with hsign | hsign | hsign <;> simp_all [exponentLength]

theorem fractionLength_append (hr : NumberEnds r) :
    fractionLength (n.fraction ++ n.exponentText ++ r) = n.fraction.length + n.exponentText.length := by
  have hrun : digitRun Char.isDigit (n.fraction ++ (n.exponentText ++ r)) = n.fraction.length := by
    refine digitRun_append n.fraction_digits ?_
    rw [Json.Numeral.exponentText]
    split_ifs
    · exact fun c hc => ⟨(hr c hc).1, fun h => (hr c hc).2 (by simp [h])⟩
    · rintro c ⟨⟩
      decide
  rw [fractionLength, List.append_assoc, hrun, List.drop_left, exponentLength_append n hr]

/-- What follows the whole part of a numeral. -/
theorem head_behind_whole (hr : NumberEnds r) {c : Char}
    (hc : c ∈ (n.fractionText ++ n.exponentText ++ r).head?) :
    c.isDigit = false ∧ c ∉ ['_', 'n', 'x', 'X', 'o', 'O', 'b', 'B'] ∧
      (c = '.' → n.fraction ≠ []) := by
  rw [Json.Numeral.fractionText, Json.Numeral.exponentText] at hc
  split_ifs at hc with hfraction hexponent hexponent
  · obtain ⟨hdigit, hmem⟩ := hr c hc
    simp only [List.mem_cons, List.not_mem_nil, or_false, not_or] at hmem ⊢
    exact ⟨hdigit, by tauto, fun h => absurd h (by tauto)⟩
  · cases hc
    exact ⟨rfl, by decide, fun h => absurd h (by decide)⟩
  · cases hc
    exact ⟨rfl, by decide, fun _ => hfraction⟩
  · cases hc
    exact ⟨rfl, by decide, fun _ => hfraction⟩

theorem decimalLength_append (hr : NumberEnds r) : decimalLength (n.text ++ r) = n.text.length := by
  obtain ⟨c, cs, hcs⟩ := List.exists_cons_of_ne_nil n.whole_ne_nil
  have hdigit := n.whole_digits c (hcs ▸ List.mem_cons_self ..)
  have hpoint : c ≠ '.' := by rintro rfl; cases hdigit
  have htext : n.text ++ r = n.whole ++ (n.fractionText ++ n.exponentText ++ r) := by
    simp [Json.Numeral.text]
  have hrun : digitRun Char.isDigit (n.text ++ r) = n.whole.length := by
    rw [htext]
    refine digitRun_append n.whole_digits fun d hd => ?_
    obtain ⟨hd, hmem, -⟩ := head_behind_whole n hr hd
    exact ⟨hd, fun h => hmem (by simp [h])⟩
  have hleading : (n.whole.length = 1 || (n.text ++ r).head? != some '0') = true := by
    by_cases hzero : c = '0'
    · rw [n.leading (by rw [hcs, hzero]; rfl)]
      rfl
    · have hhead : (n.text ++ r).head? = some c := by
        rw [htext, hcs]
        rfl
      simp [hhead, hzero]
  have hne : n.whole.length ≠ 0 := by simp [hcs]
  rw [decimalLength.eq_def]
  split
  · rename_i heq
    rw [htext, hcs] at heq
    exact absurd (List.cons.inj heq).1 hpoint
  dsimp only
  rw [hrun, if_neg hne, hleading, Bool.true_or, htext, List.drop_left]
  split
  · rename_i heq
    exact absurd (head_behind_whole n hr (c := 'n') (by rw [heq]; rfl)).2.1 (by decide)
  · rename_i more heq
    have hfraction := (head_behind_whole n hr (c := '.') (by rw [heq]; rfl)).2.2 rfl
    have hmore : more = n.fraction ++ n.exponentText ++ r := by
      rw [Json.Numeral.fractionText, if_neg hfraction] at heq
      exact (List.cons.inj heq).2.symm
    rw [if_pos rfl, hmore, fractionLength_append n hr, Json.Numeral.text, Json.Numeral.fractionText,
      if_neg hfraction]
    simp only [List.length_append, List.length_cons]
    omega
  · rename_i hpoint'
    have hfraction : n.fraction = [] := by
      by_contra hne
      refine hpoint' (n.fraction ++ n.exponentText ++ r) ?_
      rw [Json.Numeral.fractionText, if_neg hne]
      rfl
    rw [if_pos rfl, Json.Numeral.text, Json.Numeral.fractionText, if_pos hfraction, List.nil_append,
      exponentLength_append n hr, List.append_nil, List.length_append]

/-- A numeral is one number. -/
theorem numberLength_append (hr : NumberEnds r) : numberLength (n.text ++ r) = n.text.length := by
  rw [numberLength.eq_def, decimalLength_append n hr]
  dsimp only
  split
  · rename_i b bs heq
    obtain ⟨c, cs, hcs⟩ := List.exists_cons_of_ne_nil n.whole_ne_nil
    have hzero : n.whole = ['0'] := by
      refine n.leading ?_
      rw [Json.Numeral.text, hcs] at heq
      rw [hcs, (List.cons.inj heq).1]
      rfl
    have hrest : n.fractionText ++ n.exponentText ++ r = b :: bs := by
      rw [Json.Numeral.text, hzero] at heq
      simpa using heq
    have hb := (head_behind_whole n hr (c := b) (by rw [hrest]; rfl)).2.1
    simp only [List.mem_cons, List.not_mem_nil, or_false, not_or] at hb
    simp [hb]
  · exact Nat.zero_max _

theorem number_takes (hr : NumberEnds r) (hsolid : Solid (n.text ++ r)) :
    Takes number n.text r fun _ => True := by
  refine .look hsolid.sees_skip (.cursor fun c hc => ?_)
  obtain ⟨d, ds, htext, -⟩ := n.exists_text_cons
  rw [hc, numberLength_append n hr, show n.text.length = ds.length + 1 by rw [htext]; rfl]
  have htake : Takes (take n.text.length) n.text r fun _ => True := take_takes n.text r
  rwa [htext] at htake ⊢

/-! ### Strings -/

/-- The escape of a character is read as one. -/
theorem escapeLength?_escapeChar {c : Char} (rest : List Char) (hescape : Json.escapeChar c ≠ [c]) :
    escapeLength? (Json.escapeChar c ++ rest) = some (Json.escapeChar c).length := by
  rcases Json.escapeChar_cases c with ⟨e, he, hu, hsimple⟩ | ⟨he, hc⟩ | ⟨he, -⟩
  · have hmem : e ∈ ['"', '\\', '/', 'b', 'f', 'n', 'r', 't'] := by
      rw [Json.simpleEscape?.eq_def] at hsimple
      split at hsimple <;> first | (cases hsimple; done) | simp
    rw [he]
    simp only [List.mem_cons, List.not_mem_nil, or_false] at hmem
    rcases hmem with rfl | rfl | rfl | rfl | rfl | rfl | rfl | rfl <;> rfl
  · have hhex : ∀ n < 32, isHexDigit (Json.hexDigit (n / 16)) = true ∧
        isHexDigit (Json.hexDigit (n % 16)) = true := by decide
    obtain ⟨hhigh, hlow⟩ := hhex c.toNat hc
    rw [he]
    simp [escapeLength?, unicodeEscape?, hhigh, hlow, show isHexDigit '0' = true from rfl]
  · exact absurd he hescape

/-- One escaped character of a string. -/
theorem stringEnd?_escapeChar (c : Char) (rest : List Char) (fuel pos : ℕ) :
    ∃ stop, stringEnd? '"' (fuel + 1) ⟨Json.escapeChar c ++ rest, pos⟩ =
      stringEnd? '"' fuel ⟨rest, stop⟩ := by
  by_cases hescape : Json.escapeChar c = [c]
  · rcases Json.escapeChar_cases c with ⟨e, he, -⟩ | ⟨he, -⟩ | ⟨-, hquote, hslash, hc⟩
    · rw [he] at hescape
      cases hescape
    · rw [he] at hescape
      cases hescape
    have hn : c ≠ '\n' := by rintro rfl; exact absurd hc (by decide)
    have hr : c ≠ '\r' := by rintro rfl; exact absurd hc (by decide)
    rw [hescape]
    exact ⟨pos + c.utf8Size, by simp [stringEnd?, hquote, hslash, hn, hr, Cursor.advance]⟩
  · have hlength := escapeLength?_escapeChar rest hescape
    have hhead : ∃ cs, Json.escapeChar c ++ rest = '\\' :: cs := by
      rcases Json.escapeChar_cases c with ⟨e, he, -⟩ | ⟨he, -⟩ | ⟨he, -⟩
      · exact ⟨_, by rw [he]; rfl⟩
      · exact ⟨_, by rw [he]; rfl⟩
      · exact absurd he hescape
    obtain ⟨cs, hcs⟩ := hhead
    refine ⟨pos + Text.size (Json.escapeChar c), ?_⟩
    rw [← advanceBy_append]
    rw [hcs] at hlength ⊢
    simp [stringEnd?, hlength]

theorem stringEnd?_escaped (s : List Char) {fuel : ℕ} (hfuel : s.length < fuel) (pos : ℕ) :
    ∃ stop, stringEnd? '"' fuel ⟨s.flatMap Json.escapeChar ++ '"' :: r, pos⟩ = .ok ⟨r, stop⟩ := by
  obtain ⟨fuel, rfl⟩ := Nat.exists_eq_add_one.2 (Nat.zero_lt_of_lt hfuel)
  induction s generalizing fuel pos with
  | nil => exact ⟨_, rfl⟩
  | cons c s ih =>
    have hfuel : s.length < fuel := Nat.lt_of_succ_lt_succ hfuel
    obtain ⟨fuel, rfl⟩ := Nat.exists_eq_add_one.2 (Nat.zero_lt_of_lt hfuel)
    obtain ⟨next, hstep⟩ := stringEnd?_escapeChar c (s.flatMap Json.escapeChar ++ '"' :: r)
      (fuel + 1) pos
    obtain ⟨stop, hend⟩ := ih next fuel hfuel
    exact ⟨stop, by rw [List.flatMap_cons, List.append_assoc, hstep, hend]⟩

theorem string_quote (cs : List Char) (pos : ℕ) : string ⟨'"' :: cs, pos⟩ =
    match stringEnd? '"' (cs.length + 1) ⟨cs, pos + 1⟩ with
    | .ok d => .ok (⟨⟨pos, d.pos⟩, Text.take (d.pos - pos) ('"' :: cs)⟩, d)
    | .error e => .error e := by
  change (match stringEnd? '"' (cs.length + 1) ⟨cs, pos + 1⟩ with
    | .ok d => do
      goto d
      return ⟨⟨pos, d.pos⟩, Text.take (d.pos - pos) ('"' :: cs)⟩
    | .error e => fun _ => .error e : Parser Lexeme) ⟨'"' :: cs, pos⟩ = _
  cases stringEnd? '"' (cs.length + 1) ⟨cs, pos + 1⟩ <;> rfl

/-- A literal is one string. -/
theorem string_takes (s : List Char) : Takes string (Json.literal s) r fun _ => True := by
  intro pos
  have htext : Json.literal s ++ r = '"' :: (s.flatMap Json.escapeChar ++ '"' :: r) := by
    simp [Json.literal]
  have hfuel : s.length < (s.flatMap Json.escapeChar ++ '"' :: r).length + 1 := by
    have := Json.length_le_escaped s
    rw [List.length_append]
    omega
  obtain ⟨stop, hend⟩ := stringEnd?_escaped (r := r) s hfuel (pos + 1)
  exact ⟨_, stop, by rw [htext, string_quote, hend], trivial⟩

end Parser
end Bundler.JavaScript
