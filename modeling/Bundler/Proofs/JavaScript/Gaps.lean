import Bundler.Proofs.JavaScript.Reads
import Mathlib.Data.List.TakeWhile

/-! Tokens in a text and what stands in front of them. Between two tokens there are blanks and
comments only, whichever reader skips them, so a symbol or a word that is read stands in the text
behind such a gap. -/
namespace Bundler.JavaScript

/-! ### Gaps -/

/-- The characters that end a line comment. -/
def endsLine (c : Char) : Bool := isLineEnd c || c == '\r'

/-- The text `rest` is what blanks and comments leave of a text. A line comment goes up to a line
end, a block comment up to the first star with a slash behind it. A comment in the form of markup
goes up to a line end as well. -/
inductive Behind : List Char → List Char → Prop
  | refl (cs : List Char) : Behind cs cs
  | blank {c : Char} {cs rest : List Char} (hc : isBlank c = true) (h : Behind cs rest) :
      Behind (c :: cs) rest
  | line {body cs rest : List Char} (hbody : ∀ c ∈ body, endsLine c = false)
      (hstop : ∀ c ∈ cs.head?, endsLine c = true) (h : Behind cs rest) :
      Behind ('/' :: '/' :: (body ++ cs)) rest
  | block {body cs rest : List Char} (hbody : ¬ ['*', '/'] <:+: body) (h : Behind cs rest) :
      Behind ('/' :: '*' :: (body ++ '*' :: '/' :: cs)) rest
  | markup {mark body cs rest : List Char} (hmark : mark ∈ ["<!--".toList, "-->".toList])
      (hbody : ∀ c ∈ body, isLineEnd c = false) (hstop : ∀ c ∈ cs.head?, isLineEnd c = true)
      (h : Behind cs rest) : Behind (mark ++ (body ++ cs)) rest

theorem Behind.trans {cs mid rest : List Char} (h : Behind cs mid) (h' : Behind mid rest) :
    Behind cs rest := by
  induction h with
  | refl => exact h'
  | blank hc _ ih => exact .blank hc (ih h')
  | line hbody hstop _ ih => exact .line hbody hstop (ih h')
  | block hbody _ ih => exact .block hbody (ih h')
  | markup hmark hbody hstop _ ih => exact .markup hmark hbody hstop (ih h')

/-- The rest of a comment that ends with a line, and what is skipped behind it. -/
def InLine (ends : Char → Bool) (cs rest : List Char) : Prop :=
  ∃ body mid, cs = body ++ mid ∧ (∀ c ∈ body, ends c = false) ∧ (∀ c ∈ mid.head?, ends c = true) ∧
    Behind mid rest

namespace InLine

variable {ends : Char → Bool} {c : Char} {cs rest : List Char}

theorem cons (hc : ends c = false) (h : InLine ends cs rest) : InLine ends (c :: cs) rest := by
  obtain ⟨body, mid, rfl, hbody, hstop, h⟩ := h
  exact ⟨c :: body, mid, rfl, List.forall_mem_cons.mpr ⟨hc, hbody⟩, hstop, h⟩

theorem stop (hc : ends c = true) (h : Behind (c :: cs) rest) : InLine ends (c :: cs) rest :=
  ⟨[], c :: cs, rfl, by simp, by simpa using hc, h⟩

theorem of_append {front : List Char} (hfront : ∀ c ∈ front, ends c = false)
    (h : InLine ends (front ++ cs) rest) : InLine ends cs rest := by
  induction front with
  | nil => exact h
  | cons c front ih =>
    rw [List.forall_mem_cons] at hfront
    obtain ⟨body, mid, heq, hbody, hstop, h⟩ := h
    cases body with
    | nil =>
      rw [List.nil_append] at heq
      have hc := hstop c (heq ▸ rfl)
      rw [hfront.1] at hc
      cases hc
    | cons d body =>
      obtain ⟨-, heq⟩ := List.cons.inj heq
      exact ih hfront.2 ⟨body, mid, heq, (List.forall_mem_cons.mp hbody).2, hstop, h⟩

end InLine

/-- The rest of a block comment and what is skipped behind it, unless the comment is never
closed. -/
def InBlock (start : Cursor) (cs rest : List Char) : Prop :=
  rest = start.rest ∨ ∃ body mid, cs = body ++ '*' :: '/' :: mid ∧ (¬ ['*', '/'] <:+: body) ∧
    Behind mid rest

theorem not_closed_cons {c : Char} {body cs : List Char} (hc : c = '*' → (body ++ cs).head? ≠ some '/')
    (hbody : ¬ ['*', '/'] <:+: body) : ¬ ['*', '/'] <:+: c :: body := by
  intro hinfix
  rcases List.infix_cons_iff.mp hinfix with hprefix | hinfix
  · obtain ⟨rfl, body, rfl⟩ := List.cons_prefix_cons.mp hprefix
    exact hc rfl rfl
  · exact hbody hinfix

theorem InBlock.cons {start : Cursor} {c : Char} {cs rest : List Char}
    (hc : c = '*' → cs.head? ≠ some '/') (h : InBlock start cs rest) :
    InBlock start (c :: cs) rest := by
  rcases h with hrest | ⟨body, mid, rfl, hbody, h⟩
  · exact .inl hrest
  · exact .inr ⟨c :: body, mid, rfl, not_closed_cons hc hbody, h⟩

/-- What skipping leaves, by where it starts. -/
def TriviaMode.Leaves (mode : TriviaMode) (start : Cursor) (cs rest : List Char) : Prop :=
  match mode with
  | .blank => Behind cs rest
  | .line => InLine endsLine cs rest
  | .markupLine => InLine isLineEnd cs rest
  | .open => ∀ tail, cs = '*' :: tail → InBlock start tail rest
  | .block => InBlock start cs rest
  | .star => InBlock start ('*' :: cs) rest

/-- One character of a comment. -/
theorem TriviaMode.Leaves.of_next {mode : TriviaMode} {start : Cursor} {c : Char}
    {cs rest : List Char} (hm : mode ≠ .blank) (h : (mode.next c).Leaves start cs rest) :
    mode.Leaves start (c :: cs) rest := by
  cases mode with
  | blank => exact absurd rfl hm
  | line =>
    rw [TriviaMode.next] at h
    split_ifs at h with hc
    · exact .stop hc (.blank (isBlank_of_isLineEnd hc) h)
    · exact .cons (Bool.eq_false_iff.mpr hc) h
  | markupLine =>
    rw [TriviaMode.next] at h
    split_ifs at h with hc
    · exact .stop hc (.blank (isBlank_of_isLineEnd (by rw [hc, Bool.true_or])) h)
    · exact .cons (Bool.eq_false_iff.mpr hc) h
  | «open» =>
    rintro tail ⟨⟩
    exact h
  | block =>
    rw [TriviaMode.next] at h
    split_ifs at h with hc
    · obtain rfl := beq_iff_eq.mp hc
      exact h
    · exact InBlock.cons (fun heq => absurd (beq_iff_eq.mpr heq) hc) h
  | star =>
    rw [TriviaMode.next] at h
    split_ifs at h with hslash hstar
    · obtain rfl := beq_iff_eq.mp hslash
      exact .inr ⟨[], cs, rfl, by simp, h⟩
    · obtain rfl := beq_iff_eq.mp hstar
      exact InBlock.cons (by simp) h
    · have hc : c ≠ '*' := fun heq => hstar (beq_iff_eq.mpr heq)
      have hcons : InBlock start (c :: cs) rest := InBlock.cons (fun heq => absurd heq hc) h
      exact InBlock.cons (by simpa using hslash) hcons

theorem skipFrom_leaves (markup : Bool) (mode : TriviaMode) (start : Cursor) (pos : ℕ)
    (cs : List Char) : mode.Leaves start cs (skipFrom markup mode start pos cs).rest := by
  induction cs generalizing mode start pos with
  | nil =>
    cases mode with
    | blank => exact .refl _
    | line | markupLine => exact ⟨[], [], rfl, by simp, by simp, .refl _⟩
    | «open» => rintro tail ⟨⟩
    | block | star => exact .inl rfl
  | cons c cs ih =>
    by_cases hm : mode = .blank
    · subst hm
      rw [skipFrom_blank_cons]
      split_ifs with hblank hline hopen hmarkup
      · exact .blank hblank (ih .blank _ _)
      · rw [Bool.and_eq_true, beq_iff_eq, beq_iff_eq] at hline
        obtain ⟨rfl, hslash⟩ := hline
        obtain ⟨tail, rfl⟩ := List.head?_eq_some_iff.mp hslash
        have hin : InLine endsLine (['/'] ++ tail) _ := ih .line start (pos + '/'.utf8Size)
        obtain ⟨body, mid, htail, hbody, hstop, h⟩ := hin.of_append (by simp [endsLine, isLineEnd])
        rw [htail] at h ⊢
        exact .line hbody hstop h
      · rw [Bool.and_eq_true, beq_iff_eq, beq_iff_eq] at hopen
        obtain ⟨rfl, hstar⟩ := hopen
        obtain ⟨tail, rfl⟩ := List.head?_eq_some_iff.mp hstar
        have hin := ih .open ⟨'/' :: '*' :: tail, pos⟩ (pos + '/'.utf8Size) tail rfl
        rcases hin with hrest | ⟨body, mid, htail, hbody, h⟩
        · rw [hrest]
          exact .refl _
        · rw [htail] at h ⊢
          exact .block hbody h
      · rw [Bool.and_eq_true, opensMarkupComment, Bool.or_eq_true] at hmarkup
        obtain ⟨m, ms, tail, hmark, hms, heq⟩ : ∃ m ms tail, m :: ms ∈ ["<!--".toList, "-->".toList] ∧
            (∀ c ∈ ms, isLineEnd c = false) ∧ c :: cs = m :: (ms ++ tail) := by
          rcases hmarkup.2 with h | h <;> obtain ⟨tail, htail⟩ := Option.isSome_iff_exists.mp h
          · exact ⟨'<', ['!', '-', '-'], tail, by decide, by simp [isLineEnd], after?_eq_some.mp htail⟩
          · exact ⟨'-', ['-', '>'], tail, by decide, by simp [isLineEnd], after?_eq_some.mp htail⟩
        obtain ⟨rfl, rfl⟩ := List.cons.inj heq
        have hin : InLine isLineEnd (ms ++ tail) _ := ih .markupLine start (pos + c.utf8Size)
        obtain ⟨body, mid, htail, hbody, hstop, h⟩ := hin.of_append hms
        rw [htail] at h ⊢
        exact .markup hmark hbody hstop h
      · exact .refl _
    · rw [skipFrom_comment_cons _ _ _ _ _ hm]
      exact .of_next hm (ih _ _ _)

/-- Only a comment in the form of markup is skipped by one reader and not by the other. -/
theorem skipFrom_markup (mode : TriviaMode) (start : Cursor) (pos : ℕ) (cs : List Char)
    (h : opensMarkupComment (skipFrom false mode start pos cs).rest = false) :
    skipFrom true mode start pos cs = skipFrom false mode start pos cs := by
  induction cs generalizing mode start pos with
  | nil => cases mode <;> rfl
  | cons c cs ih =>
    by_cases hm : mode = .blank
    · subst hm
      rw [skipFrom_blank_cons] at h
      rw [skipFrom_blank_cons, skipFrom_blank_cons]
      simp only [Bool.false_and, Bool.true_and, Bool.false_eq_true, if_false] at h ⊢
      split_ifs at h ⊢ with hblank hline hopen hmarkup
      · exact ih _ _ _ h
      · exact ih _ _ _ h
      · exact ih _ _ _ h
      · rw [hmarkup] at h
        cases h
      · rfl
    · rw [skipFrom_comment_cons _ _ _ _ _ hm] at h ⊢
      rw [skipFrom_comment_cons _ _ _ _ _ hm]
      exact ih _ _ _ h

namespace Cursor

variable {c d : Cursor}

theorem behind_skip (c : Cursor) : Behind c.rest c.skip.rest :=
  skipFrom_leaves false .blank c c.pos c.rest

theorem behind_skipMarkup (c : Cursor) : Behind c.rest c.skipMarkup.rest :=
  skipFrom_leaves true .blank c c.pos c.rest

theorem skipMarkup_eq_skip (h : opensMarkupComment c.skip.rest = false) : c.skipMarkup = c.skip :=
  skipFrom_markup .blank c c.pos c.rest h

theorem behind_skipBlanks (c : Cursor) : Behind c.rest c.skipBlanks.rest := by
  rw [skipBlanks, advanceBy_eq]
  induction c.rest with
  | nil => exact .refl _
  | cons x cs ih =>
    rw [List.takeWhile_cons]
    split_ifs with hx
    · exact .blank hx ih
    · exact .refl _

/-- What stands in front of the end of a block comment. -/
theorem exists_body_of_behind {cs : List Char} {n : ℕ} (h : comment?.behind cs = some n) :
    ∃ body, (¬ ['*', '/'] <:+: body) ∧ cs = body ++ '*' :: '/' :: cs.drop n := by
  fun_induction comment?.behind cs generalizing n with
  | case1 cs =>
    cases h
    exact ⟨[], by simp, rfl⟩
  | case2 c cs hc ih =>
    obtain ⟨m, hm, rfl⟩ := Option.map_eq_some_iff.mp h
    obtain ⟨body, hbody, hcs⟩ := ih hm
    have hopen : c = '*' → (body ++ '*' :: '/' :: cs.drop m).head? ≠ some '/' := by
      rintro rfl hslash
      rw [← hcs] at hslash
      obtain ⟨tail, rfl⟩ := List.head?_eq_some_iff.mp hslash
      exact hc tail rfl rfl
    refine ⟨c :: body, not_closed_cons hopen hbody, ?_⟩
    rw [List.drop_succ_cons, List.cons_append, ← hcs]
  | case3 => cases h

theorem behind_of_comment? (h : c.comment? = some d) : Behind c.rest d.rest := by
  refine (behind_skipBlanks c).trans ?_
  rw [comment?] at h
  generalize c.skipBlanks = e at h
  obtain ⟨rest, pos⟩ := e
  split at h
  · rename_i cs hrest
    obtain rfl : rest = _ := hrest
    cases h
    set plain := fun x => !isLineEnd x && x != '\r'
    have hcs : cs = cs.takeWhile plain ++ cs.dropWhile plain := List.takeWhile_append_dropWhile.symm
    have hrest : (advanceBy (2 + (cs.takeWhile plain).length) ⟨'/' :: '/' :: cs, pos⟩).rest =
        cs.dropWhile plain := by
      rw [advanceBy_add, advanceBy_eq]
      exact (congrArg _ hcs).trans List.drop_left
    rw [hrest]
    nth_rewrite 1 [hcs]
    refine .line (fun x hx => ?_) (fun x hx => ?_) (.refl _)
    · simpa [plain, endsLine] using List.mem_takeWhile_imp hx
    · have hstop := List.head?_dropWhile_not plain cs
      rw [hx] at hstop
      simpa [plain, endsLine, or_iff_not_imp_left] using hstop
  · rename_i cs hrest
    obtain rfl : rest = _ := hrest
    split at h
    · rename_i n hn
      cases h
      obtain ⟨body, hbody, hcs⟩ := exists_body_of_behind hn
      rw [advanceBy_add, advanceBy_eq]
      change Behind ('/' :: '*' :: cs) (cs.drop n)
      nth_rewrite 1 [hcs]
      exact .block hbody (.refl _)
    · cases h
  · cases h

theorem behind_of_impliedSemicolon? {afterExpression : Bool}
    (h : c.impliedSemicolon? afterExpression = some d) : Behind c.rest d.rest := by
  have hfrom : ∀ n (c : Cursor), impliedFrom afterExpression n c = some d → Behind c.rest d.rest := by
    intro n
    induction n with
    | zero => simp [impliedFrom]
    | succ n ih =>
      intro c h
      rw [impliedFrom] at h
      split_ifs at h
      · cases h
        exact .refl _
      · obtain ⟨e, he, h⟩ := Option.bind_eq_some_iff.mp h
        exact (behind_of_comment? he).trans (ih e h)
  exact hfrom _ c h

end Cursor

/-! ### Tokens -/

/-- The first token of the text `cs` is `token`, and `rest` is what stands behind it. -/
def Token (token cs rest : List Char) : Prop := Behind cs (token ++ rest)

/-- The first token is this word. -/
def Word (w cs rest : List Char) : Prop := Token w cs rest ∧ word? (w ++ rest) = some w

theorem word?_prefix {cs w : List Char} (h : word? cs = some w) : w <+: cs := by
  rw [word?.eq_def] at h
  split at h
  · cases h
  split_ifs at h
  split at h
  · cases h
  · cases h
    exact List.take_prefix _ _

namespace Parser

variable {α β : Type} {c : Cursor} {R : β → Cursor → Prop}

/-- What is read first need not matter. -/
theorem Ensures.any {p : Parser α} {f : α → Parser β} (h : ∀ a d, Ensures (f a) d R) :
    Ensures (p >>= f) c R :=
  Ensures.bind (P := fun _ _ => True) (fun _ _ _ => trivial) fun a d _ => h a d

theorem Ensures.and {p : Parser α} {P Q : α → Cursor → Prop} (h : Ensures p c P)
    (h' : Ensures p c Q) : Ensures p c fun a d => P a d ∧ Q a d :=
  fun a d hp => ⟨h a d hp, h' a d hp⟩

theorem ahead_bind {f : List Char → Parser β} (h : Ensures (f c.skip.rest) c R) :
    Ensures (ahead >>= f) c R := h

theorem skipMarkup_bind {f : Unit → Parser β} (h : Ensures (f ()) c.skipMarkup R) :
    Ensures (skipMarkup >>= f) c R := h

theorem isAhead_bind {s : String} {f : Bool → Parser β}
    (h : Ensures (f (startsWith s.toList c.skip.rest)) c R) : Ensures (isAhead s >>= f) c R := h

theorem wordAhead_bind {f : Option String → Parser β}
    (h : Ensures (f ((word? c.skip.rest).map String.ofList)) c R) : Ensures (wordAhead >>= f) c R := h

theorem symbol_token {s : String} : Ensures (symbol s) c fun _ d => Token s.toList c.rest d.rest := by
  intro _ d h
  rw [symbol] at h
  split at h
  · rename_i rest hrest
    cases h
    have hskip := c.behind_skip
    rwa [after?_eq_some.mp hrest] at hskip
  · cases h

/-- A symbol that may be missing; then the parser stays where it is. -/
theorem optional_bind {s : String} {f : Bool → Parser β}
    (hsome : ∀ d, startsWith s.toList c.skip.rest = true → Token s.toList c.rest d.rest →
      Ensures (f true) d R)
    (hnone : startsWith s.toList c.skip.rest = false → Ensures (f false) c R) :
    Ensures (optional s >>= f) c R := by
  have hread : Ensures (optional s) c fun b d => b = startsWith s.toList c.skip.rest ∧
      (b = true → Token s.toList c.rest d.rest) ∧ (b = false → d = c) := by
    refine isAhead_bind (.ite (fun hb => ?_) fun hb => ?_)
    · exact symbol_token.bind fun _ d hd => .pure ⟨hb.symm, fun _ => hd, by simp⟩
    · exact .pure ⟨(Bool.eq_false_iff.mpr hb).symm, by simp, fun _ => rfl⟩
  refine hread.bind fun b d ⟨hb, htoken, hstay⟩ => ?_
  cases b with
  | true => exact hsome d hb.symm (htoken rfl)
  | false =>
    rw [hstay rfl]
    exact hnone hb.symm

/-- The word that is read is the one that is seen ahead. -/
theorem word_token : Ensures word c fun w d => word? c.skip.rest = some w.text ∧
    c.skip.rest = w.text ++ d.rest ∧ Word w.text c.rest d.rest := by
  refine skip_bind (cursor_bind ?_)
  split
  · rename_i w hw
    rintro _ _ ⟨⟩
    have hskip : c.skip.rest = w ++ c.skip.rest.drop w.length := by
      obtain ⟨rest, hrest⟩ := word?_prefix hw
      rw [← hrest, List.drop_left]
    have htext : c.skip.rest.take w.length = w := by
      rw [hskip, List.take_left]
    rw [Cursor.advanceBy_eq, htext]
    refine ⟨hw, hskip, ?_, ?_⟩
    · rw [Token, ← hskip]
      exact c.behind_skip
    · rwa [← hskip]
  · exact .fail

end Parser
end Bundler.JavaScript
