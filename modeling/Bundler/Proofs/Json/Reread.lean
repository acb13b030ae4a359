import Bundler.Proofs.Json.Number
import Bundler.Proofs.Json.Text

/-! Values read back from their text. Every value that has few enough brackets inside one another is
read back with its structure; only its decimals may be read as others. -/
namespace Bundler.Json

open Cursor

/-! ### What comes back -/

mutual

/-- The value that is read from the text of a value, where that many brackets may be opened. -/
def reread : Json → ℕ → Option Json
  | null, _ => some null
  | bool b, _ => some (bool b)
  | integer n, _ => (parse (integerText n)).toOption
  | decimal x, _ => (parse (decimalText x)).toOption
  | string s, _ => some (string s)
  | array _, 0 | object _, 0 => none
  | array vs, depth + 1 => (rereadItems vs depth).map array
  | object ms, depth + 1 => (rereadMembers ms depth).map fun ms => object (sortMembers ms)

def rereadItems : List Json → ℕ → Option (List Json)
  | [], _ => some []
  | v :: vs, depth => do return (← reread v depth) :: (← rereadItems vs depth)

def rereadMembers : List (String × Json) → ℕ → Option (List (String × Json))
  | [], _ => some []
  | (n, v) :: ms, depth => do return (n, ← reread v depth) :: (← rereadMembers ms depth)

end

/-! ### Reading single values -/

variable {s : Cursor} {r cs : List Char} {depth : ℕ}

theorem skipBlanks_eq {c : Char} (hs : s.rest = c :: cs) (hc : isBlank c = false) :
    s.skipBlanks = s := by
  rw [skipBlanks, hs, List.takeWhile_cons_of_neg (by simp [hc])]
  rfl

theorem word_eq (v : Json) (cs : List Char) (hs : s.rest = cs ++ r) :
    ∃ t : Cursor, word s v cs = .ok (v, t) ∧ t.rest = r := by
  induction cs generalizing s with
  | nil => exact ⟨s, rfl, hs⟩
  | cons c cs ih =>
    have hadvance : s.advance.rest = cs ++ r := by
      rw [Cursor.advance_rest, hs]
      rfl
    rw [word, hs]
    dsimp only [List.cons_append]
    rw [if_pos rfl]
    exact ih hadvance

theorem value_digit {c : Char} (hs : s.rest = c :: cs) (hc : c.isDigit = true) :
    value depth s = number s false := by
  rw [value.eq_def]
  dsimp only
  rw [skipBlanks_eq hs (isBlank_of_isDigit hc)]
  split <;> rename_i heq <;> cases hs.symm.trans heq <;> first | cases hc | exact if_pos hc

theorem value_minus (hs : s.rest = '-' :: cs) : value depth s = number s.advance true := by
  rw [value.eq_def]
  dsimp only
  rw [skipBlanks_eq hs rfl, hs]
  rfl

/-- What a number is read as depends on its text alone. -/
theorem settles_value_number (h : IsNumber cs) :
    ∃ result, ∀ depth r, Delimited r → ∀ s : Cursor, s.rest = cs ++ r →
      Outcome result r (value depth s) := by
  obtain ⟨n, hcs⟩ := h
  obtain ⟨c, ds, htext⟩ := n.exists_text_cons
  rcases hcs with rfl | rfl
  · obtain ⟨result, hresult⟩ := settles_number n false
    refine ⟨result, fun depth r hr s hs => ?_⟩
    rw [value_digit (by rw [hs, htext.1]; rfl) htext.2]
    exact hresult r hr s hs
  · obtain ⟨result, hresult⟩ := settles_number n true
    refine ⟨result, fun depth r hr s hs => ?_⟩
    rw [value_minus hs]
    exact hresult r hr s.advance (by rw [Cursor.advance_rest, hs]; rfl)

/-- A text that holds one value is read as that. -/
theorem toOption_parse {result : Option Json} (h : Outcome result [] (value depthLimit ⟨cs, 1, 0⟩)) :
    (parse cs).toOption = result := by
  rw [parse]
  cases hvalue : value depthLimit ⟨cs, 1, 0⟩ with
  | error e =>
    rw [hvalue] at h
    exact h.symm
  | ok a =>
    rw [hvalue] at h
    obtain ⟨hresult, hrest⟩ := h
    have hskip : a.2.skipBlanks.rest = [] := by
      rw [skipBlanks, hrest]
      exact hrest
    rw [hresult]
    simp [bind, Except.bind, hskip, pure, Except.pure, Except.toOption]

theorem value_number (h : IsNumber cs) (hr : Delimited r) (hs : s.rest = cs ++ r) :
    Outcome (parse cs).toOption r (value depth s) := by
  obtain ⟨result, hresult⟩ := settles_value_number h
  rw [toOption_parse (hresult depthLimit [] delimited_nil ⟨cs, 1, 0⟩ (List.append_nil cs).symm)]
  exact hresult depth r hr s hs

theorem value_null (hs : s.rest = ['n', 'u', 'l', 'l'] ++ r) :
    Outcome (some .null) r (value depth s) := by
  obtain ⟨t, ht, hrest⟩ := word_eq (s := s.advance) (r := r) .null ['u', 'l', 'l']
    (by rw [Cursor.advance_rest, hs]; rfl)
  rw [value.eq_def]
  dsimp only
  rw [skipBlanks_eq hs rfl, hs]
  dsimp only [List.cons_append]
  rw [ht]
  exact ⟨rfl, hrest⟩

theorem stringAfterQuote_literal (text : List Char)
    (hs : s.rest = text.flatMap escapeChar ++ '"' :: r) :
    ∃ t : Cursor, stringAfterQuote s = .ok (String.ofList text, t) ∧ t.rest = r := by
  have hfuel : text.length < s.rest.length + 1 := by
    have hlength := length_le_escaped text
    rw [hs, List.length_append]
    omega
  obtain ⟨t, ht, hbody⟩ := stringBody_literal hs hfuel []
  exact ⟨t, hbody, ht⟩

/-! ### Lists and objects -/

/-- The reader finds the values in front of whatever delimits them. -/
def Finds (reader : Cursor → Except ParseError (Json × Cursor)) (f : Json → Option Json) (v : Json) :
    Prop :=
  ∀ r, Delimited r → ∀ s : Cursor, s.rest = v.text ++ r → Outcome (f v) r (reader s)

variable {reader : Cursor → Except ParseError (Json × Cursor)} {f : Json → Option Json}

theorem delimited_laterItems (vs : List Json) (r : List Char) :
    Delimited (laterItems vs ++ ']' :: r) := by
  cases vs <;> rintro c ⟨⟩ <;> decide

theorem delimited_laterMembers (ms : List (String × Json)) (r : List Char) :
    Delimited (laterMembers ms ++ '}' :: r) := by
  cases ms <;> rintro c ⟨⟩ <;> decide

variable {c : Char} {fuel : ℕ}

theorem items_end (out : List Json) (hs : s.rest = ']' :: cs) :
    items reader (fuel + 1) s out = .ok (out.reverse, s.advance) := by
  rw [items.eq_def]
  dsimp only
  rw [skipBlanks_eq hs rfl, hs]
  cases out <;> rfl

theorem items_first (hs : s.rest = c :: cs) (hblank : isBlank c = false) (hclose : c ≠ ']') :
    items reader (fuel + 1) s [] = reader s >>= fun a => items reader fuel a.2 [a.1] := by
  rw [items.eq_def]
  dsimp only
  rw [skipBlanks_eq hs hblank, hs]
  split
  · rename_i heq
    cases heq
  · rename_i heq
    exact absurd (List.cons.inj heq).1 hclose
  · rfl
  · rename_i hne
    exact absurd rfl hne
  · rename_i hcase
    exact absurd rfl (hcase c cs rfl)

theorem items_later {first : Json} {out : List Json} {ds : List Char} (hs : s.rest = ',' :: ds)
    (hnext : s.advance.rest = c :: cs) (hblank : isBlank c = false) (hclose : c ≠ ']') :
    items reader (fuel + 1) s (first :: out) =
      reader s.advance >>= fun a => items reader fuel a.2 (a.1 :: first :: out) := by
  rw [items.eq_def]
  dsimp only
  rw [skipBlanks_eq hs rfl, hs]
  rw [skipBlanks_eq hnext hblank, hnext]
  split
  · rename_i heq
    cases heq
  · rename_i heq
    exact absurd (List.cons.inj heq).1 (by decide)
  · rename_i heq
    cases heq
  · split
    · rename_i heq
      cases heq
    · rename_i heq
      exact absurd (List.cons.inj heq).1 hclose
    · rfl
  · rename_i hcase _
    exact absurd rfl (hcase ds)

/-- One reader after another finds what both find. -/
theorem Outcome.bind {α β : Type} {result : Option α} {outcome : Except ParseError (α × Cursor)}
    {rest : List Char} {next : α × Cursor → Except ParseError (β × Cursor)} {g : α → Option β}
    (h : Outcome result rest outcome)
    (hnext : ∀ a t, result = some a → t.rest = rest → Outcome (g a) r (next (a, t))) :
    Outcome (result.bind g) r (outcome >>= next) := by
  cases outcome with
  | error e =>
    rw [show result = none from h]
    rfl
  | ok a =>
    obtain ⟨hresult, hrest⟩ := h
    rw [hresult]
    exact hnext a.1 a.2 hresult hrest

/-- Items are read one after the other. -/
theorem outcome_items {vs : List Json} (hall : ∀ v ∈ vs, Finds reader f v) (first : Json)
    (out : List Json) (hfuel : vs.length < fuel) (hs : s.rest = laterItems vs ++ ']' :: r) :
    Outcome ((vs.mapM f).map ((first :: out).reverse ++ ·)) r (items reader fuel s (first :: out)) := by
  obtain ⟨fuel, rfl⟩ := Nat.exists_eq_add_one.2 (Nat.zero_lt_of_lt hfuel)
  induction vs generalizing s first out fuel with
  | nil =>
    rw [items_end _ hs]
    exact ⟨by simp, by rw [Cursor.advance_rest, hs]; rfl⟩
  | cons v vs ih =>
    obtain ⟨c, cs, htext, hblank, hclose⟩ := exists_text_head v
    have hadvance : s.advance.rest = v.text ++ (laterItems vs ++ ']' :: r) := by
      rw [Cursor.advance_rest, hs, laterItems, itemsText_cons, ← List.append_assoc]
      rfl
    have hhead : s.advance.rest = c :: (cs ++ (laterItems vs ++ ']' :: r)) := by
      rw [hadvance, htext]
      rfl
    have hread := hall v (List.mem_cons_self ..) _ (delimited_laterItems vs r) s.advance hadvance
    have hresult : ((v :: vs).mapM f).map ((first :: out).reverse ++ ·) =
        (f v).bind fun w => (vs.mapM f).map ((w :: first :: out).reverse ++ ·) := by
      rw [List.mapM_cons]
      cases f v <;> cases vs.mapM f <;> simp
    rw [items_later hs hhead hblank hclose, hresult]
    refine hread.bind fun w t _ ht => ?_
    obtain ⟨fuel, rfl⟩ := Nat.exists_eq_add_one.2 (Nat.zero_lt_of_lt (Nat.lt_of_succ_lt_succ hfuel))
    exact ih (fun w hw => hall w (List.mem_cons_of_mem v hw)) w (first :: out) ht fuel
      (Nat.lt_of_succ_lt_succ hfuel)

theorem outcome_list {vs : List Json} (hall : ∀ v ∈ vs, Finds reader f v) (hfuel : vs.length < fuel)
    (hs : s.rest = itemsText vs ++ ']' :: r) :
    Outcome (vs.mapM f) r (items reader fuel s []) := by
  obtain ⟨fuel, rfl⟩ := Nat.exists_eq_add_one.2 (Nat.zero_lt_of_lt hfuel)
  cases vs with
  | nil =>
    rw [items_end _ hs]
    exact ⟨rfl, by rw [Cursor.advance_rest, hs]; rfl⟩
  | cons v vs =>
    obtain ⟨c, cs, htext, hblank, hclose⟩ := exists_text_head v
    rw [itemsText_cons, List.append_assoc] at hs
    have hhead : s.rest = c :: (cs ++ (laterItems vs ++ ']' :: r)) := by
      rw [hs, htext]
      rfl
    have hread := hall v (List.mem_cons_self ..) _ (delimited_laterItems vs r) s hs
    have hresult : (v :: vs).mapM f = (f v).bind fun w => (vs.mapM f).map ([w].reverse ++ ·) := by
      rw [List.mapM_cons]
      cases f v <;> cases vs.mapM f <;> simp
    rw [items_first hhead hblank hclose, hresult]
    refine hread.bind fun w t _ ht => ?_
    exact outcome_items (fun w hw => hall w (List.mem_cons_of_mem v hw)) w []
      (Nat.lt_of_succ_lt_succ hfuel) ht

/-- A member is read with its name. -/
theorem outcome_member {n : String} {v : Json} (hv : Finds reader f v) (hr : Delimited r)
    (hs : s.rest = literal n.toList ++ ':' :: v.text ++ r) :
    Outcome ((f v).map (n, ·)) r (member reader s) := by
  have hquote : s.advance.rest = n.toList.flatMap escapeChar ++ '"' :: (':' :: (v.text ++ r)) := by
    rw [Cursor.advance_rest, hs, literal]
    simp
  obtain ⟨t, ht, hrest⟩ := stringAfterQuote_literal _ hquote
  have hread := hv r hr t.advance (by rw [Cursor.advance_rest, hrest]; rfl)
  have hmember : member reader s = reader t.advance >>= fun a => .ok ((n, a.1), a.2) := by
    rw [member, ht, String.ofList_toList]
    dsimp only [bind, Except.bind]
    rw [skipBlanks_eq hrest rfl, hrest]
    rfl
  rw [hmember, Option.map_eq_bind]
  exact hread.bind fun w u _ hu => ⟨rfl, hu⟩

theorem members_end (out : List (String × Json)) (hs : s.rest = '}' :: cs) :
    members reader (fuel + 1) s out = .ok (out.reverse, s.advance) := by
  rw [members.eq_def]
  dsimp only
  rw [skipBlanks_eq hs rfl, hs]
  cases out <;> rfl

theorem members_first (hs : s.rest = '"' :: cs) :
    members reader (fuel + 1) s [] =
      member reader s >>= fun a => members reader fuel a.2 [a.1] := by
  rw [members.eq_def]
  dsimp only
  rw [skipBlanks_eq hs rfl, hs]
  rfl

theorem members_later {first : String × Json} {out : List (String × Json)} {ds : List Char}
    (hs : s.rest = ',' :: ds) (hnext : s.advance.rest = '"' :: cs) :
    members reader (fuel + 1) s (first :: out) =
      member reader s.advance >>= fun a => members reader fuel a.2 (a.1 :: first :: out) := by
  rw [members.eq_def]
  dsimp only
  rw [skipBlanks_eq hs rfl, hs]
  rw [skipBlanks_eq hnext rfl, hnext]
  rfl

/-- The reader's answer for each member, with its name. -/
def named (f : Json → Option Json) (m : String × Json) : Option (String × Json) :=
  (f m.2).map (m.1, ·)

/-- Members are read one after the other. -/
theorem outcome_members {ms : List (String × Json)} (hall : ∀ m ∈ ms, Finds reader f m.2)
    (first : String × Json) (out : List (String × Json)) (hfuel : ms.length < fuel)
    (hs : s.rest = laterMembers ms ++ '}' :: r) :
    Outcome ((ms.mapM (named f)).map ((first :: out).reverse ++ ·)) r
      (members reader fuel s (first :: out)) := by
  obtain ⟨fuel, rfl⟩ := Nat.exists_eq_add_one.2 (Nat.zero_lt_of_lt hfuel)
  induction ms generalizing s first out fuel with
  | nil =>
    rw [members_end _ hs]
    exact ⟨by simp, by rw [Cursor.advance_rest, hs]; rfl⟩
  | cons m ms ih =>
    obtain ⟨n, v⟩ := m
    have hadvance : s.advance.rest =
        literal n.toList ++ ':' :: v.text ++ (laterMembers ms ++ '}' :: r) := by
      rw [Cursor.advance_rest, hs, laterMembers, membersText_cons, ← List.append_assoc]
      rfl
    have hread := outcome_member (hall (n, v) (List.mem_cons_self ..)) (delimited_laterMembers ms r)
      hadvance
    have hresult : ((( n, v) :: ms).mapM (named f)).map ((first :: out).reverse ++ ·) =
        ((f v).map (n, ·)).bind fun w =>
          (ms.mapM (named f)).map ((w :: first :: out).reverse ++ ·) := by
      rw [List.mapM_cons, named]
      cases f v <;> cases ms.mapM (named f) <;> simp
    rw [members_later hs hadvance, hresult]
    refine hread.bind fun w t _ ht => ?_
    obtain ⟨fuel, rfl⟩ := Nat.exists_eq_add_one.2 (Nat.zero_lt_of_lt (Nat.lt_of_succ_lt_succ hfuel))
    exact ih (fun m hm => hall m (List.mem_cons_of_mem _ hm)) w (first :: out) ht fuel
      (Nat.lt_of_succ_lt_succ hfuel)

theorem outcome_object {ms : List (String × Json)} (hall : ∀ m ∈ ms, Finds reader f m.2)
    (hfuel : ms.length < fuel) (hs : s.rest = membersText ms ++ '}' :: r) :
    Outcome (ms.mapM (named f)) r (members reader fuel s []) := by
  obtain ⟨fuel, rfl⟩ := Nat.exists_eq_add_one.2 (Nat.zero_lt_of_lt hfuel)
  cases ms with
  | nil =>
    rw [members_end _ hs]
    exact ⟨rfl, by rw [Cursor.advance_rest, hs]; rfl⟩
  | cons m ms =>
    obtain ⟨n, v⟩ := m
    rw [membersText_cons, List.append_assoc] at hs
    have hread := outcome_member (hall (n, v) (List.mem_cons_self ..)) (delimited_laterMembers ms r) hs
    have hresult : ((n, v) :: ms).mapM (named f) =
        ((f v).map (n, ·)).bind fun w => (ms.mapM (named f)).map ([w].reverse ++ ·) := by
      rw [List.mapM_cons, named]
      cases f v <;> cases ms.mapM (named f) <;> simp
    rw [members_first hs, hresult]
    refine hread.bind fun w t _ ht => ?_
    exact outcome_members (fun m hm => hall m (List.mem_cons_of_mem _ hm)) w []
      (Nat.lt_of_succ_lt_succ hfuel) ht

/-! ### Whole values -/

theorem rereadItems_eq (vs : List Json) (depth : ℕ) :
    rereadItems vs depth = vs.mapM (reread · depth) := by
  induction vs with
  | nil => rfl
  | cons v vs ih => rw [rereadItems, ih, List.mapM_cons]

theorem rereadMembers_eq (ms : List (String × Json)) (depth : ℕ) :
    rereadMembers ms depth = ms.mapM (named (reread · depth)) := by
  induction ms with
  | nil => rfl
  | cons m ms ih =>
    obtain ⟨n, v⟩ := m
    rw [rereadMembers, ih, List.mapM_cons, named]
    cases reread v depth <;> rfl

theorem value_bool (b : Bool) (hs : s.rest = (Json.bool b).text ++ r) :
    Outcome (some (.bool b)) r (value depth s) := by
  cases b with
  | false =>
    obtain ⟨t, ht, hrest⟩ := word_eq (s := s.advance) (r := r)
      (.bool false) ['a', 'l', 's', 'e'] (by rw [Cursor.advance_rest, hs]; rfl)
    have hhead : s.rest = 'f' :: (['a', 'l', 's', 'e'] ++ r) := hs
    rw [value.eq_def]
    dsimp only
    rw [skipBlanks_eq hhead rfl, hhead]
    change Outcome _ r (word s.advance _ _)
    rw [ht]
    exact ⟨rfl, hrest⟩
  | true =>
    obtain ⟨t, ht, hrest⟩ := word_eq (s := s.advance) (r := r)
      (.bool true) ['r', 'u', 'e'] (by rw [Cursor.advance_rest, hs]; rfl)
    have hhead : s.rest = 't' :: (['r', 'u', 'e'] ++ r) := hs
    rw [value.eq_def]
    dsimp only
    rw [skipBlanks_eq hhead rfl, hhead]
    change Outcome _ r (word s.advance _ _)
    rw [ht]
    exact ⟨rfl, hrest⟩

theorem value_string (t : String) (hs : s.rest = (Json.string t).text ++ r) :
    Outcome (some (.string t)) r (value depth s) := by
  have hhead : s.rest = '"' :: (t.toList.flatMap escapeChar ++ '"' :: r) := by
    rw [hs, text, literal]
    simp
  obtain ⟨u, hu, hrest⟩ := stringAfterQuote_literal (s := s.advance) (r := r) t.toList
    (by rw [Cursor.advance_rest, hhead]; rfl)
  rw [value.eq_def]
  dsimp only
  rw [skipBlanks_eq hhead rfl, hhead]
  change Outcome _ r (stringAfterQuote s.advance >>= fun a => .ok (Json.string a.1, a.2))
  rw [hu, String.ofList_toList]
  exact ⟨rfl, hrest⟩

theorem value_array (hs : s.rest = '[' :: cs) : value (depth + 1) s =
    items (value depth) (s.rest.length + 1) s.advance [] >>= fun a => .ok (.array a.1, a.2) := by
  rw [value.eq_def]
  dsimp only
  rw [skipBlanks_eq hs rfl, hs]
  rfl

theorem value_object (hs : s.rest = '{' :: cs) : value (depth + 1) s =
    members (value depth) (s.rest.length + 1) s.advance [] >>= fun a =>
      .ok (.object (sortMembers a.1), a.2) := by
  rw [value.eq_def]
  dsimp only
  rw [skipBlanks_eq hs rfl, hs]
  rfl

theorem value_array_zero (hs : s.rest = '[' :: cs) : value 0 s = s.failNext .recursionLimit := by
  rw [value.eq_def]
  dsimp only
  rw [skipBlanks_eq hs rfl, hs]
  rfl

theorem value_object_zero (hs : s.rest = '{' :: cs) : value 0 s = s.failNext .recursionLimit := by
  rw [value.eq_def]
  dsimp only
  rw [skipBlanks_eq hs rfl, hs]
  rfl

/-- What the reader makes of the text of a value. -/
theorem finds_value (v : Json) (depth : ℕ) : Finds (value depth) (reread · depth) v := by
  induction v using inductionOn generalizing depth with
  | null =>
    intro r hr s hs
    simp only [reread]
    exact value_null hs
  | bool b =>
    intro r hr s hs
    simp only [reread]
    exact value_bool b hs
  | integer n =>
    intro r hr s hs
    simp only [reread]
    exact value_number (isNumber_integerText n) hr hs
  | decimal x =>
    intro r hr s hs
    simp only [reread]
    rw [text] at hs
    rcases decimalText_cases x with h | h
    · rw [h] at hs ⊢
      have hnull : (parse ['n', 'u', 'l', 'l']).toOption = some .null :=
        toOption_parse (value_null rfl)
      rw [hnull]
      exact value_null hs
    · exact value_number h hr hs
  | string t =>
    intro r hr s hs
    simp only [reread]
    exact value_string t hs
  | array vs ih =>
    intro r hr s hs
    have hhead : s.rest = '[' :: (itemsText vs ++ ']' :: r) := by
      rw [hs, text]
      simp
    cases depth with
    | zero =>
      rw [value_array_zero hhead, failNext, hhead]
      simp [reread, Outcome]
    | succ depth =>
      have hfuel : vs.length < s.rest.length + 1 := by
        have hlength := length_le_itemsText vs
        rw [hhead, List.length_cons, List.length_append]
        omega
      have hread := outcome_list (fun v hv => ih v hv depth) hfuel (s := s.advance) (r := r)
        (by rw [Cursor.advance_rest, hhead]; rfl)
      simp only [reread]
      rw [value_array hhead, rereadItems_eq, Option.map_eq_bind]
      exact hread.bind fun ws t _ ht => ⟨rfl, ht⟩
  | object ms ih =>
    intro r hr s hs
    have hhead : s.rest = '{' :: (membersText ms ++ '}' :: r) := by
      rw [hs, text]
      simp
    cases depth with
    | zero =>
      rw [value_object_zero hhead, failNext, hhead]
      simp [reread, Outcome]
    | succ depth =>
      have hfuel : ms.length < s.rest.length + 1 := by
        have hlength := length_le_membersText ms
        rw [hhead, List.length_cons, List.length_append]
        omega
      have hread := outcome_object (fun m hm => ih m hm depth) hfuel (s := s.advance) (r := r)
        (by rw [Cursor.advance_rest, hhead]; rfl)
      simp only [reread]
      rw [value_object hhead, rereadMembers_eq, Option.map_eq_bind]
      exact hread.bind fun ws t _ ht => ⟨rfl, ht⟩

/-- What is read from the text of a value. -/
theorem parse_text (v : Json) : (parse v.text).toOption = v.reread depthLimit :=
  toOption_parse (finds_value v depthLimit [] delimited_nil ⟨v.text, 1, 0⟩ (List.append_nil _).symm)

end Bundler.Json
