import Bundler.JavaScript.FrontEnd
import Bundler.Proofs.JavaScript.Calls
import Bundler.Proofs.Json.Literal
import Mathlib.Data.Nat.Digits.Defs

/-! What string literals mean. A literal is read in pieces by the grammar of the language, and
the pieces give the code units of its value. A bundler that decodes it keeps all but a few of
them: `\b`, `\f`, `\v`, halves of characters, and the line ends that are not a line feed. -/
namespace Bundler.JavaScript

/-! ### Code units -/

/-- The code units of a character with a code. -/
def codeUnits (n : ℕ) : List ℕ :=
  if n < 0x10000 then [n] else [0xD800 + (n - 0x10000) / 0x400, 0xDC00 + (n - 0x10000) % 0x400]

def utf16 (text : List Char) : List ℕ := text.flatMap fun c => codeUnits c.toNat

/-- The codes that name no character. -/
def IsSurrogate (n : ℕ) : Prop := 0xD800 ≤ n ∧ n ≤ 0xDFFF

instance (n : ℕ) : Decidable (IsSurrogate n) := inferInstanceAs (Decidable (_ ∧ _))

theorem toNat_valid (c : Char) : ¬ IsSurrogate c.toNat ∧ c.toNat < 0x110000 := by
  have hvalid : c.toNat.isValidChar := c.valid
  simp only [Nat.isValidChar] at hvalid
  rw [IsSurrogate]
  omega

@[simp] theorem utf16_nil : utf16 [] = [] := rfl

@[simp] theorem utf16_cons (c : Char) (cs : List Char) :
    utf16 (c :: cs) = codeUnits c.toNat ++ utf16 cs := rfl

@[simp] theorem utf16_append (s t : List Char) : utf16 (s ++ t) = utf16 s ++ utf16 t := by
  simp [utf16]

/-- The first character of a text can be told from its code units. -/
theorem codeUnits_append_inj {c d : Char} {xs ys : List ℕ}
    (h : codeUnits c.toNat ++ xs = codeUnits d.toNat ++ ys) : c = d ∧ xs = ys := by
  have hc := toNat_valid c
  have hd := toNat_valid d
  rw [IsSurrogate] at hc hd
  have hcodes : c.toNat = d.toNat ∧ xs = ys := by
    rw [codeUnits, codeUnits] at h
    split_ifs at h <;> simp only [List.cons_append, List.nil_append, List.cons.injEq] at h
    · exact h
    · omega
    · omega
    · exact ⟨by omega, h.2.2⟩
  exact ⟨Char.toNat_inj.mp hcodes.1, hcodes.2⟩

theorem codeUnits_ne_nil (n : ℕ) : codeUnits n ≠ [] := by
  rw [codeUnits]
  split_ifs <;> simp

theorem utf16_injective : Function.Injective utf16 := by
  intro s t h
  induction s generalizing t with
  | nil =>
    cases t with
    | nil => rfl
    | cons d t => simp [codeUnits_ne_nil] at h
  | cons c s ih =>
    cases t with
    | nil => simp [codeUnits_ne_nil] at h
    | cons d t =>
      obtain ⟨rfl, hrest⟩ := codeUnits_append_inj h
      rw [ih hrest]

/-! ### The grammar of literals -/

def hexDigit? (c : Char) : Option ℕ :=
  if '0' ≤ c ∧ c ≤ '9' then some (c.toNat - '0'.toNat)
  else if 'a' ≤ c ∧ c ≤ 'f' then some (c.toNat - 'a'.toNat + 10)
  else if 'A' ≤ c ∧ c ≤ 'F' then some (c.toNat - 'A'.toNat + 10)
  else none

/-- The number that hexadecimal digits write. -/
def hexNumber? (digits : List Char) : Option ℕ :=
  (digits.mapM hexDigit?).map fun values => Nat.ofDigits 16 values.reverse

/-- What stands behind `\u`, and its code: four digits or any number in braces. -/
inductive UnicodeEscape : List Char → ℕ → Prop
  | four {digits : List Char} {n : ℕ} (hlength : digits.length = 4)
      (hn : hexNumber? digits = some n) : UnicodeEscape digits n
  | braced {digits : List Char} {n : ℕ} (hne : digits ≠ []) (hn : hexNumber? digits = some n)
      (hle : n ≤ 0x10FFFF) : UnicodeEscape ('{' :: digits ++ ['}']) n

def lineEnds : List (List Char) := [['\n'], ['\r', '\n'], ['\r'], ['\u2028'], ['\u2029']]

/-- The letters that stand for another character behind a backslash, and the signs that
stand for themselves there instead of ending the literal. -/
def singleEscapes : List (Char × Char) :=
  [('\x27', '\x27'), ('"', '"'), ('\\', '\\'), ('b', '\x08'), ('f', '\x0c'), ('n', '\n'),
    ('r', '\r'), ('t', '\t'), ('v', '\x0b')]

/-- A piece of the text between the quotes. -/
inductive Piece where
  | char (c : Char)
  /-- A backslash, a character, and what it stands for. -/
  | escape (c value : Char)
  | code (n : ℕ)
  /-- A line end of a template, which counts as a line feed. -/
  | lineEnd (text : List Char)
  /-- A line end behind a backslash, which does not count. -/
  | continuation (text : List Char)

namespace Piece

/-- The code units that a piece adds to the value of its literal. -/
def units : Piece → List ℕ
  | char c => codeUnits c.toNat
  | escape _ value => codeUnits value.toNat
  | code n => codeUnits n
  | lineEnd _ => codeUnits '\n'.toNat
  | continuation _ => []

/-- What a piece of a literal is written as, in front of a rest. A line end is as long as it can
be, and an octal number is no piece. -/
inductive At (quote : Char) : Piece → List Char → List Char → Prop
  | char {c : Char} {rest : List Char} (hslash : c ≠ '\\') (hquote : c ≠ quote) (hreturn : c ≠ '\r')
      (hline : c = '\n' → quote = '\x60')
      (hsubstitution : ¬ (quote = '\x60' ∧ c = '$' ∧ rest.head? = some '{')) :
      At quote (.char c) [c] rest
  | lineEnd {text rest : List Char} (hquote : quote = '\x60')
      (htext : text = ['\r', '\n'] ∨ text = ['\r'] ∧ rest.head? ≠ some '\n') :
      At quote (.lineEnd text) text rest
  | single {c value : Char} {rest : List Char} (hc : (c, value) ∈ singleEscapes) :
      At quote (.escape c value) ['\\', c] rest
  | null {rest : List Char} (hrest : ∀ c ∈ rest.head?, ¬ c.isDigit) :
      At quote (.escape '0' '\x00') ['\\', '0'] rest
  | itself {c : Char} {rest : List Char} (hc : c ∉ singleEscapes.map Prod.fst) (hu : c ≠ 'u')
      (hx : c ≠ 'x') (hdigit : c.isDigit → quote ≠ '\x60' ∧ (c = '8' ∨ c = '9'))
      (hline : [c] ∉ lineEnds) : At quote (.escape c c) ['\\', c] rest
  | hex {digits rest : List Char} {n : ℕ} (hlength : digits.length = 2)
      (hn : hexNumber? digits = some n) : At quote (.code n) ('\\' :: 'x' :: digits) rest
  | unicode {text rest : List Char} {n : ℕ} (hn : UnicodeEscape text n) :
      At quote (.code n) ('\\' :: 'u' :: text) rest
  | continuation {text rest : List Char} (htext : text ∈ lineEnds)
      (hreturn : text = ['\r'] → rest.head? ≠ some '\n') :
      At quote (.continuation text) ('\\' :: text) rest

/-- Whether decoding keeps a piece. -/
def IsKept : Piece → Prop
  | char _ => True
  | escape c _ => c ∉ ['b', 'f', 'v']
  | code n => ¬ IsSurrogate n
  | lineEnd _ => False
  | continuation text => text = ['\n']

instance : DecidablePred IsKept
  | char _ => inferInstanceAs (Decidable True)
  | escape _ _ => inferInstanceAs (Decidable (_ ∉ _))
  | code _ => inferInstanceAs (Decidable ¬ _)
  | lineEnd _ => inferInstanceAs (Decidable False)
  | continuation _ => inferInstanceAs (Decidable (_ = _))

/-- What decoding makes of a piece. -/
def decoded : Piece → List Char
  | char c => [c]
  | escape c value => if c ∈ ['b', 'f', 'v'] then [c] else [value]
  | code n => if n.isValidChar then [Char.ofNat n] else []
  | lineEnd text => text
  | continuation text => if text = ['\n'] then [] else text

end Piece

/-- The pieces of the text between two quotes. -/
inductive Consists (quote : Char) : List Char → List Piece → Prop
  | nil : Consists quote [] []
  | cons {p : Piece} {text rest : List Char} {ps : List Piece} (hp : p.At quote text rest)
      (h : Consists quote rest ps) : Consists quote (text ++ rest) (p :: ps)

/-! ### Decoding -/

namespace Literal

theorem hexDigit?_eq_some {c : Char} {v : ℕ} (h : hexDigit? c = some v) :
    hexValue c = v ∧ v < 16 ∧ isHexDigit c = true := by
  rw [hexDigit?] at h
  simp only [Char.le_def, UInt32.le_iff_toNat_le] at h
  have hupper : c.isUpper = decide ('A'.val ≤ c.val ∧ c.val ≤ 'Z'.val) := rfl
  rw [hexValue, isHexDigit, Char.isDigit, hupper]
  simp only [Char.le_def, UInt32.le_iff_toNat_le, ge_iff_le]
  simp only [Char.toNat, Char.reduceVal, UInt32.reduceToNat] at h ⊢
  split_ifs at h ⊢ <;> simp at * <;> omega

theorem mapM_hexDigit? {digits : List Char} {values : List ℕ}
    (h : digits.mapM hexDigit? = some values) :
    digits.map hexValue = values ∧ (∀ v ∈ values, v < 16) ∧ ∀ c ∈ digits, isHexDigit c = true := by
  induction digits generalizing values with
  | nil =>
    cases h
    simp
  | cons c cs ih =>
    rw [List.mapM_cons] at h
    cases hc : hexDigit? c with
    | none => simp [hc] at h
    | some v =>
      cases hcs : cs.mapM hexDigit? with
      | none => simp [hc, hcs] at h
      | some vs =>
        simp only [hc, hcs, Option.bind_eq_bind, Option.bind_some, Option.pure_def,
          Option.some.injEq] at h
        obtain ⟨hvalue, hlt, hkind⟩ := hexDigit?_eq_some hc
        obtain ⟨hvalues, hlts, hkinds⟩ := ih hcs
        exact ⟨by rw [List.map_cons, hvalue, hvalues, h],
          h ▸ List.forall_mem_cons.mpr ⟨hlt, hlts⟩, List.forall_mem_cons.mpr ⟨hkind, hkinds⟩⟩

theorem hexNumber?_eq_some {digits : List Char} {n : ℕ} (h : hexNumber? digits = some n) :
    digits.foldl (fun n c => n * 16 + hexValue c) 0 = n ∧ n < 16 ^ digits.length ∧
      ∀ c ∈ digits, isHexDigit c = true := by
  obtain ⟨values, hvalues, rfl⟩ := Option.map_eq_some_iff.mp h
  obtain ⟨rfl, hlts, hkinds⟩ := mapM_hexDigit? hvalues
  have hlt := Nat.ofDigits_lt_base_pow_length (b := 16) (l := (digits.map hexValue).reverse)
    (by decide) fun v hv => hlts v (List.mem_reverse.mp hv)
  rw [List.length_reverse, List.length_map] at hlt
  refine ⟨?_, hlt, hkinds⟩
  rw [Nat.ofDigits_eq_foldr, List.foldr_reverse, List.foldl_map]
  simp only [Nat.cast_id, Nat.add_comm, Nat.mul_comm]

theorem ofCode_of_hexNumber? {digits : List Char} {n : ℕ} (hne : digits ≠ [])
    (h : hexNumber? digits = some n) : ofCode digits = (Piece.code n).decoded := by
  obtain ⟨hvalue, -, hkinds⟩ := hexNumber?_eq_some h
  have hsign : (digits.head? == some '+') = false := by
    rw [beq_eq_false_iff_ne]
    exact fun hhead => absurd (hkinds _ (List.mem_of_head? hhead)) (by decide)
  have hall : digits.all isHexDigit = true := List.all_eq_true.mpr hkinds
  have hempty : digits.isEmpty = false := List.isEmpty_eq_false_iff.mpr hne
  rw [ofCode, hsign, Piece.decoded]
  by_cases hv : n.isValidChar <;>
    simp only [hempty, hall, hvalue, hv, Bool.false_eq_true, if_false, if_true, decide_true,
      decide_false, Bool.not_true, Bool.not_false, Bool.or_false, Bool.or_true]

theorem decodeFrom_congr {n m : ℕ} {cs : List Char} (hn : cs.length ≤ n) (hm : cs.length ≤ m) :
    decodeFrom n cs = decodeFrom m cs := by
  induction n generalizing m cs with
  | zero =>
    obtain rfl := List.length_eq_zero_iff.mp (Nat.le_zero.mp hn)
    cases m <;> rfl
  | succ n ih =>
    cases m with
    | zero =>
      obtain rfl := List.length_eq_zero_iff.mp (Nat.le_zero.mp hm)
      rfl
    | succ m =>
      rw [decodeFrom.eq_def, decodeFrom.eq_def (m + 1)]
      dsimp only
      split
      · rfl
      case h_6 cs =>
        have hle := (List.dropWhile_suffix (· != '}') (l := cs)).length_le
        refine congrArg _ (ih ?_ ?_) <;>
          simp only [List.length_cons, List.length_drop] at * <;> omega
      all_goals first | refine congrArg _ (ih ?_ ?_) | refine ih ?_ ?_
      all_goals
        simp only [List.length_cons, List.length_drop] at *
        omega

theorem decode_eq (cs : List Char) : decode cs = decodeFrom (cs.length + 1) cs :=
  decodeFrom_congr (Nat.le_refl _) (Nat.le_succ _)

theorem decodeFrom_eq (cs : List Char) {n : ℕ} (h : cs.length ≤ n) : decodeFrom n cs = decode cs :=
  decodeFrom_congr h (Nat.le_refl _)

variable {c : Char} {cs : List Char}

theorem decode_cons (hc : c ≠ '\\') : decode (c :: cs) = c :: decode cs := by
  have htail := decodeFrom_eq cs (Nat.le_add_right _ 1)
  rw [decode_eq, decodeFrom.eq_def]
  dsimp only
  split <;> simp_all

/-- Most characters stand for themselves behind a backslash. -/
theorem decode_escape (hc : c ∉ ['n', 't', 'r', '0', 'u', 'x', '\n']) :
    decode ('\\' :: c :: cs) = c :: decode cs := by
  have htail := decodeFrom_eq cs (Nat.le_add_right _ 2)
  simp only [List.mem_cons, List.not_mem_nil, or_false, not_or] at hc
  rw [decode_eq, decodeFrom.eq_def]
  dsimp only [List.length_cons]
  split <;> grind

theorem decode_single {v : Char}
    (hc : (c, v) ∈ [('n', '\n'), ('t', '\t'), ('r', '\r'), ('0', '\x00')]) :
    decode ('\\' :: c :: cs) = v :: decode cs := by
  have htail := decodeFrom_eq cs (Nat.le_add_right _ 2)
  rw [decode_eq, ← htail]
  simp only [List.mem_cons, List.not_mem_nil, or_false, Prod.mk.injEq] at hc
  rcases hc with ⟨rfl, rfl⟩ | ⟨rfl, rfl⟩ | ⟨rfl, rfl⟩ | ⟨rfl, rfl⟩ <;> rfl

theorem decode_lineFeed : decode ('\\' :: '\n' :: cs) = decode cs := by
  rw [decode_eq, ← decodeFrom_eq cs (Nat.le_add_right _ 2)]
  rfl

theorem decode_hex {digits : List Char} (hlength : digits.length = 2) :
    decode ('\\' :: 'x' :: digits ++ cs) = ofCode digits ++ decode cs := by
  rw [decode_eq, List.cons_append, List.cons_append, decodeFrom, decodeFrom_eq _ (by simp; omega),
    List.take_left' hlength, List.drop_left' hlength]

theorem decode_four {digits : List Char} (hlength : digits.length = 4) (hbrace : '{' ∉ digits) :
    decode ('\\' :: 'u' :: digits ++ cs) = ofCode digits ++ decode cs := by
  have htail := decodeFrom_eq cs (n := (digits ++ cs).length + 2) (by simp; omega)
  have htake : (digits ++ cs).take 4 = digits := List.take_left' hlength
  have hdrop : (digits ++ cs).drop 4 = cs := List.drop_left' hlength
  rw [← htail]
  rw [decode_eq, decodeFrom.eq_def]
  dsimp only [List.cons_append]
  split <;> grind

theorem decode_braced {digits : List Char} (hbrace : '}' ∉ digits) :
    decode ('\\' :: 'u' :: '{' :: digits ++ '}' :: cs) = ofCode digits ++ decode cs := by
  have hclose : ∀ c ∈ digits, (c != '}') = true := fun c hc =>
    bne_iff_ne.mpr fun h => hbrace (h ▸ hc)
  rw [decode_eq]
  simp only [List.cons_append, decodeFrom]
  rw [List.takeWhile_append_of_pos hclose, List.dropWhile_append_of_pos hclose, decodeFrom_eq]
  all_goals simp
  omega

theorem decode_unicode {text : List Char} {n : ℕ} (h : UnicodeEscape text n) :
    decode ('\\' :: 'u' :: text ++ cs) = (Piece.code n).decoded ++ decode cs := by
  cases h with
  | four hlength hn =>
    obtain ⟨-, -, hkinds⟩ := hexNumber?_eq_some hn
    rw [decode_four hlength fun hmem => absurd (hkinds _ hmem) (by decide),
      ofCode_of_hexNumber? (List.ne_nil_of_length_eq_add_one hlength) hn]
  | @braced digits _ hne hn hle =>
    obtain ⟨-, -, hkinds⟩ := hexNumber?_eq_some hn
    have hclose : '}' ∉ digits := fun hmem => absurd (hkinds _ hmem) (by decide)
    rw [← ofCode_of_hexNumber? hne hn, ← decode_braced hclose]
    simp

theorem decode_singleEscape {v : Char} (h : (c, v) ∈ singleEscapes) :
    decode ('\\' :: c :: cs) = (Piece.escape c v).decoded ++ decode cs := by
  simp only [singleEscapes, List.mem_cons, List.not_mem_nil, or_false, Prod.mk.injEq] at h
  rcases h with ⟨rfl, rfl⟩ | ⟨rfl, rfl⟩ | ⟨rfl, rfl⟩ | ⟨rfl, rfl⟩ | ⟨rfl, rfl⟩ | ⟨rfl, rfl⟩ |
    ⟨rfl, rfl⟩ | ⟨rfl, rfl⟩ | ⟨rfl, rfl⟩
  all_goals first | exact decode_escape (by decide) | exact decode_single (by decide)

theorem decode_itself (h : c ∉ singleEscapes.map Prod.fst) (hu : c ≠ 'u') (hx : c ≠ 'x')
    (hzero : c ≠ '0') (hline : c ≠ '\n') :
    decode ('\\' :: c :: cs) = (Piece.escape c c).decoded ++ decode cs := by
  have hlist : c ∉ ['n', 't', 'r', '0', 'u', 'x', '\n'] := by
    simp only [singleEscapes, List.map_cons, List.map_nil, List.mem_cons, List.not_mem_nil,
      or_false, not_or] at h ⊢
    tauto
  rw [decode_escape hlist, Piece.decoded, ite_self, List.singleton_append]

theorem decode_continuation {text : List Char} (h : text ∈ lineEnds) :
    decode ('\\' :: text ++ cs) = (Piece.continuation text).decoded ++ decode cs := by
  simp only [lineEnds, List.mem_cons, List.not_mem_nil, or_false] at h
  rcases h with rfl | rfl | rfl | rfl | rfl
  · exact decode_lineFeed
  · simp only [List.cons_append, List.nil_append]
    rw [decode_escape (by decide), decode_cons (by decide)]
    rfl
  all_goals exact decode_escape (by decide)

end Literal

/-- Decoding goes through a literal piece by piece. -/
theorem Piece.At.decode {quote : Char} {p : Piece} {text rest : List Char}
    (h : p.At quote text rest) :
    Literal.decode (text ++ rest) = p.decoded ++ Literal.decode rest := by
  cases h with
  | char hslash => exact Literal.decode_cons hslash
  | lineEnd _ htext =>
    rcases htext with rfl | ⟨rfl, -⟩
    · rw [List.cons_append, Literal.decode_cons (by decide)]
      exact congrArg _ (Literal.decode_cons (by decide))
    · exact Literal.decode_cons (by decide)
  | single hc => exact Literal.decode_singleEscape hc
  | null => exact Literal.decode_single (by decide)
  | itself hc hu hx hdigit hline =>
    refine Literal.decode_itself hc hu hx ?_ ?_
    · rintro rfl
      exact absurd (hdigit rfl).2 (by decide)
    · rintro rfl
      exact hline (by decide)
  | hex hlength hn =>
    rw [Literal.decode_hex hlength,
      Literal.ofCode_of_hexNumber? (List.ne_nil_of_length_eq_add_one hlength) hn]
  | unicode hn => exact Literal.decode_unicode hn
  | continuation htext => exact Literal.decode_continuation htext

theorem Consists.decode {quote : Char} {cs : List Char} {ps : List Piece} (h : Consists quote cs ps) :
    Literal.decode cs = ps.flatMap Piece.decoded := by
  induction h with
  | nil => rfl
  | cons hp _ ih => rw [hp.decode, ih, List.flatMap_cons]

/-! ### What decoding loses -/

/-- Decoding only ever adds ends of lines, which weigh up, and takes control codes and halves of
characters away, which weigh down. -/
def weight (n : ℕ) : ℤ :=
  if n ∈ [0x0D, 0x2028, 0x2029] then 1
  else if n ∈ [0x08, 0x0B, 0x0C] ∨ IsSurrogate n then -1 else 0

def totalWeight (units : List ℕ) : ℤ := (units.map weight).sum

@[simp] theorem totalWeight_append (xs ys : List ℕ) :
    totalWeight (xs ++ ys) = totalWeight xs + totalWeight ys := by
  simp [totalWeight]

namespace Piece

variable {quote : Char} {p : Piece} {text rest : List Char}

theorem At.code_le {n : ℕ} (h : (code n).At quote text rest) : n ≤ 0x10FFFF := by
  cases h with
  | hex hlength hn =>
    obtain ⟨-, hlt, -⟩ := Literal.hexNumber?_eq_some hn
    rw [hlength] at hlt
    omega
  | unicode hn =>
    cases hn with
    | four hlength hn =>
      obtain ⟨-, hlt, -⟩ := Literal.hexNumber?_eq_some hn
      rw [hlength] at hlt
      omega
    | braced _ _ hle => exact hle

/-- A piece that is kept is decoded as what it stands for. -/
theorem At.kept (h : p.At quote text rest) (hp : p.IsKept) : utf16 p.decoded = p.units := by
  cases p with
  | char c => simp [decoded, units]
  | escape c v =>
    rw [decoded, if_neg hp]
    simp [units]
  | code n =>
    have hvalid : n.isValidChar := by
      have hle := h.code_le
      simp only [IsKept, IsSurrogate, Nat.isValidChar] at hp ⊢
      omega
    have hn : (Char.ofNat n).toNat = n := by
      rw [Char.ofNat, dif_pos hvalid]
      rfl
    rw [decoded, if_pos hvalid]
    simp [units, hn]
  | lineEnd _ => exact hp.elim
  | continuation _ =>
    rw [IsKept] at hp
    rw [decoded, if_pos hp]
    rfl

theorem code_lost {n : ℕ} (hp : ¬ (code n).IsKept) :
    totalWeight (code n).units < totalWeight (utf16 (code n).decoded) := by
  have hn : IsSurrogate n := not_not.mp hp
  have hbounds : 0xD800 ≤ n ∧ n ≤ 0xDFFF := hn
  have hinvalid : ¬ n.isValidChar := by
    simp only [Nat.isValidChar]
    omega
  have hends : n ∉ [0x0D, 0x2028, 0x2029] := by
    simp only [List.mem_cons, List.not_mem_nil, or_false]
    omega
  rw [decoded, if_neg hinvalid, units, codeUnits, if_pos (by omega)]
  simp [totalWeight, weight, hends, hn]

/-- A piece that is not kept makes its text heavier. -/
theorem At.lost (h : p.At quote text rest) (hp : ¬ p.IsKept) :
    totalWeight p.units < totalWeight (utf16 p.decoded) := by
  cases h with
  | char => exact absurd trivial hp
  | lineEnd _ htext => rcases htext with rfl | ⟨rfl, -⟩ <;> decide
  | single hc =>
    simp only [singleEscapes, List.mem_cons, List.not_mem_nil, or_false, Prod.mk.injEq] at hc
    rcases hc with ⟨rfl, rfl⟩ | ⟨rfl, rfl⟩ | ⟨rfl, rfl⟩ | ⟨rfl, rfl⟩ | ⟨rfl, rfl⟩ | ⟨rfl, rfl⟩ |
      ⟨rfl, rfl⟩ | ⟨rfl, rfl⟩ | ⟨rfl, rfl⟩
    all_goals first | decide | exact absurd (by decide) hp
  | null => exact absurd (by decide) hp
  | @itself c _ hc =>
    refine absurd (fun hmem => hc ?_) hp
    revert hmem
    simp only [singleEscapes, List.map_cons, List.map_nil, List.mem_cons, List.not_mem_nil]
    tauto
  | hex => exact code_lost hp
  | unicode => exact code_lost hp
  | continuation htext =>
    simp only [lineEnds, List.mem_cons, List.not_mem_nil, or_false] at htext
    rcases htext with rfl | rfl | rfl | rfl | rfl
    · exact absurd rfl hp
    all_goals decide

end Piece

namespace Consists

variable {quote : Char} {cs v : List Char} {ps : List Piece}

/-- Decoding makes no text lighter, and keeps its weight only when it keeps every piece. -/
theorem weight_le (h : Consists quote cs ps) :
    totalWeight (ps.flatMap Piece.units) ≤ totalWeight (utf16 (ps.flatMap Piece.decoded)) ∧
      (totalWeight (ps.flatMap Piece.units) = totalWeight (utf16 (ps.flatMap Piece.decoded)) →
        ∀ p ∈ ps, p.IsKept) := by
  induction h with
  | nil => simp
  | @cons p text rest ps hp _ ih =>
    obtain ⟨hle, hall⟩ := ih
    rw [List.flatMap_cons, List.flatMap_cons, utf16_append, totalWeight_append, totalWeight_append]
    by_cases hkept : p.IsKept
    · rw [hp.kept hkept]
      refine ⟨by omega, fun heq => List.forall_mem_cons.mpr ⟨hkept, hall (by omega)⟩⟩
    · have hlt := hp.lost hkept
      exact ⟨by omega, fun heq => by omega⟩

theorem units_of_kept (h : Consists quote cs ps) (hps : ∀ p ∈ ps, p.IsKept) :
    utf16 (ps.flatMap Piece.decoded) = ps.flatMap Piece.units := by
  induction h with
  | nil => rfl
  | cons hp _ ih =>
    obtain ⟨hkept, hrest⟩ := List.forall_mem_cons.mp hps
    rw [List.flatMap_cons, List.flatMap_cons, utf16_append, hp.kept hkept, ih hrest]

/-- A literal is decoded as its value exactly when every piece of it is kept. -/
theorem decode_iff (h : Consists quote cs ps) (hv : ps.flatMap Piece.units = utf16 v) :
    Literal.decode cs = v ↔ ∀ p ∈ ps, p.IsKept := by
  rw [h.decode]
  constructor
  · rintro rfl
    exact h.weight_le.2 (congrArg totalWeight hv)
  · intro hkept
    exact utf16_injective ((h.units_of_kept hkept).trans hv)

end Consists

/-! ### The literals of keys -/

theorem hexNumber?_code : ∀ n < 32,
    hexNumber? ['0', '0', Json.hexDigit (n / 16), Json.hexDigit (n % 16)] = some n := by decide

/-- Each character of a key is a piece of its literal, which stands for that character. -/
theorem exists_at_escapeChar (c : Char) : ∃ p : Piece,
    (∀ rest, p.At '"' (Json.escapeChar c) rest) ∧ p.units = codeUnits c.toNat ∧
      (p.IsKept ↔ c ≠ '\x08' ∧ c ≠ '\x0c') := by
  rcases Json.escapeChar_cases c with ⟨e, he, -, hsimple⟩ | ⟨he, hlt⟩ | ⟨he, hquote, hslash, hge⟩
  · have hsingle : (e, c) ∈ singleEscapes ∧
        ((Piece.escape e c).IsKept ↔ c ≠ '\x08' ∧ c ≠ '\x0c') := by
      rw [Json.simpleEscape?.eq_def] at hsimple
      split at hsimple <;> cases hsimple
      case h_3 => cases he
      all_goals decide
    exact ⟨.escape e c, fun rest => he ▸ .single hsingle.1, rfl, hsingle.2⟩
  · refine ⟨.code c.toNat, fun rest => ?_, rfl, ?_⟩
    · rw [he]
      exact .unicode (.four rfl (hexNumber?_code c.toNat hlt))
    · refine iff_of_true (toNat_valid c).1 ⟨?_, ?_⟩ <;> rintro rfl <;> cases he
  · have hne (d : Char) (hd : d.toNat < 32) : c ≠ d := by
      rintro rfl
      omega
    refine ⟨.char c, fun rest => ?_, rfl, ?_⟩
    · rw [he]
      refine .char hslash hquote (hne '\r' (by decide)) ?_ ?_
      · exact fun hline => absurd hline (hne '\n' (by decide))
      · rintro ⟨hback, -⟩
        exact absurd hback (by decide)
    · exact iff_of_true trivial ⟨hne '\x08' (by decide), hne '\x0c' (by decide)⟩

/-- A text is read in pieces where each of its characters is written as one piece that stands for
it. -/
theorem exists_consists_flatMap {quote : Char} {write : Char → List Char} {K : Piece → Prop}
    {C : Char → Prop} {text : List Char} (h : ∀ c ∈ text, ∃ p : Piece,
      (∀ rest, p.At quote (write c) rest) ∧ p.units = codeUnits c.toNat ∧ (K p ↔ C c)) :
    ∃ ps, Consists quote (text.flatMap write) ps ∧ ps.flatMap Piece.units = utf16 text ∧
      ((∀ p ∈ ps, K p) ↔ ∀ c ∈ text, C c) := by
  induction text with
  | nil => exact ⟨[], .nil, rfl, by simp⟩
  | cons c text ih =>
    rw [List.forall_mem_cons] at h
    obtain ⟨p, hat, hunit, hchar⟩ := h.1
    obtain ⟨ps, hread, hunits, hall⟩ := ih h.2
    refine ⟨p :: ps, .cons (hat _) hread, by simp [hunit, hunits], ?_⟩
    rw [List.forall_mem_cons, List.forall_mem_cons, hchar, hall]

theorem exists_consists_key (key : List Char) : ∃ ps,
    Consists '"' (key.flatMap Json.escapeChar) ps ∧ ps.flatMap Piece.units = utf16 key ∧
      ((∀ p ∈ ps, p.IsKept) ↔ '\x08' ∉ key ∧ '\x0c' ∉ key) := by
  obtain ⟨ps, hread, hunits, hkept⟩ := exists_consists_flatMap fun c (_ : c ∈ key) =>
    exists_at_escapeChar c
  refine ⟨ps, hread, hunits, hkept.trans ?_⟩
  exact forall₂_and.trans (and_congr List.forall_mem_ne' List.forall_mem_ne')

namespace Node

theorem argument_of_literal? {n : Node} {l : Lexeme} (h : n.literal? = some l)
    (source : List Char) : n.argument source = .literal (Literal.value l.text) l.span := by
  rw [literal?.eq_def] at h
  split at h <;> cases h <;> rfl

end Node

theorem value_quoted (quote : Char) (cs : List Char) :
    Literal.value (quote :: cs ++ [quote]) = Literal.decode cs := by
  simp [Literal.value]

/-- A literal whose value is a text is decoded as that text exactly when no piece of it is one of
those that decoding loses. The literal of a key always stands for the key, and is decoded as the
key unless it contains a backspace or a form feed. -/
theorem literal_denotes (v : List Char) :
    (∀ (source : List Char) (n : Node) (l : Lexeme) (quote : Char) (cs : List Char)
      (ps : List Piece), n.literal? = some l → l.text = quote :: cs ++ [quote] →
      Consists quote cs ps → ps.flatMap Piece.units = utf16 v →
      (n.argument source = .literal v l.span ↔ ∀ p ∈ ps, p.IsKept)) ∧
    ∃ cs ps, Json.literal v = '"' :: cs ++ ['"'] ∧ Consists '"' cs ps ∧
      ps.flatMap Piece.units = utf16 v ∧
      (Literal.value (Json.literal v) = v ↔ '\x08' ∉ v ∧ '\x0c' ∉ v) := by
  constructor
  · intro source n l quote cs ps hl htext hread hv
    rw [Node.argument_of_literal? hl source, htext, value_quoted, ← hread.decode_iff hv]
    simp
  · obtain ⟨ps, hread, hunits, hkept⟩ := exists_consists_key v
    refine ⟨_, ps, rfl, hread, hunits, ?_⟩
    rw [← hkept, ← hread.decode_iff hunits, ← value_quoted]
    rfl

/-- A character by its code, and a line that goes on. -/
def emoji : Lexeme := ⟨⟨0, 13⟩, "'\\u\x7b1F600\x7d\\\n'".toList⟩

theorem literal_denotes_emoji :
    (Node.string emoji).argument emoji.text = .literal ['😀'] ⟨0, 13⟩ := by
  have hcode : (Piece.code 0x1F600).At '\x27' "\\u\x7b1F600\x7d".toList ['\\', '\n'] :=
    .unicode (@UnicodeEscape.braced "1F600".toList _ (by decide) (by decide) (by decide))
  have hline : (Piece.continuation ['\n']).At '\x27' ['\\', '\n'] [] :=
    .continuation (by decide) (by decide)
  have hread : Consists '\x27' "\\u\x7b1F600\x7d\\\n".toList [.code 0x1F600, .continuation ['\n']] :=
    .cons hcode (.cons hline .nil)
  exact ((literal_denotes ['😀']).1 emoji.text (.string emoji) emoji '\x27' _ _ rfl (by decide) hread
    (by decide)).mpr (by decide)

/-- A load whose name has a backspace in it. -/
def backspace : List Char := "require('./a\\bc')".toList

theorem consists_backspace : Consists '\x27' "./a\\bc".toList
    [.char '.', .char '/', .char 'a', .escape 'b' '\x08', .char 'c'] := by
  have hchar {c : Char} (hc : c ∉ ['\\', '\x27', '\r', '\n']) (rest : List Char) :
      (Piece.char c).At '\x27' [c] rest := by
    simp only [List.mem_cons, List.not_mem_nil, or_false, not_or] at hc
    exact .char hc.1 hc.2.1 hc.2.2.1 (fun h => absurd h hc.2.2.2) fun h => absurd h.1 (by decide)
  have hescape : (Piece.escape 'b' '\x08').At '\x27' ['\\', 'b'] ['c'] := .single (by decide)
  exact .cons (hchar (by decide) _) (.cons (hchar (by decide) _) (.cons (hchar (by decide) _)
    (.cons hescape (.cons (hchar (by decide) _) .nil))))

/-- A call of a program need not be given the value of its literal. -/
theorem not_literal_denotes :
    ¬ ∀ (source : List Char) (p : Program), program source = .ok p →
      ∀ c ∈ p.callSites source, ∀ value span, Argument.literal value span ∈ c.arguments →
      ∀ quote cs ps v, Text.slice source span = quote :: cs ++ [quote] → Consists quote cs ps →
        ps.flatMap Piece.units = utf16 v → value = v := by
  intro h
  have hcalls : (program backspace).toOption.any (fun p => (p.callSites backspace).any fun c =>
      c.arguments.any fun
        | .literal value span => value == "./abc".toList && span == ⟨8, 16⟩
        | _ => false) = true := by decide +kernel
  cases hp : program backspace with
  | error e => simp [hp, Except.toOption] at hcalls
  | ok p =>
    rw [hp] at hcalls
    obtain ⟨c, hc, hargument⟩ := List.any_eq_true.mp hcalls
    obtain ⟨a, ha, hliteral⟩ := List.any_eq_true.mp hargument
    split at hliteral
    · simp only [Bool.and_eq_true, beq_iff_eq] at hliteral
      obtain ⟨rfl, rfl⟩ := hliteral
      have hvalue := h backspace p hp c hc _ _ ha '\x27' "./a\\bc".toList _ "./a\x08c".toList
        (by decide) consists_backspace (by decide)
      exact absurd hvalue (by decide)
    · cases hliteral

end Bundler.JavaScript
