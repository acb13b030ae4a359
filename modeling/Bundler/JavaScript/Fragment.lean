import Bundler.JavaScript.Token

/-! The tokens of a source that is no program. Without a grammar to say which token may
come next, each is the longest that the text allows. -/
namespace Bundler.JavaScript

/-- A token of a faulty source. -/
structure Fragment where
  /-- The blanks and comments in front. -/
  lead : List Char
  text : List Char
  span : Span
  /-- The number of tokens that a grammar makes of it. -/
  weight : Nat
  /-- Whether no program has a token like this. -/
  isAlien : Bool
deriving Inhabited

namespace Fragment

/-- The text, or some name in place of any word. -/
def plain (f : Fragment) : List Char := if (word? f.text).isSome then ['a'] else f.text

/-- Whether it is a name in most places and a keyword in some. -/
def isContextual (f : Fragment) : Bool :=
  ["as", "from", "of", "target", "meta"].contains (String.ofList f.text)

/-- The tokens of punctuation, longer ones first. -/
def punctuation : List (List Char) :=
  [">>>=", "...", "===", "!==", "**=", "<<=", ">>=", ">>>", "&&=", "||=", "??=",
   "=>", "==", "!=", "<=", ">=", "&&", "||", "??", "?.", "++", "--", "**", "<<", ">>",
   "+=", "-=", "*=", "/=", "%=", "&=", "|=", "^="].map String.toList

/-- The characters that are tokens on their own. -/
def isMark (c : Char) : Bool := "\x7b\x7d()[];,<>+-*/%&|^!~?:=.@\x60\"'".toList.contains c

/-- The length of a quoted text behind its first quote, with the quote that ends it.
Only a template goes on over line ends, and none is told here that has substitutions. -/
def quotedLength? (quote : Char) : List Char → Option Nat
  | [] => none
  | '\\' :: '\r' :: '\n' :: cs => (quotedLength? quote cs).map (· + 3)
  | '\\' :: _ :: cs => (quotedLength? quote cs).map (· + 2)
  | c :: cs =>
    if c == quote then some 1
    else if quote == '\x60' then
      if c == '$' && cs.head? == some '\x7b' then none else (quotedLength? quote cs).map (· + 1)
    else if c == '\n' || c == '\r' then none
    else (quotedLength? quote cs).map (· + 1)

/-- Whether every escape in a text is well formed. -/
def hasGoodEscapes : Nat → List Char → Bool
  | 0, _ => true
  | fuel + 1, cs =>
    match cs with
    | [] => true
    | '\\' :: _ =>
      match escapeLength? cs with
      | some n => hasGoodEscapes fuel (cs.drop n)
      | none => false
    | _ :: cs => hasGoodEscapes fuel cs

/-- The words that an operand follows. -/
def operatorWords : List String :=
  ["return", "typeof", "case", "in", "of", "delete", "void", "throw", "new", "else", "do",
    "instanceof", "await", "yield"]

/-- Whether an operator may follow a token, rather than an operand. -/
def endsOperand (text : List Char) : Bool :=
  match text.getLast? with
  | some c =>
    ")]\x7d\"'\x60".toList.contains c ||
      (isWordChar c && !operatorWords.contains (String.ofList text))
  | none => false

/-- How much of a text its first token takes. -/
structure Extent where
  length : Nat
  /-- The number of tokens that a grammar makes of it. -/
  weight : Nat := 1
  /-- Whether no program has a token like this. -/
  isAlien : Bool := false

/-- The first token of a text, `none` where no token starts. A quoted text with an escape
that is none and a regular expression without an end are aliens. -/
def extent? (operand : Bool) (cs : List Char) : Option Extent :=
  match cs with
  | [] => none
  | c :: rest =>
    match word? cs with
    | some w => some { length := w.length }
    | none =>
      if c == '#' then (word? rest).map fun w => { length := w.length + 1 }
      else if 0 < numberLength cs then some { length := numberLength cs }
      else if c == '"' || c == '\x27' || c == '\x60' then
        match quotedLength? c rest with
        | some n =>
          if hasGoodEscapes n (rest.take n) then some ⟨n + 1, if n = 1 then 2 else 3, false⟩
          else some ⟨n + 1, 1, true⟩
        | none => some { length := 1 }
      else
        let n := patternLength rest.length rest
        if c == '/' && !operand && 0 < n then
          match rest.drop n with
          | '/' :: flags =>
            let m := (flags.takeWhile Char.isLower).length
            some ⟨n + 2 + m, if 0 < m then 4 else 3, false⟩
          | _ => some ⟨n + 1, 2, true⟩
        else match punctuation.find? (startsWith · cs) with
          | some p => some { length := p.length }
          | none => if isMark c then some { length := 1 } else none

/-- The number of characters up to the next token or blank. -/
def alienLength : List Char → Nat
  | [] => 0
  | c :: cs => if isBlank c || (extent? false (c :: cs)).isSome then 0 else alienLength cs + 1

/-- The token of the given extent at `d`; what lies between `c` and `d` stands in front. -/
def between (c d : Cursor) (e : Extent) : Fragment :=
  ⟨Text.take (d.pos - c.pos) c.rest, d.rest.take e.length, ⟨d.pos, (d.advanceBy e.length).pos⟩,
    e.weight, e.isAlien⟩

/-- The rest of a line behind a quote that is never closed. -/
def openText (cs : List Char) : Nat :=
  (cs.takeWhile fun c => c != '\n' && c != '\r' && c != '\\').length

def listFrom : Nat → Bool → Cursor → List Fragment
  | 0, _, _ => []
  | fuel + 1, operand, c =>
    let d := c.skip
    if d.rest.isEmpty then []
    else
      let e := (extent? operand d.rest).getD ⟨1 + alienLength (d.rest.drop 1), 1, true⟩
      let f := between c d e
      let next := d.advanceBy e.length
      let n := openText next.rest
      if (f.text == ['"'] || f.text == ['\x27']) && 0 < n then
        f :: between next next { length := n } :: listFrom fuel true (next.advanceBy n)
      else f :: listFrom fuel (endsOperand f.text) next

/-- The tokens of a source. -/
def list (source : List Char) : List Fragment := listFrom source.length false ⟨source, 0⟩

end Fragment
end Bundler.JavaScript
