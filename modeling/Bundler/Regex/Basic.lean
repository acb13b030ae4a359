import Bundler.Text.CaseFold
import Bundler.Text.Property
import Bundler.Text.Script

/-! Regular expressions and what they match. An expression maps the positions where a
match may start to those where it may end, so the repetition of an expression that
matches the empty text ends too. -/
namespace Bundler.Regex

inductive Property where
  | any
  | categories (list : List Text.Category)
  | script (code : String)
  | alphabetic
  | lowerCase
  | upperCase
  | white
  | wordLike

def Property.holds : Property → Char → Bool
  | any, _ => true
  | categories cs, c => cs.contains (Text.Category.of c)
  | script code, c => Text.Script.of c == code
  | alphabetic, c => Text.isAlphabetic c
  | lowerCase, c => Text.isLowerCase c
  | upperCase, c => Text.isUpperCase c
  | white, c => Text.isWhite c
  | wordLike, c => Text.isWordLike c

/-- Sets of characters. -/
inductive CharSet where
  | nothing
  | range (first last : Char)
  | property (p : Property)
  | union (a b : CharSet)
  | inter (a b : CharSet)
  | complement (a : CharSet)
  /-- Everything that differs from a member only in case. -/
  | caseless (a : CharSet)

namespace CharSet

def contains : CharSet → Char → Bool
  | nothing, _ => false
  | range a b, c => a ≤ c && c ≤ b
  | property p, c => p.holds c
  | union a b, c => contains a c || contains b c
  | inter a b, c => contains a c && contains b c
  | complement a, c => !contains a c
  | caseless a, c => (Text.CaseFold.variants c).any fun d => contains a d

def single (c : Char) : CharSet := range c c

def ofRanges (rs : List (Char × Char)) : CharSet :=
  rs.foldr (fun (a, b) s => union (range a b) s) nothing

def difference (a b : CharSet) : CharSet := inter a (complement b)

def symmetricDifference (a b : CharSet) : CharSet := difference (union a b) (inter a b)

def asciiDigit : CharSet := range '0' '9'

def asciiWord : CharSet := ofRanges [('0', '9'), ('A', 'Z'), ('_', '_'), ('a', 'z')]

def asciiSpace : CharSet := ofRanges [('\t', '\r'), (' ', ' ')]

end CharSet

/-- Where the edge of a word is looked for. -/
inductive Edge where
  | either
  | neither
  | start
  | stop
  | startHalf
  | stopHalf

/-- Conditions on a position. -/
inductive Look where
  | textStart
  | textEnd
  /-- The start or end of a line, which a carriage return may end too. -/
  | lineStart (carriage : Bool)
  | lineEnd (carriage : Bool)
  | word (edge : Edge) (unicode : Bool)

namespace Look

def isWord (unicode : Bool) (c : Option Char) : Bool :=
  c.any fun c => if unicode then Text.isWordLike c else CharSet.asciiWord.contains c

def edgeHolds (before after : Bool) : Edge → Bool
  | .either => before != after
  | .neither => before == after
  | .start => !before && after
  | .stop => before && !after
  | .startHalf => !before
  | .stopHalf => !after

def holds (text : Array Char) (i : Nat) (l : Look) : Bool :=
  let before := if i = 0 then none else text[i - 1]?
  let after := text[i]?
  match l with
  | textStart => i == 0
  | textEnd => i == text.size
  | lineStart false => before.isNone || before == some '\n'
  | lineEnd false => after.isNone || after == some '\n'
  | lineStart true =>
    before.isNone || before == some '\n' || (before == some '\r' && after != some '\n')
  | lineEnd true =>
    after.isNone || after == some '\r' || (after == some '\n' && before != some '\r')
  | word edge unicode => edgeHolds (isWord unicode before) (isWord unicode after) edge

end Look
end Regex

inductive Regex where
  | empty
  | set (s : Regex.CharSet)
  | look (l : Regex.Look)
  | seq (a b : Regex)
  | alt (a b : Regex)
  | times (r : Regex) (least : Nat) (most : Option Nat)

namespace Regex

instance : Inhabited Regex := ⟨empty⟩

/-- The positions of both lists, each once. -/
def merge (a b : List Nat) : List Nat := a ++ b.filter fun i => !a.contains i

def iterate (f : α → α) : Nat → α → α
  | 0, a => a
  | n + 1, a => iterate f n (f a)

/-- Where matches end that start at one of some positions. -/
def ends (text : Array Char) : Regex → List Nat → List Nat
  | empty, starts => starts
  | set s, starts => starts.filterMap fun i =>
    match text[i]? with
    | some c => if s.contains c then some (i + 1) else none
    | none => none
  | look l, starts => starts.filter fun i => l.holds text i
  | seq a b, starts => ends text b (ends text a starts)
  | alt a b, starts => merge (ends text a starts) (ends text b starts)
  | times r least most, starts =>
    let first := iterate (fun s => ends text r s) least starts
    let more := match most with
      | some n => n - least
      | none => text.size + 1
    iterate (fun s => merge s (ends text r s)) more first

/-- Whether an expression matches some part of a text. -/
def isMatch (r : Regex) (s : String) : Bool :=
  let text := s.toList.toArray
  !(ends text r (List.range (text.size + 1))).isEmpty

def concat (rs : List Regex) : Regex :=
  match rs with
  | [] => empty
  | [r] => r
  | r :: rs => seq r (concat rs)

def choice (rs : List Regex) : Regex :=
  match rs with
  | [] => empty
  | [r] => r
  | r :: rs => alt r (choice rs)

end Regex
end Bundler
