import Bundler.Text.Span

/-! Edits of a text by spans. `Edit.apply` sorts the edits by position, keeps each
one that starts at or after the end of the last kept one, and writes the text
between the kept ones unchanged. -/
namespace Bundler

/-- Puts `replacement` in the place of a span; an empty span is an insertion. -/
structure Edit where
  span : Span
  replacement : List Char
deriving DecidableEq, Inhabited

namespace Edit

def insert (at_ : Nat) (text : List Char) : Edit := ⟨⟨at_, at_⟩, text⟩

/-- The order of application: by start, then by stop; equal spans keep their order. -/
def le (a b : Edit) : Bool :=
  a.span.start < b.span.start ||
    (a.span.start == b.span.start && a.span.stop ≤ b.span.stop)

/-- Puts an edit in front of the first one that does not come before it. -/
def place (e : Edit) : List Edit → List Edit
  | [] => [e]
  | f :: fs => if le e f then e :: f :: fs else f :: place e fs

def sort (edits : List Edit) : List Edit := edits.foldr place []

/-- The edits a left to right scan keeps: each one that does not start before `at_`,
the end of the last kept one. -/
def kept (at_ : Nat) : List Edit → List Edit
  | [] => []
  | e :: es => if e.span.start < at_ then kept at_ es else e :: kept e.span.stop es

/-- Writes sorted edits into `rest`, the text from byte `at_` on. -/
def splice (at_ : Nat) (rest : List Char) : List Edit → List Char
  | [] => rest
  | e :: es =>
    Text.take (e.span.start - at_) rest ++ e.replacement ++
      splice e.span.stop (Text.drop (e.span.stop - at_) rest) es

/-- The text after all edits that do not overlap an earlier one. -/
def apply (source : List Char) (edits : List Edit) : List Char :=
  splice 0 source (kept 0 (sort edits))

end Edit
end Bundler
