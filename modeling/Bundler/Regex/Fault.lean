/-! Why a text is no regular expression. A fault is shown below the expression, with
carets under the place and, where two places clash, under the other one too. -/
namespace Bundler.Regex

/-- A place in an expression. -/
structure Mark where
  offset : Nat
  line : Nat
  column : Nat
deriving DecidableEq, Inhabited

/-- The text between two places. -/
structure Extent where
  start : Mark
  stop : Mark
deriving DecidableEq, Inhabited

inductive Fault where
  | classEscapeInvalid
  | classRangeInvalid
  | classRangeLiteral
  | classUnclosed
  | decimalInvalid
  | escapeHexEmpty
  | escapeHexInvalid
  | escapeHexInvalidDigit
  | escapeUnexpectedEnd
  | escapeUnrecognized
  | flagDanglingNegation
  | flagDuplicate
  | flagRepeatedNegation
  | flagUnexpectedEnd
  | flagUnrecognized
  | groupNameDuplicate
  | groupNameEmpty
  | groupNameInvalid
  | groupNameUnexpectedEnd
  | groupUnclosed
  | groupUnopened
  | nestLimitExceeded
  | repetitionCountInvalid
  | repetitionCountDecimalEmpty
  | repetitionCountUnclosed
  | repetitionMissing
  | wordBoundaryUnclosed
  | wordBoundaryUnrecognized
  | wordBoundaryUnexpectedEnd
  | unicodeClassInvalid
  | unsupportedBackreference
  | unsupportedLookAround
  | unicodeNotAllowed
  | invalidUtf8
  | propertyNotFound
  | propertyValueNotFound
deriving DecidableEq, Inhabited

/-- How deep groups, classes and repetitions may be nested. -/
def nestLimit : Nat := 250

def Fault.message : Fault → String
  | classEscapeInvalid => "invalid escape sequence found in character class"
  | classRangeInvalid => "invalid character class range, the start must be <= the end"
  | classRangeLiteral => "invalid range boundary, must be a literal"
  | classUnclosed => "unclosed character class"
  | decimalInvalid => "decimal literal invalid"
  | escapeHexEmpty => "hexadecimal literal empty"
  | escapeHexInvalid => "hexadecimal literal is not a Unicode scalar value"
  | escapeHexInvalidDigit => "invalid hexadecimal digit"
  | escapeUnexpectedEnd => "incomplete escape sequence, reached end of pattern prematurely"
  | escapeUnrecognized => "unrecognized escape sequence"
  | flagDanglingNegation => "dangling flag negation operator"
  | flagDuplicate => "duplicate flag"
  | flagRepeatedNegation => "flag negation operator repeated"
  | flagUnexpectedEnd => "expected flag but got end of regex"
  | flagUnrecognized => "unrecognized flag"
  | groupNameDuplicate => "duplicate capture group name"
  | groupNameEmpty => "empty capture group name"
  | groupNameInvalid => "invalid capture group character"
  | groupNameUnexpectedEnd => "unclosed capture group name"
  | groupUnclosed => "unclosed group"
  | groupUnopened => "unopened group"
  | nestLimitExceeded =>
    "exceed the maximum number of nested parentheses/brackets (" ++ toString nestLimit ++ ")"
  | repetitionCountInvalid => "invalid repetition count range, the start must be <= the end"
  | repetitionCountDecimalEmpty => "repetition quantifier expects a valid decimal"
  | repetitionCountUnclosed => "unclosed counted repetition"
  | repetitionMissing => "repetition operator missing expression"
  | wordBoundaryUnclosed =>
    "special word boundary assertion is either unclosed or contains an invalid character"
  | wordBoundaryUnrecognized =>
    "unrecognized special word boundary assertion, valid choices are: start, end, start-half or end-half"
  | wordBoundaryUnexpectedEnd =>
    "found either the beginning of a special word boundary or a bounded repetition on a \\b with an opening brace, but no closing brace"
  | unicodeClassInvalid => "invalid Unicode character class"
  | unsupportedBackreference => "backreferences are not supported"
  | unsupportedLookAround =>
    "look-around, including look-ahead and look-behind, is not supported"
  | unicodeNotAllowed => "Unicode not allowed here"
  | invalidUtf8 => "pattern can match invalid UTF-8"
  | propertyNotFound => "Unicode property not found"
  | propertyValueNotFound => "Unicode property value not found"

structure RegexError where
  fault : Fault
  at_ : Extent
  /-- The place that clashes with the first one. -/
  other : Option Extent := none
deriving DecidableEq, Inhabited

namespace RegexError

/-- The lines of a text without their ends; a last line that is empty does not count. -/
def linesOf (cs : List Char) : List (List Char) :=
  let lines := cs.foldr (fun c lines =>
    if c == '\n' then [] :: lines
    else match lines with
      | [] => [[c]]
      | l :: ls => (c :: l) :: ls) [[]]
  let lines := if lines.getLast? == some [] then lines.dropLast else lines
  lines.map fun l => if l.getLast? == some '\r' then l.dropLast else l

def Extent.le (a b : Extent) : Bool :=
  a.start.offset < b.start.offset ||
    (a.start.offset == b.start.offset && a.stop.offset ≤ b.stop.offset)

/-- The places of an error in their order. -/
def extents (e : RegexError) : List Extent := (e.at_ :: e.other.toList).mergeSort Extent.le

/-- Blanks and carets below a line, from column `column` on. -/
def carets : Nat → List Extent → List Char
  | _, [] => []
  | column, x :: xs =>
    let gap := x.start.column - column
    let width := max 1 (x.stop.column - x.start.column)
    List.replicate gap ' ' ++ List.replicate width '^' ++ carets (column + gap + width) xs

def padLeft (width : Nat) (s : String) : String :=
  String.ofList (List.replicate (width - s.length) ' ') ++ s

/-- A line of the expression, with the carets below it. -/
def notateLine (numbered : Nat) (extents : List Extent) (i : Nat) (line : List Char) : String :=
  let lead := if numbered = 0 then "    " else padLeft numbered (toString (i + 1)) ++ ": "
  let here := extents.filter fun x => x.start.line == i + 1 && x.stop.line == i + 1
  let notes := if here.isEmpty then "" else
    String.ofList (List.replicate lead.length ' ' ++ carets 1 here) ++ "\n"
  lead ++ String.ofList line ++ "\n" ++ notes

/-- An extent over several lines. -/
def describe (x : Extent) : String :=
  "on line " ++ toString x.start.line ++ " (column " ++ toString x.start.column ++
    ") through line " ++ toString x.stop.line ++ " (column " ++ toString (x.stop.column - 1) ++ ")"

/-- The message for an error in an expression. -/
def message (pattern : List Char) (e : RegexError) : String :=
  let lines := linesOf pattern
  let count := lines.length + (if pattern.getLast? == some '\n' then 1 else 0)
  let numbered := if count ≤ 1 then 0 else (toString count).length
  let body := String.join (lines.zipIdx.map fun (l, i) => notateLine numbered e.extents i l)
  if pattern.contains '\n' then
    let divider := String.ofList (List.replicate 79 '~') ++ "\n"
    let many := e.extents.filter fun x => x.start.line != x.stop.line
    let notes := if many.isEmpty then "" else "\n".intercalate (many.map describe) ++ "\n"
    "regex parse error:\n" ++ divider ++ body ++ divider ++ notes ++ "error: " ++ e.fault.message
  else "regex parse error:\n" ++ body ++ "error: " ++ e.fault.message

end RegexError
end Bundler.Regex
