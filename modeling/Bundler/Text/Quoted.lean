import Bundler.Text.Category

/-! Quoted text for people and programs: a quote, a backslash and whatever does not show
on its own are escaped, all else stands for itself. -/
namespace Bundler.Text

/-- Characters that only extend the one before them, beside the marks. -/
def extraExtenders : List (Nat × Nat) :=
  [(0x9be, 0x9be), (0x9d7, 0x9d7), (0xb3e, 0xb3e), (0xb57, 0xb57), (0xbbe, 0xbbe),
    (0xbd7, 0xbd7), (0xcc2, 0xcc2), (0xcd5, 0xcd6), (0xd3e, 0xd3e), (0xd57, 0xd57),
    (0xdcf, 0xdcf), (0xddf, 0xddf), (0x1b35, 0x1b35), (0x200c, 0x200c), (0x302e, 0x302f),
    (0xff9e, 0xff9f), (0x1133e, 0x1133e), (0x11357, 0x11357), (0x114b0, 0x114b0),
    (0x114bd, 0x114bd), (0x115af, 0x115af), (0x11930, 0x11930), (0x1d165, 0x1d165),
    (0x1d16e, 0x1d172), (0xe0020, 0xe007f)]

/-- Characters that extend the one before them. -/
def isExtender (c : Char) : Bool :=
  match Category.of c with
  | .nonspacingMark | .enclosingMark => true
  | _ => extraExtenders.any fun (a, b) => a ≤ c.toNat && c.toNat ≤ b

/-- Characters that show: no controls, no separators but the space, none unassigned. -/
def isPrintable (c : Char) : Bool :=
  match Category.of c with
  | .control | .format | .surrogate | .privateUse | .unassigned | .lineSeparator
  | .paragraphSeparator => false
  | .spaceSeparator => c == ' '
  | _ => true

namespace Quoted

/-- The lower case hexadecimal escape of a character. -/
def codeEscape (c : Char) : List Char :=
  "\\u\x7b".toList ++ Nat.toDigits 16 c.toNat ++ ['}']

def escape (c : Char) : List Char :=
  match c with
  | '"' => ['\\', '"']
  | '\\' => ['\\', '\\']
  | '\n' => ['\\', 'n']
  | '\r' => ['\\', 'r']
  | '\t' => ['\\', 't']
  | '\x00' => ['\\', '0']
  | c =>
    if ' ' ≤ c && c ≤ '~' then [c]
    else if isExtender c || !isPrintable c then codeEscape c
    else [c]

end Quoted

/-- A text in double quotes. -/
def quoted (s : List Char) : List Char := '"' :: s.flatMap Quoted.escape ++ ['"']

/-- A text in double quotes where an apostrophe is escaped too. -/
def quotedStrictly (s : List Char) : List Char :=
  '"' :: (s.flatMap fun c => if c == '\x27' then ['\\', c] else Quoted.escape c) ++ ['"']

end Bundler.Text
