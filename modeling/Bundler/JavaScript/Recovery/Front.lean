import Bundler.JavaScript.Program

/-! What the front of a program allows next. The parser is the judge: a text is a front
if only its end comes too early. -/
namespace Bundler.JavaScript.Recovery

/-- Whether some program starts with these characters. -/
def isFront (text : List Char) : Bool :=
  match Program.parse text with
  | .ok _ => true
  | .error failure => Text.size text ≤ failure

def isProgram (text : List Char) : Bool := (Program.parse text).isOk

/-- The front of a statement that is no expression, no declaration and no member. -/
def statementFront : List Char := "if (a) break".toList

/-- Whether a statement may start on the same line. -/
def endsStatement (text : List Char) : Bool := isFront (text ++ ' ' :: statementFront)

/-- Whether a line end would end a statement. -/
def impliesSemicolon (text : List Char) : Bool :=
  !endsStatement text && isFront (text ++ '\n' :: statementFront)

/-- Whether a token, or the end of the text, may follow with no semicolon implied. -/
def allows (text : List Char) : Option (List Char) → Bool
  | none => isProgram text && !impliesSemicolon text
  | some ['\x7d'] => isFront (text ++ [' ', '\x7d']) && !impliesSemicolon text
  | some token => isFront (text ++ ' ' :: token)

def isExpression (text : List Char) : Bool := isProgram ('(' :: text ++ ['\n', ')'])

/-- Whether an expression may follow. -/
def allowsExpression (text : List Char) : Bool := isFront (text ++ [' ', '!', 'a'])

end Bundler.JavaScript.Recovery
