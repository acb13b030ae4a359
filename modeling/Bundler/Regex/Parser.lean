import Bundler.Regex.Reader

/-! Parsing of regular expressions. `Regex.parse` accepts the usual operators, groups,
classes with set operations, and inline flags, and refuses look-around and back
references. -/
namespace Bundler.Regex
open Reading

/-! ### Sets under flags -/

def Flags.fold (f : Flags) (s : CharSet) : CharSet :=
  if !f.caseless then s
  else if f.unicode then .caseless s
  else .inter (.caseless s) (.range '\x00' '\x7f')

/-- A character that is written with more than one byte. -/
def wideProbe : Char := '\u00e9'

/-- Objects to a set of bytes that are no characters on their own. -/
def checkBytes (s : CharSet) (at_ : Extent) : Reading Unit := do
  if !(← flags).unicode && s.contains wideProbe then objectTo .invalidUtf8 at_

/-! ### Escapes -/

/-- What an escape or a plain character stands for. -/
inductive Atom where
  /-- A character; `byte` when it was written as a code of two digits. -/
  | char (c : Char) (byte : Bool)
  | set (s : CharSet)
  | look (l : Look)

def isHexDigit (c : Char) : Bool :=
  c.isDigit || ('a' ≤ c && c ≤ 'f') || ('A' ≤ c && c ≤ 'F')

def hexValue (c : Char) : Nat :=
  if c.isDigit then c.toNat - '0'.toNat
  else if c.isUpper then c.toNat - 'A'.toNat + 10
  else c.toNat - 'a'.toNat + 10

def charOfCode? (digits : List Char) : Option Char :=
  let n := digits.foldl (fun n c => n * 16 + hexValue c) 0
  if n.isValidChar then some (Char.ofNat n) else none

def hexDigitsRest : Nat → List Char → Reading (List Char)
  | 0, digits => return digits.reverse
  | n + 1, digits => do
    if !digits.isEmpty then
      if !(← bumpSkip) then refuseHere .escapeUnexpectedEnd
    match ← next? with
    | some c =>
      if isHexDigit c then hexDigitsRest n (c :: digits) else refuseNext .escapeHexInvalidDigit
    | none => refuseHere .escapeUnexpectedEnd

/-- A fixed number of hexadecimal digits. -/
def hexFixed (count : Nat) : Reading Char := do
  let start ← mark
  let digits ← hexDigitsRest count []
  let _ ← bumpSkip
  match charOfCode? digits with
  | some c => return c
  | none => refuseFrom .escapeHexInvalid start

def hexBraceRest (opening : Mark) : Nat → List Char → Reading (List Char)
  | 0, _ => refuseFrom .escapeUnexpectedEnd opening
  | n + 1, digits => do
    if !(← bumpSkip) then refuseFrom .escapeUnexpectedEnd opening
    match ← next? with
    | some '}' => return digits.reverse
    | some c =>
      if isHexDigit c then hexBraceRest opening n (c :: digits)
      else refuseNext .escapeHexInvalidDigit
    | none => refuseFrom .escapeUnexpectedEnd opening

/-- Hexadecimal digits in braces. -/
def hexBrace : Reading Char := do
  let opening ← mark
  let start := (← nextExtent).stop
  let digits ← hexBraceRest opening ((← get).rest.length + 1) []
  let stop ← mark
  let _ ← bumpSkip
  if digits.isEmpty then refuseFrom .escapeHexEmpty opening
  match charOfCode? digits with
  | some c => return c
  | none => refuse .escapeHexInvalid ⟨start, stop⟩

def hexEscape (count : Nat) : Reading Char := do
  if !(← bumpSkip) then refuseHere .escapeUnexpectedEnd
  if (← next?) == some '{' then hexBrace else hexFixed count

def nameRest : Nat → List Char → Reading (List Char)
  | 0, _ => refuseHere .escapeUnexpectedEnd
  | n + 1, name => do
    if !(← bumpSkip) then refuseHere .escapeUnexpectedEnd
    match ← next? with
    | some '}' =>
      let _ ← bump
      return name.reverse
    | some c => nameRest n (c :: name)
    | none => refuseHere .escapeUnexpectedEnd

/-- The text in front of a separator and behind it. -/
def splitAt? (separator : List Char) : List Char → Option (List Char × List Char)
  | [] => none
  | c :: cs =>
    if separator.isPrefixOf (c :: cs) then some ([], (c :: cs).drop separator.length)
    else (splitAt? separator cs).map fun (a, b) => (c :: a, b)

/-- The set of a property name, and whether an operator negates it. -/
def propertyOf (name : List Char) : Property.Lookup × Bool :=
  match splitAt? ['!', '='] name with
  | some (a, b) => (Property.valued a b, true)
  | none =>
    match (splitAt? [':'] name).orElse fun _ => splitAt? ['='] name with
    | some (a, b) => (Property.valued a b, false)
    | none =>
      match Property.named? name with
      | some s => (.found s, false)
      | none => (.noProperty, false)

/-- A property such as `\p{L}` behind its backslash. -/
def unicodeClass (start : Mark) (negated : Bool) : Reading CharSet := do
  if !(← bumpSkip) then refuseHere .escapeUnexpectedEnd
  let name ← match ← next? with
    | some '{' => nameRest ((← get).rest.length + 1) []
    | some '\\' => refuseNext .unicodeClassInvalid
    | c =>
      let _ ← bumpSkip
      pure c.toList
  let f ← flags
  let at_ : Extent := ⟨start, ← mark⟩
  if !f.unicode then objectTo .unicodeNotAllowed at_
  match propertyOf name with
  | (.found s, flipped) =>
    let s := f.fold s
    return if negated != flipped then .complement s else s
  | (.noProperty, _) =>
    objectTo .propertyNotFound at_
    return .nothing
  | (.noValue, _) =>
    objectTo .propertyValueNotFound at_
    return .nothing

/-- The classes of digits, blanks and word characters. -/
def perlSet (f : Flags) (c : Char) : CharSet :=
  let s := match c.toLower with
    | 'd' => if f.unicode then .property (.categories [.decimalNumber]) else CharSet.asciiDigit
    | 's' => if f.unicode then .property .white else CharSet.asciiSpace
    | _ => if f.unicode then .property .wordLike else CharSet.asciiWord
  if c.isUpper then .complement s else s

def isMeta (c : Char) : Bool := "\\.+*?()|[]\x7b\x7d^$#&-~".toList.contains c

/-- Characters that stand for themselves behind a backslash. -/
def isEscapable (c : Char) : Bool :=
  isMeta c || (c.toNat < 128 && !c.isAlphanum && c != '<' && c != '>')

def edgeOf? (name : List Char) : Option Edge :=
  [("start", Edge.start), ("end", .stop), ("start-half", .startHalf), ("end-half", .stopHalf)].lookup
    (String.ofList name)

def edgeNameRest : Nat → List Char → Reading (List Char)
  | 0, name => return name.reverse
  | n + 1, name => do
    match ← next? with
    | some c =>
      if c.isAlpha || c == '-' then
        let _ ← bumpSkip
        edgeNameRest n (c :: name)
      else return name.reverse
    | none => return name.reverse

/-- The name of an edge in braces; anything else in braces is left for a repetition. -/
def edgeName (wordStart : Mark) : Reading (Option Edge) := do
  let r ← get
  let start ← mark
  if !(← bumpSkip) then refuseFrom .wordBoundaryUnexpectedEnd wordStart
  let contents ← mark
  if !((← next?).any fun c => c.isAlpha || c == '-') then
    modify fun _ => r
    return none
  let name ← edgeNameRest r.rest.length []
  if (← next?) != some '}' then refuseFrom .wordBoundaryUnclosed start
  let stop ← mark
  let _ ← bump
  match edgeOf? name with
  | some e => return some e
  | none => refuse .wordBoundaryUnrecognized ⟨contents, stop⟩

/-- The edge of a word, behind `\b`. -/
def wordBoundary (start : Mark) : Reading Edge := do
  if (← next?) == some '{' then return (← edgeName start).getD .either
  else return .either

/-- An escape of one letter. -/
def letterEscape (start : Mark) (c : Char) : Reading Atom := do
  let _ ← bump
  let unicode := (← flags).unicode
  if isMeta c || isEscapable c then return .char c false
  match c with
  | 'a' => return .char '\x07' false
  | 'f' => return .char '\x0c' false
  | 't' => return .char '\t' false
  | 'n' => return .char '\n' false
  | 'r' => return .char '\r' false
  | 'v' => return .char '\x0b' false
  | 'A' => return .look .textStart
  | 'z' => return .look .textEnd
  | 'b' => return .look (.word (← wordBoundary start) unicode)
  | 'B' => return .look (.word .neither unicode)
  | '<' => return .look (.word .start unicode)
  | '>' => return .look (.word .stop unicode)
  | _ => refuseFrom .escapeUnrecognized start

def escape : Reading Atom := do
  let start ← mark
  if !(← bump) then refuseFrom .escapeUnexpectedEnd start
  match ← next? with
  | none => refuseFrom .escapeUnexpectedEnd start
  | some c =>
    if c.isDigit then refuse .unsupportedBackreference ⟨start, (← nextExtent).stop⟩
    else if c == 'x' then return .char (← hexEscape 2) true
    else if c == 'u' then return .char (← hexEscape 4) false
    else if c == 'U' then return .char (← hexEscape 8) false
    else if c == 'p' || c == 'P' then return .set (← unicodeClass start (c == 'P'))
    else if "dswDSW".toList.contains c then
      let s := perlSet (← flags) c
      let _ ← bump
      checkBytes s ⟨start, ← mark⟩
      return .set s
    else letterEscape start c

/-! ### Classes -/

inductive SetOperator where
  | intersection
  | difference
  | symmetricDifference

def SetOperator.apply : SetOperator → CharSet → CharSet → CharSet
  | intersection, a, b => .inter a b
  | difference, a, b => .difference a b
  | symmetricDifference, a, b => .symmetricDifference a b

/-- A class that is not closed yet. -/
inductive ClassFrame where
  /-- A bracket inside the items `outer` of another class. -/
  | opened (outer : CharSet) (opening : Extent) (negated : Bool)
  | operator (op : SetOperator) (left : CharSet)

/-- Refuses the innermost class that is open. -/
def refuseOpenClass (stack : List ClassFrame) : Reading α :=
  let opening := stack.findSome? fun
    | .opened _ at_ _ => some at_
    | .operator .. => none
  refuse .classUnclosed (opening.getD default)

def leadingDashes (start : Mark) : Nat → CharSet → Reading CharSet
  | 0, s => return s
  | n + 1, s => do
    if (← next?) == some '-' then
      if !(← bumpSkip) then refuse .classUnclosed ⟨start, start⟩
      leadingDashes start n (.union s (.single '-'))
    else return s

/-- The start of a class: its bracket, a negation, and characters that only count as
items here. -/
def openClass (outer : CharSet) : Reading (ClassFrame × CharSet) := do
  let start ← mark
  if !(← bumpSkip) then refuseFrom .classUnclosed start
  let negated := (← next?) == some '^'
  if negated then
    if !(← bumpSkip) then refuseFrom .classUnclosed start
  let hasDash := (← next?) == some '-'
  let items ← leadingDashes start (← get).rest.length .nothing
  let items ←
    if !hasDash && (← next?) == some ']' then
      if !(← bumpSkip) then refuseFrom .classUnclosed start
      pure (.union items (.single ']'))
    else pure items
  return (.opened outer ⟨start, ← mark⟩ negated, items)

/-- Classes of ASCII characters by name. -/
def asciiClasses : List (String × List (Char × Char)) :=
  [("alnum", [('0', '9'), ('A', 'Z'), ('a', 'z')]), ("alpha", [('A', 'Z'), ('a', 'z')]),
    ("ascii", [('\x00', '\x7f')]), ("blank", [('\t', '\t'), (' ', ' ')]),
    ("cntrl", [('\x00', '\x1f'), ('\x7f', '\x7f')]), ("digit", [('0', '9')]),
    ("graph", [('!', '~')]), ("lower", [('a', 'z')]), ("print", [(' ', '~')]),
    ("punct", [('!', '/'), (':', '@'), ('[', '\x60'), ('\x7b', '~')]),
    ("space", [('\t', '\r'), (' ', ' ')]), ("upper", [('A', 'Z')]),
    ("word", [('0', '9'), ('A', 'Z'), ('_', '_'), ('a', 'z')]),
    ("xdigit", [('0', '9'), ('A', 'F'), ('a', 'f')])]

/-- A class such as `[:alpha:]`, if one comes next. -/
def asciiClass? : Reading (Option CharSet) := do
  match (← get).rest with
  | '[' :: ':' :: cs =>
    let negated := cs.head? == some '^'
    let cs := if negated then cs.drop 1 else cs
    let name := cs.takeWhile (· != ':')
    match asciiClasses.lookup (String.ofList name), cs.drop name.length with
    | some ranges, ':' :: ']' :: _ =>
      bumpBy (name.length + (if negated then 5 else 4))
      let s := (← flags).fold (CharSet.ofRanges ranges)
      return some (if negated then .complement s else s)
    | _, _ => return none
  | _ => return none

/-- A character or an escape inside a class. -/
def classItem : Reading (Atom × Extent) := do
  let start ← mark
  let atom ← match ← next? with
    | some '\\' => escape
    | c =>
      let _ ← bump
      pure (.char (c.getD '\x00') false)
  return (atom, ⟨start, ← mark⟩)

/-- Objects to a character that is no single byte where bytes are meant. -/
def checkChar (c : Char) (byte : Bool) (at_ : Extent) : Reading Unit := do
  if !(← flags).unicode && 128 ≤ c.toNat then
    objectTo (if byte then .invalidUtf8 else .unicodeNotAllowed) at_

def itemSet (item : Atom × Extent) : Reading CharSet := do
  match item with
  | (.char c byte, at_) =>
    checkChar c byte at_
    return .single c
  | (.set s, _) => return s
  | (.look _, at_) => refuse .classEscapeInvalid at_

def itemChar (item : Atom × Extent) : Reading Char := do
  match item with
  | (.char c byte, at_) =>
    checkChar c byte at_
    return c
  | (_, at_) => refuse .classRangeLiteral at_

/-- An item of a class, or a range of characters. -/
def classRange (stack : List ClassFrame) : Reading CharSet := do
  let first ← classItem
  skipBlanks
  if ← isDone then refuseOpenClass stack
  let behind ← peekSkip
  if (← next?) != some '-' || behind == some ']' || behind == some '-' then itemSet first
  else
    if !(← bumpSkip) then refuseOpenClass stack
    let last ← classItem
    let a ← itemChar first
    let b ← itemChar last
    if a ≤ b then return .range a b
    else refuse .classRangeInvalid ⟨first.2.start, last.2.stop⟩

/-- Applies an operator that waits for its right side. -/
def closeOperator (right : CharSet) : List ClassFrame → CharSet × List ClassFrame
  | .operator op left :: stack => (op.apply left right, stack)
  | stack => (right, stack)

/-- The end of a class. -/
def closeClass (items : CharSet) (stack : List ClassFrame) :
    Reading (CharSet × List ClassFrame) := do
  let (s, stack) := closeOperator ((← flags).fold items) stack
  let _ ← bump
  match stack with
  | .opened outer opening negated :: stack =>
    let s := (← flags).fold s
    let s := if negated then .complement s else s
    if stack.isEmpty then checkBytes s ⟨opening.start, ← mark⟩
    return (if stack.isEmpty then s else .union outer s, stack)
  | _ => return (s, [])

/-- The operator between two sets, if one comes next. -/
def setOperator? : Reading (Option SetOperator) := do
  match (← get).rest with
  | '&' :: '&' :: _ => return some .intersection
  | '-' :: '-' :: _ => return some .difference
  | '~' :: '~' :: _ => return some .symmetricDifference
  | _ => return none

def classBody : Nat → CharSet → List ClassFrame → Reading CharSet
  | 0, _, stack => refuseOpenClass stack
  | n + 1, items, stack => do
    skipBlanks
    match ← next? with
    | none => refuseOpenClass stack
    | some '[' =>
      match ← asciiClass? with
      | some s => classBody n (.union items s) stack
      | none =>
        let (frame, inner) ← openClass items
        classBody n inner (frame :: stack)
    | some ']' =>
      let (s, rest) ← closeClass items stack
      if rest.isEmpty then return s else classBody n s rest
    | some _ =>
      match ← setOperator? with
      | some op =>
        bumpBy 2
        let (left, stack) := closeOperator ((← flags).fold items) stack
        classBody n .nothing (.operator op left :: stack)
      | none => classBody n (.union items (← classRange stack)) stack

/-- A class in brackets. -/
def bracketClass : Reading CharSet := do
  let (frame, items) ← openClass .nothing
  classBody ((← get).rest.length + 1) items [frame]

/-! ### Repetitions -/

/-- An alternative so far, last part first; `none` is a change of flags. -/
abbrev Parts := List (Option Regex)

/-- The part a repetition applies to. -/
def repeated (parts : Parts) : Reading (Regex × Parts) := do
  match parts with
  | some r :: parts => return (r, parts)
  | _ => refuseHere .repetitionMissing

def lazyMark : Reading Unit := do
  if (← next?) == some '?' then
    let _ ← bump

def simpleRepetition (parts : Parts) (least : Nat) (most : Option Nat) : Reading Parts := do
  let (r, parts) ← repeated parts
  let _ ← bump
  lazyMark
  return some (.times r least most) :: parts

/-- Skips blanks, with or without the flag that allows them. -/
def skipWhite : Reading Unit := do bumpBy ((← get).rest.takeWhile Text.isWhite).length

def digitsRest : Nat → List Char → Reading (List Char)
  | 0, ds => return ds.reverse
  | n + 1, ds => do
    match ← next? with
    | some c =>
      if c.isDigit then
        let _ ← bumpSkip
        digitsRest n (c :: ds)
      else return ds.reverse
    | none => return ds.reverse

/-- A number, or the fault that there is none. -/
def decimal : Reading (Except RegexError Nat) := do
  skipWhite
  let start ← mark
  let ds ← digitsRest (← get).rest.length []
  let at_ : Extent := ⟨start, ← mark⟩
  skipWhite
  let n := ds.foldl (fun n c => n * 10 + (c.toNat - '0'.toNat)) 0
  if ds.isEmpty then return .error ⟨.repetitionCountDecimalEmpty, at_, none⟩
  else if Nat.pow 2 32 ≤ n then return .error ⟨.decimalInvalid, at_, none⟩
  else return .ok n

/-- A repetition with counts in braces. -/
def countedRepetition (parts : Parts) : Reading Parts := do
  let start ← mark
  let (r, parts) ← repeated parts
  if !(← bumpSkip) then refuseFrom .repetitionCountUnclosed start
  let first ← decimal
  if ← isDone then refuseFrom .repetitionCountUnclosed start
  let (least, most) ←
    if (← next?) == some ',' then
      if !(← bumpSkip) then refuseFrom .repetitionCountUnclosed start
      if (← next?) == some '}' then pure (← first, none)
      else
        let least ← first
        pure (least, some (← ← decimal))
    else
      let n ← first
      pure (n, some n)
  if (← next?) != some '}' then refuseFrom .repetitionCountUnclosed start
  if ← bumpSkip then lazyMark
  if most.any (· < least) then refuseFrom .repetitionCountInvalid start
  return some (.times r least most) :: parts

/-! ### Groups -/

inductive FlagItem where
  | negation
  | flag (c : Char)
deriving DecidableEq

/-- The flags inside a group, up to its colon or bracket. -/
def flagItems : Nat → List (FlagItem × Extent) → Reading (List (FlagItem × Extent))
  | 0, _ => refuseHere .flagUnexpectedEnd
  | n + 1, items => do
    match ← next? with
    | none => refuseHere .flagUnexpectedEnd
    | some c =>
      let at_ ← nextExtent
      if c == ':' || c == ')' then
        match items with
        | (.negation, dash) :: _ => refuse .flagDanglingNegation dash
        | _ => return items.reverse
      else
        let item := if c == '-' then FlagItem.negation else .flag c
        if c != '-' && !"imsUuRx".toList.contains c then refuse .flagUnrecognized at_
        match items.find? fun i => i.1 == item with
        | some (_, earlier) =>
          throw ⟨if c == '-' then .flagRepeatedNegation else .flagDuplicate, at_, some earlier⟩
        | none =>
          if !(← bump) then refuseHere .flagUnexpectedEnd
          flagItems n ((item, at_) :: items)

def Flags.switch (f : Flags) (on : Bool) (c : Char) : Flags :=
  match c with
  | 'i' => { f with caseless := on }
  | 'm' => { f with multiLine := on }
  | 's' => { f with dotAll := on }
  | 'R' => { f with carriage := on }
  | 'u' => { f with unicode := on }
  | 'x' => { f with blanks := on }
  | _ => f

/-- The flags after some items: those behind a dash are switched off. -/
def Flags.apply (f : Flags) (on : Bool) : List FlagItem → Flags
  | [] => f
  | .negation :: items => apply f false items
  | .flag c :: items => apply (f.switch on c) on items

/-- A group or alternative that is not finished. -/
structure Frame where
  opening : Extent
  /-- The flags outside the group. -/
  outerFlags : Flags
  /-- The parts in front of the group. -/
  outerParts : Parts
  /-- The alternatives in front of the group, the last one first. -/
  outerBranches : List Regex

def isNameChar (first : Bool) (c : Char) : Bool :=
  c == '_' || (Text.isAlphabetic c) ||
    (!first && (c == '.' || c == '[' || c == ']' ||
      match Text.Category.of c with
      | .decimalNumber | .letterNumber | .otherNumber => true
      | _ => false))

def groupNameRest (start : Mark) : Nat → List Char → Reading (List Char)
  | 0, _ => refuseHere .groupNameUnexpectedEnd
  | n + 1, name => do
    match ← next? with
    | none => refuseHere .groupNameUnexpectedEnd
    | some '>' => return name.reverse
    | some c =>
      if !isNameChar ((← mark) == start) c then refuseNext .groupNameInvalid
      let _ ← bump
      groupNameRest start n (c :: name)

def groupName : Reading Unit := do
  let start ← mark
  let name ← groupNameRest start ((← get).rest.length + 1) []
  let at_ : Extent := ⟨start, ← mark⟩
  let _ ← bump
  if name.isEmpty then refuse .groupNameEmpty ⟨start, start⟩
  match (← get).names.lookup name with
  | some earlier => throw ⟨.groupNameDuplicate, at_, some earlier⟩
  | none => modify fun r => { r with names := (name, at_) :: r.names }

/-- Flags behind `(?`: the flags for the rest of the group, or those of a new one. -/
def flagGroup (opening : Extent) (inner : Mark) : Reading (Bool × Flags) := do
  if ← isDone then refuse .groupUnclosed opening
  let items ← flagItems ((← get).rest.length + 1) []
  let closed := (← next?) == some ')'
  let _ ← bump
  if closed && items.isEmpty then refuse .repetitionMissing ⟨inner, inner⟩
  return (closed, (← flags).apply true (items.map (·.1)))

/-- The start of a group. The answer is `none` when it only sets flags. -/
def openGroup (parts : Parts) (branches : List Regex) : Reading (Option Frame) := do
  let opening ← nextExtent
  let outer ← flags
  let _ ← bump
  skipBlanks
  let inner ← mark
  for s in ["?=", "?!", "?<=", "?<!"] do
    if ← bumpIf s then refuseFrom .unsupportedLookAround opening.start
  let frame : Frame := ⟨opening, outer, parts, branches⟩
  let named ← if ← bumpIf "?P<" then pure true else bumpIf "?<"
  if named then
    groupName
    return some frame
  else if ← bumpIf "?" then
    let (closed, f) ← flagGroup opening inner
    modify fun r => { r with flags := f }
    return if closed then none else some frame
  else return some frame

/-! ### The whole expression -/

def concatParts (parts : Parts) : Regex := concat (parts.reverse.filterMap id)

def alternatives (parts : Parts) (branches : List Regex) : Regex :=
  choice (concatParts parts :: branches).reverse

/-- A character under the current flags. -/
def literal (c : Char) (byte : Bool) (at_ : Extent) : Reading Regex := do
  let f ← flags
  if byte || f.caseless then checkChar c byte at_
  return .set (f.fold (.single c))

def anyChar (at_ : Extent) : Reading Regex := do
  let f ← flags
  if !f.unicode then objectTo .invalidUtf8 at_
  let ends := if f.carriage then CharSet.ofRanges [('\n', '\n'), ('\r', '\r')] else .single '\n'
  return .set (if f.dotAll then .property .any else .complement ends)

/-- A single character, class or condition. -/
def primitive (c : Char) : Reading Regex := do
  let start ← mark
  let f ← flags
  match c with
  | '\\' =>
    match ← escape with
    | .char c byte => literal c byte ⟨start, ← mark⟩
    | .set s => return .set s
    | .look l => return .look l
  | _ =>
    let at_ ← nextExtent
    let _ ← bump
    match c with
    | '.' => anyChar at_
    | '^' => return .look (if f.multiLine then .lineStart f.carriage else .textStart)
    | '$' => return .look (if f.multiLine then .lineEnd f.carriage else .textEnd)
    | c => literal c false at_

def expression : Nat → Parts → List Regex → List Frame → Reading Regex
  | 0, _, _, _ => refuseHere .groupUnclosed
  | n + 1, parts, branches, stack => do
    skipBlanks
    match ← next? with
    | none =>
      match stack with
      | [] => return alternatives parts branches
      | frame :: _ => refuse .groupUnclosed frame.opening
    | some '(' =>
      match ← openGroup parts branches with
      | some frame =>
        if nestLimit < stack.length + 1 then refuse .nestLimitExceeded frame.opening
        expression n [] [] (frame :: stack)
      | none => expression n (none :: parts) branches stack
    | some ')' =>
      match stack with
      | [] => refuseNext .groupUnopened
      | frame :: stack =>
        modify fun r => { r with flags := frame.outerFlags }
        let _ ← bump
        expression n (some (alternatives parts branches) :: frame.outerParts) frame.outerBranches
          stack
    | some '|' =>
      let _ ← bump
      expression n [] (concatParts parts :: branches) stack
    | some '[' => expression n (some (.set (← bracketClass)) :: parts) branches stack
    | some '?' => expression n (← simpleRepetition parts 0 (some 1)) branches stack
    | some '*' => expression n (← simpleRepetition parts 0 none) branches stack
    | some '+' => expression n (← simpleRepetition parts 1 none) branches stack
    | some '{' => expression n (← countedRepetition parts) branches stack
    | some c => expression n (some (← primitive c) :: parts) branches stack

/-- Reads an expression. -/
def parse (pattern : List Char) : Except RegexError Regex := do
  let start : Reader := ⟨pattern, ⟨0, 1, 1⟩, {}, [], none⟩
  let (r, reader) ← (expression (pattern.length + 1) [] [] []).run start
  match reader.meaning with
  | some e => throw e
  | none => return r

end Bundler.Regex
