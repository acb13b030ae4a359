/-! File paths. A path keeps the text it was written with; what it means is its list
of components, where repeated slashes and inner `.` segments vanish. The text
matters for printing, the components for everything else. -/
namespace Bundler

/-- One step of a path. -/
inductive Component where
  | root
  | here
  | up
  | name (text : String)
deriving DecidableEq, Inhabited

structure Path where
  text : String
deriving DecidableEq, Inhabited

namespace Component

/-- The segment that writes a component. -/
def segment : Component → String
  | root => "/"
  | here => "."
  | up => ".."
  | name s => s

/-- Reads a segment between two slashes; an empty one names nothing. -/
def ofSegment? (s : String) : Option Component :=
  if s == "" then none else if s == "." then some here else if s == ".." then some up
  else some (name s)

/-- The text after the last dot of a file name. A leading dot does not start one. -/
def extensionOf (s : String) : Option String :=
  let cs := s.toList.reverse
  match cs.dropWhile (· != '.') with
  | [] | [_] => none
  | _ => if s == ".." then none else some (String.ofList (cs.takeWhile (· != '.')).reverse)

end Component

/-- The pieces between the slashes of a text, empty ones included. -/
def splitSlash : List Char → List (List Char)
  | [] => [[]]
  | c :: cs =>
    if c = '/' then [] :: splitSlash cs
    else match splitSlash cs with
      | [] => [[c]]
      | s :: ss => (c :: s) :: ss

namespace Path

instance : ToString Path := ⟨text⟩

def segments (p : Path) : List String := (splitSlash p.text.toList).map String.ofList

def ofSegments (ss : List String) : Path := ⟨"/".intercalate ss⟩

def isAbsolute (p : Path) : Bool := p.text.toList.head? == some '/'

/-- A `.` counts only as the first segment of a relative path. -/
def components (p : Path) : List Component :=
  match p.segments with
  | [] => []
  | s :: ss =>
    let rest := (ss.filterMap Component.ofSegment?).filter (· != .here)
    if p.isAbsolute then .root :: rest
    else match Component.ofSegment? s with
      | none => rest
      | some c => c :: rest

/-- `q` seen from `p`: an absolute `q` stands for itself. -/
def join (p q : Path) : Path :=
  if q.isAbsolute then q
  else if p.text == "" || p.text.toList.getLast? == some '/' then ⟨p.text ++ q.text⟩
  else ⟨p.text ++ "/" ++ q.text⟩

def ofComponents (cs : List Component) : Path :=
  cs.foldl (fun p c => p.join ⟨c.segment⟩) ⟨""⟩

/-- Drops the segments at the end that name nothing: empty ones and `.`, the first apart. -/
def trimSegments : List String → List String
  | [] => []
  | s :: ss => s :: (ss.reverse.dropWhile (fun t => t == "" || t == ".")).reverse

/-- The path without its last component, none for the root and the empty path. -/
def parent? (p : Path) : Option Path :=
  match trimSegments p.segments with
  | [] => none
  | [s] => if s == "" then none else some ⟨""⟩
  | s :: ss =>
    let front := trimSegments (s :: ss.dropLast)
    if front == [""] then some ⟨"/"⟩ else some (ofSegments front)

def fileName? (p : Path) : Option String :=
  match p.components.getLast? with
  | some (.name s) => some s
  | _ => none

def extension? (p : Path) : Option String := p.fileName?.bind Component.extensionOf

/-- Puts `name` in the place of the file name, or after a path that has none. -/
def withFileName (p : Path) (name : String) : Path :=
  match p.fileName? with
  | some _ => (p.parent?.getD p).join ⟨name⟩
  | none => p.join ⟨name⟩

/-- What is left of the segments `ss` after the components `cs`, all in relative position. -/
def afterNames : List Component → List String → Option (List String)
  | [], ss => some ss
  | _ :: _, [] => none
  | c :: cs, s :: ss =>
    match Component.ofSegment? s with
    | none | some .here => afterNames (c :: cs) ss
    | some d => if d = c then afterNames cs ss else none

/-- The rest of `p` below `base`, none when `p` does not start with it. -/
def below? (p base : Path) : Option Path :=
  let skip := List.dropWhile fun t : String => t == "" || t == "."
  match base.components, p.components with
  | [], _ =>
    let ss := trimSegments p.segments
    some (if ss == [""] && p.isAbsolute then ⟨"/"⟩ else ofSegments ss)
  | .root :: cs, .root :: _ =>
    (afterNames cs p.segments.tail).map fun ss => ofSegments (trimSegments (skip ss))
  | b :: cs, c :: _ =>
    if b = c then
      let ss := if p.segments.head? == some c.segment then p.segments.tail else p.segments
      (afterNames cs ss).map fun ss => ofSegments (trimSegments (skip ss))
    else none
  | _, [] => none

/-! ### Lexical algebra -/

/-- One step of the normal form, on the reversed components so far: `up` cancels a
name, stays behind another `up`, and does nothing at the root. -/
def normalStep : List Component → Component → List Component
  | out, .here => out
  | .name _ :: out, .up => out
  | .root :: out, .up => .root :: out
  | out, c => c :: out

def normalComponents (cs : List Component) : List Component :=
  (cs.foldl normalStep []).reverse

/-- `.` and `..` collapsed without looking at any file. -/
def normalize (p : Path) : Path := ofComponents (normalComponents p.components)

/-- The length of the longest common front part. -/
def commonLength : List Component → List Component → Nat
  | a :: as, b :: bs => if a = b then commonLength as bs + 1 else 0
  | _, _ => 0

/-- Steps up from `base` to the common front part, then down to `target`. -/
def relativeComponents (base target : List Component) : List Component :=
  let n := commonLength base target
  List.replicate (base.length - n) .up ++ target.drop n

/-- `target` seen from `base`, both normal. -/
def relative (base target : Path) : Path :=
  ofComponents (relativeComponents base.components target.components)

end Path
end Bundler
