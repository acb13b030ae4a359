import Bundler.Path

/-! A tree of files and directories. Paths are looked up step by step, as a kernel does:
every step but the last has to lead to a directory, and `..` leads back from it. An
operation on paths either answers the tree after it or why it failed. -/
namespace Bundler

/-- Where a file or directory stands, by the names from the root on. -/
abbrev Location := List String

inductive Entry where
  | file (content : ByteArray)
  | directory
deriving Inhabited

inductive FileError where
  | notFound
  | alreadyExists
  | busy
  | notADirectory
  | isADirectory
  | nameTooLong
  | invalidName
deriving DecidableEq, Inhabited

def FileError.message : FileError → String
  | notFound => "No such file or directory (os error 2)"
  | alreadyExists => "File exists (os error 17)"
  | busy => "Device or resource busy (os error 16)"
  | notADirectory => "Not a directory (os error 20)"
  | isADirectory => "Is a directory (os error 21)"
  | nameTooLong => "File name too long (os error 36)"
  | invalidName => "file name contained an unexpected NUL byte"

structure FileTree where
  entries : List (Location × Entry) := []
deriving Inhabited

namespace FileTree

/-! ### Locations -/

def get? (t : FileTree) (loc : Location) : Option Entry :=
  if loc.isEmpty then some .directory else t.entries.lookup loc

def erase (t : FileTree) (loc : Location) : FileTree :=
  ⟨t.entries.filter fun e => e.1 != loc⟩

def put (t : FileTree) (loc : Location) (e : Entry) : FileTree :=
  ⟨(t.erase loc).entries ++ [(loc, e)]⟩

/-- The files with their content. -/
def files (t : FileTree) : List (Location × ByteArray) :=
  t.entries.filterMap fun
    | (loc, .file b) => some (loc, b)
    | (_, .directory) => none

/-! ### Lookup -/

/-- The longest name a file may have, in bytes. -/
def maxName : Nat := 255

/-- Follows steps from a location. -/
def walk (t : FileTree) : Location → List String → Except FileError Location
  | loc, [] => .ok loc
  | loc, s :: ss =>
    match t.get? loc with
    | none => .error .notFound
    | some (.file _) => .error .notADirectory
    | some .directory =>
      if s == "" || s == "." then walk t loc ss
      else if s == ".." then walk t loc.dropLast ss
      else if maxName < s.utf8ByteSize then .error .nameTooLong
      else match t.get? (loc ++ [s]) with
        | none => .error .notFound
        | some _ => walk t (loc ++ [s]) ss

/-- The location a path leads to. -/
def locate (t : FileTree) (p : Path) : Except FileError Location :=
  if p.text == "" then .error .notFound
  else if p.text.toList.contains '\x00' then .error .invalidName
  else t.walk [] p.segments

def stat? (t : FileTree) (p : Path) : Option Entry :=
  match t.locate p with
  | .ok loc => t.get? loc
  | .error _ => none

def isFile (t : FileTree) (p : Path) : Bool :=
  match t.stat? p with
  | some (.file _) => true
  | _ => false

def isDirectory (t : FileTree) (p : Path) : Bool :=
  match t.stat? p with
  | some .directory => true
  | _ => false

/-- The content of a file. -/
def read (t : FileTree) (p : Path) : Except FileError ByteArray :=
  match t.locate p with
  | .error e => .error e
  | .ok loc =>
    match t.get? loc with
    | some (.file b) => .ok b
    | some .directory => .error .isADirectory
    | none => .error .notFound

/-! ### Changes -/

/-- Where a path puts something new. -/
inductive Slot where
  /-- Under a name in a directory; `slash` when a slash follows the name. -/
  | name (directory : Location) (name : String) (slash : Bool)
  /-- The path ends in the root or a dot segment, which exist already. -/
  | taken

/-- The slot of a path, whose directory has to exist. -/
def slot (t : FileTree) (p : Path) : Except FileError Slot :=
  if p.text == "" then .error .notFound
  else if p.text.toList.contains '\x00' then .error .invalidName
  else
    let front := (p.segments.reverse.dropWhile (· == "")).reverse
    match front.getLast? with
    | none => .ok .taken
    | some last => do
      let directory ← t.walk [] front.dropLast
      match t.get? directory with
      | some .directory =>
        if last == "." || last == ".." then return .taken
        else if maxName < last.utf8ByteSize then throw .nameTooLong
        else return .name directory last (p.segments.getLast? == some "")
      | some (.file _) => throw .notADirectory
      | none => throw .notFound

/-- Writes a file, which may be there already. -/
def write (t : FileTree) (p : Path) (content : ByteArray) : Except FileError FileTree := do
  match ← t.slot p with
  | .taken => throw .isADirectory
  | .name directory name slash =>
    let loc := directory ++ [name]
    match t.get? loc with
    | some .directory => throw .isADirectory
    | _ => if slash then throw .isADirectory else return t.put loc (.file content)

/-- Makes a directory. -/
def makeDirectory (t : FileTree) (p : Path) : Except FileError FileTree := do
  match ← t.slot p with
  | .taken => throw .alreadyExists
  | .name directory name _ =>
    match t.get? (directory ++ [name]) with
    | some _ => throw .alreadyExists
    | none => return t.put (directory ++ [name]) .directory

/-- Makes a directory once its parent is there. -/
def finishDirectory (t : FileTree) (p : Path) : FileTree × Option FileError :=
  match t.makeDirectory p with
  | .ok t => (t, none)
  | .error e => if t.isDirectory p then (t, none) else (t, some e)

/-- Makes a directory and those it lies in, as far as they are missing. The directories
made before a failure stay. -/
def makeDirectories : Nat → FileTree → Path → FileTree × Option FileError
  | 0, t, _ => (t, none)
  | n + 1, t, p =>
    if p.text == "" then (t, none)
    else match t.makeDirectory p with
      | .ok t => (t, none)
      | .error .notFound =>
        match p.parent? with
        | none => (t, some .notFound)
        | some parent =>
          match makeDirectories n t parent with
          | (t, some e) => (t, some e)
          | (t, none) => t.finishDirectory p
      | .error e => if t.isDirectory p then (t, none) else (t, some e)

/-- Makes a directory and all that it lies in. -/
def makeAll (t : FileTree) (p : Path) : FileTree × Option FileError :=
  makeDirectories (p.segments.length + 1) t p

/-- Takes away what a path leads to, with all that lies in it. -/
def remove (t : FileTree) (p : Path) : FileTree :=
  match t.locate p with
  | .ok loc => ⟨t.entries.filter fun e => !loc.isPrefixOf e.1⟩
  | .error _ => t

/-- Moves a file to another path, over a file that may be there. -/
def rename (t : FileTree) (source target : Path) : Except FileError FileTree := do
  let old ← t.locate source
  let content ← t.read source
  match ← t.slot target with
  | .taken => throw .busy
  | .name directory name slash =>
    let loc := directory ++ [name]
    if slash then throw .notADirectory
    match t.get? loc with
    | some .directory => throw .isADirectory
    | _ => if loc == old then return t else return (t.erase old).put loc (.file content)

end FileTree
end Bundler
