import Bundler.Digest.Xxh3
import Bundler.Error
import Bundler.FileTree
import Bundler.Text.Utf8

/-! The file of a module. A key names a file, a file without its `.js`, or a directory
whose `index.js` is meant; the first of these that is a file is the module. -/
namespace Bundler

namespace Key

/-- The module a directory stands for. -/
def indexFile : Path := ⟨"index.js"⟩

/-- The paths a key may mean, best first. -/
def candidates (root : Path) (key : Key) : List Path :=
  let base := (root.join ⟨key⟩).normalize
  if key.endsWith ".js" then [base]
  else if key.isDirectory then [base.join indexFile]
  else
    let named := if (Path.mk key).extension?.isSome then [base] else []
    named ++ [(root.join ⟨key ++ ".js"⟩).normalize, base.join indexFile]

/-- The file a key means. -/
def file (t : FileTree) (root : Path) (key : Key) : Except BuildError Path :=
  match (candidates root key).find? t.isFile with
  | some p => .ok p
  | none => .error (.resolution key key none)

end Key

/-- A file as it was read. -/
structure SourceFile where
  path : Path
  content : List Char
  /-- The digest of its bytes. -/
  hash : String
deriving Inhabited

/-- Reads a file, which has to be text. -/
def SourceFile.read (t : FileTree) (p : Path) : Except BuildError SourceFile :=
  match t.read p with
  | .error e => .error (.file p e.message)
  | .ok bytes =>
    match Text.Utf8.decode bytes with
    | .error e => .error (.file p e.message)
    | .ok content => .ok ⟨p, content, Digest.contentHash bytes⟩

end Bundler
