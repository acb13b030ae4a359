import Bundler.Path

/-! Module keys. A key such as `./src/a.js` is the path of a module relative to the
project root and its identity in the bundle; every specifier of an import resolves
to one. -/
namespace Bundler

/-- How an import names its target. -/
abbrev Specifier := String

/-- The identity of a module. -/
abbrev Key := String

namespace Specifier

/-- The directory of packages. -/
def packageDirectory : String := "node_modules"

def isWordStart (c : Char) : Bool := c.isAlpha || c == '$' || c == '_'

/-- Package references: one word of letters, digits and underscores. -/
def isBare (s : Specifier) : Bool :=
  match s.toList with
  | [] => false
  | c :: cs => isWordStart c && cs.all fun d => d.isAlphanum || d == '_'

/-- Whether the last segment names a file without an extension. A trailing slash or
dot segment names a directory, which is completed by its index instead. -/
def lacksExtension (s : Specifier) : Bool :=
  match s.toList.getLast? with
  | some '/' | some '\\' => false
  | _ =>
    match (Path.mk s).components.getLast? with
    | some (.name n) => (Component.extensionOf n).isNone
    | _ => false

end Specifier

namespace Key

/-- The key that writes a relative path. -/
def ofPath (p : Path) : Key :=
  match p.components with
  | [] => "."
  | cs => "./" ++ "/".intercalate (cs.map Component.segment)

/-- The part of a key before its last slash, which the imports of its module are
relative to. It is the same for a key that stands for an index file. -/
def directory (key : Key) : Path :=
  let cs := key.toList
  match (cs.reverse.dropWhile (· != '/')).reverse.dropLast with
  | [] => if cs.head? == some '/' then ⟨"/"⟩ else ⟨"."⟩
  | front => ⟨String.ofList front⟩

/-- Keys that name a directory: they end in a slash or a dot segment. -/
def isDirectory (key : Key) : Bool :=
  key.toList.getLast? == some '/' ||
    match (Path.mk key).components.getLast? with
    | none | some .here | some .up => true
    | _ => false

end Key

namespace Specifier

/-- The normal path a specifier means, seen from a directory of the project. -/
def target (directory : Path) (s : Specifier) (root : Path) : Path :=
  let spec : Path := ⟨s⟩
  if spec.isAbsolute then spec.normalize else ((root.join directory).join spec).normalize

/-- The key of the module that `s` means in a module of `directory`. A bare word is a
package whatever the directory; all else is a path, with `.js` added to a file name
without an extension. -/
def resolve (directory : Path) (s : Specifier) (root : Path) : Key :=
  if s.isBare then "./" ++ packageDirectory ++ "/" ++ s
  else
    let key := Key.ofPath (Path.relative root.normalize (target directory s root))
    if s.lacksExtension then key ++ ".js" else key

end Specifier
end Bundler
