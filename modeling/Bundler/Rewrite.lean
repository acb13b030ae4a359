import Bundler.FrontEnd
import Bundler.Json.Printer

/-! Rewriting of load calls. Every `require("x")` of a module becomes a call of the
registry with the key that `x` means there, and the specifiers are the dependencies of
the module. -/
namespace Bundler

/-- A module that another one loads, and how it was named. -/
structure Dependency where
  key : Key
  specifier : Specifier
deriving DecidableEq, Inhabited

/-- A module in its final form. -/
structure Rewritten where
  source : List Char
  dependencies : List Dependency
deriving DecidableEq, Inhabited

namespace Rewrite
open JavaScript

/-- The name of the registry in emitted code. -/
def registry : String := "__knit_require__"

/-- The function that loads a module. -/
def loader : String := "require"

/-- The load call a call stands for: itself, or the one that is handed to the helper for
default exports. -/
def loadCall? (c : CallSite) : Option CallSite :=
  if c.calleeIs loader then some c
  else if c.calleeIs CommonForm.interopHelper then
    match c.arguments.head? with
    | some (.call inner) => if inner.calleeIs loader then some inner else none
    | _ => none
  else none

/-- The load calls among some calls, each place once. -/
def loadCalls (seen : List Span) : List CallSite → List CallSite
  | [] => []
  | c :: cs =>
    match loadCall? c with
    | some load =>
      if seen.contains load.span then loadCalls seen cs
      else load :: loadCalls (load.span :: seen) cs
    | none => loadCalls seen cs

/-- The specifier of a load call with its place, or why it has none. -/
def specifier (source : List Char) (load : CallSite) : Except String (Specifier × Span) :=
  let line := "line " ++ toString load.line ++ ": "
  match load.arguments.head? with
  | some (.literal value span) => .ok (String.ofList value, span)
  | some other =>
    .error (line ++ "argument `" ++ String.ofList (Text.slice source other.span) ++
      "` is not a string literal")
  | none => .error (line ++ "missing module specifier")

/-- What a load call depends on, and the edits that direct it to the registry. -/
def resolveCall (key : Key) (root : Path) (source : List Char) (load : CallSite) :
    Except BuildError (Dependency × List Edit) :=
  match specifier source load with
  | .error reason => .error (.rewrite key {} (String.ofList (Text.slice source load.span)) reason)
  | .ok (s, span) =>
    let target := Specifier.resolve (Key.directory key) s root
    let callee := load.callee.toList.map fun w => ⟨w.span, registry.toList⟩
    .ok (⟨target, s⟩, callee ++ [⟨span, Json.literal target.toList⟩])

/-- The module of a source in common form, given the calls in it. -/
def rewriteCalls (fe : FrontEnd) (key : Key) (root : Path) (parsed : ParsedSource) :
    Except BuildError Rewritten := do
  let resolved ← (loadCalls [] parsed.calls).mapM (resolveCall key root parsed.source)
  return ⟨fe.regenerate parsed (resolved.flatMap (·.2)), resolved.map (·.1)⟩

end Rewrite

/-- The module of a source, by way of its common form. -/
def rewrite (fe : FrontEnd) (root : Path) (key : Key) (source : List Char) :
    Except BuildError Rewritten :=
  match fe.normalize source with
  | .error e => .error (.badSource key {} e)
  | .ok normal =>
    match fe.parsed normal with
    | .error e => .error (.badSource key {} e)
    | .ok parsed => Rewrite.rewriteCalls fe key root parsed

end Bundler
