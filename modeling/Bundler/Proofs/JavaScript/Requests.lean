import Bundler.Rewrite

/-! The modules that a program requests: by its imports, by the exports that name a source,
and by the calls of `import` and `require` anywhere in it. -/
namespace Bundler

namespace JavaScript

/-- The specifier that a call hands on, when it is a literal. -/
def CallSite.specifier? (c : CallSite) : Option (List Char) :=
  match c.arguments.head? with
  | some (.literal value _) => some value
  | _ => none

namespace Node

/-- Whether a node is a dynamic import or a call of `require`. -/
def isRequest : Node → Bool
  | .call _ (.importWord _) _ => true
  | .call _ (.name w) _ => w.text == Rewrite.loader.toList
  | _ => false

/-- What the calls inside some nodes request. -/
def requestsOf (source : List Char) (ns : List Node) : List (List Char) :=
  ((callsOf ns).filter isRequest).filterMap fun n => (n.site? source).bind CallSite.specifier?

end Node

/-- The module that an export takes its names from. -/
def ExportForm.source? : ExportForm → Option Lexeme
  | .all source | .namespace _ source => some source
  | .names _ source => source
  | .declaration .. | .value .. => none

def Statement.requests (source : List Char) : Statement → List (List Char)
  | .importing _ _ literal attributes =>
    Literal.value literal.text :: Node.requestsOf source attributes
  | .exporting _ form decorators =>
    Node.requestsOf source decorators ++ (form.source?.map (Literal.value ·.text)).toList ++
      Node.requestsOf source form.parts
  | s => Node.requestsOf source s.parts

/-- The specifiers that a program requests, in the order they are written. -/
def Program.requests (source : List Char) (p : Program) : List (List Char) :=
  p.body.flatMap (Statement.requests source)

end JavaScript

open JavaScript

/-- An export that names a module and nothing in it. -/
def emptyReexport : List Char := "export \x7b\x7d from './x';".toList

theorem program_emptyReexport :
    ((program emptyReexport).toOption.any fun p =>
      p.requests emptyReexport == ["./x".toList]) = true := by decide +kernel

theorem rewrite_emptyReexport :
    ((rewrite .javaScript ⟨"/p"⟩ "./src/index.js" emptyReexport).toOption.any fun r =>
      r.dependencies == []) = true := by decide +kernel

/-- An export of no names requests its module, but nothing in its common form does. -/
theorem not_rewrite_requests :
    ¬ ∀ (root : Path) (key : Key) (source : List Char) (p : Program) (r : Rewritten),
      program source = .ok p → rewrite .javaScript root key source = .ok r →
      (r.dependencies.map fun d => d.specifier.toList).eraseDups =
        (p.requests source).eraseDups := by
  intro h
  have hp := program_emptyReexport
  have hr := rewrite_emptyReexport
  generalize hsource : emptyReexport = source at hp hr
  cases hprogram : program source with
  | error e => simp [hprogram, Except.toOption] at hp
  | ok p =>
    cases hrewrite : rewrite .javaScript ⟨"/p"⟩ "./src/index.js" source with
    | error e => simp [hrewrite, Except.toOption] at hr
    | ok r =>
      have hclaim := h _ _ source p r hprogram hrewrite
      have hreq : p.requests source = ["./x".toList] := by
        simpa [hprogram, Except.toOption] using hp
      have hdeps : r.dependencies = [] := by simpa [hrewrite, Except.toOption] using hr
      rw [hreq, hdeps] at hclaim
      exact absurd hclaim (by decide)

end Bundler
