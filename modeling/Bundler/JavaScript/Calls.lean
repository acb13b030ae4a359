import Bundler.JavaScript.Literal

/-! The calls of a program, each one in front of the calls inside it. -/
namespace Bundler.JavaScript

mutual

/-- A call with its callee, when that is a plain name. -/
inductive CallSite where
  | mk (span : Span) (callee : Option Lexeme) (arguments : List Argument) (line : Nat)

inductive Argument where
  /-- A string, or a template without substitutions, with its value. -/
  | literal (value : List Char) (span : Span)
  | call (site : CallSite)
  | other (text : List Char) (span : Span)

end

instance : Inhabited CallSite := ⟨.mk default none [] 0⟩

namespace CallSite

def span : CallSite → Span
  | mk s .. => s

def callee : CallSite → Option Lexeme
  | mk _ c .. => c

def arguments : CallSite → List Argument
  | mk _ _ as _ => as

def line : CallSite → Nat
  | mk _ _ _ n => n

def calleeIs (name : String) (c : CallSite) : Bool :=
  c.callee.any fun w => w.text == name.toList

end CallSite

namespace Argument

def span : Argument → Span
  | literal _ s | other _ s => s
  | call c => c.span

end Argument

namespace Node

/-- The name of a callee, when it is a plain name. -/
def calleeName : Node → Option Lexeme
  | name w => some w
  | _ => none

mutual

/-- What a node is as an argument. -/
def argument (source : List Char) : Node → Argument
  | call span callee args =>
    .call (.mk span callee.calleeName (argumentsOf source args) (Text.position source span.start).1)
  | tagged span tag t =>
    .call (.mk span tag.calleeName [.other (Text.slice source t.span) t.span]
      (Text.position source span.start).1)
  | string l => .literal (Literal.value l.text) l.span
  | template l parts =>
    if parts.isEmpty then .literal (Literal.value l.text) l.span else .other l.text l.span
  | name w => .other w.text w.span
  | importWord span => .other (Text.slice source span) span
  | other span _ => .other (Text.slice source span) span

def argumentsOf (source : List Char) : List Node → List Argument
  | [] => []
  | n :: ns => argument source n :: argumentsOf source ns

end

/-- The call a node is, if it is one. -/
def site? (source : List Char) (n : Node) : Option CallSite :=
  match n.argument source with
  | .call c => some c
  | _ => none

mutual

/-- The nodes that are calls, outer ones first. -/
def calls : Node → List Node
  | call span callee args => call span callee args :: (calls callee ++ callsOf args)
  | tagged span tag t => tagged span tag t :: (calls tag ++ calls t)
  | template _ parts | other _ parts => callsOf parts
  | name _ | string _ | importWord _ => []

def callsOf : List Node → List Node
  | [] => []
  | n :: ns => calls n ++ callsOf ns

end
end Node

/-- The nodes of a program that are calls, outer ones first. -/
def Program.calls (p : Program) : List Node := p.body.flatMap fun s => Node.callsOf s.parts

/-- The calls of a program with what they are given. -/
def Program.callSites (source : List Char) (p : Program) : List CallSite :=
  p.calls.filterMap (Node.site? source)

end Bundler.JavaScript
