import Bundler.JavaScript.Recovery.Part

/-! Attempts at reading a faulty source, and which of two attempts is the better one. -/
namespace Bundler.JavaScript.Recovery

/-- Tokens left out one after the other. -/
structure Skipped where
  span : Span
  weight : Nat

inductive Activity where
  | reading
  /-- In front of a token that does not fit. -/
  | stuck
  /-- Leaving out tokens until one fits to some of the parts. -/
  | skipping (tokens : Option Skipped)
  | ended

structure Attempt where
  /-- What it has put together, the last part first. -/
  parts : List Part
  /-- What it has still to read. -/
  rest : List Fragment
  /-- The end of what it has read. -/
  position : Nat
  /-- How much it has read since its last fault. -/
  headway : Nat
  activity : Activity

namespace Attempt

def isActive (a : Attempt) : Bool := a.activity matches .reading | .skipping _

def isStuck (a : Attempt) : Bool := a.activity matches .stuck

def isEnded (a : Attempt) : Bool := a.activity matches .ended

/-- Whether the next token does not fit, or the last one did not. -/
def isAstray (a : Attempt) : Bool := a.activity matches .stuck | .skipping _

def text (a : Attempt) : List Char := Part.textOf a.parts

def cost (source : List Char) (a : Attempt) : Nat :=
  Part.costOf source a.parts + match a.activity with
    | .reading | .ended => 0
    | .stuck => 600
    | .skipping none => 500
    | .skipping (some t) => gapCost source t.span t.weight

end Attempt

/-- What decides between two attempts. -/
structure Standing where
  cost : Nat
  headway : Nat
  isAstray : Bool

def Attempt.standing (source : List Char) (a : Attempt) : Standing :=
  ⟨a.cost source, a.headway, a.isAstray⟩

/-- The outcome of a comparison. The loser of a decided one is dropped. -/
inductive Verdict where
  | firstWins
  | firstLeads
  | level
  | secondLeads
  | secondWins
deriving DecidableEq

/-- The difference in cost, times the headway of the cheaper attempt, that decides. -/
def decisiveLead : Nat := 1800

/-- An attempt that is not astray wins against a dearer one that is; else the cheaper one
leads, and wins when it has read far enough. -/
def Standing.compare (a b : Standing) : Verdict :=
  let decided (cheap dear : Standing) : Bool :=
    decisiveLead < (dear.cost - cheap.cost) * (1 + cheap.headway)
  match a.isAstray, b.isAstray with
  | false, true => if a.cost < b.cost then .firstWins else .firstLeads
  | true, false => if b.cost < a.cost then .secondWins else .secondLeads
  | _, _ =>
    if a.cost < b.cost then if decided a b then .firstWins else .firstLeads
    else if b.cost < a.cost then if decided b a then .secondWins else .secondLeads
    else .level

namespace Attempt

/-- Whether two attempts can only go on alike. -/
def meets (source : List Char) (a b : Attempt) : Bool :=
  a.isActive && b.isActive && a.isAstray == b.isAstray && a.position == b.position &&
    a.cost source == b.cost source && (a.isAstray || a.text == b.text)

/-- Puts an attempt in its place among others, the best one first, and drops what loses. -/
def insert (source : List Char) (a : Attempt) : List Attempt → List Attempt
  | [] => [a]
  | b :: bs =>
    match (b.standing source).compare (a.standing source) with
    | .firstWins => b :: bs
    | .firstLeads | .level => if a.meets source b then b :: bs else b :: insert source a bs
    | .secondLeads => if a.meets source b then b :: bs else a :: insert source b bs
    | .secondWins => insert source a bs

end Attempt
end Bundler.JavaScript.Recovery
