import Bundler.JavaScript.Recovery.Attempt

/-! The search for the cheapest way to mend a faulty source. Attempts read side by side;
where none can read on, the best one is tried again with a token added, with some of its
parts left out, and with the next token left out. -/
namespace Bundler.JavaScript.Recovery

structure Search where
  source : List Char
  attempts : List Attempt
  /-- The furthest position of an attempt. -/
  reached : Nat := 0
  /-- The first fault of the cheapest attempt that came to the end, with its cost. -/
  best : Option (Nat × Fault) := none

namespace Search

/-- The most attempts at a time. -/
def width : Nat := 6

/-- The most parts that are left out at once. -/
def reach : Nat := 15

def set (s : Search) (i : Nat) (a : Attempt) : Search :=
  { s with attempts := s.attempts.set i a }

def add (s : Search) (a : Attempt) : Search := { s with attempts := s.attempts ++ [a] }

/-- Ends attempt `i`. -/
def abandon (s : Search) (i : Nat) (a : Attempt) : Search := s.set i { a with activity := .ended }

/-- Ends attempt `i` at the end of the source. Of two that cost the same the later counts. -/
def finish (s : Search) (i : Nat) (a : Attempt) (cost : Nat) (fault : Fault) : Search :=
  let isBeaten := s.best.any (·.1 < cost)
  { s.abandon i a with best := if isBeaten then s.best else some (cost, fault) }

/-- Whether another attempt at the same place, or one that has finished, is clearly better
than attempt `i` would be at a cost. -/
def hasBetter (s : Search) (i : Nat) (a : Attempt) (cost : Nat) : Bool :=
  s.best.any (·.1 ≤ cost) || s.attempts.zipIdx.any fun (b, j) =>
    j != i && b.isActive && a.position ≤ b.position &&
      Standing.compare ⟨cost, a.headway, false⟩ (b.standing s.source) == .secondWins

/-- The source without blanks at its ends. -/
def whole (s : Search) : Span :=
  let start := (Cursor.skipBlanks ⟨s.source, 0⟩).pos
  ⟨start, Text.size s.source - Text.size (s.source.reverse.takeWhile isBlank)⟩

/-- The attempt that leaves out the last `n` parts of another one and the tokens it has
skipped; a gap right in front takes them in. -/
def cutBack (s : Search) (a : Attempt) (skipped : Option Skipped) (n : Nat) : Attempt :=
  let kept := a.parts.drop n
  let before := (kept.head?.filter Part.isGap).toList
  let pieces := before.map Part.span ++ (if n = 0 then [] else [Part.spanOf (a.parts.take n)]) ++
    skipped.toList.map Skipped.span
  let span : Span := ⟨pieces.head?.elim 0 (·.start), pieces.getLast?.elim 0 (·.stop)⟩
  let skippedWeight := skipped.elim 0 (·.weight)
  let gap : Part :=
    { span
      text := Part.textOf kept
      weight := before.foldr (·.weight + ·) 0 + Part.looseSum Part.weightOf n a.parts + skippedWeight
      isGap := true
      innerCost := before.foldr (·.innerCost + ·) 0 + Part.costOf s.source (a.parts.take n)
      faults := [⟨span, none⟩] }
  { a with
    parts := gap :: kept.drop before.length
    headway := skippedWeight + 1
    activity := .reading }

/-- Whether the next token of an attempt may follow a text. In front of the first token
that does not fit, any word can be a name. -/
def fits (a : Attempt) (skipped : Option Skipped) (text : List Char) : Bool :=
  match a.rest.head? with
  | none => allows text none
  | some f =>
    if skipped.isNone then allows text (some f.plain)
    else allows text (some f.text) && !(f.isContextual && allows text (some f.plain))

/-- Adds the attempt that leaves out the fewest parts so that the next token fits. -/
def goBack (s : Search) (i : Nat) (a : Attempt) (skipped : Option Skipped) : List Nat → Search
  | [] => s
  | n :: ns =>
    let kept := a.parts.drop n
    let text := Part.textOf kept
    let boundary := kept.head?.elim 0 (·.span.stop)
    let isTaken := s.attempts.any fun b =>
      !b.isAstray && b.position == a.position && b.text == text
    if boundary == a.position || (a.parts.take n).getLast?.any Part.isGap || isTaken then
      goBack s i a skipped ns
    else
      let cost := a.cost s.source + 100 * (Part.looseSum Part.depthOf n a.parts + 1) +
        (a.position - boundary) + 30 * rows s.source boundary a.position
      if s.hasBetter i a cost then s
      else if fits a skipped text then s.add (s.cutBack a skipped n)
      else goBack s i a skipped ns

/-- Leaves out the next token, or finishes without it at the end. -/
def skipToken (s : Search) (i : Nat) (a : Attempt) (skipped : Option Skipped) : Search :=
  match a.rest with
  | [] =>
    let weight := Part.looseSum Part.weightOf a.parts.length a.parts + skipped.elim 0 (·.weight)
    s.finish i a (gapCost s.source s.whole weight + Part.costOf s.source a.parts) ⟨s.whole, none⟩
  | f :: rest =>
    let cost := a.cost s.source + 100 + (f.span.stop - a.position) +
      30 * rows s.source a.position f.span.stop
    if s.hasBetter i a cost then s.abandon i a
    else
      let skipped : Skipped :=
        ⟨⟨skipped.elim f.span.start (·.span.start), f.span.stop⟩,
          skipped.elim 0 (·.weight) + f.weight⟩
      s.set i
        { parts := a.parts
          rest
          position := f.span.stop
          headway := skipped.weight + 1
          activity := .skipping skipped }

/-- Goes back to where the next token fits, and on without it. -/
def recover (s : Search) (i : Nat) (a : Attempt) (skipped : Option Skipped) : Search :=
  let t := if a.rest.head?.any (·.isAlien) then s else s.goBack i a skipped (List.range (reach + 1))
  if s.attempts.length < t.attempts.length && width < t.attempts.length then t.abandon i a
  else t.skipToken i a skipped

/-- The tokens that may be added, with what they are called. -/
def addable : List (List Char × String) :=
  [(['a'], "identifier"), (['\x7d'], "\x7d"), ([';'], ";"), ([')'], ")"), ([']'], "]")]

/-- The attempt that adds a token behind which the next one fits. -/
def added? (s : Search) (a : Attempt) : Option Attempt :=
  if a.rest.head?.any (·.isAlien) then none
  else
    let next := a.rest.head?.map Fragment.plain
    let here : Span := ⟨a.position, a.position⟩
    let token := addable.find? fun (token, _) =>
      allows a.text token && allows (a.text ++ ' ' :: token) next
    token.map fun (token, name) =>
      { a with
        parts := a.parts |> Part.push s.source [' '] token
          { span := here, text := [], innerCost := addedCost, faults := [⟨here, name⟩] }
        headway := a.headway + 1
        activity := .reading }

/-- Mends an attempt that is stuck in all the ways there are. -/
def mend (s : Search) (i : Nat) (a : Attempt) : Search :=
  let s := match s.added? a with
    | some b => s.add b
    | none => s
  s.recover i { a with activity := .skipping none, headway := 0 } none

/-- Reads one token. -/
def read (s : Search) (i : Nat) (a : Attempt) : Search :=
  let stuck := { a with activity := .stuck, headway := 0 }
  let endsLine := match a.rest with
    | [] => true
    | f :: _ => f.text == ['\x7d'] || (f.lead.any isLineEnd && startsStatement f.text)
  if endsLine && impliesSemicolon a.text then
    let here : Span := ⟨a.position, a.position⟩
    s.set i { a with
      parts := a.parts |> Part.push s.source [] [';'] { span := here, text := [], weight := 0 } }
  else match a.rest with
    | [] =>
      if isProgram a.text then
        s.finish i a (a.cost s.source) ((Part.faultsOf a.parts).head?.getD ⟨s.whole, none⟩)
      else s.set i stuck
    | f :: rest =>
      if !f.isAlien && isFront (a.text ++ ' ' :: f.text) then
        s.set i { a with
          parts := a.parts |> Part.pushFragment s.source f
          rest
          position := f.span.stop
          headway := a.headway + if f.weight = 1 then 1 else f.weight + 1 }
      else s.set i stuck

def step (s : Search) (i : Nat) (a : Attempt) : Search :=
  match a.activity with
  | .reading => s.read i a
  | .skipping tokens => s.recover i a tokens
  | .stuck | .ended => s

/-- Lets attempt `i` go on until it leads; behind the first attempt a draw is enough. -/
def lead (i : Nat) : Nat → Search → Search
  | 0, s => s
  | fuel + 1, s =>
    match s.attempts[i]? with
    | none => s
    | some a =>
      if !a.isActive then s
      else
        let s := s.step i a
        let position := s.attempts[i]?.elim 0 (·.position)
        if s.reached < position || (0 < i && position == s.reached) then
          { s with reached := position }
        else lead i fuel s

/-- Lets every attempt go on, those too that come up meanwhile. -/
def round (fuel : Nat) : Nat → Nat → Search → Search
  | 0, _, s => s
  | n + 1, i, s => if i < s.attempts.length then round fuel n (i + 1) (lead i fuel s) else s

/-- Orders the attempts, drops the worse ones, and mends the best one if it is stuck. The
number is a lower bound of what the others may cost. -/
def sift (s : Search) : Option Nat × Search :=
  let attempts := s.attempts.filter (!·.isEnded)
  let bound := ((attempts.filter (!·.isAstray)).map (·.cost s.source)).min?
  match (attempts.foldl (fun kept a => a.insert s.source kept) []).take width with
  | [] => (bound, { s with attempts := [] })
  | a :: rest =>
    let s := { s with attempts := a :: rest.filter (!·.isStuck) }
    if a.isStuck then (some (a.cost s.source - 100), s.mend 0 a) else (bound, s)

def run : Nat → Search → Search
  | 0, s => s
  | fuel + 1, s =>
    let (bound, s) := sift (round (2 * s.source.length + 4) (width * width) 0 s)
    if s.attempts.isEmpty || s.best.any fun b => bound.all (b.1 < ·) then s else run fuel s

/-- The first fault of the cheapest way to mend a source. -/
def firstFault (source : List Char) : Fault :=
  let start : Attempt := ⟨[], Fragment.list source, 0, 0, .reading⟩
  let s := run (2 * source.length + 8) { source, attempts := [start] }
  s.best.elim ⟨s.whole, none⟩ (·.2)

end Search
end Bundler.JavaScript.Recovery
