import Bundler.Text.Columns

/-! Tables of text in a grid of characters. A table has the width of its cells, or is
wrapped to a total width: then its columns give up one character each in turn until it
fits or no column has any left, and cells are cut into lines. -/
namespace Bundler

inductive Align where
  | left
  | right
deriving DecidableEq, Inhabited

/-- The lines drawn around cells. -/
structure Frame where
  /-- Lines around the table and below its first row. -/
  outlined : Bool
  /-- What stands between two columns. -/
  separator : Char

namespace Frame

/-- Lines with round corners. -/
def rounded : Frame := ⟨true, '│'⟩

/-- No lines, a blank between columns. -/
def blank : Frame := ⟨false, ' '⟩

/-- The columns that separators take. -/
def separators (f : Frame) (count : Nat) : Nat := if f.outlined then count + 1 else count - 1

end Frame

/-- A cell by its lines. -/
abbrev Cell := List (List Char)

structure Table where
  frame : Frame
  rows : List (List Cell)
  /-- The alignment of the first column; the others are aligned left. -/
  first : Align := .left

namespace Table

/-- A table of texts; short rows are filled with empty cells. -/
def ofTexts (frame : Frame) (rows : List (List String)) (first : Align) : Table :=
  let count := (rows.map List.length).foldl max 0
  let fill (r : List String) : List String := r ++ List.replicate (count - r.length) ""
  ⟨frame, rows.map fun r => (fill r).map fun s => Text.lines s.toList, first⟩

def columnCount (t : Table) : Nat := (t.rows.head?.map List.length).getD 0

/-- The blanks at both sides of a cell. -/
def padding : Nat := 2

/-- The width of every column with its padding. -/
def widths (t : Table) : List Nat :=
  (List.range t.columnCount).map fun i =>
    (t.rows.map fun r => Text.widest (r.getD i [])).foldl max 0 + padding

def totalWidth (t : Table) (widths : List Nat) : Nat :=
  widths.foldr (· + ·) 0 + t.frame.separators t.columnCount

/-! ### Wrapping -/

/-- Takes one character from the next column that has some left, from `i` on, `excess`
times. -/
def shrink : Nat → Nat → List Nat → List Nat
  | 0, _, ws => ws
  | excess + 1, i, ws =>
    let order := (List.range ws.length).drop i ++ (List.range ws.length).take i
    match order.find? fun j => padding < ws.getD j 0 with
    | some j => shrink excess ((j + 1) % ws.length) (ws.modify j (· - 1))
    | none => ws

/-- Stands in the place of a wide character that the end of a line leaves no room for. -/
def replacement : Char := '\ufffd'

/-- Cuts a text into lines of `width` columns; `line` is the current one, last character
first, with `used` columns. -/
def chunks (width : Nat) (line : List Char) (used : Nat) : List Char → List (List Char)
  | [] => if line.isEmpty then [] else [line.reverse]
  | c :: cs =>
    let n := Text.columns c
    let (line, used) :=
      if width < used + n then (List.replicate (width - used) replacement ++ line, width)
      else (c :: line, used + n)
    if used = width then line.reverse :: chunks width [] 0 cs else chunks width line used cs

/-- A cell in `width` columns. -/
def wrapCell (width : Nat) (cell : Cell) : Cell :=
  if Text.widest cell ≤ width then cell
  else if width = 0 then [[]]
  else
    let text := ['\n'].intercalate cell
    Text.lines (['\n'].intercalate (chunks width [] 0 text))

/-- The table with columns of given widths. -/
def withWidths (t : Table) (ws : List Nat) : Table :=
  { t with rows := t.rows.map fun r => r.zipWith (fun c w => wrapCell (w - padding) c) ws }

/-! ### Drawing -/

/-- A line of a cell whose widest line has `widest` columns. -/
def cellLine (width widest : Nat) (a : Align) (line : List Char) : List Char :=
  let indent := match a with
    | .left => 0
    | .right => width - padding - widest
  let inner := List.replicate indent ' ' ++ line
  ' ' :: inner ++ List.replicate (width - padding - Text.lineColumns inner) ' ' ++ [' ']

/-- A line of text across all columns. -/
def rowLine (f : Frame) (cells : List (List Char)) : List Char :=
  let inner := [f.separator].intercalate cells
  if f.outlined then f.separator :: inner ++ [f.separator] else inner

/-- The lines of a row, which is as high as its highest cell. -/
def rowLines (t : Table) (ws : List Nat) (row : List Cell) : List (List Char) :=
  let height := (row.map List.length).foldl max 1
  (List.range height).map fun i =>
    rowLine t.frame ((row.zip ws).zipIdx.map fun ((cell, w), j) =>
      cellLine w (Text.widest cell) (if j = 0 then t.first else .left) (cell.getD i []))

/-- A line drawn between rows. -/
def rule (left cross right : Char) (ws : List Nat) : List Char :=
  left :: [cross].intercalate (ws.map fun w => List.replicate w '─') ++ [right]

/-- The lines of a table with columns of given widths. The line below the first row is
drawn as one between rows, also when no other row follows. -/
def draw (t : Table) (ws : List Nat) : List (List Char) :=
  match t.rows.map (t.rowLines ws) with
  | [] => []
  | head :: body =>
    if !t.frame.outlined then head ++ body.flatten
    else
      let last := if body.isEmpty then [] else body.flatten ++ [rule '╰' '┴' '╯' ws]
      rule '╭' '┬' '╮' ws :: head ++ rule '├' '┼' '┤' ws :: last

/-- The text of a table, wrapped to a total width if there is one. -/
def text (t : Table) (width : Option Nat) : String :=
  let ws := t.widths
  let out := match width with
    | some total =>
      if total < t.totalWidth ws then
        let ws := shrink (t.totalWidth ws - total) 0 ws
        (t.withWidths ws).draw ws
      else t.draw ws
    | none => t.draw ws
  if t.columnCount = 0 then "" else String.ofList (['\n'].intercalate out)

end Table
end Bundler
