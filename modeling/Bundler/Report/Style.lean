import Bundler.Report.Basic
import Bundler.Report.Table
import Bundler.Text.ByteCount

/-! Reports for people and for programs: a few lines and a table, or JSON. -/
namespace Bundler

inductive ReportFormat where
  | table
  | json
deriving DecidableEq, Inhabited

structure ReportStyle where
  format : ReportFormat := .table
  colored : Bool := false
  /-- The width that tables are wrapped to; without it nothing is shortened. -/
  width : Option Nat := none
  /-- JSON on one line, tables without lines. -/
  compact : Bool := false
deriving Inhabited

/-! ### Colours -/

namespace ReportStyle

/-- A text under terminal attributes. -/
def paint (s : ReportStyle) (attributes text : String) : String :=
  if s.colored then "\x1b[" ++ attributes ++ "m" ++ text ++ "\x1b[0m" else text

def heading (s : ReportStyle) : String → String := s.paint "1;32"

def warning (s : ReportStyle) : String → String := s.paint "1;33"

def key (s : ReportStyle) : String → String := s.paint "36"

def strong (s : ReportStyle) : String → String := s.paint "1"

def faint (s : ReportStyle) : String → String := s.paint "2"

/-! ### Tables -/

def frame (s : ReportStyle) : Frame := if s.compact then .blank else .rounded

/-- Labels and values. -/
def pairs (s : ReportStyle) (ps : List (String × String)) : String :=
  (Table.ofTexts s.frame (ps.map fun (k, v) => [k, v]) .right).text s.width

/-- Rows under a header. In the columns `shortened` no cell has more than `longest`
characters when the table is wrapped. -/
def rows (s : ReportStyle) (header : List String) (rows : List (List String))
    (shortened : List Nat) (longest : Nat) : String :=
  let cell (i : Nat) (text : String) : String :=
    if s.width.isSome && shortened.contains i then Text.truncate text longest else text
  if rows.isEmpty then "(no modules)"
  else
    let body := rows.map fun r => r.zipIdx.map fun (text, i) => cell i text
    (Table.ofTexts s.frame (header :: body) .left).text s.width

def json (s : ReportStyle) (j : Json) : String := if s.compact then j.compress else j.pretty

end ReportStyle

/-! ### Reports -/

def cycleText (keys : List Key) : String := " -> ".intercalate keys

/-- The lines about cycles below the summary of a build. -/
def BuildReport.cycleLines (s : ReportStyle) (cycles : List (List Key)) : List String :=
  if cycles.isEmpty then []
  else
    (s.warning "warning:" ++ " " ++ toString cycles.length ++ " circular dependency group(s)") ::
      cycles.map fun c => "  " ++ cycleText c

def BuildReport.table (s : ReportStyle) (r : BuildReport) : String :=
  let head := s.heading "Built" ++ " " ++ s.key r.entry ++ " " ++ s.faint "->" ++ " " ++
    s.strong r.artifact
  let counts := s.pairs [("Modules", toString r.modules),
    ("Dependencies", toString r.dependencies), ("Size", Text.byteCount r.size)]
  "\n".intercalate (head :: counts :: cycleLines s r.cycles ++
    [s.faint ("(" ++ toString r.milliseconds ++ " ms)")])

/-- The cells of a module. -/
def ModuleEntry.row (m : ModuleEntry) : List String :=
  [m.key, if m.dependencies.isEmpty then "-" else ", ".intercalate m.dependencies, m.hash]

def GraphReport.table (s : ReportStyle) (r : GraphReport) : String :=
  let head := s.heading "Module graph" ++ " " ++ s.key (r.entry.getD "-") ++ " (" ++
    toString r.modules.length ++ " modules)"
  let modules := s.rows ["Module", "Dependencies", "Hash"] (r.modules.map ModuleEntry.row) [2] 13
  "\n".intercalate (head :: modules :: r.cycles.map fun c => s.warning "cycle:" ++ " " ++ cycleText c)

def BuildReport.text (s : ReportStyle) (r : BuildReport) : String :=
  match s.format with
  | .table => r.table s
  | .json => s.json r.toJson

def GraphReport.text (s : ReportStyle) (r : GraphReport) : String :=
  match s.format with
  | .table => r.table s
  | .json => s.json r.toJson

end Bundler
