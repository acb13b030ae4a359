import Bundler.Cli.Project
import Bundler.Report.Style

/-! The command line: options in any order around one command. Reading it stops at the
first thing that settles the outcome, so a wish for help that comes after an error is
not granted, and one that comes before it is. -/
namespace Bundler.Cli

inductive Command where
  | build
  | graph
deriving DecidableEq, Inhabited

namespace Command

def name : Command → String
  | build => "build"
  | graph => "graph"

/-- A command by its name or its first letter. -/
def ofWord? : String → Option Command
  | "build" | "b" => some build
  | "graph" | "g" => some graph
  | _ => none

end Command

inductive Flag where
  | verbose
  | quiet
  | format
  | compact
  | config
  | entry
  | outputDirectory
  | outputFile
  | help
  | version
deriving DecidableEq, Inhabited

namespace Flag

def long : Flag → String
  | verbose => "verbose"
  | quiet => "quiet"
  | format => "format"
  | compact => "compact"
  | config => "config"
  | entry => "entry"
  | outputDirectory => "out-dir"
  | outputFile => "out-file"
  | help => "help"
  | version => "version"

def short? : Flag → Option Char
  | verbose => some 'v'
  | quiet => some 'q'
  | config => some 'c'
  | entry => some 'e'
  | help => some 'h'
  | version => some 'V'
  | _ => none

def takesValue : Flag → Bool
  | format | config | entry | outputDirectory | outputFile => true
  | _ => false

/-- The flags that stand in front of a command or behind it. -/
def everywhere : List Flag := [verbose, quiet, format, compact, help, version]

/-- The flags behind a command. -/
def ofCommand : Command → List Flag
  | .build => everywhere ++ [config, entry, outputDirectory, outputFile]
  | .graph => everywhere ++ [config, entry]

end Flag

/-- What ends the reading early. -/
inductive Stop where
  | help
  | version (command : Option Command)
  | usage
deriving DecidableEq, Inhabited

/-- The flags given in front of a command, or behind it, with their values. -/
abbrev Level := List (Flag × String)

/-- A command with its flags. -/
structure Invocation where
  command : Command
  outer : Level
  inner : Level
deriving Inhabited

namespace Invocation

/-- The value of a flag; behind the command it counts more. -/
def value? (i : Invocation) (f : Flag) : Option String :=
  (i.inner.lookup f).or (i.outer.lookup f)

def has (i : Invocation) (f : Flag) : Bool := (i.value? f).isSome

def overrides (i : Invocation) : Overrides :=
  ⟨i.value? .entry, i.value? .outputDirectory, i.value? .outputFile⟩

def format (i : Invocation) : ReportFormat :=
  if i.value? .format == some "json" then .json else .table

end Invocation

/-! ### Reading -/

/-- A place where flags are read. -/
structure Place where
  command : Option Command := none

namespace Place

def flags (p : Place) : List Flag :=
  match p.command with
  | none => Flag.everywhere
  | some c => Flag.ofCommand c

/-- Adds a flag, which may be given once. -/
def add (p : Place) (l : Level) (f : Flag) (value : String) : Except Stop Level :=
  match f with
  | .help => .error .help
  | .version => .error (.version p.command)
  | f =>
    if (l.lookup f).isSome then .error .usage
    else if f = .format && value != "table" && value != "json" then .error .usage
    else .ok (l ++ [(f, value)])

/-- Reads short flags behind one dash. A flag that takes a value takes the rest, or waits
for the next argument. -/
def shorts (p : Place) (l : Level) : List Char → Except Stop (Level × Option Flag)
  | [] => .ok (l, none)
  | c :: cs =>
    match p.flags.find? fun f => f.short? == some c with
    | none => .error .usage
    | some f =>
      if f.takesValue then
        match cs with
        | [] => .ok (l, some f)
        | '=' :: value | value => do return (← p.add l f (String.ofList value), none)
      else do shorts p (← p.add l f "") cs

/-- Reads a long flag behind two dashes. -/
def longFlag (p : Place) (l : Level) (text : List Char) : Except Stop (Level × Option Flag) :=
  let name := text.takeWhile (· != '=')
  match p.flags.find? fun f => f.long.toList == name with
  | none => .error .usage
  | some f =>
    match text.drop name.length, f.takesValue with
    | [], true => .ok (l, some f)
    | [], false => do return (← p.add l f "", none)
    | _ :: value, true => do return (← p.add l f (String.ofList value), none)
    | _ :: _, false => .error .usage

/-- Reads one argument that starts with a dash. -/
def flag (p : Place) (l : Level) (arg : String) : Except Stop (Level × Option Flag) :=
  match arg.toList with
  | '-' :: '-' :: text => p.longFlag l text
  | _ :: text => p.shorts l text
  | [] => .error .usage

/-- Whether an argument is read as flags. A single dash is a word. -/
def isFlag (arg : String) : Bool := arg.startsWith "-" && arg != "-"

/-- Reads flags up to the first word, or to the dashes that end all flags. The answer
holds the arguments from there on; `waiting` is a flag whose value comes next. -/
def read (p : Place) (l : Level) (waiting : Option Flag) :
    List String → Except Stop (Level × List String)
  | [] => if waiting.isSome then .error .usage else .ok (l, [])
  | a :: args =>
    match waiting with
    | some f => if isFlag a then .error .usage else do read p (← p.add l f a) none args
    | none =>
      if a == "--" || !isFlag a then .ok (l, a :: args)
      else do
        let (l, waiting) ← p.flag l a
        read p l waiting args

/-- Refuses flags that exclude each other. -/
def check (l : Level) : Except Stop Unit :=
  if (l.lookup Flag.verbose).isSome && (l.lookup Flag.quiet).isSome then .error .usage
  else .ok ()

end Place

/-- What the arguments ask for. Without a command it is help. -/
def Invocation.ofArguments (args : List String) : Except Stop Invocation := do
  let (outer, rest) ← Place.read {} [] none args
  match rest with
  | [] | ["--"] =>
    Place.check outer
    throw .help
  | ["help"] => throw .help
  | "help" :: [topic] =>
    throw (if topic == "help" || (Command.ofWord? topic).isSome then .help else .usage)
  | word :: args =>
    match Command.ofWord? word with
    | none => throw .usage
    | some command =>
      let (inner, rest) ← Place.read ⟨some command⟩ [] none args
      if !(rest.isEmpty || rest == ["--"]) then throw .usage
      Place.check inner
      Place.check outer
      return { command, outer, inner }

end Bundler.Cli
