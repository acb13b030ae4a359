import Bundler.Specifier

/-! Why a build fails. Each cause carries what it is about; `message` writes it. An
error about one module also carries the load that brought the module in, which is
attached by the walk of the module graph. -/
namespace Bundler

/-- The points of a build that plugins can listen to. -/
inductive Phase where
  | beforeRun
  | afterRun
  | beforeCompile
  | afterCompile
  | emit
  | failed
deriving DecidableEq, Inhabited

namespace Phase

def all : List Phase := [beforeRun, afterRun, beforeCompile, afterCompile, emit, failed]

def name : Phase → String
  | beforeRun => "beforeRun"
  | afterRun => "afterRun"
  | beforeCompile => "beforeCompile"
  | afterCompile => "afterCompile"
  | emit => "emit"
  | failed => "failed"

def ofName? (s : String) : Option Phase := all.find? (·.name == s)

end Phase

/-- The load that brought a module into the graph; the entry has no importer. -/
structure Origin where
  specifier : Option Specifier := none
  importer : Option Key := none
deriving DecidableEq, Inhabited

/-- A place where a source is no program, by line and column counted from one. -/
structure SyntaxError where
  line : Nat
  column : Nat
  message : String
deriving DecidableEq, Inhabited

def SyntaxError.display (e : SyntaxError) : String :=
  toString e.line ++ ":" ++ toString e.column ++ ": " ++ e.message

inductive BuildError where
  /-- No file exists for a key. -/
  | resolution (key : Key) (specifier : Specifier) (importer : Option Key)
  /-- A rule names a loader that is not registered. -/
  | unknownLoader (loader : String) (key : Key) (origin : Origin)
  /-- A loader refused its input. -/
  | loaderFailed (loader : String) (key : Key) (origin : Origin) (reason : String)
  /-- A load call whose argument is no string literal. -/
  | rewrite (key : Key) (origin : Origin) (call reason : String)
  /-- A dependency that is not in the finished graph. -/
  | unresolvedModule (key : Key) (specifier : Specifier) (importer : Key)
  /-- A source that does not parse. -/
  | badSource (key : Key) (origin : Origin) (error : SyntaxError)
  /-- Reading a module or writing the artifact failed. -/
  | file (path : Path) (reason : String)
  /-- A plugin failed, while it was set up when there is no phase. -/
  | plugin (plugin : String) (phase : Option Phase) (reason : String)
  | config (message : String)
deriving DecidableEq, Inhabited

def Origin.display : Origin → String
  | ⟨some s, some i⟩ => " (loaded as '" ++ s ++ "' by '" ++ i ++ "')"
  | ⟨some s, none⟩ => " (entry '" ++ s ++ "')"
  | ⟨none, _⟩ => ""

namespace BuildError

def message : BuildError → String
  | resolution key s importer =>
    "cannot resolve '" ++ s ++ "' from " ++ importer.getD "the project root" ++
      ": no file for module '" ++ key ++ "'"
  | unknownLoader loader key origin =>
    "loader '" ++ loader ++ "' is not registered (needed by module '" ++ key ++ "'" ++
      origin.display ++ ")"
  | loaderFailed loader key origin reason =>
    "loader '" ++ loader ++ "' failed on module '" ++ key ++ "'" ++ origin.display ++ ": " ++ reason
  | rewrite key origin call reason =>
    "cannot rewrite `" ++ call ++ "` in module '" ++ key ++ "'" ++ origin.display ++ ": " ++ reason
  | unresolvedModule key s importer =>
    "module '" ++ importer ++ "' references '" ++ s ++ "' as '" ++ key ++
      "', which is not in the module graph"
  | badSource key origin e =>
    "syntax error in module '" ++ key ++ "'" ++ origin.display ++ " at " ++ e.display
  | file path reason => "I/O error on " ++ path.text ++ ": " ++ reason
  | plugin name phase reason =>
    "plugin '" ++ name ++ "' failed during " ++ (phase.map Phase.name).getD "setup" ++ ": " ++ reason
  | config message => "invalid configuration: " ++ message

/-- The text of the error beneath this one, where there is one. -/
def cause? : BuildError → Option String
  | loaderFailed _ _ _ reason | file _ reason | plugin _ _ reason => some reason
  | _ => none

/-- Says which load an error about one module comes from; other errors stay as they are. -/
def withOrigin (s : Specifier) (importer : Option Key) : BuildError → BuildError
  | resolution key _ _ => resolution key s importer
  | unknownLoader loader key _ => unknownLoader loader key ⟨some s, importer⟩
  | loaderFailed loader key _ reason => loaderFailed loader key ⟨some s, importer⟩ reason
  | rewrite key _ call reason => rewrite key ⟨some s, importer⟩ call reason
  | badSource key _ e => badSource key ⟨some s, importer⟩ e
  | e => e

/-- The specifier that asked for the failing module, when known. -/
def specifier? : BuildError → Option Specifier
  | resolution _ s _ | unresolvedModule _ s _ => some s
  | unknownLoader _ _ o | loaderFailed _ _ o _ | rewrite _ o _ _ | badSource _ o _ => o.specifier
  | file .. | plugin .. | config _ => none

/-- The module the error is about, when there is one. -/
def key? : BuildError → Option Key
  | resolution key _ _ | unknownLoader _ key _ | loaderFailed _ key _ _ | rewrite key _ _ _
  | unresolvedModule key _ _ | badSource key _ _ => some key
  | file .. | plugin .. | config _ => none

end BuildError
end Bundler
