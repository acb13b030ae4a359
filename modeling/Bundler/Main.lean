import Bundler.Cli.Command

/-! The program on a real file system. What a command may look at is read first, then the
command runs on that tree, and what it changed is written back. -/
namespace Bundler.Cli

/-! ### Reading -/

/-- The location of a path without dot segments. -/
def locationOf (p : Path) : Location := p.segments.filter (· != "")

/-- Puts a path of the file system into the tree, if it exists. -/
def probe (t : FileTree) (p : Path) : IO FileTree := do
  try
    let real ← IO.FS.realPath p.text
    if ← real.isDir then
      return (t.makeAll p).1
    else
      let content ← IO.FS.readBinFile real
      let parent := ((p.parent?.map fun d => (t.makeAll d).1)).getD t
      return parent.put (locationOf p) (.file content)
  catch _ => return t

/-- Puts a path and all directories it lies in into the tree. -/
def probeAll (t : FileTree) (p : Path) : IO FileTree := do
  let parts := locationOf p
  (List.range (parts.length + 1)).foldlM
    (fun t n => probe t ⟨"/" ++ "/".intercalate (parts.take n)⟩) t

/-- Walks from the entry and reads the files of each module before it is visited. -/
partial def probeModules (c : Compiler) (t : FileTree) (s : Walk) : IO FileTree := do
  match s.settle with
  | ⟨graph, r :: rs, none⟩ =>
    let t ← (Key.candidates c.config.root r.key).foldlM probe t
    probeModules c t (Walk.step (c.workspace t) ⟨graph, r :: rs, none⟩)
  | _ => return t

/-- Reads what an invocation may look at. -/
def probeInvocation (i : Invocation) (cwd : Path) : IO FileTree := do
  let file := cwd.join (((i.value? .config).map Path.mk).getD Project.defaultFile)
  let t ← probeAll {} file.normalize
  match i.compiler t cwd with
  | .error _ => return t
  | .ok c =>
    let t ← probeAll t c.config.root.normalize
    let t ← probeAll t c.config.artifactPath.normalize
    let r := Workspace.entryRequest c.config.root c.config.entry
    probeModules c t { graph := { entry := some r.key }, pending := [r] }

/-! ### Writing -/

/-- Writes a file of the tree by way of a temporary one. -/
def writeBack (loc : Location) (content : ByteArray) : IO Unit := do
  let path := "/" ++ "/".intercalate loc
  let temporary := path ++ ".tmp"
  IO.FS.writeBinFile temporary content
  IO.FS.rename temporary path

/-- Writes what is new or changed. -/
def writeChanges (old new : FileTree) : IO Unit := do
  for (loc, entry) in new.entries do
    match entry, old.get? loc with
    | .directory, none => IO.FS.createDirAll ("/" ++ "/".intercalate loc)
    | .file content, some (.file before) =>
      if content != before then writeBack loc content
    | .file content, _ => writeBack loc content
    | _, _ => pure ()

/-- Runs the program in the current directory. -/
def perform (args : List String) : IO Outcome := do
  let started ← IO.monoMsNow
  let cwd : Path := ⟨(← IO.currentDir).toString⟩
  let files ← match Invocation.ofArguments args with
    | .ok i => probeInvocation i cwd
    | .error _ => pure {}
  let outcome := run files cwd args
  writeChanges files outcome.files
  let elapsed := (← IO.monoMsNow) - started
  IO.print (outcome.output elapsed)
  IO.eprint outcome.errors
  return outcome

end Bundler.Cli

def main (args : List String) : IO UInt32 := do
  let outcome ← Bundler.Cli.perform args
  return UInt32.ofNat outcome.code
