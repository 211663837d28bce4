import WrapperGen.Command.Snapshot
/-!
# The program

Reads what the command needs from disk, runs it, and writes what it changed.
-/

namespace WrapperGen

open Files Command

/-! ## Disk -/

def onDisk (p : Place) : IO.FS.DirEntry := ⟨⟨"/"⟩, "/".intercalate p⟩

/-- What is at a place, if it can be read. -/
def readNode (p : Place) : IO (Option Node) := do
  try
    if ← (onDisk p).path.isDir then return some .directory
    let bytes ← IO.FS.readBinFile (onDisk p).path
    return some (.file (.ofBytes (bytes.toList.map (·.toNat))))
  catch _ => return none

/-- Adds what is at a place. -/
def addNode (fs : FileSystem) (p : Place) : IO FileSystem := do
  match ← readNode p with
  | some n => return fs.set p n
  | none => return fs

/-- Adds what is at a place and below. -/
partial def addTree (fs : FileSystem) (p : Place) : IO FileSystem := do
  let fs ← addNode fs p
  if fs.node? p == some .directory then
    (← (onDisk p).path.readDir).foldlM (fun fs e => addTree fs (p ++ [e.fileName])) fs
  else return fs

/-- Adds the directories above a place, with what matters in them. -/
def addAbove (fs : FileSystem) (p : Place) : IO FileSystem :=
  (FileSystem.placesUpwards p).reverse.foldlM (fun fs d => do
    let fs ← if d.isEmpty then pure fs else addNode fs d
    markers.foldlM (fun fs names => addNode fs (d ++ names)) fs) fs

/-- The files that a task depends on. -/
def snapshot (workingDirectory : Place) (t : Task) : IO FileSystem := do
  let places := t.paths.map (lexicalPlace workingDirectory)
  let trees := t.trees.map (lexicalPlace workingDirectory)
  let fs ← (workingDirectory :: places ++ trees).foldlM addAbove (.empty workingDirectory)
  let fs ← places.foldlM addNode fs
  trees.foldlM addTree fs

def writeNode (p : Place) : Node → IO Unit
  | .directory => IO.FS.createDirAll (onDisk p).path
  | .file (.text s) => IO.FS.writeFile (onDisk p).path s
  | .file (.binary bytes) =>
    IO.FS.writeBinFile (onDisk p).path ⟨(bytes.map UInt8.ofNat).toArray⟩

/-! ## Running -/

def finish (e : Exit) : IO UInt32 := do
  IO.print e.stdout
  IO.eprint e.stderr
  return e.code.toUInt32

def program (args : List String) : IO UInt32 := do
  match Invocation.read args with
  | .error e => finish e.exit
  | .ok i =>
    let workingDirectory := lexicalPlace [] ⟨(← IO.currentDir).toString⟩
    let before ← snapshot workingDirectory i.task
    let (after, e) := i.task.run before
    (changes before after).forM fun (p, n) => writeNode p n
    finish e

end WrapperGen

def main (args : List String) : IO UInt32 := WrapperGen.program args
