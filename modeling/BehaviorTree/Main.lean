import BehaviorTree.Yaml.Formats

/-! # The program on real files

Reads the files that a command line names, prints what the program prints and ends as it ends. -/

open BehaviorTree

def BehaviorTree.Request.paths (request : Request) : List String :=
  request.config.toList ++ match request.command with
    | .check tree => [tree]
    | .dump tree _ => [tree]
    | .run tree agent _ => [tree, agent]

/-- The reason behind a failure to read a file. -/
def BehaviorTree.FileFault.ofError : IO.Error → FileFault
  | .inappropriateType _ 20 _ => .notDirectory
  | .inappropriateType .. => .isDirectory
  | .invalidArgument _ 36 _ => .nameTooLong
  | _ => .missing

/-- What stands at a path. -/
def readFile (path : String) : IO File := do
  try
    return .bytes (← IO.FS.readBinFile path)
  catch e => return .unreadable (.ofError e)

def main (args : List String) : IO UInt32 := do
  let paths := match CommandLine.read args with
    | .ok request => request.paths
    | .error _ => []
  let found ← paths.mapM fun path => do return (path, ← readFile path)
  let files := fun path => (found.lookup path).getD (.unreadable .missing)
  let ending := Program.run .yaml files args
  IO.print ending.output
  IO.eprint ending.errors
  return ending.exitCode.toUInt32
