import BehaviorTree.Document
import BehaviorTree.File
import BehaviorTree.Log

/-! # From documents to trees

A document is read, compiled, and put to use as a tree. A tree that is loaded from a file is told to
the log once all its nodes are compiled. -/

namespace BehaviorTree

/-- Why a document gives no tree. -/
inductive LoadError where
  | unreadable (path : String) (fault : FileFault)
  | malformed (e : DocumentError)
  | refused (e : CompileError)
  deriving DecidableEq

def LoadError.message : LoadError → String
  | .unreadable path fault => "failed to read " ++ path ++ ": " ++ fault.message
  | .malformed e => e.message
  | .refused e => e.message

namespace Tree

/-- Compiles a description; the events tell of the nodes. -/
def ofSpec (config : Config) (spec : Spec) : List Event × Except LoadError Tree :=
  let compilation := spec.compilation config
  (compilation.completed.map .compiled,
    match compilation.result with
    | .ok root => .ok (ofRoot root)
    | .error e => .error (.refused e))

/-- Reads and compiles a document; the events tell of the nodes. -/
def ofDocument (config : Config) (text : String) : List Event × Except LoadError Tree :=
  match Document.read config text with
  | .ok spec => ofSpec config spec
  | .error e => ([], .error (.malformed e))

def load (config : Config) (path : String) (file : File) : List Event × Except LoadError Tree :=
  match file.text with
  | .error fault => ([], .error (.unreadable path fault))
  | .ok text => match ofDocument config text with
    | (events, .ok tree) => (events ++ [.loaded path tree.size], .ok tree)
    | (events, .error e) => (events, .error e)

end Tree

end BehaviorTree
