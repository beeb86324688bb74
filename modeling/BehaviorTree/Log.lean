import BehaviorTree.Compile
import BehaviorTree.Tree

/-! # Log events and sinks

What happens during compilation, loading and ticking is told as log events. Diagnostics go to a
sink, which keeps them, drops them, or turns each one into a log event. -/

namespace BehaviorTree

/-- How important an event is. -/
inductive Level where
  | debug
  | info
  | warn
  deriving DecidableEq

def Level.display : Level → String
  | .debug => "DEBUG"
  | .info => "INFO"
  | .warn => "WARN"

/-- Something that is told to the log. -/
inductive Event where
  | compiled (node : Compiled)
  | loaded (path : String) (nodes : Nat)
  | actionFailed (diagnostic : Diagnostic)
  | tickAborted (tick : UInt64) (error : TickError)
  deriving DecidableEq

namespace Event

def level : Event → Level
  | .compiled _ => .debug
  | .loaded _ _ => .info
  | .actionFailed _ => .warn
  | .tickAborted _ _ => .debug

def message : Event → String
  | .compiled _ => "compiled node"
  | .loaded _ _ => "Loaded behavior tree"
  | .actionFailed _ => "action failed"
  | .tickAborted _ _ => "tick aborted"

/-- The named details of an event. -/
def fields : Event → List (String × String)
  | .compiled node => [("path", node.path), ("category", node.category.display)]
  | .loaded path nodes => [("path", path), ("nodes", toString nodes)]
  | .actionFailed d =>
      [("tick", toString d.tick.toNat), ("capability", d.capability), ("error", d.message)]
  | .tickAborted tick error => [("tick", toString tick.toNat), ("error", error.message)]

end Event

/-- Where diagnostics go. -/
inductive Sink where
  | keeping (kept : List Diagnostic)
  | silent
  | logging
  deriving DecidableEq

namespace Sink

def report (sink : Sink) (diagnostic : Diagnostic) : Sink × List Event :=
  match sink with
  | .keeping kept => (.keeping (kept ++ [diagnostic]), [])
  | .silent => (.silent, [])
  | .logging => (.logging, [.actionFailed diagnostic])

/-- Reports several diagnostics in order. -/
def reportAll (sink : Sink) : List Diagnostic → Sink × List Event
  | [] => (sink, [])
  | diagnostic :: rest =>
      let (sink, events) := sink.report diagnostic
      let (sink, later) := sink.reportAll rest
      (sink, events ++ later)

def kept : Sink → List Diagnostic
  | .keeping kept => kept
  | _ => []

end Sink

namespace Tree

variable {σ : Type}

/-- Ticks a tree once, with its diagnostics going to a sink. What the sink logs comes before the
event of an abort. -/
def tickInto (agent : Agent σ) (tree : Tree) (state : σ) (sink : Sink) :
    Ticked σ × Sink × List Event :=
  let ticked := tree.tick agent state
  let (sink, logged) := sink.reportAll ticked.reports.toList
  let aborted := match ticked.outcome with
    | .ok _ => []
    | .error e => [.tickAborted tree.ticks e]
  (ticked, sink, logged ++ aborted)

end Tree

end BehaviorTree
