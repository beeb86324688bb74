import BehaviorTree.Main
import BehaviorTree.Json.Reader
import BehaviorTree.Proofs.Position
import BehaviorTree.Proofs.Validity
import BehaviorTree.Proofs.Compilation
import BehaviorTree.Proofs.Calls
import BehaviorTree.Proofs.Activation
import BehaviorTree.Proofs.Trace
import BehaviorTree.Proofs.Cursor
import BehaviorTree.Proofs.Execution
import BehaviorTree.Proofs.Succession
import BehaviorTree.Proofs.Session
import BehaviorTree.Proofs.RoundRobin
import BehaviorTree.Proofs.Dialogue
import BehaviorTree.Proofs.Evaluation
import BehaviorTree.Proofs.Abort
import BehaviorTree.Proofs.Reports
import BehaviorTree.Proofs.Observation
import BehaviorTree.Proofs.Names
import BehaviorTree.Proofs.Qualifier
import BehaviorTree.Proofs.Reading
import BehaviorTree.Proofs.Layout
import BehaviorTree.Proofs.Writing
import BehaviorTree.Proofs.Carriers
import BehaviorTree.Proofs.Replay
import BehaviorTree.Proofs.Paths
import BehaviorTree.Proofs.Work
import BehaviorTree.Proofs.Formula
import BehaviorTree.Proofs.Handle
import BehaviorTree.Proofs.Preorder
import BehaviorTree.Proofs.Completion
import BehaviorTree.Proofs.Tally
import BehaviorTree.Proofs.Transcript
import BehaviorTree.Proofs.Lines
import BehaviorTree.Proofs.Asking
import BehaviorTree.Proofs.Inspection
import BehaviorTree.Proofs.Numerals
import BehaviorTree.Proofs.Binding
import BehaviorTree.Proofs.Design
import BehaviorTree.Proofs.Tagging
import BehaviorTree.Proofs.Offence
import BehaviorTree.Proofs.Parsing
import BehaviorTree.Proofs.Records
import BehaviorTree.Proofs.Scientific
import BehaviorTree.Proofs.Unambiguous
import BehaviorTree.Proofs.Dump
import BehaviorTree.Proofs.Rereading
import BehaviorTree.Proofs.Equivalence
import BehaviorTree.Proofs.Flattening
import BehaviorTree.Proofs.Repetition
import BehaviorTree.Proofs.Comparison
import BehaviorTree.Proofs.Relevance
import BehaviorTree.Proofs.Switches
import BehaviorTree.Proofs.Usage
import BehaviorTree.Proofs.Indentation
import BehaviorTree.Proofs.Restoration
import BehaviorTree.Proofs.Attributes
import BehaviorTree.Proofs.IntegerTexts
import BehaviorTree.Proofs.Segments
import BehaviorTree.Proofs.Insertion
import BehaviorTree.Proofs.Registration
