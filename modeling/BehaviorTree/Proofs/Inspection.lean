import BehaviorTree.Proofs.Asking
import BehaviorTree.Proofs.Carriers
import BehaviorTree.Proofs.Compilation
import BehaviorTree.Proofs.Cursor
import BehaviorTree.Proofs.Lines
import BehaviorTree.Proofs.Rereading
import BehaviorTree.Proofs.Transcript

/-! # Ways to look at a tree

A tree is checked, outlined and written as JSON by three commands. All three load it in the same
way, so they fail together and with the same complaint; and all three count the same nodes, which
are the elements of the document that are read. The nodes of a JSON form are counted in the printed
text: in the value that it is read as. -/

namespace BehaviorTree

/-! ## The numbers of nodes -/

namespace Spec

mutual

theorem length_preorder : ∀ (spec : Spec) (depth : Nat), (spec.preorder depth).length = spec.size
  | ⟨_, _, _, _, children⟩, depth => by
      rw [preorder, List.length_cons, length_preorderAll children, size]

theorem length_preorderAll : ∀ (specs : List Spec) (depth : Nat),
    (preorderAll depth specs).length = sizeAll specs
  | [], _ => rfl
  | spec :: rest, depth => by
      rw [preorderAll, List.length_append, length_preorder spec, length_preorderAll rest, sizeAll]

end

theorem length_nodes (spec : Spec) : spec.nodes.length = spec.size := by
  rw [nodes, List.length_map, length_preorder]

end Spec

namespace Json

mutual

/-- The number of node objects in a JSON value: an object is one, and holds more in its fields for
children. -/
def nodeObjects : Json → Nat
  | .object fields => nodeObjectsIn fields + 1
  | .array items => nodeObjectsAll items
  | _ => 0

def nodeObjectsAll : List Json → Nat
  | [] => 0
  | item :: rest => item.nodeObjects + nodeObjectsAll rest

def nodeObjectsIn : List (String × Json) → Nat
  | [] => 0
  | (name, value) :: rest =>
      (if name = "child" ∨ name = "children" then value.nodeObjects else 0) + nodeObjectsIn rest

end

theorem nodeObjectsAll_eq_sum (items : List Json) :
    nodeObjectsAll items = (items.map nodeObjects).sum := by
  induction items with
  | nil => rfl
  | cons item rest ih => rw [nodeObjectsAll, ih, List.map_cons, List.sum_cons]

theorem nodeObjectsIn_eq_sum (fields : List (String × Json)) :
    nodeObjectsIn fields = (fields.map fun field =>
      if field.1 = "child" ∨ field.1 = "children" then field.2.nodeObjects else 0).sum := by
  induction fields with
  | nil => rfl
  | cons field rest ih => rw [nodeObjectsIn, ih, List.map_cons, List.sum_cons]

theorem IsAtom.nodeObjects_eq_zero {json : Json} (h : json.IsAtom) : json.nodeObjects = 0 := by
  cases json with
  | array items => exact h.elim
  | object fields => exact h.elim
  | _ => rfl

/-- A value has as many node objects as the one that its text is read as. -/
theorem ReadAs.nodeObjects_eq {json found : Json} (h : ReadAs json found) :
    found.nodeObjects = json.nodeObjects := by
  induction h with
  | null => rfl
  | bool b => rfl
  | integer low high => rfl
  | float atom _ => exact atom.nodeObjects_eq_zero
  | string s => rfl
  | array _ ih =>
      rw [nodeObjects, nodeObjects, nodeObjectsAll_eq_sum, nodeObjectsAll_eq_sum, List.map_map,
        List.map_map]
      exact congrArg List.sum (List.map_congr_left ih)
  | object _ ih =>
      rw [nodeObjects, nodeObjects, nodeObjectsIn_eq_sum, nodeObjectsIn_eq_sum, List.map_map,
        List.map_map]
      congr 2
      refine List.map_congr_left fun field hfield => ?_
      rw [Function.comp_apply, Function.comp_apply, ih field hfield]

end Json

namespace Node

mutual

/-- The JSON form of a tree has an object for every node. -/
theorem nodeObjects_toJson : ∀ node : Node, node.toJson.nodeObjects = node.size
  | .composite policy children => by
      cases policy <;>
        simp [toJson, size, Json.nodeObjects, Json.nodeObjectsIn, nodeObjectsAll_toJsonAll children]
  | .loop count child => by
      simp [toJson, size, Json.nodeObjects, Json.nodeObjectsIn, nodeObjects_toJson child]
  | .leaf role bound => by
      cases role <;> simp [toJson, Leaf.toJson, size, Json.nodeObjects, Json.nodeObjectsIn]

theorem nodeObjectsAll_toJsonAll : ∀ nodes : List Node,
    Json.nodeObjectsAll (toJsonAll nodes) = sizeAll nodes
  | [] => rfl
  | node :: rest => by
      rw [toJsonAll, Json.nodeObjectsAll, nodeObjects_toJson node, nodeObjectsAll_toJsonAll rest,
        sizeAll]

end

end Node

/-! ## Inspections -/

namespace Program

variable {formats : Formats} {files : Files} {config : Config} {path : String}

/-- A tree that loads has a node for every element that is read from the top node on. -/
theorem size_of_loadTree {tree : Tree} (h : loadTree files config path = .ok tree) :
    ∃ text document top, (files path).text = .ok text ∧ Markup.read text = some document ∧
      Document.IsTop config document top ∧
      tree.size = (Document.carriers config top).length := by
  obtain ⟨text, spec, root, htext, hread, hcompile, rfl⟩ := loadTree_eq_ok_iff.1 h
  rw [Document.read] at hread
  cases hmarkup : Markup.read text with
  | none =>
      rw [hmarkup] at hread
      cases hread
  | some document =>
      rw [hmarkup] at hread
      obtain ⟨top, htop, hdescribes⟩ := Document.readRoot_eq_ok_iff.1 hread
      refine ⟨text, document, top, htext, hmarkup, htop, ?_⟩
      calc (Tree.ofRoot root).size
          = spec.size := Spec.size_of_compileAt hcompile
        _ = spec.nodes.length := spec.length_nodes.symm
        _ = (Document.carriers config top).length :=
            (Document.forall₂_carriers hdescribes).length_eq.symm

/-- The three commands that look at a tree agree. Either all of them fail, with the same complaint
and nothing printed. Or the tree loads, and all of them find the same number of nodes: it is the
number of elements that are read, it is what the check tells, the outline has so many lines, as long
as no name in the tree has a line feed, and the text that is printed as JSON is read as a value with
so many node objects. -/
theorem inspections_agree (formats : Formats) (files : Files) {tree : String}
    {settings : Option String} {check dump json : List String} (htree : CommandLine.IsPlain tree)
    (hcheck : CommandLine.Asks settings ["check", tree] check)
    (hdump : CommandLine.Asks settings ["dump", tree] dump)
    (hjson : CommandLine.Asks settings ["dump", tree, "--json"] json) :
    (∃ errors, run formats files check = ⟨1, "", errors⟩ ∧
        run formats files dump = ⟨1, "", errors⟩ ∧ run formats files json = ⟨1, "", errors⟩) ∨
      ∃ config text document top root count,
        Config.loadOrDefault formats.settings (settings.map fun path => (path, files path)) =
          .ok config ∧
        (files tree).text = .ok text ∧ Markup.read text = some document ∧
        Document.IsTop config document top ∧
        (Document.carriers config top).length = count ∧
        loadTree files config tree = .ok (.ofRoot root) ∧
        run formats files check = ⟨0, tree ++ ": ok (" ++ toString count ++ " nodes)\n", ""⟩ ∧
        (∃ output, run formats files dump = ⟨0, output, ""⟩ ∧
          ((∀ name ∈ root.names, OneLine name) → ∃ lines : List String, lines.length = count ∧
            (∀ line ∈ lines, OneLine line) ∧ output = String.join (lines.map (· ++ "\n")))) ∧
        ∃ output value, run formats files json = ⟨0, output, ""⟩ ∧
          Json.parse output = some value ∧ value.nodeObjects = count := by
  unfold run
  rw [CommandLine.read_check htree hcheck, CommandLine.read_dump htree hdump,
    CommandLine.read_dump_json htree hjson]
  unfold answer
  dsimp only
  cases hconfig : Config.loadOrDefault formats.settings
      (settings.map fun path => (path, files path)) with
  | error e => exact .inl ⟨_, rfl, rfl, rfl⟩
  | ok config =>
      unfold perform
      dsimp only
      cases hload : loadTree files config tree with
      | error e => exact .inl ⟨_, rfl, rfl, rfl⟩
      | ok loaded =>
          obtain ⟨text, document, top, htext, hmarkup, htop, hsize⟩ := size_of_loadTree hload
          obtain ⟨_, spec, root, -, -, hcompile, rfl⟩ := loadTree_eq_ok_iff.1 hload
          obtain ⟨value, hvalue⟩ := Node.exists_readAs_toJson (Spec.fresh_of_compile hcompile)
          refine .inr ⟨config, text, document, top, root, root.size, rfl, htext, hmarkup, htop,
            hsize.symm, hload, rfl, ⟨_, rfl, ?_⟩, _, value, rfl, (Json.parse_pretty hvalue).2,
            hvalue.nodeObjects_eq.trans root.nodeObjects_toJson⟩
          intro hnames
          exact ⟨root.outlineLines, root.length_outlineLines,
            Node.oneLine_of_mem_outlineLines hnames, rfl⟩

/-- A sequence over an action with an infinite argument, which stands in a container. -/
theorem inspections_agree_sequence :
    ∃ (files : Files) (lines : List String) (printed : String) (value : Json),
      run .yaml files ["check", "tree"] = ⟨0, "tree: ok (2 nodes)\n", ""⟩ ∧
        run .yaml files ["dump", "tree"] = ⟨0, String.join (lines.map (· ++ "\n")), ""⟩ ∧
        lines.length = 2 ∧ (∀ line ∈ lines, OneLine line) ∧
        run .yaml files ["dump", "tree", "--json"] = ⟨0, printed, ""⟩ ∧
        Json.parse printed = some value ∧ value.nodeObjects = 2 := by
  let files : Files := fun _ => .ofText ("<a><b><c Class=\"BT.Composites.Sequence\">" ++
    "<d><e Class=\"BT.Actions.shoot\" wait=\"inf\" _waitType=\"float\"/></d></c></b></a>")
  have hnames : (loadTree files .default "tree").toOption.any (fun tree =>
      ∀ name ∈ tree.root.names, OneLine name) = true := by
    decide +kernel
  have hprinted : (Json.parse (run .yaml files ["dump", "tree", "--json"]).output).map
      Json.nodeObjects = some 2 := by
    decide +kernel
  have hasks : ∀ words, CommandLine.Asks none words words := fun words =>
    ⟨[], [], words, rfl, .none, rfl⟩
  obtain ⟨errors, -, -, hfailed⟩ | ⟨config, -, -, -, root, count, hconfig, -, -, -, -, hload,
      hcheck, ⟨output, hdump, hlines⟩, printed, value, hjson, hvalue, hcount⟩ :=
    @inspections_agree .yaml files "tree" none _ _ _ (by decide) (hasks ["check", "tree"])
      (hasks ["dump", "tree"]) (hasks ["dump", "tree", "--json"])
  · rw [hfailed] at hprinted
    cases hprinted
  · obtain rfl : Config.default = config := Except.ok.inj hconfig
    rw [hload] at hnames
    rw [hjson, hvalue, Option.map_some, hcount] at hprinted
    obtain rfl : count = 2 := Option.some.inj hprinted
    obtain ⟨lines, hlength, hone, rfl⟩ := hlines (of_decide_eq_true hnames)
    exact ⟨files, lines, printed, value, hcheck, hdump, hlength, hone, hjson, hvalue, hcount⟩

end Program

end BehaviorTree
