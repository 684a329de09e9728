import TypeWire.Yaml.Tag
import TypeWire.Yaml.Tree

/-!
# Nodes

A node is a tree whose tags are known and whose aliases are replaced by what they name
(`Node.ofTree`). An anchor names one node of a document, and an alias stands behind the node that it
names, never inside it.
-/

namespace TypeWire.Yaml

/-- A node of a document. -/
inductive Node where
  | scalar (tag : Tag) (text : String)
  | sequence (tag : Tag) (items : List Node)
  | mapping (tag : Tag) (pairs : List (Node × Node))
deriving Inhabited

/-- The nodes that anchors name; a node that is not complete is absent. -/
abbrev Anchors := List (String × Option Node)

namespace Anchors

/-- Opens the node that an anchor names. -/
def begin (anchor : Option String) (known : Anchors) : Except Error Anchors :=
  match anchor with
  | none => .ok known
  | some name =>
    if (known.lookup name).isSome then .error (.malformed (.repeatedAnchor name))
    else .ok ((name, none) :: known)

/-- Completes the node that an anchor names. -/
def complete (anchor : Option String) (node : Node) (known : Anchors) : Anchors :=
  match anchor with
  | none => known
  | some name => (name, some node) :: known

end Anchors

/-- The full name of a tag; `!` alone leaves the tag open. -/
def WrittenTag.name? (handles : List (String × String)) (t : WrittenTag) :
    Except Error (Option String) :=
  match t.handle with
  | none => .ok (if t.suffix = "!" then none else some t.suffix)
  | some handle =>
    match (handles ++ Document.knownHandles).lookup handle with
    | some start => .ok (some (start ++ t.suffix))
    | none => .error (.malformed (.undefinedHandle handle))

/-- The tag that the properties of a node give, if they give one. -/
def Properties.tag? (handles : List (String × String)) (props : Properties) :
    Except Error (Option Tag) :=
  match props.tag with
  | none => .ok none
  | some t => (t.name? handles).map fun name => name.map Tag.ofName

/-- The tag of a scalar. Text in quotes is text, unless its tag is left open. -/
def Properties.scalarTag (props : Properties) (tag : Option Tag) (text : String) (plain : Bool) :
    Tag :=
  match tag with
  | some tag => tag
  | none => if plain || props.tag.isSome then Tag.ofPlain text else .text

namespace Node

mutual

/-- The node of a tree, and the anchors behind it. -/
def ofTree (handles : List (String × String)) (known : Anchors) : Tree →
    Except Error (Node × Anchors)
  | .reference name =>
    match known.lookup name with
    | some (some node) => .ok (node, known)
    | some none => .error (.malformed (.endlessAlias name))
    | none => .error (.malformed (.undefinedAlias name))
  | .scalar props text plain => do
    let known ← known.begin props.anchor
    let tag ← props.tag? handles
    let node := Node.scalar (props.scalarTag tag text plain) text
    return (node, known.complete props.anchor node)
  | .sequence props items => do
    let known ← known.begin props.anchor
    let tag ← props.tag? handles
    let (items, known) ← ofItems handles known items
    let node := Node.sequence (tag.getD .sequence) items
    return (node, known.complete props.anchor node)
  | .mapping props pairs => do
    let known ← known.begin props.anchor
    let tag ← props.tag? handles
    let (pairs, known) ← ofPairs handles known pairs
    let node := Node.mapping (tag.getD .mapping) pairs
    return (node, known.complete props.anchor node)

/-- The nodes of a list of trees. -/
def ofItems (handles : List (String × String)) (known : Anchors) : List Tree →
    Except Error (List Node × Anchors)
  | [] => .ok ([], known)
  | t :: ts => do
    let (node, known) ← ofTree handles known t
    let (nodes, known) ← ofItems handles known ts
    return (node :: nodes, known)

/-- The nodes of a list of pairs. -/
def ofPairs (handles : List (String × String)) (known : Anchors) : List (Tree × Tree) →
    Except Error (List (Node × Node) × Anchors)
  | [] => .ok ([], known)
  | (k, v) :: ts => do
    let (key, known) ← ofTree handles known k
    let (value, known) ← ofTree handles known v
    let (pairs, known) ← ofPairs handles known ts
    return ((key, value) :: pairs, known)

end

/-- The tag of a node. -/
def tag : Node → Tag
  | .scalar tag _ | .sequence tag _ | .mapping tag _ => tag

end Node

/-- The root node of a document. -/
def Document.node (d : Document) : Except Error Node := do
  return (← Node.ofTree d.handles [] d.root).1

end TypeWire.Yaml
