import TypeWire.Coercion
import TypeWire.Schema.Basic
import TypeWire.Value.Display

/-!
# Reading schemas from wire data

`Schema.decode` reads a dictionary as a schema. Null counts as absent. Scalars are read leniently;
a key that is no field is an issue, and so is the second name of a field beside its wire name, even
if the wire name has null. All issues are reported, each under the key that was given.
-/

namespace TypeWire

namespace Step

/-- The step that a dictionary key is: a text itself, a number of 64 bits an index, and any other
key the form that it has in messages. -/
def ofKey (v : Value) : Step :=
  match v.text? with
  | some s => .key s
  | none =>
    match v.number? with
    | some (.whole n) =>
      if -0x8000000000000000 ≤ n ∧ n < 0x8000000000000000 then .index n else .key v.literalForm
    | _ => .key v.literalForm

end Step

namespace Schema

/-- Reads an optional field: null is absent. -/
def optional {α : Type} (read : Value → Except (List Issue) α) (v : Value) :
    Except (List Issue) (Option α) :=
  if v.isNull then .ok none else (read v).map some

/-- A reader of scalars as a reader of fields. -/
def scalar {α : Type} (read : Value → Except Fault (α × Match)) (v : Value) :
    Except (List Issue) α :=
  match read v with
  | .ok (x, _) => .ok x
  | .error fault => .error (Issue.here fault)

/-- Reads the word for a concrete type, in any case. -/
def decodeType (v : Value) : Except (List Issue) SchemaType :=
  let word? : Option String :=
    match v with
    | .bytes s => some s
    | v => v.text?.map Text.upper
  match word?.bind SchemaType.ofWord? with
  | some t => .ok t
  | none => .error (Issue.here .notInEnum)

/-- Reads texts one after the other, from a place on. -/
def decodeTexts : Nat → List Value → Except (List Issue) (List String)
  | _, [] => .ok []
  | i, v :: vs =>
    match scalar Coercion.text v, decodeTexts (i + 1) vs with
    | .ok s, .ok ss => .ok (s :: ss)
    | s, ss => .error (Issue.under (.index i) (issuesOf s) ++ issuesOf ss)

/-- Reads a list of texts. -/
def decodeTextList : Value → Except (List Issue) (List String)
  | .list vs => decodeTexts 0 vs
  | .tuple vs => decodeTexts 0 vs
  | _ => .error (Issue.here .listType)

/-- The field that a key names, given all the keys. -/
def keyOf (given : List String) (k : Value) : Except Issue (String × WireKey) :=
  match k.text? with
  | none => .error ⟨[Step.ofKey k], .invalidKey⟩
  | some name =>
    match WireKey.ofWireName? name with
    | some key => .ok (name, key)
    | none =>
      match WireKey.ofAttributeName? name with
      | some key =>
        if given.contains key.wireName then .error ⟨[.key name], .extraForbidden⟩
        else .ok (name, key)
      | none => .error ⟨[.key name], .extraForbidden⟩

/-- A schema as far as it is read, with the issues met. -/
structure Draft where
  facets : Facets := {}
  items : Option Schema := none
  properties : Option (List (String × Schema)) := none
  anyOf : Option (List Schema) := none
  issues : List Issue := []

namespace Draft

/-- Takes a field that is read, or the issues met while it was read. -/
def put {α : Type} (d : Draft) (name : String) (result : Except (List Issue) α)
    (set : Draft → α → Draft) : Draft :=
  match result with
  | .ok x => set d x
  | .error issues => { d with issues := Issue.under (.key name) issues ++ d.issues }

/-- Takes a field that is read into the facets. -/
def putFacet {α : Type} (d : Draft) (name : String) (result : Except (List Issue) α)
    (set : Facets → α → Facets) : Draft :=
  d.put name result fun d x => { d with facets := set d.facets x }

/-- The schema, if there are no issues. -/
def finish (d : Draft) : Except (List Issue) Schema :=
  if d.issues.isEmpty then .ok (node d.facets d.items d.properties d.anyOf) else .error d.issues

end Draft

/-- Reads a field that holds no schema. -/
def decodeFacet (d : Draft) (name : String) (key : WireKey) (v : Value) : Draft :=
  match key with
  | .type => d.putFacet name (optional decodeType v) fun f x => { f with type := x }
  | .format => d.putFacet name (optional (scalar Coercion.text) v) fun f x => { f with format := x }
  | .description =>
    d.putFacet name (optional (scalar Coercion.text) v) fun f x => { f with description := x }
  | .nullable =>
    d.putFacet name (optional (scalar Coercion.bool) v) fun f x => { f with nullable := x }
  | .enum => d.putFacet name (optional decodeTextList v) fun f x => { f with enum := x }
  | .required => d.putFacet name (optional decodeTextList v) fun f x => { f with required := x }
  | .sample => d.putFacet name (optional .ok v) fun f x => { f with sample := x }
  | .propertyOrdering =>
    d.putFacet name (optional decodeTextList v) fun f x => { f with propertyOrdering := x }
  | .minItems =>
    d.putFacet name (optional (scalar Coercion.int) v) fun f x => { f with minItems := x }
  | .maxItems =>
    d.putFacet name (optional (scalar Coercion.int) v) fun f x => { f with maxItems := x }
  | .minimum =>
    d.putFacet name (optional (scalar Coercion.float) v) fun f x => { f with minimum := x }
  | .maximum =>
    d.putFacet name (optional (scalar Coercion.float) v) fun f x => { f with maximum := x }
  | .items | .properties | .anyOf => d

/-- The text of a property's key, with the issues of one that is none. -/
def decodePropertyKey (k : Value) : Except (List Issue) String :=
  match scalar Coercion.text k with
  | .ok s => .ok s
  | .error issues => .error (Issue.under (Step.ofKey k) (Issue.under (.key "[key]") issues))

mutual

/-- Reads a schema. -/
def decode : Value → Except (List Issue) Schema
  | .dict entries => (decodeEntries (entries.filterMap fun (k, _) => k.text?) entries).finish
  | _ => .error (Issue.here .modelType)

/-- Reads the entries of a schema, given all its keys. -/
def decodeEntries (given : List String) : List (Value × Value) → Draft
  | [] => {}
  | (k, v) :: rest =>
    let d := decodeEntries given rest
    match keyOf given k with
    | .error issue => { d with issues := issue :: d.issues }
    | .ok (name, .items) =>
      if v.isNull then d else d.put name (decode v) fun d s => { d with items := some s }
    | .ok (name, .properties) =>
      match v with
      | .null => d
      | .dict ps =>
        d.put name (decodeProperties ps) fun d ps => { d with properties := some (dictOfList ps) }
      | _ => d.put (α := Unit) name (.error (Issue.here .dictType)) fun d _ => d
    | .ok (name, .anyOf) =>
      match v with
      | .null => d
      | .list ms => d.put name (decodeMembers 0 ms) fun d ms => { d with anyOf := some ms }
      | .tuple ms => d.put name (decodeMembers 0 ms) fun d ms => { d with anyOf := some ms }
      | _ => d.put (α := Unit) name (.error (Issue.here .listType)) fun d _ => d
    | .ok (name, key) => decodeFacet d name key v

/-- Reads the properties of a schema. -/
def decodeProperties : List (Value × Value) → Except (List Issue) (List (String × Schema))
  | [] => .ok []
  | (k, v) :: rest =>
    match decodePropertyKey k, decode v, decodeProperties rest with
    | .ok key, .ok s, .ok ps => .ok ((key, s) :: ps)
    | key, s, ps =>
      .error (issuesOf key ++ Issue.under (Step.ofKey k) (issuesOf s) ++ issuesOf ps)

/-- Reads the members of a union, from a place on. -/
def decodeMembers : Nat → List Value → Except (List Issue) (List Schema)
  | _, [] => .ok []
  | i, v :: vs =>
    match decode v, decodeMembers (i + 1) vs with
    | .ok s, .ok ss => .ok (s :: ss)
    | s, ss => .error (Issue.under (.index i) (issuesOf s) ++ issuesOf ss)

end

end Schema

end TypeWire
