import TypeWire.Proofs.Offences
import TypeWire.Proofs.Induction
import TypeWire.Schema.OfType

/-!
# Inspection

Inspecting a type goes on to inspect the types in it, and a declared model is opened unless it is one
of those that are open. A `Visit` is a type together with the models that are open around it;
`Visit.Calls` says what a visit goes on to, and `Visited` what a whole inspection comes to, each visit
with the place of its node.

* `Visit.calls_wellFounded`: inspection ends. Types get smaller, or a model is opened that was not;
  neither alone decreases, since the contents of a model can be larger than its name.
* `Visited.exists_node`: the node at the place of a visit is made from the type of the visit. For a
  model it rests on `Visit.written_of_find?`: the number of declared models is depth enough to write
  any of them out, since no model is open twice.
* `Visited.mem_active_iff`: the open models are those of which a record stands around.
* `Visited.of_subnode`: conversely, each node in the node of a type is made by a visit.
-/

namespace TypeWire

/-- The declared model with a name. -/
def Model.find? (models : List Model) (name : String) : Option Model :=
  models.find? fun m => m.name == name

namespace TypeExpr

/-- The type of a field as the field has it: inside the metadata of the field. -/
def ofField (f : Field × TypeExpr) : TypeExpr := .annotated f.2 f.1.metadata

/-- The types that a type is directly made of. A declared model is made of its fields. -/
def parts (models : List Model) : TypeExpr → List TypeExpr
  | .list _ item => [item]
  | .union members => members
  | .annotated base _ => [base]
  | .generic _ _ args => args
  | .model name => ((Model.find? models name).map fun m => m.fields.map ofField).getD []
  | .record _ _ fields => fields.map ofField
  | .scalar _ | .null | .other _ _ | .enumeration _ | .bareList _ | .literal _ | .forward _ => []

/-- A type is the other, or is made of it at some depth. -/
def Reaches (models : List Model) : TypeExpr → TypeExpr → Prop :=
  Relation.ReflTransGen fun t u => u ∈ t.parts models

/-- A list of types with all their parts has all that they are made of. -/
theorem Reaches.mem_of_closed {models : List Model} {t u : TypeExpr} {ts : List TypeExpr}
    (h : t.Reaches models u) (hclosed : ∀ t ∈ ts, ∀ p ∈ t.parts models, p ∈ ts) (ht : t ∈ ts) :
    u ∈ ts := by
  induction h with
  | refl => exact ht
  | tail _ hpart ih => exact hclosed _ ih _ hpart

/-! ## Writing models out -/

theorem mapModelsAll_eq (f : String → TypeExpr) (ts : List TypeExpr) :
    mapModelsAll f ts = ts.map (mapModels f) := by
  induction ts with
  | nil => rfl
  | cons t ts ih => rw [mapModelsAll, ih, List.map_cons]

theorem mapModelsFields_eq (f : String → TypeExpr) (fields : List (Field × TypeExpr)) :
    mapModelsFields f fields = fields.map fun field => (field.1, mapModels f field.2) := by
  induction fields with
  | nil => rfl
  | cons field fields ih => rw [mapModelsFields, ih, List.map_cons]

theorem isNull_expandModel (models : List Model) (depth : Nat) (active : List String)
    (name : String) : (expandModel models depth active name).isNull = false := by
  cases depth with
  | zero => rfl
  | succ depth =>
    rw [expandModel]
    split
    · rfl
    · split <;> rfl

theorem isNull_mapModels {f : String → TypeExpr} (hf : ∀ name, (f name).isNull = false)
    (t : TypeExpr) : (mapModels f t).isNull = t.isNull := by
  cases t with
  | model name => exact hf name
  | _ => rfl

end TypeExpr

/-! ## Visits -/

/-- A type that is inspected, and the models that are open around it. -/
structure Visit where
  active : List String
  type : TypeExpr

namespace Visit

/-- The models open around a visit are declared, and each is there once. -/
structure Sound (models : List Model) (v : Visit) : Prop where
  nodup : v.active.Nodup
  declared : ∀ name ∈ v.active, ∃ m, Model.find? models name = some m

theorem Sound.length_le {models : List Model} {v : Visit} (h : v.Sound models) :
    v.active.length ≤ models.length := by
  have hsub : v.active ⊆ models.map Model.name := by
    intro name hname
    obtain ⟨m, hm⟩ := h.declared name hname
    have hm' : m.name = name := by simpa using List.find?_some hm
    exact List.mem_map.2 ⟨m, List.mem_of_find?_eq_some hm, hm'⟩
  simpa using (h.nodup.subperm hsub).length_le

/-- The type of a visit with its models written out, those apart that are open. -/
def written (models : List Model) (v : Visit) : TypeExpr :=
  v.type.mapModels (TypeExpr.expandModel models (models.length - v.active.length) v.active)

theorem written_of_mem (models : List Model) {active : List String} {name : String}
    (hname : name ∈ active) : written models ⟨active, .model name⟩ = .forward name := by
  show TypeExpr.expandModel models (models.length - active.length) active name = _
  cases models.length - active.length with
  | zero => rfl
  | succ depth => rw [TypeExpr.expandModel, if_pos (List.contains_iff_mem.2 hname)]

theorem written_of_find?_eq_none {models : List Model} {name : String}
    (hm : Model.find? models name = none) (active : List String) :
    written models ⟨active, .model name⟩ = .forward name := by
  unfold Model.find? at hm
  show TypeExpr.expandModel models (models.length - active.length) active name = _
  cases models.length - active.length with
  | zero => rfl
  | succ depth => simp [TypeExpr.expandModel, hm]

theorem written_model (models : List Model) (active : List String) (name : String) :
    written models ⟨active, .model name⟩ = .forward name ∨
      ∃ doc fields, written models ⟨active, .model name⟩ = .record name doc fields := by
  show TypeExpr.expandModel models (models.length - active.length) active name = _ ∨
    ∃ doc fields, TypeExpr.expandModel models (models.length - active.length) active name = _
  cases models.length - active.length with
  | zero => exact .inl rfl
  | succ depth =>
    rw [TypeExpr.expandModel]
    split
    · exact .inl rfl
    · split
      · exact .inl rfl
      · rename_i m hm
        obtain rfl : m.name = name := by simpa using List.find?_some hm
        exact .inr ⟨_, _, rfl⟩

/-- A declared model that is not open is written out, however many models are open. -/
theorem written_of_find? {models : List Model} {active : List String} {name : String}
    (h : Sound models ⟨active, .model name⟩) (hname : name ∉ active) {m : Model}
    (hm : Model.find? models name = some m) :
    written models ⟨active, .model name⟩ = .record m.name m.doc
      (m.fields.map fun f => (f.1, written models ⟨name :: active, f.2⟩)) := by
  have hopen : Sound models ⟨name :: active, .null⟩ :=
    ⟨List.nodup_cons.2 ⟨hname, h.nodup⟩, List.forall_mem_cons.2 ⟨⟨m, hm⟩, h.declared⟩⟩
  have hle : active.length + 1 ≤ models.length := hopen.length_le
  obtain ⟨depth, hdepth⟩ : ∃ depth, models.length - active.length = depth + 1 :=
    ⟨models.length - active.length - 1, by omega⟩
  have hdepth' : models.length - (active.length + 1) = depth := by omega
  unfold Model.find? at hm
  show TypeExpr.expandModel models (models.length - active.length) active name = _
  simp [hdepth, TypeExpr.expandModel, hname, hm, TypeExpr.mapModelsFields_eq, written, hdepth']

/-- What a visit goes on to, with the place of that node below the own one. A type inside metadata,
and the one member of a union beside null, share the node of the whole. -/
inductive Calls (models : List Model) : Visit → List Nat → Visit → Prop
  | base {a : List String} {t : TypeExpr} {metadata : List Meta} :
      Calls models ⟨a, .annotated t metadata⟩ [] ⟨a, t⟩
  | sole {a : List String} {members : List TypeExpr} {m : TypeExpr} :
      members.filter (fun m => !m.isNull) = [m] → Calls models ⟨a, .union members⟩ [] ⟨a, m⟩
  | variant {a : List String} {members : List TypeExpr} {i : Nat} {m : TypeExpr} :
      (members.filter fun m => !m.isNull).length ≠ 1 →
      (members.filter fun m => !m.isNull)[i]? = some m →
      Calls models ⟨a, .union members⟩ [i] ⟨a, m⟩
  | item {a : List String} {form : ListForm} {t : TypeExpr} :
      Calls models ⟨a, .list form t⟩ [0] ⟨a, t⟩
  | field {a : List String} {name : String} {m : Model} {i : Nat} {f : Field × TypeExpr} :
      name ∉ a → Model.find? models name = some m → m.fields[i]? = some f →
      Calls models ⟨a, .model name⟩ [i] ⟨name :: a, .ofField f⟩
  | recordField {a : List String} {name : String} {doc : Option String}
      {fields : List (Field × TypeExpr)} {i : Nat} {f : Field × TypeExpr} :
      fields[i]? = some f → Calls models ⟨a, .record name doc fields⟩ [i] ⟨a, .ofField f⟩

theorem Calls.sound {models : List Model} {v w : Visit} {path : List Nat}
    (h : Calls models v path w) (hv : v.Sound models) : w.Sound models := by
  cases h with
  | base | sole | variant | item | recordField => exact ⟨hv.nodup, hv.declared⟩
  | field hname hm _ =>
    exact ⟨List.nodup_cons.2 ⟨hname, hv.nodup⟩, List.forall_mem_cons.2 ⟨⟨_, hm⟩, hv.declared⟩⟩

/-! ## Inspection ends -/

/-- The declared models that a visit may still open. -/
def closed (models : List Model) (v : Visit) : List String :=
  (models.map Model.name).filter fun name => !v.active.contains name

theorem length_closed_lt {models : List Model} {a : List String} {name : String} (t u : TypeExpr)
    (hname : name ∉ a) {m : Model} (hm : Model.find? models name = some m) :
    (closed models ⟨name :: a, u⟩).length < (closed models ⟨a, t⟩).length := by
  have hclosed : closed models ⟨name :: a, u⟩ = (closed models ⟨a, t⟩).filter (· != name) := by
    unfold closed
    rw [List.filter_filter]
    refine List.filter_congr fun x _ => ?_
    simp [bne, beq_eq_decide]
  have hm' : m.name = name := by simpa using List.find?_some hm
  have hmem : name ∈ closed models ⟨a, t⟩ :=
    List.mem_filter.2 ⟨List.mem_map.2 ⟨m, List.mem_of_find?_eq_some hm, hm'⟩, by simpa using hname⟩
  rw [hclosed, List.length_filter_lt_length_iff_exists]
  exact ⟨name, hmem, by simp⟩

theorem sizeOf_ofField_lt {fields : List (Field × TypeExpr)} {f : Field × TypeExpr}
    (hf : f ∈ fields) (name : String) (doc : Option String) :
    sizeOf (TypeExpr.ofField f) < sizeOf (TypeExpr.record name doc fields) := by
  obtain ⟨⟨n, a, d, i, ms, e⟩, t⟩ := f
  have := List.sizeOf_lt_of_mem hf
  simp only [TypeExpr.ofField, TypeExpr.annotated.sizeOf_spec, TypeExpr.record.sizeOf_spec,
    Prod.mk.sizeOf_spec, Field.mk.sizeOf_spec] at this ⊢
  omega

/-- What a visit goes on to opens a model that was closed, or is smaller with no model closed. -/
theorem Calls.decreases {models : List Model} {v w : Visit} {path : List Nat}
    (h : Calls models v path w) :
    Prod.Lex (· < ·) (· < ·) ((closed models w).length, sizeOf w.type)
      ((closed models v).length, sizeOf v.type) := by
  cases h with
  | base => exact .right _ (by simp; omega)
  | sole hm =>
    have := List.sizeOf_lt_of_mem (TypeExpr.mem_of_sole hm).1
    exact .right _ (by simp; omega)
  | variant _ hm =>
    have hmem := (List.mem_filter.1 (List.mem_of_getElem? hm)).1
    have := List.sizeOf_lt_of_mem hmem
    exact .right _ (by simp; omega)
  | item => exact .right _ (by simp)
  | field hname hm _ => exact .left _ _ (length_closed_lt _ _ hname hm)
  | recordField hf => exact .right _ (sizeOf_ofField_lt (List.mem_of_getElem? hf) _ _)

/-- Inspection ends: no sequence of visits, each gone on to from the one before, is infinite. -/
theorem calls_wellFounded (models : List Model) :
    WellFounded fun w v : Visit => ∃ path, Calls models v path w :=
  Subrelation.wf (fun ⟨_, h⟩ => h.decreases)
    (InvImage.wf (fun v : Visit => ((closed models v).length, sizeOf v.type))
      (Prod.lex ⟨_, wellFounded_lt⟩ ⟨_, wellFounded_lt⟩).wf)

/-! ## The node of a visit -/

/-- The node is read from the type of the visit, possibly under modifiers from outside: checks of
outer layers and null may have been added. -/
def Makes (models : List Model) (v : Visit) (n : Node) : Prop :=
  ∃ description metadata discriminator h,
    n = (Node.read description metadata discriminator (v.written models)).withHead h ∧
      (Node.read description metadata discriminator (v.written models)).head.checks ⊆ h.checks

theorem makes_read {models : List Model} {v : Visit} {t : TypeExpr} (h : v.written models = t)
    (description : Option String) (metadata : List Meta) (discriminator : Option String) :
    v.Makes models (Node.read description metadata discriminator t) :=
  ⟨description, metadata, discriminator, _, by rw [h, Node.withHead_head], by
    rw [h]; exact List.Subset.refl _⟩

end Visit

namespace Node

/-- The node of a field is read from the type of the field inside the metadata of the field. -/
theorem asField_read (f : Field) (t : TypeExpr) :
    asField f (read f.description f.metadata f.discriminator t) =
      (read f.description [] f.discriminator (.annotated t f.metadata)).withHead
        { (read f.description [] f.discriminator (.annotated t f.metadata)).head with
          isOptional := f.isOptional } := by
  rw [read, List.append_nil, asField]

theorem children_ofLiteral (r : Reading) (values : List Value) :
    (ofLiteral r values).children = [] := by
  rcases ofLiteral_cases values with h | ⟨nullable, members, -, h | h⟩ <;> rw [h] <;> rfl

theorem names_ofLiteral (r : Reading) (values : List Value) : (ofLiteral r values).names = [] := by
  rcases ofLiteral_cases values with h | ⟨nullable, members, -, h | h⟩ <;> rw [h] <;> rfl

end Node

namespace Visit

theorem written_union (models : List Model) (a : List String) (members : List TypeExpr) :
    written models ⟨a, .union members⟩ = .union (members.map fun m => written models ⟨a, m⟩) := by
  rw [written, TypeExpr.mapModels, TypeExpr.mapModelsAll_eq]
  rfl

theorem isNull_written (models : List Model) (v : Visit) :
    (v.written models).isNull = v.type.isNull :=
  TypeExpr.isNull_mapModels (TypeExpr.isNull_expandModel models _ v.active) v.type

theorem filter_written (models : List Model) (a : List String) (members : List TypeExpr) :
    (members.map fun m => written models ⟨a, m⟩).filter (fun m => !m.isNull) =
      (members.filter fun m => !m.isNull).map fun m => written models ⟨a, m⟩ := by
  rw [List.filter_map]
  congr 1
  refine List.filter_congr fun m _ => ?_
  rw [Function.comp_apply, isNull_written]

theorem filter_written_sole {members : List TypeExpr} {m : TypeExpr}
    (hm : members.filter (fun m => !m.isNull) = [m]) (models : List Model) (a : List String) :
    (members.map fun m => written models ⟨a, m⟩).filter (fun m => !m.isNull) =
      [written models ⟨a, m⟩] := by
  rw [filter_written, hm, List.map_singleton]

theorem length_filter_written (models : List Model) (a : List String) (members : List TypeExpr) :
    ((members.map fun m => written models ⟨a, m⟩).filter fun m => !m.isNull).length =
      (members.filter fun m => !m.isNull).length := by
  rw [filter_written, List.length_map]

theorem any_isNull_written (models : List Model) (a : List String) (members : List TypeExpr) :
    (members.map fun m => written models ⟨a, m⟩).any TypeExpr.isNull =
      members.any TypeExpr.isNull := by
  rw [List.any_map]
  exact congrArg _ (funext fun m => isNull_written models ⟨a, m⟩)

theorem read_written_sole {models : List Model} {a : List String} {members : List TypeExpr}
    {m : TypeExpr} (hm : members.filter (fun m => !m.isNull) = [m]) (description : Option String)
    (metadata : List Meta) (discriminator : Option String) :
    let r := Reading.ofMetadata description discriminator metadata
    Node.read description metadata discriminator (written models ⟨a, .union members⟩) =
      (Node.read r.description [] r.discriminator (written models ⟨a, m⟩)).under r.checks
        (members.any TypeExpr.isNull) := by
  rw [written_union, Node.read_sole (filter_written_sole hm models a), any_isNull_written]

theorem read_written_variants {models : List Model} {a : List String} {members : List TypeExpr}
    (hlen : (members.filter fun m => !m.isNull).length ≠ 1) (description : Option String)
    (metadata : List Meta) (discriminator : Option String) :
    let r := Reading.ofMetadata description discriminator metadata
    Node.read description metadata discriminator (written models ⟨a, .union members⟩) =
      .union { r.head with nullable := members.any TypeExpr.isNull }
        ((members.filter fun m => !m.isNull).map fun m =>
          Node.read none [] none (written models ⟨a, m⟩)) r.discriminator := by
  rw [written_union, Node.read_variants (by rwa [length_filter_written]), filter_written,
    List.map_map, any_isNull_written]
  rfl

theorem written_record (models : List Model) (a : List String) (name : String)
    (doc : Option String) (fields : List (Field × TypeExpr)) :
    written models ⟨a, .record name doc fields⟩ =
      .record name doc (fields.map fun f => (f.1, written models ⟨a, f.2⟩)) := by
  rw [written, TypeExpr.mapModels, TypeExpr.mapModelsFields_eq]
  rfl

/-- The node of a field is made by the visit of the field. -/
theorem makes_asField (models : List Model) (a : List String) (f : Field × TypeExpr) :
    Makes models ⟨a, .ofField f⟩ (Node.asField f.1
      (Node.read f.1.description f.1.metadata f.1.discriminator (written models ⟨a, f.2⟩))) :=
  ⟨f.1.description, [], f.1.discriminator, _, Node.asField_read .., List.Subset.refl _⟩

theorem makes_field {models : List Model} {a : List String} {fields : List (Field × TypeExpr)}
    {i : Nat} {f : Field × TypeExpr} (hf : fields[i]? = some f) (h : Head) :
    ∃ c, (Node.object h (Node.readFields
        (fields.map fun f => (f.1, written models ⟨a, f.2⟩)))).at? [i] = some c ∧
      Makes models ⟨a, .ofField f⟩ c := by
  refine ⟨_, ?_, makes_asField models a f⟩
  simp [Node.at?, Node.children, Node.readFields_eq, hf]

/-- What a visit goes on to makes the node at its place in the node of the visit. -/
theorem Calls.exists_node {models : List Model} {v w : Visit} {place : List Nat}
    (hcall : v.Calls models place w) (hv : v.Sound models) {n : Node} (hn : v.Makes models n) :
    ∃ c, n.at? place = some c ∧ w.Makes models c := by
  obtain ⟨description, metadata, discriminator, h, rfl, hchecks⟩ := hn
  cases hcall with
  | @base a t ms => exact ⟨_, rfl, description, ms ++ metadata, discriminator, h, rfl, hchecks⟩
  | @sole a members m hm =>
    -- the node is that of the member, with the checks around the union in front
    rw [read_written_sole hm] at hchecks ⊢
    refine ⟨_, rfl, _, [], _, h, by rw [Node.under, Node.withHead_withHead], ?_⟩
    rw [Node.under, Node.head_withHead] at hchecks
    exact List.Subset.trans (List.subset_append_right _ _) hchecks
  | @variant a members i m hlen hm =>
    rw [read_written_variants hlen]
    refine ⟨_, ?_, makes_read rfl none [] none⟩
    simp [Node.at?, Node.children, Node.withHead, hm]
  | item => exact ⟨_, rfl, makes_read rfl none [] none⟩
  | @field a name m i f hname hm hf =>
    rw [written_of_find? hv hname hm]
    exact makes_field hf h
  | recordField hf =>
    rw [written_record]
    exact makes_field hf h

/-- The node of an open model names it. -/
theorem Makes.lazy_of_mem {models : List Model} {a : List String} {name : String} {n : Node}
    (hn : Makes models ⟨a, .model name⟩ n) (hname : name ∈ a) : ∃ h, n = .lazy h (some name) := by
  obtain ⟨description, metadata, discriminator, h, rfl, -⟩ := hn
  rw [written_of_mem models hname]
  exact ⟨h, rfl⟩

/-- The node of a declared model that is not open is a record with the fields of the model. -/
theorem Makes.object_of_find? {models : List Model} {a : List String} {name : String} {n : Node}
    (hn : Makes models ⟨a, .model name⟩ n) (hsound : Sound models ⟨a, .model name⟩)
    (hname : name ∉ a) {m : Model} (hm : Model.find? models name = some m) :
    ∃ h fields, n = .object h fields ∧
      fields.map (·.1) = m.fields.map fun f => f.1.wireName := by
  obtain ⟨description, metadata, discriminator, h, rfl, -⟩ := hn
  rw [written_of_find? hsound hname hm]
  refine ⟨h, _, rfl, ?_⟩
  rw [Node.readFields_eq, List.map_map, List.map_map]
  rfl

/-! ## Whole inspections -/

/-- What a visit comes to after any number of calls. -/
inductive Leads (models : List Model) (v : Visit) : List Nat → Visit → Prop
  | here : Leads models v [] v
  | next {path place : List Nat} {w x : Visit} : Leads models v path w → w.Calls models place x →
      Leads models v (path ++ place) x

theorem Calls.active_subset {models : List Model} {v w : Visit} {place : List Nat}
    (h : v.Calls models place w) : v.active ⊆ w.active := by
  cases h with
  | base | sole | variant | item | recordField => exact List.Subset.refl _
  | field => exact List.subset_cons_self _ _

theorem Calls.mem_parts {models : List Model} {v w : Visit} {place : List Nat}
    (h : v.Calls models place w) : w.type ∈ v.type.parts models := by
  cases h with
  | base | item => exact List.mem_singleton_self _
  | sole hm => exact (TypeExpr.mem_of_sole hm).1
  | variant _ hm => exact (List.mem_filter.1 (List.mem_of_getElem? hm)).1
  | field _ hm hf =>
    show _ ∈ TypeExpr.parts models (.model _)
    rw [TypeExpr.parts, hm]
    exact List.mem_map_of_mem (List.mem_of_getElem? hf)
  | recordField hf => exact List.mem_map_of_mem (List.mem_of_getElem? hf)

/-- What a model comes to is the model itself, or has the model open. -/
theorem Leads.of_model {models : List Model} {a : List String} {name : String} {path : List Nat}
    {w : Visit} (h : Leads models ⟨a, .model name⟩ path w) :
    path = [] ∧ w = ⟨a, .model name⟩ ∨ name ∈ w.active := by
  induction h with
  | here => exact .inl ⟨rfl, rfl⟩
  | next _ hcall ih =>
    right
    rcases ih with ⟨-, rfl⟩ | hname
    · cases hcall with
      | field => exact List.mem_cons_self
    · exact hcall.active_subset hname

end Visit

/-- The visits that the inspection of a type comes to, each with the place of its node. -/
def Visited (models : List Model) (root : TypeExpr) : List Nat → Visit → Prop :=
  Visit.Leads models ⟨[], root⟩

namespace Visited

open Visit

variable {models : List Model} {root : TypeExpr} {path : List Nat} {v : Visit}

theorem sound (h : Visited models root path v) : v.Sound models := by
  induction h with
  | here => exact ⟨List.nodup_nil, List.forall_mem_nil _⟩
  | next _ hcall ih => exact hcall.sound ih

/-- Each visit makes the node at its place. -/
theorem exists_node (h : Visited models root path v) :
    ∃ n, (Node.ofTypeIn models root).at? path = some n ∧ v.Makes models n := by
  induction h with
  | here => exact ⟨_, rfl, makes_read rfl none [] none⟩
  | next hv hcall ih =>
    obtain ⟨n, hn, hmakes⟩ := ih
    obtain ⟨c, hc, hmakes'⟩ := hcall.exists_node (Visited.sound hv) hmakes
    exact ⟨c, by rw [Node.at?_append, hn]; exact hc, hmakes'⟩

/-- A model encloses a visit if the inspection of a reference to it, which made a record, came to the
visit further down. -/
def Encloses (models : List Model) (root : TypeExpr) (name : String) (path : List Nat) (v : Visit) :
    Prop :=
  ∃ outer below a h fields, path = outer ++ below ∧ below ≠ [] ∧
    Visited models root outer ⟨a, .model name⟩ ∧ Leads models ⟨a, .model name⟩ below v ∧
    (Node.ofTypeIn models root).at? outer = some (.object h fields)

/-- The open models are those that enclose. -/
theorem mem_active_iff (hv : Visited models root path v) {name : String} :
    name ∈ v.active ↔ Encloses models root name path v := by
  constructor
  · intro hname
    induction hv with
    | here => cases hname
    | @next path place w x hw hcall ih =>
      have hkept (h : name ∈ w.active) : Encloses models root name (path ++ place) x := by
        obtain ⟨outer, below, a, hd, fields, rfl, hne, hvisited, hleads, hnode⟩ := ih h
        exact ⟨outer, below ++ place, a, hd, fields, by rw [List.append_assoc], by simp [hne],
          hvisited, hleads.next hcall, hnode⟩
      cases hcall with
      | base | sole | variant | item | recordField => exact hkept hname
      | @field a opened m i f hclosed hm hf =>
        rcases List.mem_cons.1 hname with rfl | hname
        · obtain ⟨n, hn, hmakes⟩ := Visited.exists_node hw
          obtain ⟨hd, fields, rfl, -⟩ := hmakes.object_of_find? (Visited.sound hw) hclosed hm
          exact ⟨path, [i], a, hd, fields, rfl, by simp, hw,
            Leads.here.next (.field hclosed hm hf), hn⟩
        · exact hkept hname
  · rintro ⟨outer, below, a, h, fields, -, hne, -, hleads, -⟩
    exact hleads.of_model.resolve_left fun h => hne h.1

theorem reaches (h : Visited models root path v) : root.Reaches models v.type := by
  induction h with
  | here => exact .refl
  | next _ hcall ih => exact ih.tail hcall.mem_parts

end Visited

/-! ## The visit of a node -/

namespace Visit

/-- A visit whose node is not that of another visit it goes on to. -/
def IsCore (models : List Model) (v : Visit) : Prop := ∀ w, ¬ v.Calls models [] w

theorem IsCore.length_ne_one {models : List Model} {a : List String} {members : List TypeExpr}
    (h : IsCore models ⟨a, .union members⟩) : (members.filter fun m => !m.isNull).length ≠ 1 := by
  intro hlen
  obtain ⟨m, hm⟩ := List.length_eq_one_iff.1 hlen
  exact h _ (.sole hm)

/-- The children of the node of a core are made by what the visit goes on to. The untold items of a
bare list are visited by nobody. -/
theorem IsCore.exists_call {models : List Model} {v : Visit} (hcore : v.IsCore models)
    (hv : v.Sound models) {n c : Node} (hn : v.Makes models n) (hc : c ∈ n.children) :
    (∃ h, c = .other h (some "Any")) ∨ ∃ place w, v.Calls models place w ∧ w.Makes models c := by
  obtain ⟨a, t⟩ := v
  obtain ⟨description, metadata, discriminator, h, rfl, -⟩ := hn
  rw [Node.children_withHead] at hc
  cases t with
  | scalar s => cases s <;> cases hc
  | null | other | enumeration | forward | generic => cases hc
  | literal values =>
    rw [show written models ⟨a, .literal values⟩ = .literal values from rfl, Node.read,
      Node.children_ofLiteral] at hc
    cases hc
  | bareList form => exact .inl ⟨_, List.mem_singleton.1 hc⟩
  | list form item =>
    obtain rfl := List.mem_singleton.1 hc
    exact .inr ⟨[0], _, .item, makes_read rfl none [] none⟩
  | annotated base ms => exact absurd .base (hcore _)
  | union members =>
    right
    have hlen := hcore.length_ne_one
    rw [read_written_variants hlen, Node.children] at hc
    obtain ⟨m, hm, rfl⟩ := List.mem_map.1 hc
    obtain ⟨i, hi⟩ := List.mem_iff_getElem?.1 hm
    exact ⟨[i], _, .variant hlen hi, makes_read rfl none [] none⟩
  | model name =>
    right
    by_cases hname : name ∈ a
    · rw [written_of_mem models hname] at hc
      cases hc
    · cases hm : Model.find? models name with
      | none =>
        rw [written_of_find?_eq_none hm] at hc
        cases hc
      | some m =>
        rw [written_of_find? hv hname hm, Node.read, Node.children, Node.readFields_eq, List.map_map,
          List.map_map] at hc
        obtain ⟨f, hf, rfl⟩ := List.mem_map.1 hc
        obtain ⟨i, hi⟩ := List.mem_iff_getElem?.1 hf
        exact ⟨[i], _, .field hname hm hi, makes_asField models _ f⟩
  | record name doc fields =>
    right
    rw [written_record, Node.read, Node.children, Node.readFields_eq, List.map_map,
      List.map_map] at hc
    obtain ⟨f, hf, rfl⟩ := List.mem_map.1 hc
    obtain ⟨i, hi⟩ := List.mem_iff_getElem?.1 hf
    exact ⟨[i], _, .recordField hi, makes_asField models a f⟩

end Visit

/-- Each node in the node of a type is made by a visit that is a core, or stands for the untold items
of a bare list. -/
theorem Visited.of_subnode {models : List Model} {root : TypeExpr} {v : Visit} : ∀ {path : List Nat}
    {n m : Node}, Visited models root path v → v.Makes models n → m ∈ n.subnodes →
    (∃ h, m = .other h (some "Any")) ∨
      ∃ path w, Visited models root path w ∧ w.IsCore models ∧ w.Makes models m := by
  -- the node of a visit that is no core is that of a visit it goes on to
  induction v using (Visit.calls_wellFounded models).induction with
  | _ v ih =>
    intro path n m hv hn hm
    by_cases hcore : v.IsCore models
    · rw [Node.subnodes_eq, List.mem_cons, List.mem_flatMap] at hm
      rcases hm with rfl | ⟨c, hc, hm⟩
      · exact .inr ⟨path, v, hv, hcore, hn⟩
      · rcases hcore.exists_call hv.sound hn hc with ⟨h, rfl⟩ | ⟨place, w, hcall, hmakes⟩
        · exact .inl ⟨h, List.mem_singleton.1 hm⟩
        · exact ih w ⟨place, hcall⟩ (hv.next hcall) hmakes hm
    · unfold Visit.IsCore at hcore
      push Not at hcore
      obtain ⟨w, hcall⟩ := hcore
      obtain ⟨c, hc, hmakes⟩ := hcall.exists_node hv.sound hn
      obtain rfl := Option.some.inj hc
      exact ih w ⟨[], hcall⟩ (hv.next hcall) hmakes hm

end TypeWire
