import TypeWire.Proofs.Layers
import TypeWire.Proofs.Recursion

/-!
# Parts of a schema

What stands in a type (`TypeExpr.StandsAt`) is written at the same place of the schema
(`Schema.at?`). What is written there is what the part comes to alone (`Schema.holds_at`), and the
entries of an object are the fields of its model (`Schema.declares_at`).

Inspection is not compositional as it stands: the same type is read in another way while some models
are open. But a conversion that succeeds comes to no open model (`Visited.unblocked`), and then the
open models do not matter (`Visit.Unblocked.read_written`).
-/

namespace TypeWire

open Visit (written)

variable {models : List Model} {root : TypeExpr} {path place : List Nat}

/-! ## Open models do not matter -/

namespace Visit

theorem Leads.trans {v w x : Visit} {path' : List Nat} (h : v.Leads models path w)
    (h' : w.Leads models path' x) : v.Leads models (path ++ path') x := by
  induction h' with
  | here => rwa [List.append_nil]
  | next _ hcall ih =>
    rw [← List.append_assoc]
    exact ih.next hcall

/-- Nothing that the visit comes to is a model that is open there. -/
def Unblocked (models : List Model) (v : Visit) : Prop :=
  ∀ path w name, v.Leads models path w → w.type = .model name → name ∉ w.active

theorem Unblocked.of_calls {v w : Visit} (h : v.Unblocked models) (hcall : v.Calls models place w) :
    w.Unblocked models := fun path x name hx =>
  h (place ++ path) x name (.trans (.next .here hcall) hx)

theorem Sound.cons {a : List String} {name : String} {t : TypeExpr} (h : Sound models ⟨a, t⟩)
    (hname : name ∉ a) {m : Model} (hm : Model.find? models name = some m) (u : TypeExpr) :
    Sound models ⟨name :: a, u⟩ :=
  ⟨List.nodup_cons.2 ⟨hname, h.nodup⟩, List.forall_mem_cons.2 ⟨⟨m, hm⟩, h.declared⟩⟩

theorem readFields_congr {a b : List String} {fields : List (Field × TypeExpr)}
    (h : ∀ (i : Nat) f, fields[i]? = some f → ∀ (description : Option String) (ms : List Meta)
      (discriminator : Option String),
      Node.read description ms discriminator (written models ⟨a, .ofField f⟩) =
        Node.read description ms discriminator (written models ⟨b, .ofField f⟩)) :
    Node.readFields (fields.map fun f => (f.1, written models ⟨a, f.2⟩)) =
      Node.readFields (fields.map fun f => (f.1, written models ⟨b, f.2⟩)) := by
  rw [Node.readFields_eq, Node.readFields_eq, List.map_map, List.map_map]
  refine List.map_congr_left fun f hf => ?_
  obtain ⟨i, hi⟩ := List.mem_iff_getElem?.1 hf
  have hread : Node.read f.1.description (f.1.metadata ++ []) f.1.discriminator
      (written models ⟨a, f.2⟩) = Node.read f.1.description (f.1.metadata ++ []) f.1.discriminator
      (written models ⟨b, f.2⟩) := h i f hi f.1.description [] f.1.discriminator
  rw [List.append_nil] at hread
  simp only [Function.comp_apply, hread]

/-- A visit that comes to no open model is read the same if fewer models are open. -/
theorem Unblocked.read_written {v : Visit} : ∀ {b : List String}, v.Unblocked models →
    v.Sound models → b ⊆ v.active → Sound models ⟨b, v.type⟩ → ∀ (description : Option String)
    (ms : List Meta) (discriminator : Option String),
    Node.read description ms discriminator (v.written models) =
      Node.read description ms discriminator (written models ⟨b, v.type⟩) := by
  induction v using (calls_wellFounded models).induction with
  | _ v ih =>
  intro b hfree hv hsub hb description ms discriminator
  obtain ⟨a, t⟩ := v
  -- what the visit calls, with the models that are then open in each case
  have hcall {place : List Nat} {w : Visit} (hw : Calls models ⟨a, t⟩ place w) {b' : List String}
      (hsub' : b' ⊆ w.active) (hb' : Sound models ⟨b', w.type⟩) :=
    ih w ⟨place, hw⟩ (hfree.of_calls hw) (hw.sound hv) hsub' hb'
  cases t with
  | scalar | null | other | enumeration | bareList | literal | forward | generic => rfl
  | list form item =>
    show Node.array _ (some (Node.read none [] none (written models ⟨a, item⟩))) =
      Node.array _ (some (Node.read none [] none (written models ⟨b, item⟩)))
    rw [hcall .item hsub ⟨hb.nodup, hb.declared⟩]
  | annotated base inner =>
    exact hcall .base hsub ⟨hb.nodup, hb.declared⟩ description (inner ++ ms) discriminator
  | union members =>
    obtain ⟨m, -, hm⟩ | hlen := TypeExpr.sole_or_variants members
    · rw [read_written_sole hm, read_written_sole hm,
        hcall (.sole hm) hsub ⟨hb.nodup, hb.declared⟩]
    · have hvariants : ((members.filter fun m => !m.isNull).map fun m =>
          Node.read none [] none (written models ⟨a, m⟩)) =
          (members.filter fun m => !m.isNull).map fun m =>
            Node.read none [] none (written models ⟨b, m⟩) := by
        refine List.map_congr_left fun m hm => ?_
        obtain ⟨i, hi⟩ := List.mem_iff_getElem?.1 hm
        exact hcall (.variant hlen hi) hsub ⟨hb.nodup, hb.declared⟩ none [] none
      rw [read_written_variants hlen, read_written_variants hlen, hvariants]
  | model name =>
    cases hm : Model.find? models name with
    | none => rw [written_of_find?_eq_none hm, written_of_find?_eq_none hm]
    | some m =>
      have hname : name ∉ a := hfree [] _ name .here rfl
      have hname' : name ∉ b := fun h => hname (hsub h)
      rw [written_of_find? hv hname hm, written_of_find? hb hname' hm, Node.read, Node.read,
        readFields_congr fun i f hf => hcall (.field hname hm hf) (List.cons_subset_cons _ hsub)
          (hb.cons hname' hm _)]
  | record name doc fields =>
    rw [written_record, written_record, Node.read, Node.read,
      readFields_congr fun i f hf => hcall (.recordField hf) hsub ⟨hb.nodup, hb.declared⟩]

end Visit

/-- Without an offence, inspection comes to no open model. -/
theorem Visited.unblocked {v : Visit} (hclean : Clean models root)
    (hv : Visited models root path v) : v.Unblocked models := by
  intro path' w name hw htype hname
  obtain ⟨n, hmakes, hoffences, -⟩ := Visited.exists_cleanNode hclean (Visit.Leads.trans hv hw)
  obtain ⟨a, t⟩ := w
  subst htype
  obtain ⟨h, rfl⟩ := hmakes.lazy_of_mem hname
  cases hoffences

/-! ## What stands in a type -/

namespace TypeExpr

/-- What stands in a type, with the place of its schema. Each model is opened as if it stood alone. -/
inductive StandsAt (models : List Model) (root : TypeExpr) : List Nat → TypeExpr → Prop
  | here : StandsAt models root [] root
  | next {path place : List Nat} {t u : TypeExpr} {a : List String} : StandsAt models root path t →
      Visit.Calls models ⟨[], t⟩ place ⟨a, u⟩ → StandsAt models root (path ++ place) u

theorem StandsAt.visited {t : TypeExpr} (hclean : Clean models root)
    (h : StandsAt models root path t) : ∃ a, Visited models root path ⟨a, t⟩ := by
  induction h with
  | here => exact ⟨[], .here⟩
  | next _ hcall ih =>
    obtain ⟨a, ha⟩ := ih
    cases hcall with
    | base => exact ⟨a, ha.next .base⟩
    | sole hm => exact ⟨a, ha.next (.sole hm)⟩
    | variant hlen hi => exact ⟨a, ha.next (.variant hlen hi)⟩
    | item => exact ⟨a, ha.next .item⟩
    | recordField hf => exact ⟨a, ha.next (.recordField hf)⟩
    | field _ hm hf =>
      exact ⟨_, ha.next (.field (ha.unblocked hclean [] _ _ .here rfl) hm hf)⟩

theorem StandsAt.of_visited {v : Visit} (h : Visited models root path v) :
    StandsAt models root path v.type := by
  induction h with
  | here => exact .here
  | next _ hcall ih =>
    cases hcall with
    | base => exact ih.next .base
    | sole hm => exact ih.next (.sole hm)
    | variant hlen hi => exact ih.next (.variant hlen hi)
    | item => exact ih.next .item
    | field _ hm hf => exact ih.next (.field List.not_mem_nil hm hf)
    | recordField hf => exact ih.next (.recordField hf)

/-- All that a type without an offence is made of stands somewhere in it, null apart. -/
theorem StandsAt.of_reaches {t : TypeExpr} (hclean : Clean models root)
    (h : root.Reaches models t) (ht : t.isNull = false) : ∃ path, StandsAt models root path t := by
  obtain ⟨path, a, hv, -⟩ := Visited.of_reaches hclean .here h ht
  exact ⟨path, .of_visited hv⟩

def fields? (models : List Model) : TypeExpr → Option (List (Field × TypeExpr))
  | .model name => (Model.find? models name).map Model.fields
  | .record _ _ fields => some fields
  | _ => none

/-- If the type is a model, its fields have distinct names in data. -/
def NamesApart (models : List Model) (t : TypeExpr) : Prop :=
  ∀ fields, t.fields? models = some fields → (fields.map fun f => f.1.wireName).Nodup

end TypeExpr

/-! ## The schema at a place -/

namespace Schema

/-- The schema at a place, which is given by the way to it. -/
def at? : Schema → List Nat → Option Schema
  | s, [] => some s
  | s, i :: path => s.parts[i]? >>= (at? · path)

theorem at?_append (s : Schema) (path path' : List Nat) :
    s.at? (path ++ path') = s.at? path >>= (at? · path') := by
  induction path generalizing s with
  | nil => rfl
  | cons i path ih =>
    rw [List.cons_append, at?, at?]
    cases s.parts[i]? with
    | none => rfl
    | some p => exact ih p

/-- The child at a place of the node is written at that place of the schema, unless two fields have
one name. -/
theorem exists_part {n c : Node} {i : Nat}
    (hn : ∀ h fields, n = .object h fields → (fields.map (·.1)).Nodup) {s : Schema}
    (hs : ofNode n = .ok s) (hc : n.children[i]? = some c) :
    ∃ p, s.at? [i] = some p ∧ ofNode c = .ok p := by
  obtain ⟨ps, hps, -, hparts⟩ := exists_children hs
  obtain ⟨p, hp, hcp⟩ := getElem?_of_forall₂ hps hc
  refine ⟨p, ?_, hcp⟩
  rw [at?, hparts hn, hp]
  rfl

end Schema

/-- Where a visit goes on to a child, the children of its node have names apart if its type has. -/
theorem Visit.Calls.names_nodup {v w : Visit} {i : Nat} (hcall : v.Calls models [i] w)
    (hv : v.Sound models) (hnames : v.type.NamesApart models) {n : Node} (hn : v.Makes models n) :
    ∀ h fields, n = .object h fields → (fields.map (·.1)).Nodup := by
  rintro h fields rfl
  cases hcall with
  | variant hlen hi =>
    obtain ⟨description, metadata, discriminator, h', hobject, -⟩ := hn
    rw [read_written_variants hlen] at hobject
    cases hobject
  | item =>
    obtain ⟨description, metadata, discriminator, h', hobject, -⟩ := hn
    cases hobject
  | field hname hm hf =>
    obtain ⟨h', fields', hobject, hfields⟩ := hn.object_of_find? hv hname hm
    cases hobject
    rw [hfields]
    exact hnames _ (by rw [TypeExpr.fields?, hm, Option.map_some])
  | @recordField a name doc fs i f hf =>
    obtain ⟨description, metadata, discriminator, h', hobject, -⟩ := hn
    rw [written_record, Node.read] at hobject
    obtain ⟨-, rfl⟩ := Node.object.inj hobject
    rw [Node.readFields_eq, List.map_map, List.map_map]
    exact hnames fs rfl

/-- The node that a visit makes is written at the place of the visit. -/
theorem Visited.exists_written (hnames : ∀ u, root.Reaches models u → u.NamesApart models)
    {s : Schema} (hs : Schema.ofType models root = .ok s) {v : Visit}
    (hv : Visited models root path v) :
    ∃ n p, v.Makes models n ∧ s.at? path = some p ∧ Schema.ofNode n = .ok p := by
  induction hv with
  | here => exact ⟨_, s, Visit.makes_read rfl none [] none, rfl, hs⟩
  | @next path place v w hv hcall ih =>
    obtain ⟨n, p, hn, hp, hnp⟩ := ih
    have hsound : v.Sound models := Visited.sound hv
    obtain ⟨c, hc, hmakes⟩ := hcall.exists_node hsound hn
    have happart : v.type.NamesApart models := hnames _ (Visited.reaches hv)
    rw [Schema.at?_append, hp]
    -- a layer shares its node with what is inside; all else is a child of the node
    have hplace : place = [] ∨ ∃ i, place = [i] := by cases hcall <;> simp
    rcases hplace with rfl | ⟨i, rfl⟩
    · obtain rfl := Option.some.inj hc
      exact ⟨_, p, hmakes, rfl, hnp⟩
    · have hchild : n.children[i]? = some c := by simpa [Node.at?] using hc
      obtain ⟨q, hq, hcq⟩ := Schema.exists_part (hcall.names_nodup hsound happart hn) hnp hchild
      exact ⟨c, q, hmakes, hq, hcq⟩

/-- The node of a model that is visited is a record with the fields of the model, and is read so that
no open model comes up. -/
theorem Visited.exists_object {a : List String} {t : TypeExpr} (hclean : Clean models root)
    (hv : Visited models root path ⟨a, t⟩) {fields : List (Field × TypeExpr)}
    (hfields : t.fields? models = some fields) {n : Node} (hn : Visit.Makes models ⟨a, t⟩ n) :
    ∃ b h, n = .object h (Node.readFields (fields.map fun f => (f.1, written models ⟨b, f.2⟩))) ∧
      ∀ (i : Nat) f, fields[i]? = some f →
        Visit.Unblocked models ⟨b, .ofField f⟩ ∧ Visit.Sound models ⟨b, .ofField f⟩ := by
  have hfree : Visit.Unblocked models ⟨a, t⟩ := Visited.unblocked hclean hv
  have hsound : Visit.Sound models ⟨a, t⟩ := Visited.sound hv
  obtain ⟨description, metadata, discriminator, h, rfl, -⟩ := hn
  cases t with
  | model name =>
    obtain ⟨m, hm, rfl⟩ := Option.map_eq_some_iff.1 hfields
    have hname : name ∉ a := hfree [] _ name .here rfl
    refine ⟨name :: a, h, ?_, fun i f hf => ⟨?_, ?_⟩⟩
    · rw [Visit.written_of_find? hsound hname hm]
      rfl
    · exact hfree.of_calls (.field hname hm hf)
    · exact (Visit.Calls.field hname hm hf).sound hsound
  | record name doc fs =>
    obtain rfl := Option.some.inj hfields
    refine ⟨a, h, ?_, fun i f hf => ⟨?_, ?_⟩⟩
    · rw [Visit.written_record]
      rfl
    · exact hfree.of_calls (.recordField hf)
    · exact (Visit.Calls.recordField hf).sound hsound
  | _ => cases hfields

/-! ## Parts standing alone -/

namespace TypeExpr

/-- The type of a field inside all that the field says about it. -/
def declared (f : Field × TypeExpr) : TypeExpr :=
  f.2.annotate (f.1.metadata ++ [.field
    { description := some f.1.description, discriminator := some f.1.discriminator }])

end TypeExpr

namespace Schema

theorem ofType_declared (f : Field × TypeExpr) :
    ofType models (TypeExpr.declared f) = ofNode (Node.asField f.1 (Node.read f.1.description
      f.1.metadata f.1.discriminator (written models ⟨[], f.2⟩))) := by
  rw [Node.asField, ofNode_withHead_isOptional]
  show ofNode (Node.read none [] none (written models ⟨[], TypeExpr.declared f⟩)) = _
  rw [TypeExpr.declared, Node.read_written_annotate, List.append_nil]
  refine Node.ofNode_read_congr _ ?_ ?_
  · rw [Reading.description_ofMetadata, Reading.description_ofMetadata, Reading.described_append]
    simp [Reading.described, Meta.flattenAll, Meta.flatten, Reading.step, nonEmpty]
  · rw [Reading.restrictions_append]
    exact List.append_nil _

theorem ofFields_declared {b : List String} {fields : List (Field × TypeExpr)}
    (hfields : ∀ (i : Nat) f, fields[i]? = some f →
      Visit.Unblocked models ⟨b, .ofField f⟩ ∧ Visit.Sound models ⟨b, .ofField f⟩)
    {ps : List (String × Schema)}
    (hps : ofFields (Node.readFields (fields.map fun f => (f.1, written models ⟨b, f.2⟩))) =
      .ok ps) :
    List.Forall₂ (fun f p => f.1.wireName = p.1 ∧ ofType models (.declared f) = .ok p.2)
      fields ps := by
  have hclosed (t : TypeExpr) : Visit.Sound models ⟨[], t⟩ := ⟨List.nodup_nil, List.forall_mem_nil _⟩
  rw [Visit.readFields_congr fun i f hf => (hfields i f hf).1.read_written (hfields i f hf).2
      (List.nil_subset b) (hclosed _), ofFields_ok, Node.readFields_eq, List.map_map,
    List.forall₂_map_left_iff] at hps
  refine hps.imp ?_
  rintro f p ⟨hname, hp⟩
  exact ⟨hname, by rw [ofType_declared]; exact hp⟩

/-- The properties of a schema are the schemas that the declared types of the fields have alone. -/
def HoldsFields (models : List Model) (p : Schema) (fields : List (Field × TypeExpr)) : Prop :=
  ∃ ps, p.properties = some ps ∧
    List.Forall₂ (fun f q => f.1.wireName = q.1 ∧ ofType models (.declared f) = .ok q.2) fields ps

/-- The parts of a schema are the schemas that the parts of the type have alone. -/
def HoldsParts (models : List Model) (p : Schema) : TypeExpr → Prop
  | .list _ item => ∃ i, p.items = some i ∧ ofType models item = .ok i
  | .union members => 2 ≤ (members.filter fun m => !m.isNull).length → ∃ ms, p.anyOf = some ms ∧
      List.Forall₂ (fun m q => ofType models m = .ok q) (members.filter fun m => !m.isNull) ms
  | .model name => ∃ m, Model.find? models name = some m ∧ p.HoldsFields models m.fields
  | .record _ _ fields => p.HoldsFields models fields
  | _ => True

/-- Each field has a property, and is required if it has no default. -/
structure Declares (p : Schema) (fields : List (Field × TypeExpr)) : Prop where
  properties : p.properties.map (fun ps => ps.map (·.1)) = some (fields.map fun f => f.1.wireName)
  ordering : p.facets.propertyOrdering = some (fields.map fun f => f.1.wireName)
  required : p.facets.required =
    some ((fields.filter fun f => !f.1.isOptional).map fun f => f.1.wireName)

end Schema

theorem Visited.holds_fields {a : List String} {t : TypeExpr} (hclean : Clean models root)
    (hv : Visited models root path ⟨a, t⟩) (hnames : t.NamesApart models)
    {fields : List (Field × TypeExpr)} (hfields : t.fields? models = some fields) {n : Node}
    (hn : Visit.Makes models ⟨a, t⟩ n) {p : Schema} (hp : Schema.ofNode n = .ok p) :
    p.HoldsFields models fields ∧ p.Declares fields := by
  obtain ⟨b, h, rfl, hfree⟩ := Visited.exists_object hclean hv hfields hn
  obtain ⟨-, ps, hps, rfl⟩ := Schema.ofNode_object.1 hp
  have hdeclared := Schema.ofFields_declared hfree hps
  have hkeys : fields.map (fun f => f.1.wireName) = ps.map (·.1) :=
    map_eq_of_forall₂ hdeclared fun _ _ hentry => hentry.1
  -- no entry replaces another one, so the properties are the fields and so is their order
  have hself : dictOfList ps = ps := dictOfList_eq_self (hkeys ▸ hnames fields hfields)
  have hrequired : ((fields.map fun f => (f.1, written models ⟨b, f.2⟩)).filter
      fun f => !f.1.isOptional).map (fun f => f.1.wireName) =
      (fields.filter fun f => !f.1.isOptional).map fun f => f.1.wireName := by
    rw [List.filter_map, List.map_map]
    rfl
  rw [hself, Node.required_readFields, hrequired, ← hkeys]
  exact ⟨⟨ps, rfl, hdeclared⟩, by rw [hkeys]; rfl, rfl, rfl⟩

/-- Where a type stands, the node that is read from it is written. -/
theorem TypeExpr.StandsAt.exists_written {s : Schema} {t : TypeExpr}
    (ht : root.StandsAt models path t) (hs : Schema.ofType models root = .ok s)
    (hnames : ∀ u, root.Reaches models u → u.NamesApart models) :
    ∃ a n p, Visited models root path ⟨a, t⟩ ∧ Visit.Makes models ⟨a, t⟩ n ∧ s.at? path = some p ∧
      Schema.ofNode n = .ok p := by
  obtain ⟨a, hv⟩ := ht.visited (clean_of_ok hs)
  obtain ⟨n, p, hn, hp, hnp⟩ := hv.exists_written hnames hs
  exact ⟨a, n, p, hv, hn, hp, hnp⟩

namespace Schema

/-- What a converted part comes to does not depend on where it stands: all that the type is made of
has a place, and the parts of the schema there are the schemas that the parts of the type have
alone. -/
theorem holds_at {s : Schema} (hs : ofType models root = .ok s)
    (hnames : ∀ t, root.Reaches models t → t.NamesApart models) :
    (∀ t, root.Reaches models t → t.isNull = false → ∃ path, root.StandsAt models path t) ∧
      ∀ path t, root.StandsAt models path t → ∃ p, s.at? path = some p ∧ p.HoldsParts models t := by
  have hclean : Clean models root := clean_of_ok hs
  refine ⟨fun t ht hnull => TypeExpr.StandsAt.of_reaches hclean ht hnull, fun path t ht => ?_⟩
  obtain ⟨a, n, p, hv, hn, hp, hnp⟩ := ht.exists_written hs hnames
  have hobject {fields : List (Field × TypeExpr)} (hfields : t.fields? models = some fields) :=
    (hv.holds_fields hclean (hnames t hv.reaches) hfields hn hnp).1
  refine ⟨p, hp, ?_⟩
  obtain ⟨description, ms, discriminator, h, rfl, -⟩ := hn
  rw [(hv.unblocked hclean).read_written hv.sound (List.nil_subset a)
    ⟨List.nodup_nil, List.forall_mem_nil _⟩] at hnp
  cases t with
  | list form item =>
    obtain ⟨-, i, lo, hi, hi', -, -, rfl⟩ := ofNode_array.1 hnp
    exact ⟨i, rfl, hi'⟩
  | union members =>
    intro hlen
    rw [Visit.read_written_variants (by omega)] at hnp
    obtain ⟨-, qs, hqs, rfl⟩ := ofNode_union.1 hnp
    rw [ofVariants_ok, List.forall₂_map_left_iff] at hqs
    exact ⟨qs, rfl, hqs⟩
  | model name =>
    cases hm : Model.find? models name with
    | none =>
      rw [Visit.written_of_find?_eq_none hm] at hnp
      cases hnp
    | some m => exact ⟨m, hm, hobject (by rw [TypeExpr.fields?, hm, Option.map_some])⟩
  | record name doc fields => exact hobject rfl
  | _ => trivial

end Schema

/-- Trips from a place over stops, which are places or texts. -/
def tripModels : List Model :=
  [⟨"Place", none, [({ name := "street" }, .scalar .str)]⟩,
    ⟨"Trip", none, [({ name := "from_", dataName := some "from" }, .model "Place"),
      ({ name := "stops", description := some "On the way.", default := some (.value .null) },
        .list .builtin (.union [.model "Place", .scalar .str]))]⟩]

def tripTypes : List TypeExpr :=
  [.model "Trip", .annotated (.model "Place") [], .model "Place", .annotated (.scalar .str) [],
    .scalar .str, .annotated (.list .builtin (.union [.model "Place", .scalar .str])) [],
    .list .builtin (.union [.model "Place", .scalar .str]), .union [.model "Place", .scalar .str]]

theorem trip_namesApart :
    ∀ t, (TypeExpr.model "Trip").Reaches tripModels t → t.NamesApart tripModels := by
  have hclosed : ∀ t ∈ tripTypes, ∀ p ∈ t.parts tripModels, p ∈ tripTypes := by
    simp [tripTypes, TypeExpr.parts, TypeExpr.ofField, tripModels, Model.find?]
  have hapart : ∀ t ∈ tripTypes, t.NamesApart tripModels := by
    simp [tripTypes, TypeExpr.NamesApart, TypeExpr.fields?, tripModels, Model.find?,
      Field.wireName]
  intro t ht
  exact hapart t (ht.mem_of_closed hclosed List.mem_cons_self)

/-- The stops, each stop, and the place that a stop can be, in the schema of a trip. -/
theorem Schema.trip_holds : ∃ s, ofType tripModels (.model "Trip") = .ok s ∧
    (∃ p, s.at? [1] = some p ∧
      p.HoldsParts tripModels (.list .builtin (.union [.model "Place", .scalar .str]))) ∧
    (∃ p, s.at? [1, 0] = some p ∧
      p.HoldsParts tripModels (.union [.model "Place", .scalar .str])) ∧
    ∃ p, s.at? [1, 0, 0] = some p ∧ p.HoldsParts tripModels (.model "Place") := by
  obtain ⟨s, hs⟩ : ∃ s, ofType tripModels (.model "Trip") = .ok s := ⟨_, rfl⟩
  have hholds := (holds_at hs trip_namesApart).2
  have hstops : (TypeExpr.model "Trip").StandsAt tripModels [1]
      (.list .builtin (.union [.model "Place", .scalar .str])) :=
    (TypeExpr.StandsAt.here.next (.field List.not_mem_nil rfl rfl)).next .base
  have hstop : (TypeExpr.model "Trip").StandsAt tripModels [1, 0]
      (.union [.model "Place", .scalar .str]) := hstops.next .item
  have hplace : (TypeExpr.model "Trip").StandsAt tripModels [1, 0, 0] (.model "Place") :=
    hstop.next (.variant (by decide) rfl)
  exact ⟨s, hs, hholds _ _ hstops, hholds _ _ hstop, hholds _ _ hplace⟩

/-- Each model that stands in a type has a property for each of its fields, in their order. -/
theorem Schema.declares_at {s : Schema} (hs : ofType models root = .ok s)
    (hnames : ∀ t, root.Reaches models t → t.NamesApart models) {t : TypeExpr}
    (ht : root.StandsAt models path t) {fields : List (Field × TypeExpr)}
    (hfields : t.fields? models = some fields) :
    ∃ p, s.at? path = some p ∧ p.Declares fields := by
  obtain ⟨a, n, p, hv, hn, hp, hnp⟩ := ht.exists_written hs hnames
  exact ⟨p, hp, (hv.holds_fields (clean_of_ok hs) (hnames t hv.reaches) hfields hn hnp).2⟩

theorem Schema.trip_declares : ∃ s p fields, ofType tripModels (.model "Trip") = .ok s ∧
    (TypeExpr.model "Trip").fields? tripModels = some fields ∧ s.at? [] = some p ∧
    p.Declares fields ∧ (fields.map fun f => f.1.wireName) = ["from", "stops"] := by
  obtain ⟨s, hs⟩ : ∃ s, ofType tripModels (.model "Trip") = .ok s := ⟨_, rfl⟩
  obtain ⟨p, hp, hfields⟩ := declares_at hs trip_namesApart .here rfl
  exact ⟨s, p, _, hs, rfl, hp, hfields, rfl⟩

def twins : Model where
  name := "Twins"
  doc := none
  fields := [({ name := "first", dataName := some "x" }, .scalar .int),
    ({ name := "second", dataName := some "x" }, .scalar .str)]

/-- Two fields with one name in data come to one property, which is required twice. -/
theorem Schema.twins_merged : ∃ s, ofType [twins] (.model "Twins") = .ok s ∧
    s.facets.propertyOrdering = some ["x"] ∧ s.facets.required = some ["x", "x"] ∧
    ¬ s.Declares twins.fields := by
  refine ⟨_, rfl, rfl, rfl, fun h => ?_⟩
  have hordering := h.ordering
  cases hordering

end TypeWire
