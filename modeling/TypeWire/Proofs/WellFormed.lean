import TypeWire.Proofs.Inspection

/-!
# Well-formed schemas

`Schema.WellFormed` says which fields a schema may have beside each other. The converters check little
of it: that a union has two members, that the keys of an object are distinct and that a literal has a
value is how inspection makes the nodes (`Node.Formed`). So there are two halves.

* `Schema.wellFormed_ofNode`: what is written for a well-formed node is well-formed, and what it holds
  is written for the children (`Schema.exists_child`).
* `Node.formed_of_subnode`: the nodes in the node of a type are well-formed, because each is made by a
  visit that is a core (`Visited.of_subnode`). Of the type this takes what all types have, and that the
  fields of a record have distinct names in data.
-/

namespace TypeWire

namespace Schema

/-- The schemas that a schema directly holds. -/
def parts : Schema → List Schema
  | node _ items properties anyOf => items.toList ++ (properties.getD []).map (·.2) ++ anyOf.getD []

/-- The second schema is the first or stands in it at some depth. -/
def Within : Schema → Schema → Prop := Relation.ReflTransGen fun s p => p ∈ s.parts

/-- A schema as it should be: a concrete type or a union, and with each type only the fields of that
type. -/
structure WellFormed (s : Schema) : Prop where
  /-- A type and members exclude each other, and one is there. -/
  type_iff : s.facets.type.isSome = true ↔ s.anyOf = none
  members : ∀ ms ∈ s.anyOf, 2 ≤ ms.length
  /-- Beside members there are only a description and null. -/
  beside_members : s.anyOf ≠ none → s.items = none ∧ s.properties = none ∧
    s.facets = { description := s.facets.description, nullable := s.facets.nullable }
  properties_iff : s.properties.isSome = true ↔ s.facets.type = some .object
  required_iff : s.facets.required.isSome = true ↔ s.facets.type = some .object
  /-- Properties are put in the order in which they stand. -/
  ordering : s.facets.propertyOrdering = s.properties.map fun ps => ps.map (·.1)
  required : ∀ names ∈ s.facets.required, names.Nodup ∧
    ∀ order ∈ s.facets.propertyOrdering, names.Sublist order
  items_iff : s.items.isSome = true ↔ s.facets.type = some .array
  lengths : s.facets.minItems ≠ none ∨ s.facets.maxItems ≠ none → s.facets.type = some .array
  enum : ∀ texts ∈ s.facets.enum, s.facets.type = some .string ∧ texts ≠ [] ∧ s.facets.format = none
  format : ∀ f ∈ s.facets.format, s.facets.type = some .string ∧ (f = "date" ∨ f = "date-time")
  bounds : s.facets.minimum ≠ none ∨ s.facets.maximum ≠ none →
    s.facets.type = some .number ∨ s.facets.type = some .integer
  nullable : s.facets.nullable = some true ∨ s.facets.nullable = none
  description : s.facets.description ≠ some ""
  sample : s.facets.sample = none

end Schema

/-- A node from which a well-formed schema is written. -/
def Node.Formed : Node → Prop
  | .union _ variants _ => 2 ≤ variants.length
  | .object _ fields => (fields.map (·.1)).Nodup
  | .literal _ values => values ≠ []
  | _ => True

namespace Schema

/-! ## The converters -/

theorem modified_nullable (h : Head) (f : Facets) :
    (modified h f).nullable = some true ∨ (modified h f).nullable = none := by
  cases hn : h.nullable <;> simp [modified, hn]

theorem modified_description (h : Head) (f : Facets) : (modified h f).description ≠ some "" := by
  simp [modified, nonEmpty, Option.filter_eq_some_iff]

theorem wellFormed_leaf {h : Head} {f : Facets} {type : SchemaType} (htype : f.type = some type)
    (hobject : type ≠ .object) (harray : type ≠ .array) (hrequired : f.required = none)
    (hordering : f.propertyOrdering = none) (hmin : f.minItems = none) (hmax : f.maxItems = none)
    (henum : ∀ texts ∈ f.enum, type = .string ∧ texts ≠ [] ∧ f.format = none)
    (hformat : ∀ x ∈ f.format, type = .string ∧ (x = "date" ∨ x = "date-time"))
    (hbounds : f.minimum ≠ none ∨ f.maximum ≠ none → type = .number ∨ type = .integer)
    (hsample : f.sample = none) : (leaf (modified h f)).WellFormed where
  type_iff := by simp [leaf, facets, anyOf, modified, htype]
  members := by simp [leaf, anyOf]
  beside_members h := absurd rfl h
  properties_iff := by simp [leaf, facets, properties, modified, htype, hobject]
  required_iff := by simp [leaf, facets, modified, htype, hobject, hrequired]
  ordering := hordering
  required := by simp [leaf, facets, modified, hrequired]
  items_iff := by simp [leaf, facets, items, modified, htype, harray]
  lengths := by simp [leaf, facets, modified, hmin, hmax]
  enum := by simpa [leaf, facets, modified, htype] using henum
  format := by simpa [leaf, facets, modified, htype] using hformat
  bounds := by simpa [leaf, facets, modified, htype] using hbounds
  nullable := modified_nullable h f
  description := modified_description h f
  sample := hsample

theorem wellFormed_bare (h : Head) {type : SchemaType} (hobject : type ≠ .object)
    (harray : type ≠ .array) {lo hi : Option Float}
    (hbounds : lo ≠ none ∨ hi ≠ none → type = .number ∨ type = .integer) :
    (leaf (modified h { type := some type, minimum := lo, maximum := hi })).WellFormed :=
  wellFormed_leaf rfl hobject harray rfl rfl rfl rfl (by simp) (by simp) hbounds rfl

theorem wellFormed_texts (h : Head) {texts : List String} (ht : texts ≠ []) :
    (leaf (modified h { type := some .string, enum := some texts })).WellFormed := by
  refine wellFormed_leaf rfl (by simp) (by simp) rfl rfl rfl rfl ?_ ?_ ?_ rfl
  · simpa using ht
  · simp
  · simp

theorem textsOf_ne_nil {values : List Value} (hne : values ≠ []) {texts : List String}
    (h : textsOf values = .ok texts) : texts ≠ [] := by
  cases values with
  | nil => exact absurd rfl hne
  | cons v vs =>
    rw [textsOf] at h
    cases hv : v.text? with
    | none =>
      rw [hv] at h
      cases h
    | some text =>
      rw [hv] at h
      obtain ⟨rest, -, rfl⟩ := isOk_map.1 h
      exact List.cons_ne_nil _ _

theorem wellFormed_ofString {h : Head} {s : Schema} (hs : ofString h = .ok s) : s.WellFormed := by
  obtain ⟨-, rfl⟩ := ofString_ok.1 hs
  refine wellFormed_leaf rfl (by simp) (by simp) rfl rfl rfl rfl (by simp) ?_ (by simp) rfl
  intro x hx
  refine ⟨rfl, ?_⟩
  dsimp only at hx
  split at hx
  · exact .inr (Option.some.inj hx).symm
  · split at hx
    · exact .inl (Option.some.inj hx).symm
    · cases hx

theorem wellFormed_ofNumber {h : Head} {s : Schema} (hs : ofNumber h = .ok s) : s.WellFormed := by
  obtain ⟨-, lo, hi, -, -, rfl⟩ := ofNumber_ok.1 hs
  cases Check.has "int" h.checks with
  | true => exact wellFormed_bare h (by simp) (by simp) fun _ => .inr rfl
  | false => exact wellFormed_bare h (by simp) (by simp) fun _ => .inl rfl

theorem wellFormed_array (h : Head) (item : Schema) (lo hi : Option Int) :
    (node (modified h { type := some .array, minItems := lo, maxItems := hi }) (some item) none
      none).WellFormed where
  type_iff := by simp [facets, anyOf, modified]
  members := by simp [anyOf]
  beside_members h := absurd rfl h
  properties_iff := by simp [facets, properties, modified]
  required_iff := by simp [facets, modified]
  ordering := rfl
  required := by simp [facets, modified]
  items_iff := by simp [facets, items, modified]
  lengths _ := rfl
  enum := by simp [facets, modified]
  format := by simp [facets, modified]
  bounds := by simp [facets, modified]
  nullable := modified_nullable h _
  description := modified_description h _
  sample := rfl

theorem wellFormed_object (h : Head) {required : List String} {ps : List (String × Schema)}
    (hnodup : required.Nodup) (hsub : required.Sublist (ps.map (·.1))) :
    (node (modified h
      { type := some .object
        required := some required
        propertyOrdering := some (ps.map (·.1)) }) none (some ps) none).WellFormed where
  type_iff := by simp [facets, anyOf, modified]
  members := by simp [anyOf]
  beside_members h := absurd rfl h
  properties_iff := by simp [facets, properties, modified]
  required_iff := by simp [facets, modified]
  ordering := rfl
  required := by simp [facets, modified, hnodup, hsub]
  items_iff := by simp [facets, items, modified]
  lengths := by simp [facets, modified]
  enum := by simp [facets, modified]
  format := by simp [facets, modified]
  bounds := by simp [facets, modified]
  nullable := modified_nullable h _
  description := modified_description h _
  sample := rfl

theorem wellFormed_union (h : Head) {ms : List Schema} (hlen : 2 ≤ ms.length) :
    (node (modified h {}) none none (some ms)).WellFormed where
  type_iff := by simp [facets, anyOf, modified]
  members := by simpa [anyOf] using hlen
  beside_members _ := ⟨rfl, rfl, rfl⟩
  properties_iff := by simp [facets, properties, modified]
  required_iff := by simp [facets, modified]
  ordering := rfl
  required := by simp [facets, modified]
  items_iff := by simp [facets, items, modified]
  lengths := by simp [facets, modified]
  enum := by simp [facets, modified]
  format := by simp [facets, modified]
  bounds := by simp [facets, modified]
  nullable := modified_nullable h _
  description := modified_description h _
  sample := rfl

theorem keys_of_ofFields {fields : List (String × Node)} {ps : List (String × Schema)}
    (h : ofFields fields = .ok ps) : fields.map (·.1) = ps.map (·.1) :=
  map_eq_of_forall₂ (ofFields_ok.1 h) fun _ _ hentry => hentry.1

/-- The schema that is written for a node is well-formed if the node is. -/
theorem wellFormed_ofNode {n : Node} (hn : n.Formed) {s : Schema} (hs : ofNode n = .ok s) :
    s.WellFormed := by
  cases n with
  | string h => exact wellFormed_ofString hs
  | number h => exact wellFormed_ofNumber hs
  | boolean h =>
    obtain ⟨-, rfl⟩ := ofNode_boolean.1 hs
    exact wellFormed_bare _ (by simp) (by simp) (by simp)
  | null h =>
    obtain ⟨-, rfl⟩ := ofNode_null.1 hs
    exact wellFormed_bare _ (by simp) (by simp) (by simp)
  | enumeration h values =>
    obtain ⟨-, hne, texts, htexts, rfl⟩ := ofEnumeration_ok.1 hs
    exact wellFormed_texts h (textsOf_ne_nil hne htexts)
  | literal h values =>
    obtain ⟨-, texts, htexts, rfl⟩ := ofLiteral_ok.1 hs
    exact wellFormed_texts h (textsOf_ne_nil hn htexts)
  | array h items =>
    cases items with
    | none => exact absurd hs ofNode_bareArray
    | some item =>
      obtain ⟨-, i, lo, hi, -, -, -, rfl⟩ := ofNode_array.1 hs
      exact wellFormed_array h i lo hi
  | object h fields =>
    obtain ⟨-, ps, hps, rfl⟩ := ofNode_object.1 hs
    have hnames : (fields.map (·.1)).Nodup := hn
    have hkeys : fields.map (·.1) = ps.map (·.1) := keys_of_ofFields hps
    have hsub : ((fields.filter fun f => !f.2.head.isOptional).map (·.1)).Sublist
        (fields.map (·.1)) := List.filter_sublist.map _
    rw [dictOfList_eq_self (hkeys ▸ hnames)]
    exact wellFormed_object h (hnames.sublist hsub) (hkeys ▸ hsub)
  | union h variants discriminator =>
    obtain ⟨-, ms, hms, rfl⟩ := ofNode_union.1 hs
    have hlen : variants.length = ms.length := (ofVariants_ok.1 hms).length_eq
    exact wellFormed_union h (hlen ▸ hn)
  | lazy h name => cases hs
  | other h name => cases hs

/-- How a schema holds parts, under names if they are those of fields: of two with one name the later
replaces the earlier. -/
inductive HasParts (s : Schema) : List String → List Schema → Prop
  | plain : s.properties = none → HasParts s [] s.parts
  | named {names : List String} {ps : List Schema} : names.length = ps.length →
      s.properties = some (dictOfList (names.zip ps)) →
      s.parts = (dictOfList (names.zip ps)).map (·.2) → HasParts s names ps

theorem HasParts.subset {s : Schema} {names : List String} {ps : List Schema}
    (h : s.HasParts names ps) : s.parts ⊆ ps := by
  cases h with
  | plain => exact List.Subset.refl _
  | named hlen _ hparts =>
    intro p hp
    obtain ⟨e, he, rfl⟩ := List.mem_map.1 (hparts ▸ hp)
    exact (List.of_mem_zip (mem_of_mem_dictOfList he)).2

theorem HasParts.parts_eq {s : Schema} {names : List String} {ps : List Schema}
    (h : s.HasParts names ps) (hnames : names.Nodup) : s.parts = ps := by
  cases h with
  | plain => rfl
  | named hlen _ hparts =>
    rw [hparts, dictOfList_eq_self (by rwa [List.map_fst_zip hlen.le]), List.map_snd_zip hlen.ge]

/-- What is written for the children of the node, one for one, is what the schema holds. -/
theorem exists_hasParts {n : Node} {s : Schema} (hs : ofNode n = .ok s) :
    ∃ ps, List.Forall₂ (fun c p => ofNode c = .ok p) n.children ps ∧ s.HasParts n.names ps := by
  cases n with
  | string h =>
    obtain ⟨-, rfl⟩ := ofString_ok.1 hs
    exact ⟨[], .nil, .plain rfl⟩
  | number h =>
    obtain ⟨-, lo, hi, -, -, rfl⟩ := ofNumber_ok.1 hs
    exact ⟨[], .nil, .plain rfl⟩
  | boolean h =>
    obtain ⟨-, rfl⟩ := ofNode_boolean.1 hs
    exact ⟨[], .nil, .plain rfl⟩
  | null h =>
    obtain ⟨-, rfl⟩ := ofNode_null.1 hs
    exact ⟨[], .nil, .plain rfl⟩
  | enumeration h values =>
    obtain ⟨-, -, texts, -, rfl⟩ := ofEnumeration_ok.1 hs
    exact ⟨[], .nil, .plain rfl⟩
  | literal h values =>
    obtain ⟨-, texts, -, rfl⟩ := ofLiteral_ok.1 hs
    exact ⟨[], .nil, .plain rfl⟩
  | array h items =>
    cases items with
    | none => exact absurd hs ofNode_bareArray
    | some item =>
      obtain ⟨-, i, lo, hi, hi', -, -, rfl⟩ := ofNode_array.1 hs
      exact ⟨[i], .cons hi' .nil, .plain rfl⟩
  | object h fields =>
    obtain ⟨-, ps, hps, rfl⟩ := ofNode_object.1 hs
    have hzip : (fields.map (·.1)).zip (ps.map (·.2)) = ps := by
      rw [keys_of_ofFields hps, List.zip_map', List.map_id'']
      exact fun e => rfl
    refine ⟨ps.map (·.2), ?_, .named ?_ ?_ ?_⟩
    · rw [Node.children, List.forall₂_map_left_iff, List.forall₂_map_right_iff]
      exact (ofFields_ok.1 hps).imp fun _ _ hentry => hentry.2
    · rw [Node.names, keys_of_ofFields hps, List.length_map, List.length_map]
    · rw [Node.names, hzip]
      rfl
    · rw [Node.names, hzip]
      simp [parts]
  | union h variants discriminator =>
    obtain ⟨-, ms, hms, rfl⟩ := ofNode_union.1 hs
    exact ⟨ms, ofVariants_ok.1 hms, .plain rfl⟩
  | lazy h name => cases hs
  | other h name => cases hs

/-- A schema directly holds nothing but what is written for the children of the node, and all of it
unless two fields have one name. -/
theorem exists_children {n : Node} {s : Schema} (hs : ofNode n = .ok s) :
    ∃ ps, List.Forall₂ (fun c p => ofNode c = .ok p) n.children ps ∧ s.parts ⊆ ps ∧
      ((∀ h fields, n = .object h fields → (fields.map (·.1)).Nodup) → s.parts = ps) := by
  obtain ⟨ps, hps, hparts⟩ := exists_hasParts hs
  refine ⟨ps, hps, hparts.subset, fun hnames => hparts.parts_eq ?_⟩
  cases n with
  | object h fields => exact hnames h fields rfl
  | _ => exact List.nodup_nil

/-- What a schema directly holds is written for the children of the node. -/
theorem exists_child {n : Node} {s p : Schema} (hs : ofNode n = .ok s) (hp : p ∈ s.parts) :
    ∃ c ∈ n.children, ofNode c = .ok p := by
  obtain ⟨ps, hps, hsub, -⟩ := exists_children hs
  exact exists_of_forall₂ hps p (hsub hp)

/-- All schemas within the schema of a node are well-formed if the nodes in the node are. -/
theorem wellFormed_within (n : Node) : ∀ {s u : Schema}, (∀ m ∈ n.subnodes, m.Formed) →
    ofNode n = .ok s → s.Within u → u.WellFormed := by
  induction n using Node.induction with
  | step n ih =>
    intro s u hformed hs hu
    rcases hu.cases_head with rfl | ⟨p, hp, hu⟩
    · exact wellFormed_ofNode (hformed n n.self_mem_subnodes) hs
    · obtain ⟨c, hc, hcp⟩ := exists_child hs hp
      exact ih c hc (fun m hm => hformed m (Node.mem_subnodes_of_child hc hm)) hcp hu

end Schema

/-! ## The nodes of a type -/

/-- A type as types are made: the fields of a record have distinct names in data, and a union has a
member other than null, since equal members are one and a union of one member is that member. -/
def TypeExpr.Formed (models : List Model) : TypeExpr → Prop
  | .union members => ∃ m ∈ members, m.isNull = false
  | .model name => ∀ m, Model.find? models name = some m →
      (m.fields.map fun f => f.1.wireName).Nodup
  | .record _ _ fields => (fields.map fun f => f.1.wireName).Nodup
  | _ => True

namespace Node

theorem formed_withHead {h : Head} {n : Node} : (n.withHead h).Formed ↔ n.Formed := by
  cases n <;> rfl

theorem formed_ofLiteral (r : Reading) (values : List Value) : (ofLiteral r values).Formed := by
  rcases ofLiteral_cases values with h | ⟨nullable, members, hne, h | h⟩ <;> rw [h]
  · trivial
  · trivial
  · exact hne

end Node

theorem Visit.Makes.formed {models : List Model} {v : Visit} {n : Node} (hn : v.Makes models n)
    (hv : v.Sound models) (hcore : v.IsCore models) (ht : v.type.Formed models) : n.Formed := by
  obtain ⟨a, t⟩ := v
  obtain ⟨description, metadata, discriminator, h, rfl, -⟩ := hn
  rw [Node.formed_withHead]
  cases t with
  | scalar s => cases s <;> trivial
  | null | other | enumeration | forward | generic | bareList | list => trivial
  | literal values => exact Node.formed_ofLiteral _ values
  | annotated base ms => exact absurd .base (hcore _)
  | union members =>
    have hlen := hcore.length_ne_one
    -- not one member, and not none, since one is not null
    obtain ⟨m, hm, hvalue⟩ := ht
    have hpos : 0 < (members.filter fun m => !m.isNull).length :=
      List.length_pos_of_mem (List.mem_filter.2 ⟨hm, by simpa using hvalue⟩)
    rw [read_written_variants hlen, Node.Formed, List.length_map]
    omega
  | model name =>
    by_cases hname : name ∈ a
    · rw [written_of_mem models hname]
      trivial
    · cases hm : Model.find? models name with
      | none =>
        rw [written_of_find?_eq_none hm]
        trivial
      | some m =>
        rw [written_of_find? hv hname hm, Node.read, Node.Formed, Node.readFields_eq, List.map_map,
          List.map_map]
        exact ht m hm
  | record name doc fields =>
    rw [written_record, Node.read, Node.Formed, Node.readFields_eq, List.map_map, List.map_map]
    exact ht

/-- The nodes in the node of a type are well-formed if all is that the type is made of. -/
theorem Node.formed_of_subnode {models : List Model} {t : TypeExpr}
    (ht : ∀ u, t.Reaches models u → u.Formed models) {m : Node}
    (hm : m ∈ (Node.ofTypeIn models t).subnodes) : m.Formed := by
  have hroot : Visit.Makes models ⟨[], t⟩ (Node.ofTypeIn models t) :=
    Visit.makes_read rfl none [] none
  rcases Visited.of_subnode .here hroot hm with ⟨h, rfl⟩ | ⟨path, w, hw, hcore, hmakes⟩
  · trivial
  · exact hmakes.formed hw.sound hcore (ht w.type hw.reaches)

/-- All that stands within the schema of a type is well-formed. -/
theorem Schema.wellFormed_ofType {models : List Model} {t : TypeExpr}
    (ht : ∀ u, t.Reaches models u → u.Formed models) {s : Schema} (hs : ofType models t = .ok s)
    {u : Schema} (hu : s.Within u) : u.WellFormed :=
  wellFormed_within (Node.ofTypeIn models t) (fun _ hm => Node.formed_of_subnode ht hm) hs hu

/-- A number of nights, which may be open or not known. -/
def stayNights : TypeExpr := .union [.scalar .int, .literal [.str "open"], .null]

/-- Stays that begin on a date and last some nights. -/
def stayModels : List Model :=
  [⟨"Stay", some "A stay.", [({ name := "from_", dataName := some "from" }, .scalar .date),
    ({ name := "nights", default := some (.value .null) }, stayNights)]⟩]

def stayTypes : List TypeExpr :=
  [.model "Stay", .annotated (.scalar .date) [], .scalar .date, .annotated stayNights [], stayNights,
    .scalar .int, .literal [.str "open"], .null]

theorem Schema.stay_wellFormed : ∃ s, ofType stayModels (.model "Stay") = .ok s ∧
    ∀ u, s.Within u → u.WellFormed := by
  have hclosed : ∀ t ∈ stayTypes, ∀ p ∈ t.parts stayModels, p ∈ stayTypes := by
    simp [stayTypes, TypeExpr.parts, TypeExpr.ofField, stayModels, stayNights, Model.find?]
  have hformed : ∀ t ∈ stayTypes, t.Formed stayModels := by
    simp [stayTypes, TypeExpr.Formed, stayModels, stayNights, Model.find?, Field.wireName,
      TypeExpr.isNull]
  have hreach : ∀ u, (TypeExpr.model "Stay").Reaches stayModels u → u ∈ stayTypes :=
    fun u hu => hu.mem_of_closed hclosed List.mem_cons_self
  obtain ⟨s, hs⟩ : ∃ s, ofType stayModels (.model "Stay") = .ok s := ⟨_, rfl⟩
  exact ⟨s, hs, fun u hu => wellFormed_ofType (fun u hu => hformed u (hreach u hu)) hs hu⟩

end TypeWire
