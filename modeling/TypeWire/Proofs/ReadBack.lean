import TypeWire.Proofs.NodeSchema
import TypeWire.Proofs.Rebuilt

/-!
# Types read back

`TypeExpr.Reads t s`: the type `t`, standing alone, is read into a node with the schema `s`. What
types are rebuilt with changes the schema in one place only:

* a description put on a type is the description of its schema (`TypeExpr.Reads.describe`);
* null added to a type makes its schema nullable (`TypeExpr.Reads.optionalOf`);
* a type that becomes that of a field, its metadata taken off, is read as before
  (`TypeExpr.Reads.field`).

So the shapes of schemas need to be read without description and null only.
-/

namespace TypeWire

/-! ## Nodes with other modifiers -/

namespace Schema

/-- The schema with other facets. -/
def mapFacets (g : Facets → Facets) : Schema → Schema
  | node f items properties anyOf => node (g f) items properties anyOf

/-- The schema with a description. -/
def withDescription (d : String) : Schema → Schema :=
  mapFacets fun f => { f with description := some d }

/-- The schema with null. -/
def withNull : Schema → Schema := mapFacets fun f => { f with nullable := some true }

/-- Modifiers that are no checks change the facets of the schema, and nothing else. -/
theorem ofNode_modify {g : Head → Head} {m : Facets → Facets}
    (hchecks : ∀ h, (g h).checks = h.checks) (hm : ∀ h f, modified (g h) f = m (modified h f))
    (hnull : ∀ h, { g h with nullable := true } = g { h with nullable := true }) {n : Node}
    {s : Schema} (hs : ofNode n = .ok s) : ofNode (n.withHead (g n.head)) = .ok (s.mapFacets m) := by
  cases n with
  | string h =>
    obtain ⟨hc, rfl⟩ := ofString_ok.1 hs
    refine ofString_ok.2 ⟨by simpa [Node.head, hchecks] using hc, ?_⟩
    simp only [Node.head, hm, hchecks, leaf, mapFacets]
  | number h =>
    obtain ⟨hc, lo, hi, hlo, hhi, rfl⟩ := ofNumber_ok.1 hs
    refine ofNumber_ok.2 ⟨by simpa [Node.head, hchecks] using hc, lo, hi,
      by rw [hchecks]; exact hlo, by rw [hchecks]; exact hhi, ?_⟩
    simp only [Node.head, hm, hchecks, leaf, mapFacets]
  | boolean h =>
    obtain ⟨hc, rfl⟩ := ofNode_boolean.1 hs
    refine ofNode_boolean.2 ⟨by simpa [Node.head, hchecks] using hc, ?_⟩
    simp only [Node.head, hm, leaf, mapFacets]
  | null h =>
    obtain ⟨hc, rfl⟩ := ofNode_null.1 hs
    refine ofNode_null.2 ⟨by simpa [Node.head, hchecks] using hc, ?_⟩
    simp only [Node.head, hnull, hm, leaf, mapFacets]
  | array h items =>
    cases items with
    | none => exact absurd hs ofNode_bareArray
    | some item =>
      obtain ⟨hc, i, lo, hi, hi', hlo, hhi, rfl⟩ := ofNode_array.1 hs
      refine ofNode_array.2 ⟨by simpa [Node.head, hchecks] using hc, i, lo, hi, hi',
        by rw [hchecks]; exact hlo, by rw [hchecks]; exact hhi, ?_⟩
      simp only [Node.head, hm, mapFacets]
  | object h fields =>
    obtain ⟨hc, ps, hps, rfl⟩ := ofNode_object.1 hs
    refine ofNode_object.2 ⟨by simpa [Node.head, hchecks] using hc, ps, hps, ?_⟩
    simp only [Node.head, hm, mapFacets]
  | enumeration h values =>
    obtain ⟨hc, hne, texts, htexts, rfl⟩ := ofEnumeration_ok.1 hs
    refine ofEnumeration_ok.2 ⟨by simpa [Node.head, hchecks] using hc, hne, texts, htexts, ?_⟩
    simp only [Node.head, hm, leaf, mapFacets]
  | literal h values =>
    obtain ⟨hc, texts, htexts, rfl⟩ := ofLiteral_ok.1 hs
    refine ofLiteral_ok.2 ⟨by simpa [Node.head, hchecks] using hc, texts, htexts, ?_⟩
    simp only [Node.head, hm, leaf, mapFacets]
  | union h variants discriminator =>
    obtain ⟨hc, ms, hms, rfl⟩ := ofNode_union.1 hs
    refine ofNode_union.2 ⟨by simpa [Node.head, hchecks] using hc, ms, hms, ?_⟩
    simp only [Node.head, hm, mapFacets]
  | lazy h name => cases hs
  | other h name => cases hs

end Schema

namespace Node

/-- The node with a description. -/
def describe (d : String) (n : Node) : Node := n.withHead { n.head with description := some d }

theorem ofNode_describe {d : String} (hd : d ≠ "") {n : Node} {s : Schema}
    (hs : Schema.ofNode n = .ok s) : Schema.ofNode (n.describe d) = .ok (s.withDescription d) := by
  refine Schema.ofNode_modify (g := fun h => { h with description := some d }) (fun _ => rfl) ?_
    (fun _ => rfl) hs
  intro h f
  simp [Schema.modified, nonEmpty_of_ne hd]

theorem ofNode_under_null {n : Node} {s : Schema} (hs : Schema.ofNode n = .ok s) :
    Schema.ofNode (n.under [] true) = .ok s.withNull := by
  have hunder : n.under [] true = n.withHead { n.head with nullable := true } := by
    simp [under]
  rw [hunder]
  exact Schema.ofNode_modify (g := fun h => { h with nullable := true }) (fun _ => rfl)
    (fun _ _ => rfl) (fun _ => rfl) hs

/-! ## Reading a core inside its metadata -/

theorem read_core (description discriminator : Option String) (ms : List Meta) (t : TypeExpr) :
    read description ms discriminator t =
      read description (t.metadata ++ ms) discriminator t.core := by
  cases t with
  | annotated base inner => rw [read]; rfl
  | _ => rfl

/-- A core is read as what its metadata says, however that is written. -/
theorem read_congr {b : TypeExpr} (hb : b.isAnnotated = false)
    {description description' discriminator discriminator' : Option String} {ms ms' : List Meta}
    (h : Reading.ofMetadata description discriminator ms =
      Reading.ofMetadata description' discriminator' ms') :
    read description ms discriminator b = read description' ms' discriminator' b := by
  cases b with
  | annotated => cases hb
  | _ => simp only [read, h]

theorem ofMetadata_description {d : String} (hd : d ≠ "") (description discriminator : Option String)
    (ms : List Meta) :
    Reading.ofMetadata (some d) discriminator ms =
      { Reading.ofMetadata description discriminator ms with description := some d } := by
  simp [Reading.ofMetadata, nonEmpty, hd]

theorem ofMetadata_concat (d : String) (ms : List Meta) :
    Reading.ofMetadata none none (ms ++ [.field { description := some (some d) }]) =
      Reading.ofMetadata (some d) none ms := by
  unfold Reading.ofMetadata
  rw [Validator.flattenAll_append, List.foldl_append]
  simp [Meta.flattenAll, Meta.flatten, Reading.step, nonEmpty, FieldSpec.restrictions,
    namedRestrictions]

theorem read_describe {d : String} (hd : d ≠ "") (t : TypeExpr) :
    ∀ (description discriminator : Option String) (ms : List Meta),
      read (some d) ms discriminator t = (read description ms discriminator t).describe d := by
  induction t with
  | annotated base inner ih =>
    intro description discriminator ms
    rw [read, read]
    exact ih description discriminator (inner ++ ms)
  | scalar s =>
    intro description discriminator ms
    rw [read, read, ofMetadata_description hd description discriminator ms]
    cases s <;> rfl
  | literal values =>
    intro description discriminator ms
    rw [read, read, ofMetadata_description hd description discriminator ms]
    rcases ofLiteral_cases values with h | ⟨nullable, members, -, h | h⟩ <;> rw [h, h] <;> rfl
  | union members ih =>
    intro description discriminator ms
    have hreading := ofMetadata_description hd description discriminator ms
    obtain ⟨m, hmem, hm⟩ | hlen := TypeExpr.sole_or_variants members
    · rw [read_sole hm, read_sole hm, hreading,
        ih m hmem (Reading.ofMetadata description discriminator ms).description]
      simp [under, describe]
    · rw [read_variants hlen, read_variants hlen, hreading]
      rfl
  | _ =>
    intro description discriminator ms
    rw [read, read, ofMetadata_description hd description discriminator ms]
    rfl

theorem ofType_union_singleton {m : TypeExpr} (hm : m.isNull = false) :
    ofType (.union [m]) = ofType m := by
  have hfilter : [m].filter (fun m => !m.isNull) = [m] := by simp [hm]
  rw [ofType, read_sole hfilter, List.any_cons, hm]
  exact under_nil _

/-- Null behind the members of a union makes the union nullable. -/
theorem ofType_union_null {ms : List TypeExpr} (hms : ∀ m ∈ ms, m.isNull = false) :
    ofType (.union (ms ++ [.null])) = (ofType (.union ms)).under [] true := by
  have hself : ms.filter (fun m => !m.isNull) = ms := by
    rw [List.filter_eq_self]
    simpa using hms
  have hfilter : (ms ++ [TypeExpr.null]).filter (fun m => !m.isNull) = ms := by
    rw [List.filter_append, hself]
    simp [TypeExpr.isNull]
  have hnone : ms.any TypeExpr.isNull = false := by simpa using hms
  unfold ofType
  obtain ⟨m, -, hm⟩ | hlen := TypeExpr.sole_or_variants ms
  · rw [read_sole hm, read_sole (hfilter.trans (hself.symm.trans hm)), under_under, List.any_append,
      hnone]
    rfl
  · rw [read_variants hlen, read_variants (by rwa [hfilter, ← hself]), hself, hfilter,
      List.any_append, hnone]
    rfl

end Node

namespace TypeExpr

open Validator

/-! ## What a type is read back as -/

/-- The type, standing alone, is read into a node with the schema. -/
def Reads (t : TypeExpr) (s : Schema) : Prop := Schema.ofNode (Node.ofType t) = .ok s

theorem Reads.describe {t : TypeExpr} {s : Schema} (h : t.Reads s) (ht : Regular t) {d : String}
    (hd : d ≠ "") :
    (t.annotate [.field { description := some (some d) }]).Reads (s.withDescription d) := by
  obtain ⟨-, hn, -⟩ := ht.core
  have hread : Node.ofType (t.annotate [.field { description := some (some d) }]) =
      (Node.ofType t).describe d := by
    rw [annotate_cons, Node.ofType, Node.ofType, Node.read_core none none [] t, List.append_nil,
      Node.read, List.append_nil, ← Node.read_describe hd t.core none none t.metadata]
    exact Node.read_congr hn (Node.ofMetadata_concat d t.metadata)
  rw [Reads, hread]
  exact Node.ofNode_describe hd h

theorem Regular.members_apart {t : TypeExpr} (ht : Regular t) :
    t.members.Pairwise (fun a b => b.equals a = false) := by
  cases ht with
  | union hpw _ => exact hpw
  | _ => exact List.pairwise_singleton _ _

/-- Types no two of which are equal stay apart from null if none of them is null. -/
theorem distinct_concat_null {ts : List TypeExpr} (h : ∀ t ∈ ts, t.isNull = false)
    (hts : ts.Pairwise (fun a b => b.equals a = false)) :
    distinct (ts ++ [.null]) = ts ++ [.null] := by
  refine distinctFrom_eq_self (by simp) ?_
  rw [List.pairwise_append]
  refine ⟨hts, List.pairwise_singleton _ _, fun t ht n hn => ?_⟩
  obtain rfl := List.mem_singleton.1 hn
  rw [← Bool.not_eq_true, equals_null]
  rintro rfl
  cases h _ ht

theorem optionalOf_eq {t : TypeExpr} (ht : Regular t) (hne : t.members ≠ [])
    (h : ∀ m ∈ t.members, m.isNull = false) :
    optionalOf t = .union (t.members ++ [.null]) := by
  have hdistinct : distinct ([t, .null].flatMap members) = t.members ++ [.null] :=
    distinct_concat_null h ht.members_apart
  rcases unionOf_cases [t, .null] with ⟨u, hu, -⟩ | hu
  · rw [hdistinct] at hu
    have hlen := congrArg List.length hu
    simp only [List.length_append, List.length_singleton, Nat.add_eq_right,
      List.length_eq_zero_iff] at hlen
    exact absurd hlen hne
  · rw [optionalOf, hu, hdistinct]

/-- Null added to a type is null put around its node. -/
theorem ofType_optionalOf {t : TypeExpr} (ht : Regular t) (hne : t.members ≠ [])
    (hms : ∀ m ∈ t.members, m.isNull = false) :
    Node.ofType t.optionalOf = (Node.ofType t).under [] true := by
  rw [optionalOf_eq ht hne hms, Node.ofType_union_null hms]
  cases t with
  | union => rfl
  | _ => exact congrArg _ (Node.ofType_union_singleton (hms _ (List.mem_singleton_self _)))

theorem Reads.optionalOf {t : TypeExpr} {s : Schema} (h : t.Reads s) (ht : Regular t)
    (hne : t.members ≠ []) (hms : ∀ m ∈ t.members, m.isNull = false) :
    t.optionalOf.Reads s.withNull := by
  rw [Reads, ofType_optionalOf ht hne hms]
  exact Node.ofNode_under_null h

theorem mapModelsAll_eq_self {f : String → TypeExpr} {ts : List TypeExpr}
    (h : ∀ t ∈ ts, mapModels f t = t) : mapModelsAll f ts = ts := by
  induction ts with
  | nil => rfl
  | cons t ts ih =>
    obtain ⟨ht, hts⟩ := List.forall_mem_cons.1 h
    rw [mapModelsAll, ht, ih hts]

theorem mapModelsFields_eq_self {f : String → TypeExpr} {fields : List (Field × TypeExpr)}
    (h : ∀ field ∈ fields, mapModels f field.2 = field.2) : mapModelsFields f fields = fields := by
  induction fields with
  | nil => rfl
  | cons field fields ih =>
    obtain ⟨hf, hfs⟩ := List.forall_mem_cons.1 h
    rw [mapModelsFields, hf, ih hfs]

theorem Regular.mapModels_eq_self {t : TypeExpr} (ht : Regular t) (f : String → TypeExpr) :
    mapModels f t = t := by
  induction t with
  | list form item ih =>
    cases ht with
    | list _ hi => rw [mapModels, ih hi]
  | union members ih =>
    cases ht with
    | union _ hms => rw [mapModels, mapModelsAll_eq_self fun m hm => ih m hm (hms m hm)]
  | annotated base ms ih => rw [mapModels, ih ht.core.1]
  | record name doc fields ih =>
    cases ht with
    | record _ _ hfs => rw [mapModels, mapModelsFields_eq_self fun f hf => ih f hf (hfs f hf)]
  | generic | model => cases ht
  | _ => rfl

theorem Regular.ofType_eq_ok {t : TypeExpr} (ht : Regular t) {s : Schema} :
    Schema.ofType [] t = .ok s ↔ t.Reads s := by
  unfold Schema.ofType Node.ofTypeIn expand
  rw [ht.mapModels_eq_self]
  rfl

/-! ## The shapes of types -/

theorem reads_text : (scalar .str).Reads (.leaf { type := some .string }) := rfl

theorem reads_datetime :
    (scalar .datetime).Reads (.leaf { type := some .string, format := some "date-time" }) := rfl

theorem reads_bool : (scalar .bool).Reads (.leaf { type := some .boolean }) := rfl

theorem reads_literal {texts : List String} (h : texts ≠ []) :
    (literal (texts.map .str)).Reads (.leaf { type := some .string, enum := some texts }) := by
  have hnode := (Node.ofNode_ofLiteral (Reading.ofMetadata none none []) h [] false
    (s := .leaf { type := some .string, enum := some texts })).2 ⟨rfl, rfl⟩
  rwa [Node.under_nil] at hnode

theorem reads_int (lo hi : Option Float) : ((scalar .int).annotate (bounds lo hi)).Reads
    (.leaf { type := some .integer, minimum := lo, maximum := hi }) := by
  cases lo <;> cases hi <;> rfl

theorem reads_float (lo hi : Option Float) : ((scalar .float).annotate (bounds lo hi)).Reads
    (.leaf { type := some .number, minimum := lo, maximum := hi }) := by
  cases lo <;> cases hi <;> rfl

theorem reads_list {item : TypeExpr} {i : Schema} (h : item.Reads i) (form : ListForm)
    (lo hi : Option Int) : ((list form item).annotate (lengths lo hi)).Reads
      (.node { type := some .array, minItems := lo, maxItems := hi } (some i) none none) := by
  have hkinds : ∀ c ∈ (Reading.ofMetadata none none (lengths lo hi)).checks,
      c.kind ∈ Check.ofArray := by
    cases lo <;> cases hi <;> simp [Reading.ofMetadata, lengths, Meta.flattenAll, Meta.flatten,
      Reading.step, Restriction.checks, Check.ofArray]
  cases lo <;> cases hi <;> exact Schema.ofNode_array.2 ⟨hkinds, i, _, _, h, rfl, rfl, rfl⟩

theorem reads_union {ms : List TypeExpr} {ss : List Schema} (hms : ∀ m ∈ ms, m.isNull = false)
    (hlen : 2 ≤ ms.length) (h : List.Forall₂ Reads ms ss) :
    (union ms).Reads (.node {} none none (some ss)) := by
  have hself : ms.filter (fun m => !m.isNull) = ms := by
    rw [List.filter_eq_self]
    simpa using hms
  have hnone : ms.any TypeExpr.isNull = false := by simpa using hms
  unfold Reads Node.ofType
  rw [Node.read_variants (by rw [hself]; omega), hself, hnone]
  refine Schema.ofNode_union.2 ⟨rfl, ss, ?_, rfl⟩
  rw [Schema.ofVariants_ok, List.forall₂_map_left_iff]
  exact h

/-! ## Fields and records -/

theorem lastDescription_ne_empty {ms : List Meta} (hms : ∀ m ∈ ms, Plain m) :
    nonEmpty (lastDescription ms) = lastDescription ms := by
  induction ms using List.reverseRecOn with
  | nil => rfl
  | append_singleton ms m ih =>
    obtain ⟨hinit, hm⟩ := List.forall_mem_append.1 hms
    cases List.forall_mem_singleton.1 hm with
    | restriction r => rw [lastDescription_concat_restriction, ih hinit]
    | description hd => simp [lastDescription_concat_description, nonEmpty, hd]

/-- Plain metadata says the description that it ends with, and its restrictions. -/
theorem foldl_step_plain {ms : List Meta} (hms : ∀ m ∈ ms, Plain m) :
    (Meta.flattenAll ms).foldl Reading.step {} =
      { description := lastDescription ms
        checks := (Reading.restrictions ms).flatMap Restriction.checks } := by
  induction ms using List.reverseRecOn with
  | nil => rfl
  | append_singleton ms m ih =>
    obtain ⟨hinit, hm⟩ := List.forall_mem_append.1 hms
    rw [flattenAll_append, List.foldl_append, ih hinit, Reading.restrictions_append]
    cases List.forall_mem_singleton.1 hm with
    | restriction r =>
      rw [lastDescription_concat_restriction]
      simp [Meta.flattenAll, Meta.flatten, Reading.step, restrictionsOf, Reading.restrictions]
    | description hd =>
      rw [lastDescription_concat_description]
      simp [Meta.flattenAll, Meta.flatten, Reading.step, restrictionsOf, Reading.restrictions,
        nonEmpty, hd, FieldSpec.restrictions, namedRestrictions]

theorem foldl_step_ofField {ms : List Meta} (hms : ∀ m ∈ ms, Plain m) :
    (Meta.flattenAll (ms.flatMap Meta.ofField)).foldl Reading.step {} =
      { checks := (Reading.restrictions ms).flatMap Restriction.checks } := by
  induction ms using List.reverseRecOn with
  | nil => rfl
  | append_singleton ms m ih =>
    obtain ⟨hinit, hm⟩ := List.forall_mem_append.1 hms
    rw [List.flatMap_append, flattenAll_append, List.foldl_append, ih hinit,
      Reading.restrictions_append]
    cases List.forall_mem_singleton.1 hm with
    | restriction r =>
      simp [Meta.ofField, Meta.flattenAll, Meta.flatten, Reading.step, restrictionsOf,
        Reading.restrictions]
    | description hd =>
      simp [Meta.ofField, Meta.flattenAll, Meta.flatten, restrictionsOf, Reading.restrictions,
        FieldSpec.restrictions, namedRestrictions]

/-- A type that becomes that of a field is read as before: what was its metadata is read as that of
the field. -/
theorem Reads.field {t : TypeExpr} {s : Schema} (h : t.Reads s) (ht : Regular t)
    {f : Field × TypeExpr} {required : List String} {name key : String}
    (hf : f = fieldOfProperty required name key t) :
    Schema.ofNode (Node.read f.1.description f.1.metadata f.1.discriminator f.2) = .ok s := by
  obtain ⟨-, hn, hms⟩ := ht.core
  have hreading : Reading.ofMetadata (lastDescription t.metadata) none
      (t.metadata.flatMap Meta.ofField) = Reading.ofMetadata none none t.metadata := by
    unfold Reading.ofMetadata
    rw [foldl_step_plain hms, foldl_step_ofField hms, lastDescription_ne_empty hms]
    simp [nonEmpty]
  rw [hf, fieldOfProperty_eq ht]
  rw [Reads, Node.ofType, Node.read_core, List.append_nil] at h
  rw [← h]
  exact congrArg _ (Node.read_congr hn hreading)

theorem reads_record (name : String) {fields : List (Field × TypeExpr)}
    {ps : List (String × Schema)} (h : List.Forall₂ (fun f p => f.1.wireName = p.1 ∧
      Schema.ofNode (Node.read f.1.description f.1.metadata f.1.discriminator f.2) = .ok p.2)
        fields ps)
    (hnames : (ps.map (·.1)).Nodup) :
    (record name none fields).Reads (.node
      { type := some .object
        required := some ((fields.filter fun f => !f.1.isOptional).map fun f => f.1.wireName)
        propertyOrdering := some (ps.map (·.1)) } none (some ps) none) := by
  have hps : Schema.ofFields (Node.readFields fields) = .ok ps := by
    rw [Schema.ofFields_ok, Node.readFields_eq, List.forall₂_map_left_iff]
    refine h.imp ?_
    rintro f p ⟨hname, hp⟩
    exact ⟨hname, by rw [Node.asField, Schema.ofNode_withHead_isOptional, hp]⟩
  unfold Reads Node.ofType
  rw [Node.read]
  refine Schema.ofNode_object.2 ⟨rfl, ps, hps, ?_⟩
  rw [dictOfList_eq_self hnames, ← Node.required_readFields]
  rfl

/-- The docstring of a record is its description, cleaned. -/
theorem Reads.document {name : String} {fields : List (Field × TypeExpr)} {s : Schema}
    (h : (record name none fields).Reads s) {d : String} (hd : d ≠ "")
    (hclean : Text.cleanDocstring d = d) :
    (record name (some d) fields).Reads (s.withDescription d) := by
  have hread : Node.ofType (.record name (some d) fields) =
      (Node.ofType (.record name none fields)).describe d := by
    unfold Node.ofType
    rw [Node.read, Node.read]
    simp [Node.describe, Node.withHead, Node.head, Node.recordHead, Reading.ofMetadata, nonEmpty,
      Meta.flattenAll, hd, hclean]
  rw [Reads, hread]
  exact Node.ofNode_describe hd h

end TypeExpr

end TypeWire
