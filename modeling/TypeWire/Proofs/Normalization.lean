import TypeWire.Proofs.CanonicalIdentity
import TypeWire.Proofs.NormalType

/-!
# One round trip normalises

Wire data is rebuilt into a normal type, and a normal type is read back as a canonical schema
(`TypeExpr.Normal.settled`), which a second round trip leaves as it is (`rebuildWire_idempotent`).

The induction over the normal type carries more than that. A schema of a union is canonical if no two
members are rebuilt into equal types, so `TypeExpr.Settled` says that the schema is rebuilt into the
very type that it was read from, as far as that type can equal any: names of records apart, and records
equal no type.
-/

namespace TypeWire

/-! ## Schemas with a description, and with null -/

namespace Schema

variable {s : Schema} {clear : Prop}

theorem facets_withDescription (s : Schema) (d : String) :
    (s.withDescription d).facets = { s.facets with description := some d } := by
  cases s
  rfl

theorem Realizable.withDescription (h : s.Realizable clear) (d : String) :
    (s.withDescription d).Realizable clear := by
  obtain ⟨hmembers, hitems, hproperties, hrecord⟩ := h
  exact .node hmembers hitems hproperties hrecord

theorem Realizable.withNull (h : s.Realizable clear) : s.withNull.Realizable clear := by
  obtain ⟨hmembers, hitems, hproperties, hrecord⟩ := h
  exact .node hmembers hitems hproperties hrecord

theorem Buildable.withDescription (h : s.Buildable) (d : String) :
    (s.withDescription d).Buildable := by
  obtain ⟨hmembers, hitems, hbounds, hlengths⟩ := h
  exact .node hmembers hitems hbounds hlengths

theorem Buildable.withNull (h : s.Buildable) : s.withNull.Buildable := by
  obtain ⟨hmembers, hitems, hbounds, hlengths⟩ := h
  exact .node hmembers hitems hbounds hlengths

theorem Canonical.withDescription (h : s.Canonical) {d : String} (hd : d ≠ "")
    (hclean : Text.cleanDocstring d = d) : (s.withDescription d).Canonical := by
  cases h with
  | @node f _ _ _ _ _ hshape _ hnullable _ =>
    refine .node (f := f) hshape (by simpa using hd) hnullable ?_
    rintro - _ ⟨⟩
    exact hclean

theorem Canonical.withNull (h : s.Canonical) : s.withNull.Canonical := by
  cases h with
  | @node f _ _ _ _ _ hshape hdescription _ hdoc =>
    exact .node (f := f) hshape hdescription (by simp) hdoc

end Schema

namespace TypeExpr

/-- Null is added to the type last. -/
theorem exists_ofSchema_nullable (name : String) (f : Facets) (items : Option Schema)
    (properties : Option (List (String × Schema))) (anyOf : Option (List Schema)) :
    ∃ made : Except SchemaError TypeExpr, ∀ nullable,
      ofSchema name (.node { f with nullable } items properties anyOf) =
        made >>= fun t => pure (t.orNull nullable) := by
  rcases members_cases anyOf with ⟨m, ms, rfl⟩ | hnil
  · refine ⟨ofSchema (name ++ "_0") m >>= fun t => ofMembers name 1 ms >>= fun ts =>
      pure ((unionOf (t :: ts)).described f.description []), fun nullable => ?_⟩
    rw [ofSchema_union]
    simp only [bind_assoc, pure_bind]
  rcases f.type with _ | _ | _ | _ | _ | _ | _
  case none => exact ⟨.error .untyped, fun nullable => ofSchema_untyped hnil rfl⟩
  case some.string => exact ⟨.ok (ofStringSchema f), fun nullable => ofSchema_text hnil rfl⟩
  case some.number =>
    exact ⟨.ok (ofNumberSchema .float f), fun nullable => ofSchema_number hnil rfl⟩
  case some.integer =>
    exact ⟨.ok (ofNumberSchema .int f), fun nullable => ofSchema_integer hnil rfl⟩
  case some.boolean =>
    exact ⟨.ok ((scalar .bool).described f.description []),
      fun nullable => ofSchema_boolean hnil rfl⟩
  case some.array =>
    cases items with
    | none => exact ⟨.error .undescribedItems, fun nullable => ofSchema_undescribed hnil rfl⟩
    | some i =>
      refine ⟨ofSchema (name ++ "_item") i >>= fun item => pure (ofArraySchema item f),
        fun nullable => ?_⟩
      rw [ofSchema_array hnil rfl]
      simp only [bind_assoc, pure_bind]
      rfl
  case some.object =>
    refine ⟨ofProperties name (properties.getD []) >>= fun types => recordOf name f types,
      fun nullable => ?_⟩
    rw [ofSchema_object hnil rfl, bind_assoc]
    rfl

/-- A schema that is made nullable is rebuilt into the type with null. -/
theorem ofSchema_withNull {s : Schema} (hs : s.facets.nullable = none) {name : String}
    {t : TypeExpr} (h : ofSchema name s.withNull = .ok t) :
    ∃ base, ofSchema name s = .ok base ∧ t = base.optionalOf := by
  cases s with
  | node f items properties anyOf =>
    obtain ⟨made, hmade⟩ := exists_ofSchema_nullable name f items properties anyOf
    have hnull : f.nullable = none := hs
    rw [Schema.withNull, Schema.mapFacets, hmade] at h
    obtain ⟨base, rfl, h⟩ := isOk_bind.1 h
    cases h
    refine ⟨base, ?_, if_pos rfl⟩
    refine (hmade f.nullable).trans ?_
    rw [hnull]
    rfl

/-! ## Types that equal themselves -/

/-- A regular type that equals another one equals itself. Types with descriptions do not. -/
theorem Regular.equals_self {a b : TypeExpr} (ha : Regular a) (hb : Regular b)
    (h : a.equals b = true) : a.equals a = true := by
  obtain ⟨hsymm, htrans⟩ := ha.interchangeable b hb h
  exact htrans a ha hsymm

theorem equals_self_annotate {t : TypeExpr} (ht : t.isAnnotated = false) {ms : List Meta}
    (h : (t.annotate ms).equals (t.annotate ms) = true) : t.equals t = true := by
  cases ms with
  | nil => exact h
  | cons m ms =>
    rw [annotate_cons] at h
    obtain ⟨base, ns, heq, hbase, -⟩ := equals_annotated.1 h
    cases heq
    cases t with
    | annotated => cases ht
    | _ => exact hbase

theorem equals_self_members {ts : List TypeExpr} (hts : ∀ t ∈ ts, Regular t)
    (h : (union ts).equals (union ts) = true) : ∀ t ∈ ts, t.equals t = true := by
  obtain ⟨us, heq, -, hwithin⟩ := equals_union.1 h
  cases heq
  intro t ht
  obtain ⟨u, hu, htu⟩ := hwithin t ht
  exact (hts t ht).equals_self (hts u hu) htu

theorem equals_self_optionalOf {t : TypeExpr} (ht : Regular t) (hproper : t.IsProper)
    (h : t.optionalOf.equals t.optionalOf = true) : t.equals t = true := by
  rw [optionalOf_eq ht hproper.1 hproper.2] at h
  have hregular : ∀ m ∈ t.members ++ [.null], Regular m :=
    List.forall_mem_append.2 ⟨ht.members, List.forall_mem_singleton.2 .null⟩
  have hself := (List.forall_mem_append.1 (equals_self_members hregular h)).1
  cases t with
  | union ms => exact equals_union.2 ⟨ms, rfl, rfl, fun m hm => ⟨m, hm, hself m hm⟩⟩
  | _ => exact hself _ (List.mem_singleton_self _)

/-- A field specification equals none, not even itself, so neither does a type with a description. -/
theorem equals_of_field {t : TypeExpr} {spec : FieldSpec} (h : .field spec ∈ t.metadata)
    (u : TypeExpr) : t.equals u = false := by
  cases t with
  | annotated base ms =>
    rw [← Bool.not_eq_true]
    intro heq
    obtain ⟨base', ns, rfl, -, hall⟩ := equals_annotated.1 heq
    exact (not_field_of_allEqual hall spec).1 h
  | _ => cases h

theorem mem_metadata_described (t : TypeExpr) {d : String} (hd : d ≠ "") (ms : List Meta) :
    .field { description := some (some d) } ∈ (t.described (some d) ms).metadata := by
  unfold described withDescription
  rw [nonEmpty_of_ne hd]
  cases ms with
  | nil => simp [annotate_cons, metadata]
  | cons m ms => simp [annotate_cons, metadata]

/-- No type equals one that is rebuilt with a description. -/
theorem Rebuilt.equals_of_description {name : String} {f : Facets} {items : Option Schema}
    {properties : Option (List (String × Schema))} {anyOf : Option (List Schema)} {t : TypeExpr}
    (h : Rebuilt name f items properties anyOf t) {d : String} (hd : d ≠ "")
    (hf : f.description = some d) (u : TypeExpr) : t.equals u = false := by
  have hdescribed (b : TypeExpr) (ms : List Meta) :
      (b.described f.description ms).equals u = false := by
    rw [hf]
    exact equals_of_field (mem_metadata_described b hd ms) u
  cases h with
  | text =>
    by_cases henum : f.enum.getD [] = []
    · rw [ofStringSchema_plain henum]
      exact hdescribed _ _
    · rw [ofStringSchema_enum henum]
      exact hdescribed _ _
  | union | number | integer | boolean | array => exact hdescribed _ _
  | object _ _ _ hrec =>
    obtain ⟨-, -, rfl⟩ := recordOf_ok.1 hrec
    simp [equals]

/-! ## Normal types are read back as canonical schemas -/

/-- A type is read back as a canonical schema whose records can be made. The schema is rebuilt into
the type again, if what it is rebuilt into equals itself. -/
structure Settled (clear : Prop) (t : TypeExpr) (s : Schema) : Prop where
  reads : t.Reads s
  canonical : s.Canonical
  realizable : s.Realizable clear
  buildable : t.HasValidator → s.Buildable
  determined : ∀ {name : String} {u : TypeExpr}, ofSchema name s = .ok u → u.equals u = true → u = t
  nullable : t.IsProper → s.facets.nullable = none
  anyOf : t.IsAtom → s.anyOf = none ∨ s.facets.description ≠ none

section settled
variable {clear : Prop} {t : TypeExpr} {s : Schema}

theorem settled_leaf {f : Facets} (hshape : Schema.Shape Schema.Canonical f none none none)
    (htype : f.type ≠ some .object) (hreads : t.Reads (.leaf f))
    (hbuildable : t.HasValidator → (Schema.leaf f).Buildable)
    (hof : ∀ name, ofSchema name (.leaf f) = .ok t) : Settled clear t (.leaf f) where
  reads := hreads
  canonical := hshape.canonical
  realizable := Schema.realizable_leaf htype
  buildable := hbuildable
  determined {name u} hu _ := by
    rw [hof name] at hu
    exact (Except.ok.inj hu).symm
  nullable _ := hshape.nullable_eq
  anyOf _ := .inl rfl

theorem settled_literal {texts : List String} (hne : texts ≠ []) (hnodup : texts.Nodup) :
    Settled clear (literal (texts.map .str))
      (.leaf { type := some .string, enum := some texts }) := by
  refine settled_leaf (.enumeration hne hnodup) (by simp) (reads_literal hne)
    (fun _ => Schema.buildable_leaf (by simp) (by simp)) fun name => ?_
  obtain ⟨kept, heq, -, -, hself⟩ := literalOf_str texts
  obtain rfl := hself hnodup
  have hof : ofStringSchema { type := some .string, enum := some kept } =
      literal (kept.map .str) := by
    rw [ofStringSchema_enum (f := { type := some .string, enum := some kept }) hne, Option.getD_some,
      heq]
    rfl
  rw [← hof]
  rfl

theorem settled_bounded {a : Scalar} (ha : a = .int ∨ a = .float) (lo hi : Option Float) :
    ∃ s, Settled clear ((scalar a).annotate (bounds lo hi)) s := by
  rcases ha with rfl | rfl
  · refine ⟨_, settled_leaf (.integer lo hi) (by simp) (reads_int lo hi) (fun h => ?_)
      fun _ => ofSchema_integer rfl rfl⟩
    exact Schema.buildable_leaf (by simp) fun _ =>
      (hasValidator_ofNumberSchema_int { minimum := lo, maximum := hi }).1 h
  · exact ⟨_, settled_leaf (.number lo hi) (by simp) (reads_float lo hi)
      (fun _ => Schema.buildable_leaf (by simp) (by simp)) fun _ => ofSchema_number rfl rfl⟩

theorem Settled.sized (h : Settled clear t s) (lo hi : Option Int) :
    Settled clear ((list .builtin t).annotate (lengths lo hi))
      (.node { type := some .array, minItems := lo, maxItems := hi } (some s) none none) where
  reads := reads_list h.reads .builtin lo hi
  canonical := Schema.Shape.canonical (.array lo hi h.canonical)
  realizable := .node (by simp) (by simpa using h.realizable) (by simp) (by simp)
  buildable hv := by
    obtain ⟨hitem, hlengths⟩ :=
      (hasValidator_ofArraySchema t { minItems := lo, maxItems := hi }).1 hv
    exact .node (by simp) (by simpa using h.buildable hitem) (by simp) (fun _ _ => hlengths)
  determined {name u} hu hself := by
    rw [ofSchema_array rfl rfl] at hu
    obtain ⟨item, hitem, hok⟩ := isOk_bind.1 hu
    obtain rfl := Except.ok.inj hok
    have hlist : (list .builtin item).equals (list .builtin item) = true :=
      @equals_self_annotate _ rfl (lengths lo hi) hself
    obtain ⟨item', heq, hitemself⟩ := equals_list.1 hlist
    cases heq
    obtain rfl := h.determined hitem hitemself
    rfl
  nullable _ := rfl
  anyOf _ := .inl rfl

/-- A description is put around a type and taken into the schema. -/
theorem Settled.describe (h : Settled clear t s) (ht : Regular t) (hproper : t.IsProper) {d : String}
    (hd : d ≠ "") (hclean : Text.cleanDocstring d = d) :
    Settled clear (t.annotate [.field { description := some (some d) }]) (s.withDescription d) where
  reads := h.reads.describe ht hd
  canonical := h.canonical.withDescription hd hclean
  realizable := h.realizable.withDescription d
  buildable hv := by
    rw [← described_some t hd, (alike_described_nil _ _).1] at hv
    exact (h.buildable hv).withDescription d
  determined {name u} hu hself := by
    cases s with
    | node f items properties anyOf =>
      have hnull : f.nullable = none := h.nullable hproper
      obtain ⟨base, hbase, rfl⟩ := ofSchema_cases hu
      have hbare : base.orNull f.nullable = base := by rw [hnull]; rfl
      replace hself : (base.orNull f.nullable).equals (base.orNull f.nullable) = true := hself
      rw [hbare, hbase.equals_of_description hd rfl] at hself
      cases hself
  nullable _ := by
    rw [Schema.facets_withDescription]
    exact h.nullable hproper
  anyOf _ := by
    rw [Schema.facets_withDescription]
    exact .inr (by simp)

/-- Null is put around a type and taken into the schema. -/
theorem Settled.optional (h : Settled clear t s) (ht : Regular t) (hproper : t.IsProper) :
    Settled clear t.optionalOf s.withNull where
  reads := h.reads.optionalOf ht hproper.1 hproper.2
  canonical := h.canonical.withNull
  realizable := h.realizable.withNull
  buildable hv := (h.buildable (ht.takes_optionalOf.1.1 hv)).withNull
  determined {name u} hu hself := by
    obtain ⟨base, hbase, rfl⟩ := ofSchema_withNull (h.nullable hproper) hu
    have hbaseproper := isProper_ofSchema h.canonical (h.nullable hproper) hbase
    have hbaseself := equals_self_optionalOf (regular_ofSchema hbase) hbaseproper hself
    rw [h.determined hbase hbaseself]
  nullable hopt := absurd hopt (not_isProper_optionalOf ht hproper)
  anyOf hopt := absurd hopt.isProper (not_isProper_optionalOf ht hproper)

/-- Types that are not equal are read back as schemas that are rebuilt into types that are not. -/
theorem Settled.apart (h : Settled clear t s) (ht : Regular t) {t' : TypeExpr} {s' : Schema}
    (h' : Settled clear t' s') (ht' : Regular t') (hne : t'.equals t = false) :
    Schema.Apart s s' := by
  intro n n' u u' hu hu'
  have hru := regular_ofSchema hu
  have hru' := regular_ofSchema hu'
  rw [← Bool.not_eq_true]
  intro heq
  have hsymm := hru.equals_symm hru' heq
  obtain rfl := h.determined hu (hru.equals_self hru' heq)
  obtain rfl := h'.determined hu' (hru'.equals_self hru hsymm)
  rw [hne] at hsymm
  cases hsymm

/-- Schemas of types that differ are apart, since they are rebuilt into these types if into any that
equal themselves. -/
theorem pairwise_apart_of_settled {ts : List TypeExpr} {ss : List Schema}
    (h : List.Forall₂ (Settled clear) ts ss) (hregular : ∀ t ∈ ts, Regular t)
    (hapart : ts.Pairwise (fun a b => b.equals a = false)) : ss.Pairwise Schema.Apart := by
  refine pairwise_of_forall₂ ((List.forall₂_and_left _ _).2 ⟨hregular, h⟩) hapart ?_
  rintro t t' s s' hne ⟨ht, hs⟩ ⟨ht', hs'⟩
  exact hs.apart ht hs' ht' hne

/-- Schemas that types are read back as are rebuilt into the types, if they are rebuilt into types that
equal themselves. -/
theorem eq_of_rebuilt {name : String} {ts us : List TypeExpr} {ss : List Schema}
    (h : List.Forall₂ (Settled clear) ts ss) (hus : List.Forall₂ (IsRebuilt name) ss us)
    (hself : ∀ u ∈ us, u.equals u = true) : us = ts := by
  have hpairs := (List.forall₂_and_left _ _).2 ⟨hself, (forall₂_join h.flip hus).flip⟩
  have hsame : List.Forall₂ (· = ·) us ts := by
    refine hpairs.imp ?_
    rintro u t ⟨huself, s, -, hs, n, -, hu⟩
    exact hs.determined hu huself
  rwa [List.forall₂_eq_eq_eq] at hsame

/-- The union of settled types that differ is settled. -/
theorem settled_union {ts : List TypeExpr} {ss : List Schema} (hlen : 2 ≤ ts.length)
    (hapart : ts.Pairwise (fun a b => b.equals a = false)) (hatoms : ∀ t ∈ ts, t.IsAtom)
    (hregular : ∀ t ∈ ts, Regular t) (h : List.Forall₂ (Settled clear) ts ss) :
    Settled clear (union ts) (.node {} none none (some ss)) := by
  have hlength : 2 ≤ ss.length := h.length_eq ▸ hlen
  have heach : ∀ m ∈ ss, ∃ t ∈ ts, Settled clear t m := exists_of_forall₂ h
  have hcanonical : ∀ m ∈ ss, m.Canonical := by
    intro m hm
    obtain ⟨t, -, ht⟩ := heach m hm
    exact ht.canonical
  have hnullable : ∀ m ∈ ss, m.facets.nullable = none := by
    intro m hm
    obtain ⟨t, ht, hs⟩ := heach m hm
    exact hs.nullable (hatoms t ht).isProper
  have hanyOf : ∀ m ∈ ss, m.anyOf = none ∨ m.facets.description ≠ none := by
    intro m hm
    obtain ⟨t, ht, hs⟩ := heach m hm
    exact hs.anyOf (hatoms t ht)
  have hschemas : ss.Pairwise Schema.Apart := pairwise_apart_of_settled h hregular hapart
  refine
    { reads := reads_union (fun t ht => (hatoms t ht).2) hlen (h.imp fun _ _ hs => hs.reads)
      canonical := Schema.Shape.canonical (.union hlength hcanonical hnullable hanyOf hschemas)
      realizable := ?realizable
      buildable := ?buildable
      determined := ?determined
      nullable := fun _ => rfl
      anyOf := ?anyOf }
  case realizable =>
    refine .node (fun m hm => ?_) (by simp) (by simp) (by simp)
    obtain ⟨t, -, ht⟩ := heach m hm
    exact ht.realizable
  case buildable =>
    intro hv
    rw [hasValidator_union] at hv
    refine .node (fun m hm => ?_) (by simp) (by simp) (by simp)
    obtain ⟨t, htmem, ht⟩ := heach m hm
    exact ht.buildable (hv t htmem)
  case determined =>
    intro name u hu hself
    obtain ⟨base, hbase, rfl⟩ := ofSchema_cases hu
    cases hbase with
    | @union _ _ m ms us hus =>
      obtain ⟨-, heq⟩ := unionOf_canonical hlength hcanonical hnullable hanyOf hschemas hus
      replace hself : (unionOf us).equals (unionOf us) = true := hself
      show unionOf us = union ts
      rw [heq] at hself ⊢
      -- Each member of the union that is rebuilt equals itself, so it is the member it came from.
      rw [eq_of_rebuilt h hus (equals_self_members (regular_members hus) hself)]
    | text _ ht | number _ ht | integer _ ht | boolean _ ht | object _ ht => cases ht
  case anyOf =>
    intro hatom
    have hone : ts = [union ts] := hatom.1
    rw [hone] at hlen
    simp at hlen

/-- The fields of a record are read back as properties with canonical schemas, under names of which
none is empty and none is there twice. -/
theorem exists_properties (required : List String) {types : List (String × TypeExpr)}
    (hkeys : (types.map (·.1)).Nodup) (hvalid : ∀ q ∈ types, q.2.HasValidator)
    (hregular : ∀ q ∈ types, Regular q.2)
    (h : ∀ q ∈ types, ∃ s, Settled (clear ∧ Clear q.1) q.2 s) :
    ∃ ps : List (String × Schema),
      List.Forall₂ (fun f p => f.1.wireName = p.1 ∧ Schema.ofNode
        (Node.read f.1.description f.1.metadata f.1.discriminator f.2) = .ok p.2)
        (fieldsOf required types) ps ∧ (ps.map (·.1)).Nodup ∧
      ∀ p ∈ ps, p.1 ≠ "" ∧ p.2.Canonical ∧ p.2.Realizable (clear ∧ Clear p.1) ∧ p.2.Buildable := by
  have hwire := isWireName_fieldsOf required hregular
  have hnodup : ((fieldsOf required types).map fun f => f.1.wireName).Nodup :=
    nodup_wireNames hregular hkeys
  have hparts : ∀ f ∈ fieldsOf required types, ∃ p : String × Schema, (f.1.wireName = p.1 ∧
      Schema.ofNode (Node.read f.1.description f.1.metadata f.1.discriminator f.2) = .ok p.2) ∧
      p.1 ≠ "" ∧ p.2.Canonical ∧ p.2.Realizable (clear ∧ Clear p.1) ∧ p.2.Buildable := by
    intro f hf
    obtain ⟨q, hq, ⟨fieldName, hfield⟩, hname⟩ := exists_of_forall₂ hwire f hf
    obtain ⟨s, hs⟩ := h q hq
    refine ⟨(f.1.wireName, s), ⟨rfl, hs.reads.field (hregular q hq) hfield⟩, hname.ne_empty,
      hs.canonical, ?_, hs.buildable (hvalid q hq)⟩
    rw [hname.clear]
    exact hs.realizable
  obtain ⟨ps, hps⟩ := exists_forall₂ hparts
  have hsame : (fieldsOf required types).map (fun f => f.1.wireName) = ps.map (·.1) :=
    map_eq_of_forall₂ hps fun _ _ hp => hp.1.1
  refine ⟨ps, hps.imp fun _ _ hp => hp.1, hsame ▸ hnodup, fun p hp => ?_⟩
  obtain ⟨f, -, -, hfacts⟩ := exists_of_forall₂ hps p hp
  exact hfacts

/-- A record of settled types is settled. -/
theorem settled_record (name : String) {doc : Option String} (required : List String)
    {types : List (String × TypeExpr)} (hclear : clear) (hkeys : (types.map (·.1)).Nodup)
    (hvalid : ∀ q ∈ types, q.2.HasValidator)
    (hdoc : ∀ d ∈ doc, d ≠ "" ∧ Text.cleanDocstring d = d) (hregular : ∀ q ∈ types, Regular q.2)
    (h : ∀ q ∈ types, ∃ s, Settled (clear ∧ Clear q.1) q.2 s) :
    ∃ s, Settled clear (.record name doc (fieldsOf required types)) s := by
  obtain ⟨ps, hps, hnodup, hall⟩ := exists_properties required hkeys hvalid hregular h
  generalize fieldsOf required types = fields at hps ⊢
  have hread := reads_record name hps hnodup
  have hsub : ((fields.filter fun f => !f.1.isOptional).map fun f => f.1.wireName).Sublist
      (ps.map (·.1)) := by
    rw [← map_eq_of_forall₂ hps fun _ _ hp => hp.1]
    exact List.filter_sublist.map _
  generalize (fields.filter fun f => !f.1.isOptional).map (fun f => f.1.wireName) = req
    at hread hsub
  have hshape : Schema.Shape Schema.Canonical
      { type := some .object, required := some req, propertyOrdering := some (ps.map (·.1)) } none
      (some ps) none :=
    .object (fun p hp => (hall p hp).2.1) (fun p hp => (hall p hp).1) hnodup hsub
  refine ⟨.node { type := some .object, required := some req
                  propertyOrdering := some (ps.map (·.1)), description := doc } none (some ps) none,
    { reads := ?reads
      canonical := ?canonical
      realizable := .node (by simp) (by simp) (fun _ _ p hp => (hall p hp).2.2.1)
        fun _ _ => ⟨hclear, fun p hp => (hall p hp).2.2.2⟩
      buildable := fun _ => .node (by simp) (by simp) (by simp) (by simp)
      determined := ?determined
      nullable := fun _ => rfl
      anyOf := fun _ => .inl rfl }⟩
  case reads =>
    cases doc with
    | none => exact hread
    | some d => exact hread.document (hdoc d rfl).1 (hdoc d rfl).2
  case canonical =>
    refine .node hshape ?_ (by simp) fun _ d hd => (hdoc d hd).2
    rintro rfl
    exact (hdoc "" rfl).1 rfl
  case determined =>
    -- A record equals no type, so not itself.
    intro n u hu hself
    obtain ⟨base, hbase, rfl⟩ := ofSchema_cases hu
    cases hbase with
    | object _ _ _ hrec =>
      obtain ⟨-, -, rfl⟩ := recordOf_ok.1 hrec
      cases hself
    | text _ ht | number _ ht | integer _ ht | boolean _ ht => cases ht

end settled

/-- A normal type is read back as a canonical schema, which is rebuilt into the type. -/
theorem Normal.settled {clear : Prop} {t : TypeExpr} (h : Normal clear t) :
    ∃ s, Settled clear t s := by
  induction h with
  | text =>
    exact ⟨_, settled_leaf .text (by simp) reads_text
      (fun _ => Schema.buildable_leaf (by simp) (by simp)) fun _ => rfl⟩
  | datetime =>
    exact ⟨_, settled_leaf .datetime (by simp) reads_datetime
      (fun _ => Schema.buildable_leaf (by simp) (by simp)) fun _ => rfl⟩
  | bool =>
    exact ⟨_, settled_leaf .boolean (by simp) reads_bool
      (fun _ => Schema.buildable_leaf (by simp) (by simp)) fun _ => rfl⟩
  | literal hne hnodup => exact ⟨_, settled_literal hne hnodup⟩
  | bounded lo hi ha => exact settled_bounded ha lo hi
  | sized lo hi _ ih =>
    obtain ⟨s, hs⟩ := ih
    exact ⟨_, hs.sized lo hi⟩
  | record hclear hkeys hvalid hdoc htypes ih =>
    exact settled_record _ _ hclear hkeys hvalid hdoc (fun q hq => (htypes q hq).regular) ih
  | described ht hproper hd hclean ih =>
    obtain ⟨s, hs⟩ := ih
    exact ⟨_, hs.describe ht.regular hproper hd hclean⟩
  | union hlen hapart hatoms hts ih =>
    obtain ⟨ss, hss⟩ := exists_forall₂ ih
    exact ⟨_, settled_union hlen hapart hatoms (fun t ht => (hts t ht).regular) hss⟩
  | optional ht hproper ih =>
    obtain ⟨s, hs⟩ := ih
    exact ⟨_, hs.optional ht.regular hproper⟩

end TypeExpr

/-- What becomes of a steady schema is canonical, and its records can be made. -/
theorem Schema.Steady.canonical_rebuild {s s' : Schema} (hs : s.Steady) (hk : s.Keyed)
    {name : String} (h : s.rebuild name = .ok s') :
    s'.Canonical ∧ s'.Realizable (TypeExpr.Clear name) := by
  obtain ⟨t, ht, hreads⟩ := Schema.rebuild_ok.1 h
  obtain ⟨hnormal, -⟩ := TypeExpr.normal_ofSchema hs hk ht
  obtain ⟨s'', hsettled⟩ := hnormal.settled
  have hsame : s'' = s' := Except.ok.inj (hsettled.reads.symm.trans hreads)
  rw [← hsame]
  exact ⟨hsettled.canonical, hsettled.realizable⟩

/-- What becomes of wire data becomes itself again, if the wire data is steady. -/
theorem rebuildWire_idempotent {name : String} {w w' : Value} {s : Schema}
    (hw : Schema.decode w = .ok s) (hs : s.Steady) (h : rebuildWire name w = .ok w') :
    rebuildWire name w' = .ok w' := by
  obtain ⟨s₀, s', hdecode, hrebuild, rfl⟩ := rebuildWire_ok.1 h
  have hsame : s₀ = s := Except.ok.inj (hdecode.symm.trans hw)
  rw [hsame] at hrebuild
  obtain ⟨hcanonical, hrealizable⟩ := hs.canonical_rebuild (Schema.keyed_decode hw) hrebuild
  exact rebuildWire_ok.2 ⟨s', s', Schema.decode_encode hcanonical.legible,
    hcanonical.rebuild_eq hrealizable, rfl⟩

/-- An amount in wire data: a text or a whole number. One member is there twice, with a format that
says nothing, another is a union of its own, and the type beside the members is ignored. -/
def amount : Value :=
  .dict [(.str "type", .str "object"), (.str "description", .str "An amount"),
    (.str "anyOf", .list [.dict [(.str "type", .str "STRING"), (.str "format", .str "uuid")],
      .dict [(.str "type", .str "STRING")],
      .dict [(.str "anyOf", .list [.dict [(.str "type", .str "INTEGER")]])]])]

def amountSchema : Schema :=
  .node { type := some .object, description := some "An amount" } none none
    (some [.leaf { type := some .string, format := some "uuid" }, .leaf { type := some .string },
      .node {} none none (some [.leaf { type := some .integer }])])

theorem decode_amount : Schema.decode amount = .ok amountSchema := rfl

theorem steady_amountSchema : amountSchema.Steady := by
  have hleaf (f : Facets) (hf : f.description = none) : (Schema.leaf f).Steady :=
    .node (by simp [hf]) (by simp) (by simp) (by simp) (by simp)
  refine .node ?_ ?_ (by simp) (by simp) ?_
  · rintro d ⟨⟩
    decide +kernel
  · simp [Schema.leaf, Schema.facets]
  · rw [Option.getD_some, List.forall_mem_cons, List.forall_mem_cons, List.forall_mem_singleton]
    refine ⟨hleaf _ rfl, hleaf _ rfl, .node (by simp) ?_ (by simp) (by simp) ?_⟩
    · simp [Schema.leaf, Schema.facets]
    · simpa using hleaf _ rfl

theorem amount_rebuilt : ∃ w', rebuildWire "VertexModel" amount = .ok w' ∧
    rebuildWire "VertexModel" w' = .ok w' := by
  have h : rebuildWire "VertexModel" amount = .ok (Schema.encode (.node
      { description := some "An amount" } none none
      (some [.leaf { type := some .string }, .leaf { type := some .integer }]))) := rfl
  exact ⟨_, h, rebuildWire_idempotent decode_amount steady_amountSchema h⟩

end TypeWire
