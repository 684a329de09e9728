import TypeWire.Proofs.Admission
import TypeWire.Proofs.ReadBack

/-!
# Canonical schemas

A canonical schema (`Schema.Canonical`) says what it says in the one way that the conversion of types
writes: the fields of its shape and no others, unions flat and without repetition, properties listed
in their own order.

Whether a canonical schema is rebuilt depends on the records in it alone, whose validators are built
with them (`TypeExpr.exists_ofSchema`):

* `Schema.Buildable`: the bounds and lengths of a schema can be those of a validator
  (`TypeExpr.hasValidator_iff_buildable`);
* `Schema.Realizable`: the properties of objects are buildable, and the names of records are clear. No
  schema is rebuilt that is not realizable (`TypeExpr.realizable_of_ofSchema`).
-/

namespace TypeWire

namespace Schema

open Validator (WholeBound LengthBound)

/-! ## Schemas with validators -/

/-- The bounds and lengths that count in a schema can be those of a validator. An object does not
count, since its validator is built when it is rebuilt. -/
inductive Buildable : Schema → Prop
  | node {f : Facets} {items : Option Schema} {properties : Option (List (String × Schema))}
      {anyOf : Option (List Schema)} :
      (∀ m ∈ anyOf.getD [], Buildable m) →
      (anyOf.getD [] = [] → f.type = some .array → ∀ i ∈ items, Buildable i) →
      (anyOf.getD [] = [] → f.type = some .integer →
        (∃ l, Option.Rel WholeBound f.minimum l) ∧ ∃ g, Option.Rel WholeBound f.maximum g) →
      (anyOf.getD [] = [] → f.type = some .array →
        (∃ l, Option.Rel LengthBound f.minItems l) ∧ ∃ g, Option.Rel LengthBound f.maxItems g) →
      Buildable (node f items properties anyOf)

/-- The records of a schema can be made, if `clear` says that the name so far holds no null
character: each adds its key to the name, and what is in a record is buildable. -/
inductive Realizable : Prop → Schema → Prop
  | node {clear : Prop} {f : Facets} {items : Option Schema}
      {properties : Option (List (String × Schema))} {anyOf : Option (List Schema)} :
      (∀ m ∈ anyOf.getD [], Realizable clear m) →
      (anyOf.getD [] = [] → f.type = some .array → ∀ i ∈ items, Realizable clear i) →
      (anyOf.getD [] = [] → f.type = some .object →
        ∀ p ∈ properties.getD [], Realizable (clear ∧ TypeExpr.Clear p.1) p.2) →
      (anyOf.getD [] = [] → f.type = some .object →
        clear ∧ ∀ p ∈ properties.getD [], p.2.Buildable) →
      Realizable clear (node f items properties anyOf)

theorem realizable_leaf {clear : Prop} {f : Facets} (h : f.type ≠ some .object) :
    (leaf f).Realizable clear := by
  refine .node ?_ ?_ ?_ ?_ <;> simp [h]

theorem buildable_leaf {f : Facets} (h : f.type ≠ some .array) (h' : f.type = some .integer →
    (∃ l, Option.Rel WholeBound f.minimum l) ∧ ∃ g, Option.Rel WholeBound f.maximum g) :
    (leaf f).Buildable := by
  refine .node ?_ ?_ (fun _ => h') ?_ <;> simp [h]

/-! ## Canonical schemas -/

/-- No two types that the schemas are rebuilt into are equal. Names are those of records, and no
record is equal to any type. -/
def Apart (a b : Schema) : Prop :=
  ∀ {n n' : String} {t u : TypeExpr}, TypeExpr.ofSchema n a = .ok t →
    TypeExpr.ofSchema n' b = .ok u → t.equals u = false

/-- The shapes that canonical schemas have, apart from description and null. -/
inductive Shape (canonical : Schema → Prop) : Facets → Option Schema →
    Option (List (String × Schema)) → Option (List Schema) → Prop
  | text : Shape canonical { type := some .string } none none none
  | datetime : Shape canonical { type := some .string, format := some "date-time" } none none none
  | enumeration {texts : List String} : texts ≠ [] → texts.Nodup →
      Shape canonical { type := some .string, enum := some texts } none none none
  | number (lo hi : Option Float) :
      Shape canonical { type := some .number, minimum := lo, maximum := hi } none none none
  | integer (lo hi : Option Float) :
      Shape canonical { type := some .integer, minimum := lo, maximum := hi } none none none
  | boolean : Shape canonical { type := some .boolean } none none none
  | array (lo hi : Option Int) {i : Schema} : canonical i →
      Shape canonical { type := some .array, minItems := lo, maxItems := hi } (some i) none none
  | object {required : List String} {ps : List (String × Schema)} : (∀ p ∈ ps, canonical p.2) →
      (∀ p ∈ ps, p.1 ≠ "") → (ps.map (·.1)).Nodup → required.Sublist (ps.map (·.1)) →
      Shape canonical { type := some .object, required := some required
                        propertyOrdering := some (ps.map (·.1)) } none (some ps) none
  | union {ms : List Schema} : 2 ≤ ms.length → (∀ m ∈ ms, canonical m) →
      (∀ m ∈ ms, m.facets.nullable = none) →
      (∀ m ∈ ms, m.anyOf = none ∨ m.facets.description ≠ none) → ms.Pairwise Apart →
      Shape canonical {} none none (some ms)

/-- A canonical schema: one of the shapes, with a description that is not empty or none, and null or
not. The description of an object is written as a docstring is. -/
inductive Canonical : Schema → Prop
  | node {f : Facets} {items : Option Schema} {properties : Option (List (String × Schema))}
      {anyOf : Option (List Schema)} {description : Option String} {nullable : Option Bool} :
      Shape Canonical f items properties anyOf → description ≠ some "" → nullable ≠ some false →
      (f.type = some .object → ∀ d ∈ description, Text.cleanDocstring d = d) →
      Canonical (node { f with description, nullable } items properties anyOf)

theorem Shape.canonical {f : Facets} {items : Option Schema}
    {properties : Option (List (String × Schema))} {anyOf : Option (List Schema)}
    (h : Shape Canonical f items properties anyOf) : (node f items properties anyOf).Canonical := by
  have hplain : { f with description := none, nullable := none } = f := by cases h <;> rfl
  rw [← hplain]
  exact .node h (by simp) (by simp) (by simp)

theorem Shape.nullable_eq {canonical : Schema → Prop} {f : Facets} {items : Option Schema}
    {properties : Option (List (String × Schema))} {anyOf : Option (List Schema)}
    (h : Shape canonical f items properties anyOf) : f.nullable = none := by
  cases h <;> rfl

end Schema

namespace TypeExpr

open Validator

/-! ## Types that unions take in as they are -/

/-- A type that is one member of a union and not null. -/
def IsAtom (t : TypeExpr) : Prop := t.members = [t] ∧ t.isNull = false

theorem isAtom_annotate {t : TypeExpr} (ht : t.IsAtom) (ms : List Meta) :
    (t.annotate ms).IsAtom := by
  cases ms with
  | nil => cases t <;> exact ht
  | cons m ms => rw [annotate_cons]; exact ⟨rfl, rfl⟩

theorem isAtom_described {t : TypeExpr} (ht : t.IsAtom) (description : Option String)
    (ms : List Meta) : (t.described description ms).IsAtom := by
  rcases described_cases t description ms with h | ⟨d, -, -, h⟩ <;> rw [h] <;>
    exact isAtom_annotate ht _

theorem described_some (t : TypeExpr) {d : String} (hd : d ≠ "") :
    t.described (some d) [] = t.annotate [.field { description := some (some d) }] := by
  rw [described, withDescription, nonEmpty_of_ne hd]
  rfl

theorem described_annotate {t : TypeExpr} (ht : t.isAnnotated = false) (description : Option String)
    (ms : List Meta) : t.described description ms = (t.annotate ms).described description [] := by
  unfold described withDescription
  cases nonEmpty description with
  | none => cases ms <;> rfl
  | some d => cases ms <;> cases t <;> first | rfl | cases ht

/-- A type in which unions find no null: one or several members, and none of them null. -/
def IsProper (t : TypeExpr) : Prop := t.members ≠ [] ∧ ∀ m ∈ t.members, m.isNull = false

theorem IsAtom.isProper {t : TypeExpr} (h : t.IsAtom) : t.IsProper := by
  rw [IsProper, h.1]
  exact ⟨List.cons_ne_nil _ _, List.forall_mem_singleton.2 h.2⟩

theorem IsProper.described {t : TypeExpr} (h : t.IsProper) (description : Option String) :
    (t.described description []).IsProper := by
  rcases described_cases t description [] with heq | ⟨d, hd, -, heq⟩
  · rw [heq]
    exact h
  · rw [heq, List.nil_append, annotate_cons]
    exact IsAtom.isProper ⟨rfl, rfl⟩

theorem flatMap_members_atoms {ts : List TypeExpr} (h : ∀ t ∈ ts, t.IsAtom) :
    ts.flatMap members = ts := by
  induction ts with
  | nil => rfl
  | cons t ts ih =>
    obtain ⟨ht, hts⟩ := List.forall_mem_cons.1 h
    rw [List.flatMap_cons, ht.1, ih hts]
    rfl

/-- Types that are taken in as they are, no two of which are equal, stay the members of their
union. -/
theorem unionOf_atoms {ts : List TypeExpr} (h : ∀ t ∈ ts, t.IsAtom)
    (hts : ts.Pairwise (fun a b => b.equals a = false)) (hlen : 2 ≤ ts.length) :
    unionOf ts = .union ts := by
  have hdistinct : distinct (ts.flatMap members) = ts := by
    rw [flatMap_members_atoms h]
    exact distinctFrom_eq_self (by simp) hts
  rcases unionOf_cases ts with ⟨t, ht, -⟩ | hu
  · rw [hdistinct] at ht
    rw [ht] at hlen
    simp at hlen
  · rw [hu, hdistinct]

/-- What a schema is rebuilt into is taken in as it is, unless it is a union without description. -/
theorem Rebuilt.isAtom {name : String} {f : Facets} {items : Option Schema}
    {properties : Option (List (String × Schema))} {anyOf : Option (List Schema)} {t : TypeExpr}
    (h : Rebuilt name f items properties anyOf t)
    (hf : anyOf.getD [] = [] ∨ ∃ d, d ≠ "" ∧ f.description = some d) : t.IsAtom := by
  cases h with
  | union hts =>
    rcases hf with hnil | ⟨d, hd, hdesc⟩
    · cases hnil
    · rw [hdesc, described_some _ hd, annotate_cons]
      exact ⟨rfl, rfl⟩
  | text =>
    by_cases henum : f.enum.getD [] = []
    · rw [ofStringSchema_plain henum]
      exact isAtom_described ⟨rfl, rfl⟩ _ _
    · rw [ofStringSchema_enum henum]
      exact isAtom_described ⟨rfl, rfl⟩ _ _
  | number => exact isAtom_described ⟨rfl, rfl⟩ _ _
  | integer => exact isAtom_described ⟨rfl, rfl⟩ _ _
  | boolean => exact isAtom_described ⟨rfl, rfl⟩ _ _
  | array => exact isAtom_described ⟨rfl, rfl⟩ _ _
  | object _ _ _ hrec =>
    obtain ⟨-, -, rfl⟩ := recordOf_ok.1 hrec
    exact ⟨rfl, rfl⟩

/-! ## Validators of rebuilt types -/

theorem hasValidator_ofStringSchema (f : Facets) : (ofStringSchema f).HasValidator := by
  by_cases henum : f.enum.getD [] = []
  · rw [ofStringSchema_plain henum, (alike_described_nil _ _).1]
    by_cases hformat : f.format = some "date-time"
    · rw [if_pos hformat]
      exact ⟨.datetime, by rw [ofType]⟩
    · rw [if_neg hformat]
      exact ⟨.text, by rw [ofType]⟩
  · obtain ⟨kept, heq, -⟩ := literalOf_str (f.enum.getD [])
    rw [ofStringSchema_enum henum, (alike_described_nil _ _).1, heq]
    exact ⟨_, ofType_literal_str kept⟩

theorem hasValidator_ofNumberSchema_int (f : Facets) : (ofNumberSchema .int f).HasValidator ↔
    (∃ l, Option.Rel WholeBound f.minimum l) ∧ ∃ g, Option.Rel WholeBound f.maximum g :=
  (alike_described _ _ _).1.trans hasValidator_bounded_int

theorem hasValidator_ofArraySchema (item : TypeExpr) (f : Facets) :
    (ofArraySchema item f).HasValidator ↔ item.HasValidator ∧
      (∃ l, Option.Rel LengthBound f.minItems l) ∧ ∃ g, Option.Rel LengthBound f.maxItems g :=
  (alike_described _ _ _).1.trans hasValidator_sized

/-- A type that is rebuilt has a validator if the bounds and lengths of its schema can be those of
one. -/
theorem hasValidator_iff_buildable {s : Schema} :
    ∀ {name : String} {t : TypeExpr}, ofSchema name s = .ok t → (t.HasValidator ↔ s.Buildable) := by
  induction s with
  | node f items properties anyOf ihItems ihProperties ihAnyOf =>
    intro name t h
    obtain ⟨base, hbase, rfl⟩ := ofSchema_cases h
    rw [(hbase.regular.takes_orNull f.nullable).1]
    cases hbase with
    | @union _ _ m ms ts hts =>
      have hregular := regular_members hts
      have hparts : (∀ t ∈ ts, t.HasValidator) ↔ ∀ s ∈ m :: ms, s.Buildable := by
        have hboth := ((List.forall₂_and_left _ _).2 ⟨ihAnyOf _ rfl, hts⟩).flip
        refine forall_congr_of_forall₂ (hboth.imp ?_)
        rintro t m ⟨ih, n, -, hm⟩
        exact ih hm
      rw [(alike_described_nil _ _).1, (alike_unionOf hregular).1, hasValidator_union, hparts]
      constructor
      · exact fun hall => .node hall (by simp) (by simp) (by simp)
      · rintro (⟨hall, -, -, -⟩)
        exact hall
    | text hnil htype =>
      refine iff_of_true (hasValidator_ofStringSchema f) (.node ?_ ?_ ?_ ?_) <;> simp [hnil, htype]
    | number hnil htype =>
      refine iff_of_true ((alike_described _ _ _).1.2 ⟨_, ofType_bounded_float _ _⟩)
        (.node ?_ ?_ ?_ ?_) <;> simp [hnil, htype]
    | integer hnil htype =>
      rw [hasValidator_ofNumberSchema_int]
      constructor
      · exact fun hb => .node (by simp [hnil]) (by simp [htype]) (fun _ _ => hb) (by simp [htype])
      · rintro (⟨-, -, hb, -⟩)
        exact hb hnil htype
    | boolean hnil htype =>
      refine iff_of_true ((alike_described_nil _ _).1.2 ⟨.bool, by rw [ofType]⟩)
        (.node ?_ ?_ ?_ ?_) <;> simp [hnil, htype]
    | array hnil htype hitem =>
      obtain ⟨n, -, hitem⟩ := hitem
      rw [hasValidator_ofArraySchema, ihItems _ rfl hitem]
      constructor
      · rintro ⟨hi, hl⟩
        exact .node (by simp [hnil]) (fun _ _ => by simpa using hi) (by simp [htype])
          (fun _ _ => hl)
      · rintro (⟨-, hi, -, hl⟩)
        exact ⟨hi hnil htype _ rfl, hl hnil htype⟩
    | object hnil htype htypes hrec =>
      refine iff_of_true ?_ (.node ?_ ?_ ?_ ?_)
      · obtain ⟨-, ⟨vs, hvs⟩, rfl⟩ := recordOf_ok.1 hrec
        exact ⟨_, by rw [ofType, hvs]; rfl⟩
      all_goals simp [hnil, htype]

/-! ## Canonical schemas are rebuilt -/

theorem exists_ofMembers {name : String} {ms : List Schema}
    (h : ∀ m ∈ ms, ∀ n, (Clear name → Clear n) → ∃ t, ofSchema n m = .ok t) :
    ∀ i, ∃ ts, ofMembers name i ms = .ok ts := by
  induction ms with
  | nil => exact fun i => ⟨[], rfl⟩
  | cons m ms ih =>
    intro i
    obtain ⟨hm, hms⟩ := List.forall_mem_cons.1 h
    have hclear : Clear name → Clear (name ++ "_" ++ toString i) := fun hc =>
      clear_append.2 ⟨clear_append.2 ⟨hc, by decide⟩, clear_toString i⟩
    obtain ⟨t, ht⟩ := hm _ hclear
    obtain ⟨ts, hts⟩ := ih hms (i + 1)
    exact ⟨t :: ts, isOk_bind.2 ⟨t, ht, isOk_bind.2 ⟨ts, hts, rfl⟩⟩⟩

theorem exists_ofProperties {name : String} {ps : List (String × Schema)}
    (h : ∀ p ∈ ps, ∃ t, ofSchema (name ++ "_" ++ p.1) p.2 = .ok t) :
    ∃ types, ofProperties name ps = .ok types := by
  induction ps with
  | nil => exact ⟨[], rfl⟩
  | cons p ps ih =>
    obtain ⟨⟨t, ht⟩, hps⟩ := List.forall_mem_cons.1 h
    obtain ⟨types, htypes⟩ := ih hps
    exact ⟨(p.1, t) :: types, isOk_bind.2 ⟨t, ht, isOk_bind.2 ⟨types, htypes, rfl⟩⟩⟩

/-- A canonical schema whose records can be made is rebuilt. -/
theorem exists_ofSchema {s : Schema} : ∀ {clear : Prop} {name : String}, s.Canonical →
    s.Realizable clear → (clear → Clear name) → ∃ t, ofSchema name s = .ok t := by
  induction s with
  | node f items properties anyOf ihItems ihProperties ihAnyOf =>
    intro clear name hs hr hclear
    obtain ⟨hmembers, hitems, hprops, hrec⟩ := hr
    obtain ⟨hshape, -, -, -⟩ := hs
    have hlonger (suffix : String) (hsuffix : Clear suffix) : clear → Clear (name ++ suffix) :=
      fun hc => clear_append.2 ⟨hclear hc, hsuffix⟩
    cases hshape with
    | text | datetime | enumeration | number | integer | boolean =>
      exact exists_ofSchema_scalar rfl nofun nofun nofun
    | array lo hi hi' =>
      obtain ⟨item, hitem⟩ := ihItems _ rfl hi' (hitems rfl rfl _ rfl) (hlonger "_item" (by decide))
      rw [ofSchema_array rfl rfl]
      exact ⟨_, isOk_bind.2 ⟨item, hitem, rfl⟩⟩
    | @object required ps hps =>
      obtain ⟨hc, hbuildable⟩ := hrec rfl rfl
      have hall : ∀ p ∈ ps, ∃ t, ofSchema (name ++ "_" ++ p.1) p.2 = .ok t := fun p hp =>
        ihProperties ps rfl p hp (hps p hp) (hprops rfl rfl p hp) fun h =>
          clear_append.2 ⟨hlonger "_" (by decide) h.1, h.2⟩
      obtain ⟨types, htypes⟩ := exists_ofProperties hall
      have hrebuilt := ofProperties_forall₂ htypes
      obtain ⟨t, ht⟩ := exists_recordOf (hclear hc) _ (regular_properties hrebuilt) fun q hq => by
        obtain ⟨p, hp, -, n, -, hpq⟩ := exists_of_forall₂ hrebuilt q hq
        exact (hasValidator_iff_buildable hpq).2 (hbuildable p hp)
      rw [ofSchema_object rfl rfl]
      exact ⟨_, isOk_bind.2 ⟨types, htypes, isOk_bind.2 ⟨t, ht, rfl⟩⟩⟩
    | @union ms hlen hms =>
      have hall : ∀ m ∈ ms, ∀ n, (Clear name → Clear n) → ∃ t, ofSchema n m = .ok t := by
        intro m hm n hn
        exact ihAnyOf ms rfl m hm (hms m hm) (hmembers m hm) fun h => hn (hclear h)
      cases ms with
      | nil => simp at hlen
      | cons m ms =>
        obtain ⟨t, ht⟩ := hall m List.mem_cons_self (name ++ "_0") fun hc =>
          clear_append.2 ⟨hc, by decide⟩
        obtain ⟨ts, hts⟩ := exists_ofMembers (fun m hm => hall m (List.mem_cons_of_mem _ hm)) 1
        rw [ofSchema_union]
        exact ⟨_, isOk_bind.2 ⟨t, ht, isOk_bind.2 ⟨ts, hts, rfl⟩⟩⟩

/-- The records of a schema that is rebuilt can be made. -/
theorem realizable_of_ofSchema {s : Schema} : ∀ {name : String} {t : TypeExpr},
    ofSchema name s = .ok t → s.Realizable (Clear name) := by
  induction s with
  | node f items properties anyOf ihItems ihProperties ihAnyOf =>
    intro name t h
    obtain ⟨base, hbase, -⟩ := ofSchema_cases h
    have hpart {n : String} {p : Schema} {u : TypeExpr} (h : IsRebuilt n p u)
        (ih : ∀ {n u}, ofSchema n p = .ok u → p.Realizable (Clear n)) : p.Realizable (Clear n) := by
      obtain ⟨n', hn, hu⟩ := h
      rw [← propext hn]
      exact ih hu
    cases hbase with
    | @union _ _ m ms ts hts =>
      refine .node (fun m hm => ?_) (by simp) (by simp) (by simp)
      obtain ⟨u, -, hu⟩ := exists_of_forall₂ hts.flip m hm
      exact hpart hu (ihAnyOf _ rfl m hm)
    | @array i _ _ item hnil htype hitem =>
      refine .node (by simp [hnil]) (fun _ _ s hs => ?_) (by simp [htype]) (by simp [htype])
      cases hs
      exact hpart hitem (ihItems _ rfl)
    | object hnil htype htypes hrec =>
      have hproperties : ∀ p ∈ properties.getD [],
          p.2.Realizable (Clear name ∧ Clear p.1) ∧ p.2.Buildable := by
        intro p hp
        obtain ⟨⟨key, u⟩, hmem, -, hu⟩ := exists_of_forall₂ htypes.flip p hp
        have hsome : properties = some (properties.getD []) := by
          cases properties with
          | none => cases hp
          | some ps => rfl
        have hreal := hpart hu (ihProperties _ hsome p hp)
        obtain ⟨n, -, hu⟩ := hu
        have hv := hasValidator_of_recordOf (regular_properties htypes) hrec _ hmem
        exact ⟨propext clear_append ▸ hreal, (hasValidator_iff_buildable hu).1 hv⟩
      obtain ⟨hclear, -, -⟩ := recordOf_ok.1 hrec
      exact .node (by simp [hnil]) (by simp [htype]) (fun _ _ p hp => (hproperties p hp).1)
        fun _ _ => ⟨hclear, fun p hp => (hproperties p hp).2⟩
    | _ hnil htype => refine .node ?_ ?_ ?_ ?_ <;> simp [hnil, htype]

end TypeExpr

end TypeWire
