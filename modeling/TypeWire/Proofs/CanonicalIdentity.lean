import TypeWire.Proofs.Canonical
import TypeWire.Proofs.FieldNames
import TypeWire.Proofs.WireForm
import TypeWire.Session

/-!
# Canonical schemas are restored

A canonical schema is rebuilt into a type that is read back as the same schema
(`TypeExpr.reads_ofSchema`), if nothing is remembered of the types that were rebuilt before.

The induction is over the schema. Description and null are added last on both sides, so each shape
is compared without them: `TypeExpr.Reads.described` and `TypeExpr.Reads.orNull` put them back.
-/

namespace TypeWire

namespace TypeExpr

open Validator

/-! ## Canonical schemas are read back -/

theorem Reads.described {t : TypeExpr} {f : Facets} {items : Option Schema}
    {properties : Option (List (String × Schema))} {anyOf : Option (List Schema)}
    (h : t.Reads (.node f items properties anyOf)) (ht : Regular t) (hf : f.description = none)
    {description : Option String} (hd : description ≠ some "") :
    (t.described description []).Reads (.node { f with description } items properties anyOf) := by
  cases description with
  | none =>
    have hself : { f with description := none } = f := by rw [← hf]
    rw [hself]
    exact h
  | some d =>
    have hne : d ≠ "" := fun he => hd (congrArg some he)
    rw [described_some t hne]
    exact h.describe ht hne

theorem Reads.orNull {t : TypeExpr} {f : Facets} {items : Option Schema}
    {properties : Option (List (String × Schema))} {anyOf : Option (List Schema)}
    (h : t.Reads (.node f items properties anyOf)) (ht : Regular t) (hproper : t.IsProper)
    (hf : f.nullable = none) {nullable : Option Bool} (hn : nullable ≠ some false) :
    (t.orNull nullable).Reads (.node { f with nullable } items properties anyOf) := by
  cases nullable with
  | none =>
    have hself : { f with nullable := none } = f := by rw [← hf]
    rw [hself]
    exact h
  | some b =>
    cases b with
    | false => exact absurd rfl hn
    | true => exact h.optionalOf ht hproper.1 hproper.2

/-- The fields of properties without an empty key are named and required as the properties are. -/
theorem required_fieldsOf {required : List String} {types : List (String × TypeExpr)}
    (hregular : ∀ q ∈ types, Regular q.2) (hkeys : ∀ q ∈ types, q.1 ≠ "") :
    ((fieldsOf required types).filter fun f => !f.1.isOptional).map (fun f => f.1.wireName) =
      (types.map (·.1)).filter required.contains := by
  have h := forall₂_fieldsOf required types
  generalize fieldsOf required types = fields at h
  induction h with
  | nil => rfl
  | @cons q f types fields hf _ ih =>
    obtain ⟨hq, htypes⟩ := List.forall_mem_cons.1 hregular
    obtain ⟨hne, hkeys⟩ := List.forall_mem_cons.1 hkeys
    obtain ⟨name, rfl⟩ := hf
    rw [List.filter_cons, List.map_cons, List.filter_cons, isOptional_fieldOfProperty hq,
      Bool.not_not]
    by_cases hr : required.contains q.1 = true
    · rw [if_pos hr, if_pos hr, List.map_cons, ih htypes hkeys, wireName_fieldOfProperty hq,
        if_neg hne]
    · rw [if_neg hr, if_neg hr, ih htypes hkeys]

theorem reads_recordOf {name : String} {f : Facets} {types : List (String × TypeExpr)}
    {ps : List (String × Schema)} {t : TypeExpr} (hrec : recordOf name f types = .ok t)
    (htypes : List.Forall₂ (fun q p => q.1 = p.1 ∧ Regular q.2 ∧ q.2.Reads p.2) types ps)
    (hne : ∀ p ∈ ps, p.1 ≠ "") (hkeys : (ps.map (·.1)).Nodup)
    (hrequired : (f.required.getD []).Sublist (ps.map (·.1)))
    (hdoc : ∀ d ∈ f.description, d ≠ "" ∧ Text.cleanDocstring d = d) :
    t.Reads (.node { type := some .object, required := some (f.required.getD [])
                     propertyOrdering := some (ps.map (·.1)), description := f.description }
      none (some ps) none) := by
  obtain ⟨-, -, rfl⟩ := recordOf_ok.1 hrec
  have hregular : ∀ q ∈ types, Regular q.2 := fun q hq => by
    obtain ⟨p, -, -, hreg, -⟩ := exists_of_forall₂ htypes.flip q hq
    exact hreg
  have htypesne : ∀ q ∈ types, q.1 ≠ "" := fun q hq => by
    obtain ⟨p, hp, hkey, -⟩ := exists_of_forall₂ htypes.flip q hq
    exact hkey ▸ hne p hp
  have hsame : types.map (·.1) = ps.map (·.1) := map_eq_of_forall₂ htypes fun _ _ h => h.1
  have hfields := forall₂_join (forall₂_fieldsOf (f.required.getD []) types) htypes
  have hread := reads_record name (hfields.imp ?_) hkeys
  · rw [required_fieldsOf hregular htypesne, hsame,
      filter_contains_of_sublist hrequired hkeys] at hread
    cases hdesc : f.description with
    | none => exact hread
    | some d =>
      obtain ⟨hd, hclean⟩ := hdoc d hdesc
      rw [nonEmpty_of_ne hd]
      exact hread.document hd hclean
  · rintro field p ⟨q, hq, ⟨fieldName, rfl⟩, hkey, hreg, hreads⟩
    rw [wireName_fieldOfProperty hreg, if_neg (htypesne q hq)]
    exact ⟨hkey, hreads.field hreg rfl⟩

theorem reads_ofNumberSchema {s : Scalar} (hs : s = .int ∨ s = .float) {f : Facets}
    (h : ((scalar s).annotate (bounds f.minimum f.maximum)).Reads
      (.leaf { type := f.type, minimum := f.minimum, maximum := f.maximum }))
    (hd : f.description ≠ some "") : (ofNumberSchema s f).Reads
      (.leaf { type := f.type, minimum := f.minimum, maximum := f.maximum
               description := f.description }) := by
  have hregular : Regular ((scalar s).annotate (bounds f.minimum f.maximum)) :=
    regular_ofNumberSchema hs { minimum := f.minimum, maximum := f.maximum }
  rw [ofNumberSchema, described_annotate rfl]
  exact h.described hregular rfl hd

theorem isAtom_ofSchema {m : Schema} (hm : m.Canonical) (hnullable : m.facets.nullable = none)
    (hanyOf : m.anyOf = none ∨ m.facets.description ≠ none) {name : String} {t : TypeExpr}
    (h : ofSchema name m = .ok t) : t.IsAtom := by
  cases hm with
  | @node f items properties anyOf description nullable _ hd _ _ =>
    obtain rfl : nullable = none := hnullable
    obtain ⟨base, hbase, rfl⟩ := ofSchema_cases h
    refine hbase.isAtom ?_
    rcases hanyOf with hnone | hsome
    · obtain rfl : anyOf = none := hnone
      exact .inl rfl
    · obtain ⟨d, rfl⟩ := Option.ne_none_iff_exists'.1 hsome
      exact .inr ⟨d, fun he => hd (congrArg some he), rfl⟩

/-- Schemas no two of which are rebuilt into equal types are rebuilt into types apart. -/
theorem pairwise_of_apart {name : String} {ms : List Schema} {ts : List TypeExpr}
    (hts : List.Forall₂ (IsRebuilt name) ms ts) (hapart : ms.Pairwise Schema.Apart) :
    ts.Pairwise (fun a b => b.equals a = false) := by
  refine pairwise_of_forall₂ hts hapart fun {a a' b b'} haa' hab hab' => ?_
  obtain ⟨n, -, hb⟩ := hab
  obtain ⟨n', -, hb'⟩ := hab'
  rw [← Bool.not_eq_true]
  intro heq
  have heq' := (regular_ofSchema hb').equals_symm (regular_ofSchema hb) heq
  rw [haa' hb hb'] at heq'
  cases heq'

/-- The members of a canonical union are rebuilt into types that stay the members of their union. -/
theorem unionOf_canonical {name : String} {ms : List Schema} {ts : List TypeExpr}
    (hlen : 2 ≤ ms.length) (hms : ∀ m ∈ ms, m.Canonical)
    (hnullable : ∀ m ∈ ms, m.facets.nullable = none)
    (hanyOf : ∀ m ∈ ms, m.anyOf = none ∨ m.facets.description ≠ none)
    (hapart : ms.Pairwise Schema.Apart) (hts : List.Forall₂ (IsRebuilt name) ms ts) :
    (∀ t ∈ ts, t.IsAtom) ∧ unionOf ts = .union ts := by
  have hatoms : ∀ t ∈ ts, t.IsAtom := by
    intro t ht
    obtain ⟨m, hm, n, -, hmt⟩ := exists_of_forall₂ hts t ht
    exact isAtom_ofSchema (hms m hm) (hnullable m hm) (hanyOf m hm) hmt
  exact ⟨hatoms, unionOf_atoms hatoms (pairwise_of_apart hts hapart) (hts.length_eq ▸ hlen)⟩

theorem reads_unionOf {name : String} {ms : List Schema} {ts : List TypeExpr}
    (hlen : 2 ≤ ms.length) (hms : ∀ m ∈ ms, m.Canonical)
    (hnullable : ∀ m ∈ ms, m.facets.nullable = none)
    (hanyOf : ∀ m ∈ ms, m.anyOf = none ∨ m.facets.description ≠ none)
    (hapart : ms.Pairwise Schema.Apart) (hts : List.Forall₂ (IsRebuilt name) ms ts)
    (ih : ∀ m ∈ ms, ∀ {n t}, m.Canonical → ofSchema n m = .ok t → t.Reads m) :
    (unionOf ts).Reads (.node {} none none (some ms)) := by
  obtain ⟨hatoms, heq⟩ := unionOf_canonical hlen hms hnullable hanyOf hapart hts
  have hparts := (List.forall₂_and_left _ _).2 ⟨ih, (List.forall₂_and_left _ _).2 ⟨hms, hts⟩⟩
  rw [heq]
  refine reads_union (fun t ht => (hatoms t ht).2) (hts.length_eq ▸ hlen) (hparts.flip.imp ?_)
  rintro t m ⟨ih, hm, n, -, hmt⟩
  exact ih hm hmt

theorem isProper_union {ts : List TypeExpr} (hne : ts ≠ []) (hts : ∀ t ∈ ts, t.IsAtom) :
    (union ts).IsProper :=
  ⟨hne, fun t ht => (hts t ht).2⟩

theorem isProper_shape {name : String} {f : Facets} {items : Option Schema}
    {properties : Option (List (String × Schema))} {anyOf : Option (List Schema)} {t : TypeExpr}
    (hshape : Schema.Shape Schema.Canonical f items properties anyOf) {description : Option String}
    {nullable : Option Bool}
    (h : Rebuilt name { f with description, nullable } items properties anyOf t) : t.IsProper := by
  cases hshape with
  | union hlen hms hnullable hanyOf hapart =>
    cases h with
    | @union _ _ m ms ts hts =>
      obtain ⟨hatoms, heq⟩ := unionOf_canonical hlen hms hnullable hanyOf hapart hts
      have hne : ts ≠ [] := by
        rintro rfl
        cases hts
      rw [heq]
      exact (isProper_union hne hatoms).described _
    | text hnil | number hnil | integer hnil | boolean hnil | object hnil => cases hnil; cases hlen
  | _ => exact (h.isAtom (.inl rfl)).isProper

/-- A shape is rebuilt into a type that, null apart, is read back as the shape. -/
theorem reads_shape {name : String} {f : Facets} {items : Option Schema}
    {properties : Option (List (String × Schema))} {anyOf : Option (List Schema)} {t : TypeExpr}
    (hshape : Schema.Shape Schema.Canonical f items properties anyOf)
    (ihItems : ∀ s, items = some s → ∀ {n u}, s.Canonical → ofSchema n s = .ok u → u.Reads s)
    (ihProperties : ∀ ps, properties = some ps → ∀ p ∈ ps, ∀ {n u}, p.2.Canonical →
      ofSchema n p.2 = .ok u → u.Reads p.2)
    (ihAnyOf : ∀ ms, anyOf = some ms → ∀ m ∈ ms, ∀ {n u}, m.Canonical → ofSchema n m = .ok u →
      u.Reads m)
    {description : Option String} {nullable : Option Bool} (hd : description ≠ some "")
    (hdoc : f.type = some .object → ∀ d ∈ description, Text.cleanDocstring d = d)
    (h : Rebuilt name { f with description, nullable } items properties anyOf t) :
    t.Reads (.node { f with description } items properties anyOf) := by
  cases hshape with
  | text =>
    cases h with
    | text => exact reads_text.described (.scalar _) rfl hd
    | number _ ht | integer _ ht | boolean _ ht | object _ ht => cases ht
  | datetime =>
    cases h with
    | text => exact reads_datetime.described (.scalar _) rfl hd
    | number _ ht | integer _ ht | boolean _ ht | object _ ht => cases ht
  | @enumeration texts hne hnodup =>
    cases h with
    | text =>
      obtain ⟨kept, heq, -, -, hself⟩ := literalOf_str texts
      obtain rfl := hself hnodup
      rw [ofStringSchema_enum (f := { type := some .string, enum := some kept, description, nullable })
        hne, Option.getD_some, heq]
      exact (reads_literal hne).described (.literal _) rfl hd
    | number _ ht | integer _ ht | boolean _ ht | object _ ht => cases ht
  | number lo hi =>
    cases h with
    | number => exact reads_ofNumberSchema (.inr rfl) (reads_float lo hi) hd
    | text _ ht | integer _ ht | boolean _ ht | object _ ht => cases ht
  | integer lo hi =>
    cases h with
    | integer => exact reads_ofNumberSchema (.inl rfl) (reads_int lo hi) hd
    | text _ ht | number _ ht | boolean _ ht | object _ ht => cases ht
  | boolean =>
    cases h with
    | boolean => exact reads_bool.described (.scalar _) rfl hd
    | text _ ht | number _ ht | integer _ ht | object _ ht => cases ht
  | @array lo hi i hi' =>
    cases h with
    | @array _ _ _ item _ _ hitem =>
      have hregular : Regular ((list .builtin item).annotate (lengths lo hi)) :=
        regular_ofArraySchema hitem.regular { minItems := lo, maxItems := hi }
      obtain ⟨n, -, hitem⟩ := hitem
      rw [ofArraySchema, described_annotate rfl]
      exact (reads_list (ihItems i rfl hi' hitem) .builtin lo hi).described hregular rfl hd
    | text _ ht | number _ ht | integer _ ht | boolean _ ht | object _ ht => cases ht
  | @object required ps hps hne hkeys hrequired =>
    cases h with
    | object _ _ htypes hrec =>
      have hparts := (List.forall₂_and_left _ _).2 ⟨ihProperties ps rfl,
        (List.forall₂_and_left _ _).2 ⟨hps, htypes⟩⟩
      have hdocs : ∀ d ∈ description, d ≠ "" ∧ Text.cleanDocstring d = d := fun d hdesc =>
        ⟨fun he => hd (he ▸ hdesc), hdoc rfl d hdesc⟩
      refine reads_recordOf hrec (hparts.flip.imp ?_) hne hkeys hrequired hdocs
      rintro q p ⟨ih, hp, hkey, hq⟩
      have hregular := hq.regular
      obtain ⟨n, -, hq⟩ := hq
      exact ⟨hkey.symm, hregular, ih hp hq⟩
    | text _ ht | number _ ht | integer _ ht | boolean _ ht => cases ht
  | @union ms hlen hms hnullable hanyOf hapart =>
    cases h with
    | @union _ _ m ms ts hts =>
      have hregular : Regular (unionOf ts) := .unionOf (regular_members hts)
      have hreads := reads_unionOf hlen hms hnullable hanyOf hapart hts (ihAnyOf (m :: ms) rfl)
      exact hreads.described hregular rfl hd
    | text _ ht | number _ ht | integer _ ht | boolean _ ht | object _ ht => cases ht

theorem isProper_ofSchema {s : Schema} (hs : s.Canonical) (hn : s.facets.nullable = none)
    {name : String} {t : TypeExpr} (h : ofSchema name s = .ok t) : t.IsProper := by
  cases hs with
  | @node f items properties anyOf description nullable hshape _ _ _ =>
    obtain rfl : nullable = none := hn
    obtain ⟨base, hbase, rfl⟩ := ofSchema_cases h
    exact isProper_shape hshape hbase

/-- A canonical schema is rebuilt into a type that is read back as the schema. -/
theorem reads_ofSchema {s : Schema} :
    ∀ {name : String} {t : TypeExpr}, s.Canonical → ofSchema name s = .ok t → t.Reads s := by
  induction s with
  | node f items properties anyOf ihItems ihProperties ihAnyOf =>
    intro name t hs h
    obtain ⟨base, hbase, rfl⟩ := ofSchema_cases h
    obtain ⟨hshape, hd, hn, hdoc⟩ := hs
    have hreads := reads_shape hshape ihItems ihProperties ihAnyOf hd hdoc hbase
    exact hreads.orNull hbase.regular (isProper_shape hshape hbase) hshape.nullable_eq hn

end TypeExpr

/-- The schema that becomes of a schema when it is rebuilt into a type. -/
def Schema.rebuild (name : String) (s : Schema) : Except StepError Schema :=
  match TypeExpr.ofSchema name s with
  | .ok t => Session.forward [] t
  | .error e => .error (.schema e)

theorem Schema.rebuild_ok {name : String} {s s' : Schema} :
    s.rebuild name = .ok s' ↔ ∃ t, TypeExpr.ofSchema name s = .ok t ∧ t.Reads s' := by
  unfold rebuild
  cases h : TypeExpr.ofSchema name s with
  | error e => simp
  | ok t =>
    have hforward : Session.forward [] t = .ok s' ↔ t.Reads s' := by
      rw [← (TypeExpr.regular_ofSchema h).ofType_eq_ok, Session.forward]
      cases Schema.ofType [] t <;> simp
    simp [hforward]

/-- A canonical schema whose records can be made is what becomes of it. -/
theorem Schema.Canonical.rebuild_eq {s : Schema} (hs : s.Canonical) {name : String}
    (hr : s.Realizable (TypeExpr.Clear name)) : s.rebuild name = .ok s := by
  obtain ⟨t, ht⟩ := TypeExpr.exists_ofSchema hs hr id
  exact Schema.rebuild_ok.2 ⟨t, ht, TypeExpr.reads_ofSchema hs ht⟩

namespace Schema

theorem Canonical.legible {s : Schema} (hs : s.Canonical) : s.Legible := by
  induction s with
  | node f items properties anyOf ihItems ihProperties ihAnyOf =>
    obtain ⟨hshape, -, -, -⟩ := hs
    cases hshape with
    | array _ _ hi =>
      refine .node (by simp) (by simp) (fun s hs => ?_) (by simp) (by simp)
      cases hs
      exact ihItems _ rfl hi
    | @object _ ps hps _ hkeys =>
      refine .node (by simp) ?_ (by simp) ?_ (by simp)
      · rintro _ ⟨⟩
        exact hkeys
      · rintro _ ⟨⟩ p hp
        exact ihProperties ps rfl p hp (hps p hp)
    | @union ms _ hms =>
      refine .node (by simp) (by simp) (by simp) (by simp) ?_
      rintro _ ⟨⟩ m hm
      exact ihAnyOf ms rfl m hm (hms m hm)
    | _ => refine .node ?_ ?_ ?_ ?_ ?_ <;> simp

end Schema

/-- The wire data that becomes of wire data: it is read as a schema, the schema is rebuilt into a
type, and the type is converted back. -/
def rebuildWire (name : String) (w : Value) : Except StepError Value := do
  let s ← Session.parse w
  let s' ← s.rebuild name
  return s'.encode

theorem rebuildWire_ok {name : String} {w w' : Value} : rebuildWire name w = .ok w' ↔
    ∃ s s', Schema.decode w = .ok s ∧ s.rebuild name = .ok s' ∧ w' = s'.encode := by
  have hparse {s : Schema} : Session.parse w = .ok s ↔ Schema.decode w = .ok s := by
    unfold Session.parse
    cases Schema.decode w <;> simp
  unfold rebuildWire
  rw [isOk_bind]
  simp only [hparse, isOk_bind, isOk_pure]
  constructor
  · rintro ⟨s, hs, s', hs', rfl⟩
    exact ⟨s, s', hs, hs', rfl⟩
  · rintro ⟨s, s', hs, hs', rfl⟩
    exact ⟨s, hs, s', hs', rfl⟩

end TypeWire
