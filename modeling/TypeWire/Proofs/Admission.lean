import TypeWire.Proofs.Rebuilt

/-!
# What a schema admits

`Schema.Admits` says by recursion on a schema which data it admits, in the words of the schema alone:
null if it is nullable, what a member admits if it has members, else what its type and the facets of
that type say.

The validator of the type that a schema is rebuilt into takes exactly this data
(`Schema.accepts_iff_admits`). On the way there unions are written flat and lose members, null moves
into a union, keys that are no names become aliases and absent properties get a default; that none of
it is seen in what is taken is what `TypeExpr.takes_ofSchema` carries from the parts to the whole.
-/

namespace TypeWire

namespace Schema

open Numeric (Binary64)

/-- Whether a text schema admits data: one of the texts of its enumeration if it has some, else
anything that is read as a time or as a text. -/
def AdmitsText (f : Facets) (v : Value) : Prop :=
  if f.enum.getD [] ≠ [] then ∃ s ∈ f.enum.getD [], v = .str s
  else if f.format = some "date-time" then ∃ t q, Coercion.datetime v = .ok (t, q)
  else ∃ s q, Coercion.text v = .ok (s, q)

/-- Whether a schema of whole numbers admits data. The bounds are doubles, and are compared with the
whole number exactly. -/
def AdmitsInteger (f : Facets) (v : Value) : Prop :=
  ∃ n q, Coercion.int v = .ok (n, q) ∧ (∀ b ∈ f.minimum, (Binary64.ofFloat b).AtMost n) ∧
    ∀ b ∈ f.maximum, (Binary64.ofFloat b).AtLeast n

/-- Whether a schema of numbers admits data. What is no number lies within no bounds. -/
def AdmitsNumber (f : Facets) (v : Value) : Prop :=
  ∃ x q, Coercion.float v = .ok (x, q) ∧ (∀ b ∈ f.minimum, b ≤ x) ∧ ∀ b ∈ f.maximum, x ≤ b

mutual

/-- Whether a schema admits data. -/
def Admits : Schema → Value → Prop
  | .node f items properties anyOf, v =>
    f.nullable = some true ∧ v.isNull = true ∨
    match anyOf with
    | some (m :: ms) => Admits m v ∨ AdmitsSome ms v
    | _ =>
      match f.type with
      | some .string => AdmitsText f v
      | some .number => AdmitsNumber f v
      | some .integer => AdmitsInteger f v
      | some .boolean => ∃ b q, Coercion.bool v = .ok (b, q)
      | some .array =>
        match items with
        | some s => ∃ q vs, Validator.itemsOf? v = some (q, vs) ∧
            (∀ n ∈ f.minItems, n ≤ vs.length) ∧ (∀ n ∈ f.maxItems, vs.length ≤ n) ∧
            ∀ x ∈ vs, Admits s x
        | none => False
      | some .object => ∃ entries, v = .dict entries ∧
          match properties with
          | some ps => AdmitsEach (f.required.getD []) ps entries
          | none => True
      | none => False

/-- Whether one of several schemas admits data. -/
def AdmitsSome : List Schema → Value → Prop
  | [], _ => False
  | m :: ms, v => Admits m v ∨ AdmitsSome ms v

/-- Whether the entries of a dictionary are admitted by properties: a value under each key that the
property admits, or none if the property is not required. -/
def AdmitsEach (required : List String) : List (String × Schema) → List (Value × Value) → Prop
  | [], _ => True
  | (key, s) :: rest, entries =>
    ((∀ x ∈ Value.lookup key entries, Admits s x) ∧
      (Value.lookup key entries = none → key ∉ required)) ∧ AdmitsEach required rest entries

end

/-- What a schema without members admits beside null. -/
def AdmitsByType (f : Facets) (items : Option Schema)
    (properties : Option (List (String × Schema))) (v : Value) : Prop :=
  match f.type with
  | some .string => AdmitsText f v
  | some .number => AdmitsNumber f v
  | some .integer => AdmitsInteger f v
  | some .boolean => ∃ b q, Coercion.bool v = .ok (b, q)
  | some .array => ∃ s, items = some s ∧ ∃ q vs, Validator.itemsOf? v = some (q, vs) ∧
      (∀ n ∈ f.minItems, n ≤ vs.length) ∧ (∀ n ∈ f.maxItems, vs.length ≤ n) ∧
      ∀ x ∈ vs, Admits s x
  | some .object => ∃ entries, v = .dict entries ∧
      AdmitsEach (f.required.getD []) (properties.getD []) entries
  | none => False

/-- An empty list of members counts as none. -/
theorem admits_noMembers {f : Facets} {items : Option Schema}
    {properties : Option (List (String × Schema))} {anyOf : Option (List Schema)}
    (h : anyOf.getD [] = []) (v : Value) : (node f items properties anyOf).Admits v ↔
      f.nullable = some true ∧ v.isNull = true ∨ AdmitsByType f items properties v := by
  have hne : ∀ m ms, anyOf = some (m :: ms) → False := by
    rintro m ms rfl
    cases h
  unfold Admits AdmitsByType
  refine or_congr_right ?_
  split
  · exact absurd rfl (hne _ _)
  · cases f.type with
    | none => rfl
    | some t =>
      cases t <;> cases items <;> cases properties <;> simp [AdmitsEach]

theorem admits_members {f : Facets} {items : Option Schema}
    {properties : Option (List (String × Schema))} {m : Schema} {ms : List Schema} (v : Value) :
    (node f items properties (some (m :: ms))).Admits v ↔
      f.nullable = some true ∧ v.isNull = true ∨ AdmitsSome (m :: ms) v := by
  rw [Admits, AdmitsSome]

theorem admitsSome_iff {ms : List Schema} {v : Value} :
    AdmitsSome ms v ↔ ∃ m ∈ ms, m.Admits v := by
  induction ms with
  | nil => simp [AdmitsSome]
  | cons m ms ih => simp [AdmitsSome, ih]

theorem admitsEach_iff {required : List String} {ps : List (String × Schema)}
    {entries : List (Value × Value)} :
    AdmitsEach required ps entries ↔ ∀ p ∈ ps, (∀ x ∈ Value.lookup p.1 entries, p.2.Admits x) ∧
      (Value.lookup p.1 entries = none → p.1 ∉ required) := by
  induction ps with
  | nil => simp [AdmitsEach]
  | cons p ps ih => rw [AdmitsEach, ih, List.forall_mem_cons]

end Schema

namespace TypeExpr

open Validator

/-! ## The scalars -/

theorem alike_described_nil (t : TypeExpr) (description : Option String) :
    Alike (t.described description []) t :=
  (alike_described t description []).trans (alike_annotated_nil t)

theorem takes_ofStringSchema (f : Facets) (x : Value) :
    (ofStringSchema f).Takes x ↔ Schema.AdmitsText f x := by
  unfold Schema.AdmitsText
  by_cases henum : f.enum.getD [] = []
  · rw [if_neg (not_not.2 henum), ofStringSchema_plain henum, (alike_described_nil _ _).2]
    by_cases hf : f.format = some "date-time"
    · rw [if_pos hf, if_pos hf, takes_iff (v := .datetime) (by rw [ofType]), accepts_datetime]
    · rw [if_neg hf, if_neg hf, takes_iff (v := .text) (by rw [ofType]), accepts_text]
  · obtain ⟨kept, heq, -, hmem, -⟩ := literalOf_str (f.enum.getD [])
    rw [if_pos henum, ofStringSchema_enum henum, heq, (alike_described_nil _ _).2,
      takes_iff (ofType_literal_str kept), accepts_literal]
    simp only [hmem]

theorem takes_ofNumberSchema_float (f : Facets) (x : Value) :
    (ofNumberSchema .float f).Takes x ↔ Schema.AdmitsNumber f x :=
  ((alike_described _ _ _).2 x).trans takes_bounded_float

theorem takes_ofNumberSchema_int {f : Facets} (h : (ofNumberSchema .int f).HasValidator)
    (x : Value) : (ofNumberSchema .int f).Takes x ↔ Schema.AdmitsInteger f x :=
  ((alike_described _ _ _).2 x).trans
    (takes_bounded_int ((alike_described _ _ _).1.1 h))

theorem takes_bool (x : Value) :
    (TypeExpr.scalar .bool).Takes x ↔ ∃ b q, Coercion.bool x = .ok (b, q) := by
  rw [takes_iff (v := .bool) (by rw [ofType]), accepts_bool]

/-! ## From the parts to the whole -/

/-- The type means what the schema says. -/
def Means (t : TypeExpr) (s : Schema) : Prop := t.HasValidator → ∀ x, t.Takes x ↔ s.Admits x

theorem takes_unionOf {ts : List TypeExpr} {ms : List Schema} (hreg : ∀ t ∈ ts, Regular t)
    (hms : List.Forall₂ Means ts ms) (h : (unionOf ts).HasValidator) (x : Value) :
    (unionOf ts).Takes x ↔ ∃ m ∈ ms, m.Admits x := by
  have hall := hasValidator_union.1 ((alike_unionOf hreg).1.1 h)
  rw [(alike_unionOf hreg).2, takes_union hall]
  clear hreg h
  induction hms with
  | nil => simp
  | cons ht _ ih =>
    obtain ⟨h, hall⟩ := List.forall_mem_cons.1 hall
    simp [ht h x, ih hall]

theorem takes_ofArraySchema {item : TypeExpr} {f : Facets} {s : Schema} (hs : Means item s)
    (h : (ofArraySchema item f).HasValidator) (x : Value) :
    (ofArraySchema item f).Takes x ↔ ∃ q vs, itemsOf? x = some (q, vs) ∧
      (∀ n ∈ f.minItems, n ≤ vs.length) ∧ (∀ n ∈ f.maxItems, vs.length ≤ n) ∧
      ∀ y ∈ vs, s.Admits y := by
  have h' := (alike_described _ _ _).1.1 h
  have hitem := (hasValidator_sized.1 h').1
  refine ((alike_described _ _ _).2 x).trans ((takes_sized h').trans ?_)
  simp only [hs hitem]

/-- A type means what the schema says that it is rebuilt from. -/
theorem means_ofSchema {s : Schema} :
    ∀ {name : String} {t : TypeExpr}, ofSchema name s = .ok t → Means t s := by
  induction s with
  | node f items properties anyOf ihItems ihProperties ihAnyOf =>
    intro name t h hv x
    obtain ⟨base, hbase, rfl⟩ := ofSchema_cases h
    obtain ⟨hnull, htakes⟩ := hbase.regular.takes_orNull f.nullable
    have hv := hnull.1 hv
    rw [htakes x hv]
    cases hbase with
    | union hts =>
      rw [Schema.admits_members, Schema.admitsSome_iff, (alike_described_nil _ _).2]
      rw [(alike_described_nil _ _).1] at hv
      have hparts := ((List.forall₂_and_left _ _).2 ⟨ihAnyOf _ rfl, hts⟩).flip
      refine or_congr_right (takes_unionOf (regular_members hts) (hparts.imp ?_) hv x)
      · rintro t m ⟨ih, n, -, hm⟩
        exact ih hm
    | text hnil htype =>
      rw [Schema.admits_noMembers hnil, Schema.AdmitsByType, takes_ofStringSchema]
      simp only [htype]
    | number hnil htype =>
      rw [Schema.admits_noMembers hnil, Schema.AdmitsByType, takes_ofNumberSchema_float]
      simp only [htype]
    | integer hnil htype =>
      rw [Schema.admits_noMembers hnil, Schema.AdmitsByType, takes_ofNumberSchema_int hv]
      simp only [htype]
    | boolean hnil htype =>
      rw [Schema.admits_noMembers hnil, Schema.AdmitsByType, (alike_described_nil _ _).2, takes_bool]
      simp only [htype]
    | array hnil htype hitem =>
      obtain ⟨n, -, hitem⟩ := hitem
      rw [Schema.admits_noMembers hnil, Schema.AdmitsByType,
        takes_ofArraySchema (ihItems _ rfl hitem) hv]
      simp only [htype, Option.some.injEq, exists_eq_left']
    | object hnil htype htypes hrec =>
      have hreg := regular_properties htypes
      have ih : ∀ p ∈ properties.getD [], ∀ {n u}, ofSchema n p.2 = .ok u → Means u p.2 := by
        cases properties with
        | none => simp
        | some ps => exact ihProperties ps rfl
      have hparts := (List.forall₂_and_left _ _).2 ⟨hasValidator_of_recordOf hreg hrec,
        ((List.forall₂_and_left _ _).2 ⟨ih, htypes⟩).flip⟩
      rw [Schema.admits_noMembers hnil, Schema.AdmitsByType, takes_record hreg hrec]
      simp only [htype]
      refine or_congr_right (exists_congr fun entries => and_congr_right fun _ => ?_)
      rw [Schema.admitsEach_iff]
      refine forall_congr_of_forall₂ (hparts.imp ?_)
      rintro q p ⟨hvq, ih, hkey, n, -, hpq⟩
      simp only [hkey, ih hpq hvq]

end TypeExpr

namespace Schema

/-- The validator of the type that a schema is rebuilt into takes the data that the schema admits,
and no other. -/
theorem accepts_iff_admits {s : Schema} {name : String} {t : TypeExpr} {v : Validator}
    (h : TypeExpr.ofSchema name s = .ok t) (hv : Validator.ofType t = .ok v) (x : Value) :
    v.accepts x = true ↔ s.Admits x := by
  rw [← TypeExpr.takes_iff hv]
  exact TypeExpr.means_ofSchema h ⟨v, hv⟩ x

/-- A list of points, where one kind of points is given twice and null is one. -/
def points : Schema :=
  .node { type := some .array, minItems := some 1, description := some "Points" }
    (some (.node { nullable := some true } none none
      (some [leaf { type := some .integer }, leaf { type := some .integer },
        leaf { type := some .string, enum := some ["none"] }]))) none none

theorem points_admits :
    points.Admits (.list [.null, .int 3]) ∧ ¬ points.Admits (.list []) := by
  have ht : TypeExpr.ofSchema "VertexModel" points = .ok (.annotated
      (.list .builtin (.union [.scalar .int, .literal [.str "none"], .null]))
      [.restriction (.minLength (.int 1)), .field { description := some (some "Points") }]) := rfl
  have hv : Validator.ofType (.annotated
      (.list .builtin (.union [.scalar .int, .literal [.str "none"], .null]))
      [.restriction (.minLength (.int 1)), .field { description := some (some "Points") }]) =
      .ok (.list (.nullable (.union [.int none none, .literal ["none"]])) (some 1) none) := rfl
  exact ⟨(accepts_iff_admits ht hv _).1 rfl, fun h => by cases (accepts_iff_admits ht hv _).2 h⟩

end Schema

end TypeWire
