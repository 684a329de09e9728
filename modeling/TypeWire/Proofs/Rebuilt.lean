import TypeWire.Proofs.Conversion
import TypeWire.Proofs.Dictionary
import TypeWire.Proofs.NormalForm

/-!
# The types that schemas are rebuilt into

`TypeExpr.Rebuilt` is what `TypeExpr.ofSchema` makes of a schema, one rule for each shape, and
`TypeExpr.ofSchema_cases` reads it off a success. From it every rebuilt type is regular
(`TypeExpr.regular_ofSchema`).

A record is rebuilt from fields whose types have been taken apart: metadata goes to the field, keys
become aliases where they are not names. `TypeExpr.fieldOfProperty_eq` says what a field is then, and
`TypeExpr.takes_record` that the record takes what its properties say under their own keys.
-/

namespace TypeWire

namespace TypeExpr

open Validator

/-! ## The types of one schema -/

/-- Each text is kept once, so texts that differ are all kept, in their order. -/
theorem distinctValuesFrom_str (earlier texts : List String) :
    ∃ kept : List String, distinctValuesFrom (earlier.map .str) (texts.map .str) = kept.map .str ∧
      kept.Nodup ∧ (∀ s, s ∈ kept ↔ s ∈ texts ∧ s ∉ earlier) ∧
      (texts.Nodup → (∀ s ∈ texts, s ∉ earlier) → kept = texts) := by
  induction texts generalizing earlier with
  | nil => exact ⟨[], rfl, by simp, by simp, fun _ _ => rfl⟩
  | cons t ts ih =>
    have hany : (earlier.map Value.str).any (Value.str t).identical = decide (t ∈ earlier) := by
      rw [List.any_map, Bool.eq_iff_iff, List.any_eq_true, decide_eq_true_iff]
      simp
    rw [List.map_cons, distinctValuesFrom, hany]
    by_cases ht : t ∈ earlier
    · obtain ⟨kept, heq, hnodup, hmem, -⟩ := ih earlier
      refine ⟨kept, by simpa [ht] using heq, hnodup, fun s => ?_, fun _ h => ?_⟩
      · rw [hmem s, List.mem_cons]
        constructor
        · exact fun h => ⟨.inr h.1, h.2⟩
        · rintro ⟨rfl | h, hs⟩
          · exact absurd ht hs
          · exact ⟨h, hs⟩
      · exact absurd ht (h t List.mem_cons_self)
    · obtain ⟨kept, heq, hnodup, hmem, hself⟩ := ih (earlier ++ [t])
      rw [List.map_append, List.map_singleton] at heq
      refine ⟨t :: kept, by simp [ht, heq], ?_, fun s => ?_, fun hts hearlier => ?_⟩
      · exact List.nodup_cons.2 ⟨fun h => ((hmem t).1 h).2 (by simp), hnodup⟩
      · simp only [List.mem_cons, hmem s, List.mem_append, List.not_mem_nil, or_false]
        constructor
        · rintro (rfl | ⟨h, hs⟩)
          · exact ⟨.inl rfl, ht⟩
          · exact ⟨.inr h, fun h => hs (.inl h)⟩
        · rintro ⟨h | h, hs⟩
          · exact .inl h
          · by_cases hst : s = t
            · exact .inl hst
            · exact .inr ⟨h, by simp [hs, hst]⟩
      · obtain ⟨hnot, hts⟩ := List.nodup_cons.1 hts
        rw [hself hts]
        intro s hs hmem'
        rcases List.mem_append.1 hmem' with h | h
        · exact hearlier s (List.mem_cons_of_mem _ hs) h
        · obtain rfl := List.mem_singleton.1 h
          exact hnot hs

/-- A literal of texts is one of the same texts, each once. -/
theorem literalOf_str (texts : List String) :
    ∃ kept : List String, literalOf (texts.map .str) = .literal (kept.map .str) ∧ kept.Nodup ∧
      (∀ s, s ∈ kept ↔ s ∈ texts) ∧ (texts.Nodup → kept = texts) := by
  obtain ⟨kept, heq, hnodup, hmem, hself⟩ := distinctValuesFrom_str [] texts
  exact ⟨kept, congrArg TypeExpr.literal heq, hnodup, by simpa using hmem,
    fun h => hself h (by simp)⟩

/-- The type of a text: the values of an enumeration that has some, else a time or a text. -/
def ofStringSchema (f : Facets) : TypeExpr := (textBase f).described f.description []

/-- The type of a number within the bounds of a schema. -/
def ofNumberSchema (base : Scalar) (f : Facets) : TypeExpr :=
  (scalar base).described f.description (bounds f.minimum f.maximum)

/-- The type of a list within the lengths of a schema. -/
def ofArraySchema (item : TypeExpr) (f : Facets) : TypeExpr :=
  (list .builtin item).described f.description (lengths f.minItems f.maxItems)

theorem ofStringSchema_plain {f : Facets} (h : f.enum.getD [] = []) :
    ofStringSchema f = (scalar (if f.format = some "date-time" then .datetime else .str)).described
      f.description [] := by
  rw [ofStringSchema, textBase, h]

theorem ofStringSchema_enum {f : Facets} (h : f.enum.getD [] ≠ []) :
    ofStringSchema f =
      (literalOf ((f.enum.getD []).map .str)).described f.description [] := by
  unfold ofStringSchema textBase
  split
  · exact absurd ‹_› h
  · rfl

theorem regular_textBase (f : Facets) : Regular (textBase f) := by
  unfold textBase
  split
  · exact .scalar _
  · obtain ⟨kept, heq, -⟩ := literalOf_str (f.enum.getD [])
    rw [heq]
    exact .literal kept

theorem regular_ofStringSchema (f : Facets) : Regular (ofStringSchema f) :=
  regular_described (regular_textBase f) f.description

theorem regular_ofNumberSchema {s : Scalar} (hs : s = .int ∨ s = .float) (f : Facets) :
    Regular (ofNumberSchema s f) :=
  regular_restricted (.bounded f.minimum f.maximum hs) f.description

theorem regular_ofArraySchema {item : TypeExpr} (hi : Regular item) (f : Facets) :
    Regular (ofArraySchema item f) :=
  regular_restricted (.sized .builtin f.minItems f.maxItems hi) f.description

/-! ## The fields of a record -/

/-- The layers that are taken off the type of a field are its metadata, and its core is left. -/
theorem Regular.split {t : TypeExpr} (ht : Regular t) :
    FieldDecl.split t = (t.core, t.metadata) := by
  obtain ⟨hb, hn, -⟩ := ht.core
  cases t with
  | annotated base ms =>
    have hbase : FieldDecl.split base = (base, []) := by
      cases hb with
      | bounded | sized | described => cases hn
      | _ => rfl
    rw [FieldDecl.split, hbase]
    rfl
  | generic => cases ht
  | _ => rfl

theorem length_assign (place : Nat) (inUse keys : List String) :
    (FieldName.assign place inUse keys).length = keys.length := by
  induction keys generalizing place inUse with
  | nil => rfl
  | cons key keys ih =>
    rw [FieldName.assign]
    split <;> simp [ih]

/-- The description that metadata ends with. -/
def lastDescription (ms : List Meta) : Option String :=
  ms.reverse.findSome? fun m => m.spec?.bind fun s => s.description.join

theorem lastDescription_concat_restriction (ms : List Meta) (r : Restriction) :
    lastDescription (ms ++ [.restriction r]) = lastDescription ms := by
  simp [lastDescription, Meta.spec?]

theorem lastDescription_concat_description (ms : List Meta) (d : String) :
    lastDescription (ms ++ [.field { description := some (some d) }]) = some d := by
  simp [lastDescription, Meta.spec?]

/-- Plain metadata specifies nothing but the description that it ends with. -/
theorem foldl_overriddenBy {ms : List Meta} (hms : ∀ m ∈ ms, Plain m) :
    (ms.filterMap Meta.spec?).foldl FieldSpec.overriddenBy {} =
      { description := (lastDescription ms).map some } := by
  induction ms using List.reverseRecOn with
  | nil => rfl
  | append_singleton ms m ih =>
    obtain ⟨hms, hm⟩ := List.forall_mem_append.1 hms
    rw [List.filterMap_append, List.foldl_append, ih hms]
    cases List.forall_mem_singleton.1 hm with
    | restriction r => rw [lastDescription_concat_restriction]; rfl
    | description _ => rw [lastDescription_concat_description]; rfl

theorem flatMap_ofField (ms : List Meta) :
    (Meta.flattenAll (ms.flatMap Meta.ofField)).flatMap restrictionsOf =
      (Meta.flattenAll ms).flatMap restrictionsOf := by
  induction ms with
  | nil => rfl
  | cons m ms ih =>
    rw [List.flatMap_cons, flattenAll_append, List.flatMap_append, ih, Meta.flattenAll,
      List.flatMap_append]
    congr 1
    cases m with
    | field s =>
      simp only [Meta.ofField, Meta.flatten, List.flatMap_singleton, restrictionsOf]
      induction s.restrictions with
      | nil => rfl
      | cons r rs ih => simp [Meta.flattenAll, Meta.flatten, restrictionsOf, ih]
    | _ => simp [Meta.ofField, Meta.flattenAll]

/-- The metadata of a field restricts as it did in its type. -/
theorem restrictAll_ofField (ms : List Meta) (v : Validator) :
    restrictAll (ms.flatMap Meta.ofField) v = restrictAll ms v := by
  unfold restrictAll
  rw [flatMap_ofField]

/-- The field of a property: the metadata of its type goes to the field, the key is its alias where
it is not its name, and it has a default if it is not required. -/
theorem fieldOfProperty_eq {t : TypeExpr} (ht : Regular t) (required : List String)
    (name key : String) :
    fieldOfProperty required name key t =
      ({ name
         dataName := if name = key then none else some key
         description := lastDescription t.metadata
         metadata := t.metadata.flatMap Meta.ofField
         default := if required.contains key then none else some (.value .null) }, t.core) := by
  obtain ⟨-, -, hms⟩ := ht.core
  unfold fieldOfProperty FieldDecl.resolve
  simp only [ht.split, FieldDecl.merged, foldl_overriddenBy hms]
  by_cases hn : name = key <;> cases lastDescription t.metadata <;>
    simp [hn, FieldSpec.overriddenBy, FieldDecl.aliasAfter, FieldSpec.restrictions,
      namedRestrictions]

/-- A field is looked up under the key of its property, whatever it is named itself, and it may be left
out exactly if its key is not required. -/
theorem ruleOf_fieldOfProperty {t : TypeExpr} (ht : Regular t) (required : List String)
    (name key : String) :
    ruleOf (fieldOfProperty required name key t).1 =
      .ok { key, default := if required.contains key then none else some .null } := by
  rw [fieldOfProperty_eq ht]
  cases required.contains key <;> by_cases hn : name = key <;> simp [ruleOf, hn]

/-- Metadata that moves from the type of a property to the field restricts there what it restricted
before. -/
theorem ofType_fieldOfProperty {t : TypeExpr} (ht : Regular t) (required : List String)
    (name key : String) :
    (ofType (fieldOfProperty required name key t).2 >>=
      restrictAll (fieldOfProperty required name key t).1.metadata) = ofType t := by
  rw [fieldOfProperty_eq ht, ofType_core t]
  congr 1
  funext v
  exact restrictAll_ofField _ v

theorem ofFields_ok {fields : List (Field × TypeExpr)} {vs : List (FieldRule × Validator)} :
    ofFields fields = .ok vs ↔ List.Forall₂ (fun f v => ruleOf f.1 = .ok v.1 ∧
      (ofType f.2 >>= restrictAll f.1.metadata) = .ok v.2) fields vs := by
  induction fields generalizing vs with
  | nil =>
    rw [ofFields, List.forall₂_nil_left_iff, Except.ok.injEq]
    exact eq_comm
  | cons f fields ih =>
    obtain ⟨f, t⟩ := f
    rw [ofFields, List.forall₂_cons_left_iff]
    constructor
    · intro h
      obtain ⟨w, hw, h⟩ := isOk_bind.1 h
      obtain ⟨v, hv, h⟩ := isOk_bind.1 h
      obtain ⟨rule, hrule, h⟩ := isOk_bind.1 h
      obtain ⟨vs', hvs, h⟩ := isOk_bind.1 h
      cases h
      exact ⟨(rule, v), vs', ⟨hrule, isOk_bind.2 ⟨w, hw, hv⟩⟩, ih.1 hvs, rfl⟩
    · rintro ⟨⟨rule, v⟩, vs', ⟨hrule, h⟩, hvs, rfl⟩
      obtain ⟨w, hw, hv⟩ := isOk_bind.1 h
      exact isOk_bind.2 ⟨w, hw, isOk_bind.2 ⟨v, hv, isOk_bind.2 ⟨rule, hrule,
        isOk_bind.2 ⟨vs', ih.2 hvs, rfl⟩⟩⟩⟩

/-- The fields of properties. -/
def fieldsOf (required : List String) (properties : List (String × TypeExpr)) :
    List (Field × TypeExpr) :=
  (FieldName.forKeys (properties.map (·.1))).zip properties |>.map fun (name, key, t) =>
    fieldOfProperty required name key t

/-- Every property has its field, in the same order. Nothing is said of the names, which depend on
those before. -/
theorem forall₂_fieldsOf (required : List String) (properties : List (String × TypeExpr)) :
    List.Forall₂ (fun p f => ∃ name, f = fieldOfProperty required name p.1 p.2) properties
      (fieldsOf required properties) := by
  unfold fieldsOf FieldName.forKeys
  have hlen := length_assign 0 ((properties.map (·.1)).filter FieldName.isUsable)
    (properties.map (·.1))
  rw [List.length_map] at hlen
  generalize FieldName.assign 0 _ _ = names at hlen
  induction properties generalizing names with
  | nil => simp
  | cons p ps ih =>
    cases names with
    | nil => cases hlen
    | cons name names => exact .cons ⟨name, rfl⟩ (ih names (Nat.succ.inj hlen))

theorem regular_record (name : String) (doc : Option String) (required : List String)
    {types : List (String × TypeExpr)} (h : ∀ q ∈ types, Regular q.2) :
    Regular (.record name doc (fieldsOf required types)) := by
  refine .record _ _ fun field hfield => ?_
  obtain ⟨q, hq, fieldName, rfl⟩ := exists_of_forall₂ (forall₂_fieldsOf _ _) field hfield
  rw [fieldOfProperty_eq (h q hq)]
  exact (h q hq).core.1

theorem ofFields_fieldsOf {required : List String} {properties : List (String × TypeExpr)}
    (hreg : ∀ p ∈ properties, Regular p.2) {vs : List (FieldRule × Validator)} :
    ofFields (fieldsOf required properties) = .ok vs ↔ List.Forall₂ (fun p v =>
      { key := p.1, default := if required.contains p.1 then none else some .null } = v.1 ∧
        ofType p.2 = .ok v.2) properties vs := by
  rw [ofFields_ok]
  have h := forall₂_fieldsOf required properties
  generalize fieldsOf required properties = fields at h
  induction h generalizing vs with
  | nil => simp
  | cons hf _ ih =>
    obtain ⟨name, rfl⟩ := hf
    obtain ⟨hp, hps⟩ := List.forall_mem_cons.1 hreg
    simp only [List.forall₂_cons_left_iff, ruleOf_fieldOfProperty hp, ofType_fieldOfProperty hp,
      ih hps, Except.ok.injEq]

/-- A name without the null character, as records have to have one. -/
def Clear (name : String) : Prop := '\x00' ∉ name.toList

instance (name : String) : Decidable (Clear name) := inferInstanceAs (Decidable (_ ∉ _))

@[simp] theorem clear_append {a b : String} : Clear (a ++ b) ↔ Clear a ∧ Clear b := by
  simp [Clear]

theorem clear_toString (n : Nat) : Clear (toString n) := by
  intro h
  have hd := Nat.isDigit_of_mem_toDigits (by decide) (by decide) (Nat.toList_repr ▸ h)
  cases hd

/-- A record is made if its name is clear and its fields have validators. -/
theorem recordOf_ok {name : String} {f : Facets} {properties : List (String × TypeExpr)}
    {t : TypeExpr} :
    recordOf name f properties = .ok t ↔ Clear name ∧
      (∃ vs, ofFields (fieldsOf (f.required.getD []) properties) = .ok vs) ∧
      t = .record name (nonEmpty f.description) (fieldsOf (f.required.getD []) properties) := by
  unfold recordOf
  dsimp only
  split
  · rename_i hnul
    have hclear : ¬ Clear name := by simpa [Clear, String.contains_char_eq] using hnul
    simp [hclear]
  · rename_i hnul
    have hclear : Clear name := by simpa [Clear, String.contains_char_eq] using hnul
    split
    · rename_i u hu
      have hnone : ofFields (fieldsOf (f.required.getD []) properties) = .error u := hu
      simp [hnone]
    · rename_i vs hvs
      exact ⟨fun h => ⟨hclear, ⟨vs, hvs⟩, (Except.ok.inj h).symm⟩,
        fun h => congrArg Except.ok h.2.2.symm⟩

theorem recordOf_unusable {name : String} (h : ¬ Clear name) (f : Facets)
    (properties : List (String × TypeExpr)) :
    recordOf name f properties = .error .unusableName := by
  have hnul : name.contains '\x00' = true := by simpa [Clear, String.contains_char_eq] using h
  unfold recordOf
  exact if_pos hnul

/-- The record of a clear name fails only for want of a validator. -/
theorem recordOf_clear {name : String} (h : Clear name) (f : Facets)
    (properties : List (String × TypeExpr)) :
    (∃ t, recordOf name f properties = .ok t) ∨
      ∃ u, recordOf name f properties = .error (.unbuildable u) := by
  have hnul : ¬ name.contains '\x00' = true := by simpa [Clear, String.contains_char_eq] using h
  unfold recordOf
  simp only [if_neg hnul]
  split
  · exact .inr ⟨_, rfl⟩
  · exact .inl ⟨_, rfl⟩

theorem exists_recordOf {name : String} (hname : Clear name) (f : Facets)
    {properties : List (String × TypeExpr)} (hreg : ∀ p ∈ properties, Regular p.2)
    (h : ∀ p ∈ properties, p.2.HasValidator) : ∃ t, recordOf name f properties = .ok t := by
  have hall : ∀ p ∈ properties, ∃ v : FieldRule × Validator,
      { key := p.1
        default := if (f.required.getD []).contains p.1 then none else some .null } = v.1 ∧
          ofType p.2 = .ok v.2 := by
    intro p hp
    obtain ⟨v, hv⟩ := h p hp
    exact ⟨(_, v), rfl, hv⟩
  obtain ⟨vs, hvs⟩ := exists_forall₂ hall
  exact ⟨_, recordOf_ok.2 ⟨hname, ⟨vs, (ofFields_fieldsOf hreg).2 hvs⟩, rfl⟩⟩

/-- A record is not made before its properties have validators. -/
theorem hasValidator_of_recordOf {name : String} {f : Facets} {properties : List (String × TypeExpr)}
    {t : TypeExpr} (hreg : ∀ p ∈ properties, Regular p.2)
    (h : recordOf name f properties = .ok t) : ∀ p ∈ properties, p.2.HasValidator := by
  obtain ⟨-, ⟨vs, hvs⟩, -⟩ := recordOf_ok.1 h
  intro p hp
  obtain ⟨v, -, -, hv⟩ := exists_of_forall₂ ((ofFields_fieldsOf hreg).1 hvs).flip p hp
  exact ⟨v.2, hv⟩

/-- A record takes the dictionaries that have, for each property, a value that its type takes, or
none where it is not required. -/
theorem takes_record {name : String} {f : Facets} {properties : List (String × TypeExpr)}
    {t : TypeExpr} (hreg : ∀ p ∈ properties, Regular p.2)
    (h : recordOf name f properties = .ok t) {x : Value} :
    t.Takes x ↔ ∃ entries, x = .dict entries ∧ ∀ p ∈ properties,
      (∀ y ∈ Value.lookup p.1 entries, p.2.Takes y) ∧
        (Value.lookup p.1 entries = none → p.1 ∉ f.required.getD []) := by
  obtain ⟨-, ⟨vs, hvs⟩, rfl⟩ := recordOf_ok.1 h
  have hof : ofType (.record name (nonEmpty f.description)
      (fieldsOf (f.required.getD []) properties)) = .ok (.record name vs) := by
    rw [ofType, hvs]
    rfl
  rw [takes_iff hof, accepts_record]
  refine exists_congr fun entries => and_congr_right fun _ => ?_
  -- The validators stand beside the properties, each for its own.
  have hps := (ofFields_fieldsOf hreg).1 hvs
  clear h hvs hof hreg
  induction hps with
  | nil => simp
  | @cons p v ps vs hp _ ih =>
    obtain ⟨hrule, hv⟩ := hp
    rw [List.forall_mem_cons, List.forall_mem_cons]
    refine and_congr ?_ ih
    rw [← hrule]
    simp only [takes_iff hv]
    by_cases hr : p.1 ∈ f.required.getD [] <;> simp [hr]

/-! ## The shapes of schemas -/

section shapes

variable {name : String} {f : Facets} {items : Option Schema}
  {properties : Option (List (String × Schema))} {anyOf : Option (List Schema)}

theorem ofMembers_nil {i : Nat} : ofMembers name i [] = .ok [] := rfl

theorem ofMembers_cons {i : Nat} {m : Schema} {ms : List Schema} :
    ofMembers name i (m :: ms) = ofSchema (name ++ "_" ++ toString i) m >>= fun t =>
      ofMembers name (i + 1) ms >>= fun ts => pure (t :: ts) := rfl

theorem ofProperties_nil : ofProperties name [] = .ok [] := rfl

theorem ofProperties_cons {key : String} {s : Schema} {ps : List (String × Schema)} :
    ofProperties name ((key, s) :: ps) = ofSchema (name ++ "_" ++ key) s >>= fun t =>
      ofProperties name ps >>= fun ts => pure ((key, t) :: ts) := rfl

theorem ofSchema_union {m : Schema} {ms : List Schema} :
    ofSchema name (.node f items properties (some (m :: ms))) =
      ofSchema (name ++ "_0") m >>= fun t => ofMembers name 1 ms >>= fun ts =>
        pure (((unionOf (t :: ts)).described f.description []).orNull f.nullable) := by
  rw [ofSchema, convert_union]
  simp only [modify_anew]
  rfl

variable (hnil : anyOf.getD [] = [])
include hnil

theorem ofSchema_text (htype : f.type = some .string) :
    ofSchema name (.node f items properties anyOf) =
      .ok ((ofStringSchema f).orNull f.nullable) := by
  rw [ofSchema, convert_text hnil htype, modify_anew]
  rfl

theorem ofSchema_number (htype : f.type = some .number) :
    ofSchema name (.node f items properties anyOf) =
      .ok ((ofNumberSchema .float f).orNull f.nullable) := by
  rw [ofSchema, convert_number hnil htype, modify_anew]
  rfl

theorem ofSchema_integer (htype : f.type = some .integer) :
    ofSchema name (.node f items properties anyOf) =
      .ok ((ofNumberSchema .int f).orNull f.nullable) := by
  rw [ofSchema, convert_integer hnil htype, modify_anew]
  rfl

theorem ofSchema_boolean (htype : f.type = some .boolean) :
    ofSchema name (.node f items properties anyOf) =
      .ok (((scalar .bool).described f.description []).orNull f.nullable) := by
  rw [ofSchema, convert_boolean hnil htype, modify_anew]

theorem ofSchema_array {i : Schema} (htype : f.type = some .array) :
    ofSchema name (.node f (some i) properties anyOf) =
      ofSchema (name ++ "_item") i >>= fun item =>
        pure ((ofArraySchema item f).orNull f.nullable) := by
  rw [ofSchema, convert_array hnil htype]
  simp only [modify_anew]
  rfl

theorem ofSchema_undescribed (htype : f.type = some .array) :
    ofSchema name (.node f none properties anyOf) = .error .undescribedItems :=
  convert_undescribed hnil htype

theorem ofSchema_object (htype : f.type = some .object) :
    ofSchema name (.node f items properties anyOf) =
      ofProperties name (properties.getD []) >>= fun types =>
        recordOf name f types >>= fun t => pure (t.orNull f.nullable) := by
  have hrecord (types : List (String × TypeExpr)) :
      MonadExcept.ofExcept (m := Except SchemaError) (recordOf name f types) =
        recordOf name f types := by
    cases recordOf name f types <;> rfl
  have hnull : allowNull anew f.nullable = fun t => .ok (t.orNull f.nullable) :=
    funext (allowNull_anew f.nullable)
  rw [ofSchema, convert_object hnil htype]
  simp only [hrecord, hnull]
  rfl

theorem ofSchema_untyped (htype : f.type = none) :
    ofSchema name (.node f items properties anyOf) = .error .untyped :=
  convert_untyped hnil htype

/-- A schema without parts is always rebuilt. -/
theorem exists_ofSchema_scalar (htype : f.type ≠ none)
    (harray : f.type ≠ some .array) (hobject : f.type ≠ some .object) :
    ∃ t, ofSchema name (.node f items properties anyOf) = .ok t := by
  rcases h : f.type with _ | _ | _ | _ | _ | _ | _
  case none => exact absurd h htype
  case some.string => exact ⟨_, ofSchema_text hnil h⟩
  case some.number => exact ⟨_, ofSchema_number hnil h⟩
  case some.integer => exact ⟨_, ofSchema_integer hnil h⟩
  case some.boolean => exact ⟨_, ofSchema_boolean hnil h⟩
  case some.array => exact absurd h harray
  case some.object => exact absurd h hobject

end shapes

/-- A schema is rebuilt into a type, under some name that is clear if the given one is. -/
def IsRebuilt (name : String) (s : Schema) (t : TypeExpr) : Prop :=
  ∃ n, (Clear n ↔ Clear name) ∧ ofSchema n s = .ok t

/-- The types that a schema can be rebuilt into, before null is added: one rule for each shape. -/
inductive Rebuilt (name : String) (f : Facets) : Option Schema → Option (List (String × Schema)) →
    Option (List Schema) → TypeExpr → Prop
  | union {items : Option Schema} {properties : Option (List (String × Schema))} {m : Schema}
      {ms : List Schema} {ts : List TypeExpr} : List.Forall₂ (IsRebuilt name) (m :: ms) ts →
      Rebuilt name f items properties (some (m :: ms)) ((unionOf ts).described f.description [])
  | text {items : Option Schema} {properties : Option (List (String × Schema))}
      {anyOf : Option (List Schema)} : anyOf.getD [] = [] → f.type = some .string →
      Rebuilt name f items properties anyOf (ofStringSchema f)
  | number {items : Option Schema} {properties : Option (List (String × Schema))}
      {anyOf : Option (List Schema)} : anyOf.getD [] = [] → f.type = some .number →
      Rebuilt name f items properties anyOf (ofNumberSchema .float f)
  | integer {items : Option Schema} {properties : Option (List (String × Schema))}
      {anyOf : Option (List Schema)} : anyOf.getD [] = [] → f.type = some .integer →
      Rebuilt name f items properties anyOf (ofNumberSchema .int f)
  | boolean {items : Option Schema} {properties : Option (List (String × Schema))}
      {anyOf : Option (List Schema)} : anyOf.getD [] = [] → f.type = some .boolean →
      Rebuilt name f items properties anyOf ((scalar .bool).described f.description [])
  | array {s : Schema} {properties : Option (List (String × Schema))}
      {anyOf : Option (List Schema)} {item : TypeExpr} : anyOf.getD [] = [] →
      f.type = some .array → IsRebuilt name s item →
      Rebuilt name f (some s) properties anyOf (ofArraySchema item f)
  | object {items : Option Schema} {properties : Option (List (String × Schema))}
      {anyOf : Option (List Schema)} {types : List (String × TypeExpr)} {t : TypeExpr} :
      anyOf.getD [] = [] → f.type = some .object →
      List.Forall₂ (fun p q => p.1 = q.1 ∧ IsRebuilt (name ++ p.1) p.2 q.2)
        (properties.getD []) types →
      recordOf name f types = .ok t → Rebuilt name f items properties anyOf t

theorem ofMembers_forall₂ {name : String} {i : Nat} {ms : List Schema} {ts : List TypeExpr}
    (h : ofMembers name i ms = .ok ts) : List.Forall₂ (IsRebuilt name) ms ts := by
  induction ms generalizing i ts with
  | nil =>
    rw [ofMembers_nil] at h
    cases h
    exact .nil
  | cons m ms ih =>
    rw [ofMembers_cons] at h
    obtain ⟨t, ht, h⟩ := isOk_bind.1 h
    obtain ⟨ts', hts, h⟩ := isOk_bind.1 h
    cases h
    have hclear : Clear (name ++ "_" ++ toString i) ↔ Clear name := by
      simp only [clear_append, clear_toString, and_true, and_iff_left_iff_imp]
      exact fun _ => by decide
    exact .cons ⟨_, hclear, ht⟩ (ih hts)

theorem ofProperties_forall₂ {name : String} {ps : List (String × Schema)}
    {ts : List (String × TypeExpr)} (h : ofProperties name ps = .ok ts) :
    List.Forall₂ (fun p q => p.1 = q.1 ∧ IsRebuilt (name ++ p.1) p.2 q.2) ps ts := by
  induction ps generalizing ts with
  | nil =>
    rw [ofProperties_nil] at h
    cases h
    exact .nil
  | cons p ps ih =>
    obtain ⟨key, s⟩ := p
    rw [ofProperties_cons] at h
    obtain ⟨t, ht, h⟩ := isOk_bind.1 h
    obtain ⟨ts', hts, h⟩ := isOk_bind.1 h
    cases h
    exact .cons ⟨rfl, _, by simp [Clear], ht⟩ (ih hts)

/-- What a schema is rebuilt into, shape by shape. -/
theorem ofSchema_cases {name : String} {f : Facets} {items : Option Schema}
    {properties : Option (List (String × Schema))} {anyOf : Option (List Schema)} {t : TypeExpr}
    (h : ofSchema name (.node f items properties anyOf) = .ok t) :
    ∃ base, Rebuilt name f items properties anyOf base ∧ t = base.orNull f.nullable := by
  rcases members_cases anyOf with ⟨m, ms, rfl⟩ | hnil
  · rw [ofSchema_union] at h
    obtain ⟨u, hu, h⟩ := isOk_bind.1 h
    obtain ⟨us, hus, h⟩ := isOk_bind.1 h
    cases h
    have hfirst : IsRebuilt name _ u := ⟨_, by simp [Clear], hu⟩
    exact ⟨_, .union (.cons hfirst (ofMembers_forall₂ hus)), rfl⟩
  rcases htype : f.type with _ | _ | _ | _ | _ | _ | _
  case none => rw [ofSchema_untyped hnil htype] at h; cases h
  case some.string => rw [ofSchema_text hnil htype] at h; cases h; exact ⟨_, .text hnil htype, rfl⟩
  case some.number =>
    rw [ofSchema_number hnil htype] at h; cases h; exact ⟨_, .number hnil htype, rfl⟩
  case some.integer =>
    rw [ofSchema_integer hnil htype] at h; cases h; exact ⟨_, .integer hnil htype, rfl⟩
  case some.boolean =>
    rw [ofSchema_boolean hnil htype] at h; cases h; exact ⟨_, .boolean hnil htype, rfl⟩
  case some.array =>
    cases items with
    | none => rw [ofSchema_undescribed hnil htype] at h; cases h
    | some i =>
      rw [ofSchema_array hnil htype] at h
      obtain ⟨item, hitem, h⟩ := isOk_bind.1 h
      cases h
      exact ⟨_, .array hnil htype ⟨_, by simp [Clear], hitem⟩, rfl⟩
  case some.object =>
    rw [ofSchema_object hnil htype] at h
    obtain ⟨types, htypes, h⟩ := isOk_bind.1 h
    obtain ⟨u, hu, h⟩ := isOk_bind.1 h
    cases h
    exact ⟨_, .object hnil htype (ofProperties_forall₂ htypes) hu, rfl⟩

theorem Rebuilt.regular_of {name : String} {f : Facets} {items : Option Schema}
    {properties : Option (List (String × Schema))} {anyOf : Option (List Schema)} {t : TypeExpr}
    (h : Rebuilt name f items properties anyOf t)
    (hitems : ∀ s, items = some s → ∀ {n u}, ofSchema n s = .ok u → Regular u)
    (hproperties : ∀ ps, properties = some ps → ∀ p ∈ ps, ∀ {n u}, ofSchema n p.2 = .ok u → Regular u)
    (hanyOf : ∀ ms, anyOf = some ms → ∀ m ∈ ms, ∀ {n u}, ofSchema n m = .ok u → Regular u) :
    Regular t := by
  cases h with
  | union hts =>
    refine regular_described (.unionOf fun t ht => ?_) _
    obtain ⟨m, hm, n, -, hmt⟩ := exists_of_forall₂ hts t ht
    exact hanyOf _ rfl m hm hmt
  | text => exact regular_ofStringSchema f
  | number => exact regular_ofNumberSchema (.inr rfl) f
  | integer => exact regular_ofNumberSchema (.inl rfl) f
  | boolean => exact regular_described (.scalar _) _
  | array _ _ hitem =>
    obtain ⟨n, -, hitem⟩ := hitem
    exact regular_ofArraySchema (hitems _ rfl hitem) f
  | object _ _ htypes hrec =>
    obtain ⟨-, -, rfl⟩ := recordOf_ok.1 hrec
    refine regular_record _ _ _ fun q hq => ?_
    obtain ⟨p, hp, -, n, -, hpq⟩ := exists_of_forall₂ htypes q hq
    exact hproperties (properties.getD []) (by cases properties <;> simp_all) p hp hpq

/-- Every type that is rebuilt is regular, by induction over the schema. -/
theorem regular_ofSchema {s : Schema} :
    ∀ {name : String} {t : TypeExpr}, ofSchema name s = .ok t → Regular t := by
  induction s with
  | node f items properties anyOf ihItems ihProperties ihAnyOf =>
    intro name t h
    obtain ⟨base, hbase, rfl⟩ := ofSchema_cases h
    exact (hbase.regular_of ihItems ihProperties ihAnyOf).orNull _

theorem IsRebuilt.regular {name : String} {s : Schema} {t : TypeExpr} (h : IsRebuilt name s t) :
    Regular t := by
  obtain ⟨n, -, h⟩ := h
  exact regular_ofSchema h

theorem regular_members {name : String} {ms : List Schema} {ts : List TypeExpr}
    (h : List.Forall₂ (IsRebuilt name) ms ts) : ∀ t ∈ ts, Regular t :=
  forall_of_forall₂ h fun _ _ hm => hm.regular

theorem regular_properties {name : String} {ps : List (String × Schema)}
    {types : List (String × TypeExpr)}
    (h : List.Forall₂ (fun p q => p.1 = q.1 ∧ IsRebuilt (name ++ p.1) p.2 q.2) ps types) :
    ∀ q ∈ types, Regular q.2 :=
  forall_of_forall₂ h fun _ _ hp => hp.2.regular

theorem Rebuilt.regular {name : String} {f : Facets} {items : Option Schema}
    {properties : Option (List (String × Schema))} {anyOf : Option (List Schema)} {t : TypeExpr}
    (h : Rebuilt name f items properties anyOf t) : Regular t :=
  h.regular_of (fun _ _ => regular_ofSchema) (fun _ _ _ _ => regular_ofSchema)
    (fun _ _ _ _ => regular_ofSchema)

end TypeExpr

end TypeWire
