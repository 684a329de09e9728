import TypeWire.Proofs.Canonical
import TypeWire.Proofs.FieldNames
import TypeWire.Proofs.Inspection
import TypeWire.Proofs.ReadBack

/-!
# The fields of rebuilt records

Names for keys are chosen one after the other (`FieldName.Assigned`). A key that can name a field names
it; for any other, a first candidate is lengthened until it is not in use (`FieldName.Settles`). That
comes to an end, although nothing in the loop bounds it: candidates differ, and finitely many names are
in use.

The names in use at the beginning are all keys that can name a field, also those that come later, and
each made-up name is added to them. So no two fields have one name (`FieldName.Assigned.nodup`), and a
record has a field for each property (`TypeExpr.ofSchema_keepsApart`).

Read back, a field is named by its alias. An alias that is empty counts for none, so the names are the
keys exactly if no key is empty (`Node.names_rebuilt_iff`).
-/

namespace TypeWire

namespace FieldName

/-! ## Lengthening -/

/-- A name, lengthened as long as it is in use, comes to be another. -/
inductive Settles (inUse : List String) : String → String → Prop
  | free {name : String} : name ∉ inUse → Settles inUse name name
  | lengthen {name result : String} : name ∈ inUse → Settles inUse (name ++ "_") result →
      Settles inUse name result

theorem Settles.not_mem {inUse : List String} {name result : String}
    (h : Settles inUse name result) : result ∉ inUse := by
  induction h with
  | free hname => exact hname
  | lengthen _ _ ih => exact ih

theorem candidate_succ (place n : Nat) : candidate place n ++ "_" = candidate place (n + 1) := by
  have hlast : List.replicate (n + 1) '_' = List.replicate n '_' ++ ['_'] := List.replicate_succ'
  unfold candidate
  rw [hlast, String.ofList_append, String.append_assoc]

/-- All shorter candidates are in use where a made-up name is chosen. -/
theorem exists_madeUp (place : Nat) (inUse : List String) :
    ∃ n, madeUp place inUse = candidate place n ∧ ∀ m < n, candidate place m ∈ inUse := by
  unfold madeUp
  dsimp only
  rw [List.find?_map]
  cases hfind : (List.range (inUse.length + 1)).find?
      ((fun c => !inUse.contains c) ∘ candidate place) with
  | some n =>
    obtain ⟨-, -, hshorter⟩ := List.find?_range_eq_some.1 hfind
    exact ⟨n, rfl, fun m hm => by simpa using hshorter m hm⟩
  | none =>
    refine ⟨inUse.length + 1, rfl, fun m hm => ?_⟩
    simpa using List.find?_eq_none.1 hfind m (List.mem_range.2 hm)

theorem settles_madeUp (place : Nat) (inUse : List String) :
    Settles inUse (candidate place 0) (madeUp place inUse) := by
  obtain ⟨n, hn, hshorter⟩ := exists_madeUp place inUse
  have hfree : candidate place n ∉ inUse := hn ▸ (madeUp_spec place inUse).2
  rw [hn]
  -- from the name that is chosen down to the first candidate, all of them in use
  have hdown : ∀ d ≤ n, Settles inUse (candidate place (n - d)) (candidate place n) := by
    intro d hd
    induction d with
    | zero => exact .free hfree
    | succ d ih =>
      have hnext : n - (d + 1) + 1 = n - d := by omega
      refine .lengthen (hshorter _ (by omega)) ?_
      rw [candidate_succ, hnext]
      exact ih (by omega)
  simpa using hdown n le_rfl

/-! ## Names for all keys -/

/-- The names that keys have, from a place on, if these names are in use. -/
inductive Assigned : Nat → List String → List String → List String → Prop
  | nil {place : Nat} {inUse : List String} : Assigned place inUse [] []
  | own {place : Nat} {inUse keys names : List String} {key : String} : isUsable key = true →
      Assigned (place + 1) inUse keys names → Assigned place inUse (key :: keys) (key :: names)
  | madeUp {place : Nat} {inUse keys names : List String} {key name : String} :
      isUsable key = false → Settles inUse (candidate place 0) name →
      Assigned (place + 1) (name :: inUse) keys names →
      Assigned place inUse (key :: keys) (name :: names)

theorem assigned_assign (keys : List String) : ∀ (place : Nat) (inUse : List String),
    Assigned place inUse keys (assign place inUse keys) := by
  induction keys with
  | nil => exact fun _ _ => .nil
  | cons key keys ih =>
    intro place inUse
    rw [assign]
    cases hkey : isUsable key with
    | true => exact .own hkey (ih _ _)
    | false => exact .madeUp hkey (settles_madeUp place inUse) (ih _ _)

namespace Assigned

variable {place : Nat} {inUse keys names : List String}

theorem usable_or_new (h : Assigned place inUse keys names) :
    ∀ name ∈ names, (name ∈ keys ∧ isUsable name = true) ∨ name ∉ inUse := by
  induction h with
  | nil => exact List.forall_mem_nil _
  | own hkey _ ih =>
    refine List.forall_mem_cons.2 ⟨.inl ⟨List.mem_cons_self, hkey⟩, fun name hname => ?_⟩
    exact (ih name hname).imp_left fun h => ⟨List.mem_cons_of_mem _ h.1, h.2⟩
  | madeUp _ hsettles _ ih =>
    refine List.forall_mem_cons.2 ⟨.inr hsettles.not_mem, fun name hname => ?_⟩
    rcases ih name hname with h | h
    · exact .inl ⟨List.mem_cons_of_mem _ h.1, h.2⟩
    · exact .inr fun hmem => h (List.mem_cons_of_mem _ hmem)

/-- No two keys have one name, if they differ and the usable ones among them are in use. -/
theorem nodup (h : Assigned place inUse keys names) (hkeys : keys.Nodup)
    (huse : ∀ key ∈ keys, isUsable key = true → key ∈ inUse) : names.Nodup := by
  induction h with
  | nil => exact List.nodup_nil
  | @own place inUse keys names key hkey hrest ih =>
    obtain ⟨hnot, hkeys⟩ := List.nodup_cons.1 hkeys
    obtain ⟨hfirst, huse⟩ := List.forall_mem_cons.1 huse
    refine List.nodup_cons.2 ⟨fun hmem => ?_, ih hkeys huse⟩
    rcases hrest.usable_or_new key hmem with h | h
    · exact hnot h.1
    · exact h (hfirst hkey)
  | @madeUp place inUse keys names key name hkey hsettles hrest ih =>
    obtain ⟨-, hkeys⟩ := List.nodup_cons.1 hkeys
    obtain ⟨-, huse⟩ := List.forall_mem_cons.1 huse
    refine List.nodup_cons.2 ⟨fun hmem => ?_,
      ih hkeys fun key hmem husable => List.mem_cons_of_mem _ (huse key hmem husable)⟩
    rcases hrest.usable_or_new name hmem with h | h
    · exact hsettles.not_mem (huse name h.1 h.2)
    · exact h List.mem_cons_self

end Assigned

end FieldName

/-! ## The fields of an object -/

def Schema.keys (s : Schema) : List String := (s.properties.getD []).map (·.1)

/-- A schema that is rebuilt into a record. -/
def Schema.IsObject (s : Schema) : Prop := s.anyOf.getD [] = [] ∧ s.facets.type = some .object

namespace TypeExpr

variable {name : String} {s : Schema} {t : TypeExpr}

theorem exists_fieldsOf (hs : s.IsObject) (ht : ofSchema name s = .ok t) :
    ∃ doc types, types.map (·.1) = s.keys ∧ (∀ q ∈ types, Regular q.2) ∧
      t = (record name doc (fieldsOf (s.facets.required.getD []) types)).orNull s.facets.nullable := by
  obtain ⟨f, items, properties, anyOf⟩ := s
  obtain ⟨hnone, hobject⟩ : anyOf.getD [] = [] ∧ f.type = some .object := hs
  obtain ⟨base, hbase, rfl⟩ := ofSchema_cases ht
  cases hbase with
  | union => cases hnone
  | text _ h | number _ h | integer _ h | boolean _ h | array _ h =>
    rw [hobject] at h
    cases h
  | object _ _ htypes hrecord =>
    obtain ⟨-, -, rfl⟩ := recordOf_ok.1 hrecord
    exact ⟨_, _, (map_eq_of_forall₂ htypes fun _ _ h => h.1).symm, regular_properties htypes, rfl⟩

theorem map_name_fieldsOf (required : List String) (types : List (String × TypeExpr)) :
    (fieldsOf required types).map (·.1.name) = FieldName.forKeys (types.map (·.1)) := by
  have hlen : (FieldName.forKeys (types.map (·.1))).length = types.length := by
    rw [FieldName.forKeys, length_assign, List.length_map]
  unfold fieldsOf
  rw [List.map_map]
  exact List.map_fst_zip hlen.le

/-- The field stands for the property with a key, among properties with these keys. -/
structure StandsFor (keys required : List String) (key : String) (f : Field) : Prop where
  own : FieldName.isUsable key = true → f.name = key ∧ f.dataName = none
  madeUp : FieldName.isUsable key = false →
    f.dataName = some key ∧ FieldName.isUsable f.name = true ∧ f.name ∉ keys
  required_iff : f.isOptional = false ↔ key ∈ required

theorem standsFor_fieldOfProperty {u : TypeExpr} (hu : Regular u) {keys required : List String}
    {fieldName key : String} (hname : if FieldName.isUsable key then fieldName = key else
      FieldName.isUsable fieldName = true ∧ fieldName ∉ keys) :
    StandsFor keys required key (fieldOfProperty required fieldName key u).1 := by
  refine ⟨fun hkey => ?_, fun hkey => ?_, ?_⟩
  · rw [if_pos hkey] at hname
    rw [fieldOfProperty_eq hu]
    exact ⟨hname, if_pos hname⟩
  · rw [hkey, if_neg Bool.false_ne_true] at hname
    have hne : fieldName ≠ key := by
      rintro rfl
      rw [hname.1] at hkey
      cases hkey
    rw [fieldOfProperty_eq hu]
    exact ⟨if_neg hne, hname⟩
  · rw [isOptional_fieldOfProperty hu]
    simp

/-- A record that is rebuilt from an object has one field for each property, in their order. The names
are chosen by a loop that ends for each key, no two of them are the same, and a field is required if
its key is. -/
theorem ofSchema_keepsApart (hs : s.IsObject) (hkeys : s.keys.Nodup)
    (ht : ofSchema name s = .ok t) :
    ∃ doc fields, t = (record name doc fields).orNull s.facets.nullable ∧
      FieldName.Assigned 0 (s.keys.filter FieldName.isUsable) s.keys (fields.map (·.1.name)) ∧
      (fields.map (·.1.name)).Nodup ∧ fields.length = s.keys.length ∧
      List.Forall₂ (StandsFor s.keys (s.facets.required.getD [])) s.keys (fields.map (·.1)) := by
  obtain ⟨doc, types, htypes, hregular, rfl⟩ := exists_fieldsOf hs ht
  have hassigned : FieldName.Assigned 0 (s.keys.filter FieldName.isUsable) s.keys
      ((fieldsOf (s.facets.required.getD []) types).map (·.1.name)) := by
    rw [map_name_fieldsOf, htypes]
    exact FieldName.assigned_assign _ _ _
  have hfields : List.Forall₂ (StandsFor s.keys (s.facets.required.getD [])) s.keys
      ((fieldsOf (s.facets.required.getD []) types).map (·.1)) := by
    rw [← htypes, List.forall₂_map_left_iff, List.forall₂_map_right_iff]
    refine ((List.forall₂_and_left _ _).2 ⟨hregular, forall₂_named _ types⟩).imp ?_
    rintro q f ⟨hq, fieldName, rfl, hname⟩
    exact standsFor_fieldOfProperty hq hname
  refine ⟨doc, _, rfl, hassigned, hassigned.nodup hkeys fun key hkey husable => ?_, ?_, hfields⟩
  · exact List.mem_filter.2 ⟨hkey, husable⟩
  · simpa using hfields.length_eq.symm

end TypeExpr

/-- Four properties, the second of them under the key. -/
def crate (key : String) : Schema :=
  .node { type := some .object, nullable := some true, required := some [key] } none
    (some [("label", .leaf { type := some .string }), (key, .leaf { type := some .integer }),
      ("field_1", .leaf { type := some .number }), ("class", .leaf { type := some .boolean })]) none

theorem isObject_crate (key : String) : (crate key).IsObject := ⟨rfl, rfl⟩

theorem exists_ofSchema_crate (key : String) :
    ∃ t, TypeExpr.ofSchema "Crate" (crate key) = .ok t := by
  have htypes : TypeExpr.ofProperties "Crate" ((crate key).properties.getD []) =
      .ok [("label", .scalar .str), (key, .scalar .int), ("field_1", .scalar .float),
        ("class", .scalar .bool)] := rfl
  have hregular := TypeExpr.regular_properties (TypeExpr.ofProperties_forall₂ htypes)
  have hname : TypeExpr.Clear "Crate" := by decide
  obtain ⟨t, ht⟩ := TypeExpr.exists_recordOf hname (crate key).facets hregular (by
    simp only [List.forall_mem_cons]
    exact ⟨⟨_, rfl⟩, ⟨_, rfl⟩, ⟨_, rfl⟩, ⟨_, rfl⟩, List.forall_mem_nil _⟩)
  refine ⟨t.orNull (some true), ?_⟩
  rw [crate, TypeExpr.ofSchema_object rfl rfl]
  exact isOk_bind.2 ⟨_, htypes, isOk_bind.2 ⟨t, ht, rfl⟩⟩

theorem TypeExpr.crate_keepsApart : (crate "").IsObject ∧ (crate "").keys.Nodup ∧
    ∃ t, ofSchema "Crate" (crate "") = .ok t ∧
      ∃ doc fields, t = (record "Crate" doc fields).orNull (some true) ∧
        FieldName.Assigned 0 ["label", "field_1"] (crate "").keys (fields.map (·.1.name)) ∧
        (fields.map (·.1.name)).Nodup ∧ fields.length = 4 ∧
        List.Forall₂ (StandsFor (crate "").keys [""]) (crate "").keys (fields.map (·.1)) := by
  have hkeys : (crate "").keys.Nodup := by decide
  have husable : (crate "").keys.filter FieldName.isUsable = ["label", "field_1"] := by decide +kernel
  obtain ⟨t, ht⟩ := exists_ofSchema_crate ""
  obtain ⟨doc, fields, rfl, hassigned, h⟩ := ofSchema_keepsApart (isObject_crate "") hkeys ht
  exact ⟨isObject_crate _, hkeys, _, ht, doc, fields, rfl, husable ▸ hassigned, h⟩

/-! ## Names read back -/

/-- The names in data of fields with these names, for these keys. -/
def FieldName.readBack (names keys : List String) : List String :=
  List.zipWith (fun name key => if key = "" then name else key) names keys

theorem FieldName.readBack_eq_iff {names keys : List String}
    (h : List.Forall₂ (fun name key => key = "" → name ≠ "") names keys) :
    readBack names keys = keys ↔ "" ∉ keys := by
  unfold readBack
  induction h with
  | nil => simp
  | @cons name key names keys hname _ ih =>
    rw [List.zipWith_cons_cons, List.cons.injEq, ih, List.mem_cons, not_or]
    by_cases hkey : key = ""
    · simp [hkey, hname hkey]
    · simp [hkey, Ne.symm hkey]

theorem TypeExpr.map_wireName_fieldsOf (required : List String) {types : List (String × TypeExpr)}
    (hregular : ∀ q ∈ types, Regular q.2) :
    (fieldsOf required types).map (fun f => f.1.wireName) =
      FieldName.readBack (FieldName.forKeys (types.map (·.1))) (types.map (·.1)) := by
  unfold fieldsOf FieldName.readBack
  rw [List.map_map, List.zipWith_map_right, ← List.map_uncurry_zip_eq_zipWith]
  refine List.map_congr_left ?_
  rintro ⟨name, key, u⟩ hq
  exact wireName_fieldOfProperty (hregular _ (List.of_mem_zip hq).2) _ _ _

namespace Node

variable {name : String} {s : Schema} {t : TypeExpr}

theorem exists_object_of_rebuilt (hs : s.IsObject) (ht : TypeExpr.ofSchema name s = .ok t)
    (models : List Model) : ∃ h fields, ofTypeIn models t = .object h fields ∧
      fields.map (·.1) = FieldName.readBack (FieldName.forKeys s.keys) s.keys := by
  have hself : ofTypeIn models t = ofType t := by
    rw [ofTypeIn, TypeExpr.expand, (TypeExpr.regular_ofSchema ht).mapModels_eq_self]
  obtain ⟨doc, types, htypes, hregular, rfl⟩ := TypeExpr.exists_fieldsOf hs ht
  have hnames : (readFields (TypeExpr.fieldsOf (s.facets.required.getD []) types)).map (·.1) =
      FieldName.readBack (FieldName.forKeys s.keys) s.keys := by
    rw [← htypes, ← TypeExpr.map_wireName_fieldsOf _ hregular, readFields_eq, List.map_map]
    rfl
  rw [hself]
  unfold TypeExpr.orNull
  split
  · rw [TypeExpr.ofType_optionalOf (TypeExpr.regular_record _ _ _ hregular) (List.cons_ne_nil _ _)
      (List.forall_mem_singleton.2 rfl)]
    exact ⟨_, _, rfl, hnames⟩
  · exact ⟨_, _, rfl, hnames⟩

/-- The record that is rebuilt from an object is read back with the keys of the properties as the names
of its fields exactly if no key is empty. -/
theorem names_rebuilt_iff (hs : s.IsObject) (ht : TypeExpr.ofSchema name s = .ok t)
    (models : List Model) : ∃ h fields, ofTypeIn models t = .object h fields ∧
      (fields.map (·.1) = s.keys ↔ "" ∉ s.keys) := by
  obtain ⟨h, fields, hobject, hfields⟩ := exists_object_of_rebuilt hs ht models
  refine ⟨h, fields, hobject, ?_⟩
  rw [hfields]
  refine FieldName.readBack_eq_iff ((FieldName.forall₂_forKeys s.keys).imp fun fieldName key hname => ?_)
  rintro rfl
  rw [if_neg (by decide)] at hname
  exact FieldName.ne_empty_of_isUsable hname.1

theorem crate_names : (crate "two words").IsObject ∧ "" ∉ (crate "two words").keys ∧
    ∃ t, TypeExpr.ofSchema "Crate" (crate "two words") = .ok t ∧
      ∃ h fields, ofTypeIn [] t = .object h fields ∧
        fields.map (·.1) = ["label", "two words", "field_1", "class"] := by
  obtain ⟨t, ht⟩ := exists_ofSchema_crate "two words"
  obtain ⟨h, fields, hobject, hnames⟩ := names_rebuilt_iff (isObject_crate "two words") ht []
  have hempty : "" ∉ (crate "two words").keys := by decide
  exact ⟨isObject_crate _, hempty, t, ht, h, fields, hobject, hnames.2 hempty⟩

/-- The name `field_1` is a key, so the field of the empty key has a longer name, which is read. -/
theorem crate_renamed : (crate "").IsObject ∧ (crate "").keys = ["label", "", "field_1", "class"] ∧
    ∃ t, TypeExpr.ofSchema "Crate" (crate "") = .ok t ∧
      ∃ h fields, ofTypeIn [] t = .object h fields ∧
        fields.map (·.1) = ["label", "field_1_", "field_1", "class"] := by
  obtain ⟨t, ht⟩ := exists_ofSchema_crate ""
  obtain ⟨h, fields, hobject, hnames⟩ := exists_object_of_rebuilt (isObject_crate "") ht []
  refine ⟨isObject_crate _, rfl, t, ht, h, fields, hobject, hnames.trans ?_⟩
  decide +kernel

end Node

end TypeWire
