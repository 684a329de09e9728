import TypeWire.Proofs.Dictionary
import TypeWire.Proofs.Induction
import TypeWire.Schema.Decode
import TypeWire.Schema.Encode

/-!
# Wire forms of schemas

A wire form of a schema (`Schema.IsWire`) is the dictionary of its fields, in any order; the order of
properties is part of the schema. Whatever the order, it is read as the schema
(`Schema.decode_wire`), so reading undoes writing (`Schema.decode_encode`). Whatever is read has no
key twice (`Schema.keyed_decode`).

Each entry fills one field of a draft in (`Schema.decodeEntries_field`), and fields are filled in
independently (`Schema.fill_comm`).
-/

namespace TypeWire

namespace Schema

/-- The value of a field in wire data, given the values of the parts of the schema. -/
def wireValue (sample : Value → Value) (f : Facets) (items properties anyOf : Option Value) :
    WireKey → Option Value
  | .type => f.type.map fun t => .str t.word
  | .format => f.format.map .str
  | .description => f.description.map .str
  | .nullable => f.nullable.map .bool
  | .items => items
  | .enum => f.enum.map textList
  | .properties => properties
  | .required => f.required.map textList
  | .sample => f.sample.map sample
  | .propertyOrdering => f.propertyOrdering.map textList
  | .anyOf => anyOf
  | .minItems => f.minItems.map .int
  | .maxItems => f.maxItems.map .int
  | .minimum => f.minimum.map .float
  | .maximum => f.maximum.map .float

theorem entries_eq (sample : Value → Value) (f : Facets) (items properties anyOf : Option Value) :
    entries sample f items properties anyOf =
      WireKey.all.flatMap fun key => entry key (wireValue sample f items properties anyOf key) := by
  simp [entries, WireKey.all, wireValue]

/-- A draft with one field as the schema has it. -/
def Draft.fill (s : Schema) (key : WireKey) (d : Draft) : Draft :=
  match key with
  | .type => { d with facets := { d.facets with type := s.facets.type } }
  | .format => { d with facets := { d.facets with format := s.facets.format } }
  | .description => { d with facets := { d.facets with description := s.facets.description } }
  | .nullable => { d with facets := { d.facets with nullable := s.facets.nullable } }
  | .items => { d with items := s.items }
  | .enum => { d with facets := { d.facets with enum := s.facets.enum } }
  | .properties => { d with properties := s.properties }
  | .required => { d with facets := { d.facets with required := s.facets.required } }
  | .sample => { d with facets := { d.facets with sample := s.facets.sample } }
  | .propertyOrdering =>
    { d with facets := { d.facets with propertyOrdering := s.facets.propertyOrdering } }
  | .anyOf => { d with anyOf := s.anyOf }
  | .minItems => { d with facets := { d.facets with minItems := s.facets.minItems } }
  | .maxItems => { d with facets := { d.facets with maxItems := s.facets.maxItems } }
  | .minimum => { d with facets := { d.facets with minimum := s.facets.minimum } }
  | .maximum => { d with facets := { d.facets with maximum := s.facets.maximum } }

theorem fill_comm (s : Schema) (a b : WireKey) (d : Draft) :
    (d.fill s a).fill s b = (d.fill s b).fill s a := by
  cases a <;> cases b <;> rfl

theorem foldr_fill_all (f : Facets) (items : Option Schema)
    (properties : Option (List (String × Schema))) (anyOf : Option (List Schema)) :
    WireKey.all.foldr (Draft.fill (node f items properties anyOf)) {} =
      { facets := f, items, properties, anyOf } := rfl

theorem keyOf_wireName (given : List String) (key : WireKey) :
    keyOf given (.str key.wireName) = .ok (key.wireName, key) := by
  cases key <;> rfl

theorem decodeType_word (t : SchemaType) : decodeType (.str t.word) = .ok t := by
  cases t <;> rfl

theorem decodeTexts_str (texts : List String) (i : Nat) :
    decodeTexts i (texts.map .str) = .ok texts := by
  induction texts generalizing i with
  | nil => rfl
  | cons s ss ih =>
    rw [List.map_cons, decodeTexts, ih]
    rfl

theorem foldr_fill_fill (s : Schema) (key : WireKey) (keys : List WireKey) (d : Draft) :
    (keys.foldr (Draft.fill s) d).fill s key = keys.foldr (Draft.fill s) (d.fill s key) := by
  induction keys with
  | nil => rfl
  | cons k keys ih => rw [List.foldr_cons, List.foldr_cons, fill_comm, ih]

/-- Entries that each fill a field in do so in any order. -/
theorem decodeEntries_perm {s : Schema} {given : List String} {es es' : List (Value × Value)}
    (h : es.Perm es') (hes : ∀ e ∈ es, ∃ key, ∀ rest,
      decodeEntries given (e :: rest) = (decodeEntries given rest).fill s key) :
    decodeEntries given es = decodeEntries given es' := by
  induction h with
  | nil => rfl
  | cons e _ ih =>
    obtain ⟨⟨key, hkey⟩, hes⟩ := List.forall_mem_cons.1 hes
    rw [hkey, hkey, ih hes]
  | swap e e' rest =>
    obtain ⟨⟨key, hkey⟩, hes⟩ := List.forall_mem_cons.1 hes
    obtain ⟨⟨key', hkey'⟩, -⟩ := List.forall_mem_cons.1 hes
    rw [hkey, hkey', hkey', hkey, fill_comm]
  | trans h _ ih ih' => rw [ih hes, ih' fun e he => hes e (h.mem_iff.2 he)]

mutual

/-- A value is a wire form of a schema: the dictionary of its fields, in any order, with wire forms
of its parts. The order of properties is that of the schema. -/
def IsWire : Schema → Value → Prop
  | node f items properties anyOf, w =>
    ∃ es i p a, w = .dict es ∧ es.Perm (entries Value.plain f i p a) ∧
      (match items with
        | none => i = none
        | some s => ∃ v, i = some v ∧ IsWire s v) ∧
      (match properties with
        | none => p = none
        | some ps => ∃ vs, p = some (.dict vs) ∧ AreProperties ps vs) ∧
      (match anyOf with
        | none => a = none
        | some ms => ∃ vs, a = some (.list vs) ∧ AreMembers ms vs)

/-- Values under keys are wire forms of properties. -/
def AreProperties : List (String × Schema) → List (Value × Value) → Prop
  | [], vs => vs = []
  | (k, s) :: ps, vs => ∃ v rest, vs = (.str k, v) :: rest ∧ IsWire s v ∧ AreProperties ps rest

/-- Values are wire forms of the members of a union. -/
def AreMembers : List Schema → List Value → Prop
  | [], vs => vs = []
  | s :: ss, vs => ∃ v rest, vs = v :: rest ∧ IsWire s v ∧ AreMembers ss rest

end

/-- A schema that can be read from its wire forms: an example is in plain form and not null, and no key
is there twice. -/
inductive Legible : Schema → Prop
  | node {f : Facets} {items : Option Schema} {properties : Option (List (String × Schema))}
      {anyOf : Option (List Schema)} :
      (∀ v ∈ f.sample, v.isNull = false ∧ v.plain = v) →
      (∀ ps ∈ properties, (ps.map (·.1)).Nodup) →
      (∀ s ∈ items, Legible s) → (∀ ps ∈ properties, ∀ p ∈ ps, Legible p.2) →
      (∀ ms ∈ anyOf, ∀ m ∈ ms, Legible m) → Legible (node f items properties anyOf)

/-- Values are read as the parts of a schema. -/
structure AreParts (items : Option Schema) (properties : Option (List (String × Schema)))
    (anyOf : Option (List Schema)) (i p a : Option Value) : Prop where
  readItems : ∀ v ∈ i, v.isNull = false ∧ ∃ s, items = some s ∧ decode v = .ok s
  readProperties : ∀ v ∈ p, ∃ vs ps, v = .dict vs ∧ decodeProperties vs = .ok ps ∧
    properties = some (dictOfList ps)
  readAnyOf : ∀ v ∈ a, ∃ vs ms, v = .list vs ∧ decodeMembers 0 vs = .ok ms ∧ anyOf = some ms
  noItems : i = none → items = none
  noProperties : p = none → properties = none
  noAnyOf : a = none → anyOf = none

section parts
variable {f : Facets} {items : Option Schema} {properties : Option (List (String × Schema))}
  {anyOf : Option (List Schema)} {i p a : Option Value}

/-- An entry for a field fills the field in. -/
theorem decodeEntries_field (hparts : AreParts items properties anyOf i p a)
    (hsample : ∀ v ∈ f.sample, v.isNull = false ∧ v.plain = v) (given : List String) {key : WireKey}
    {v : Value}
    (hv : wireValue Value.plain f i p a key = some v) (rest : List (Value × Value)) :
    decodeEntries given ((.str key.wireName, v) :: rest) =
      (decodeEntries given rest).fill (node f items properties anyOf) key := by
  rw [decodeEntries, keyOf_wireName]
  cases key with
  | type =>
    obtain ⟨t, ht, rfl⟩ := Option.map_eq_some_iff.1 hv
    simp [decodeFacet, Draft.putFacet, Draft.put, optional, Value.isNull, decodeType_word, Draft.fill,
      Except.map, facets, ht]
  | items =>
    obtain ⟨hn, s, rfl, hs⟩ := hparts.readItems v hv
    simp [hn, hs, Draft.put, Draft.fill, Schema.items]
  | properties =>
    obtain ⟨vs, ps, rfl, hps, rfl⟩ := hparts.readProperties v hv
    simp [hps, Draft.put, Draft.fill, Schema.properties]
  | anyOf =>
    obtain ⟨vs, ms, rfl, hms, rfl⟩ := hparts.readAnyOf v hv
    simp [hms, Draft.put, Draft.fill, Schema.anyOf]
  | sample =>
    obtain ⟨x, hx, rfl⟩ := Option.map_eq_some_iff.1 hv
    obtain ⟨hn, hplain⟩ := hsample x hx
    simp [decodeFacet, Draft.putFacet, Draft.put, optional, hn, hplain, Draft.fill, Except.map,
      facets, hx]
  | enum | required | propertyOrdering =>
    obtain ⟨t, ht, rfl⟩ := Option.map_eq_some_iff.1 hv
    simp [decodeFacet, Draft.putFacet, Draft.put, optional, Value.isNull, textList, decodeTextList,
      decodeTexts_str, Draft.fill, Except.map, facets, ht]
  | format | description | nullable | minItems | maxItems | minimum | maximum =>
    obtain ⟨t, ht, rfl⟩ := Option.map_eq_some_iff.1 hv
    simp [decodeFacet, Draft.putFacet, Draft.put, optional, Value.isNull, scalar, Coercion.text,
      Coercion.bool, Coercion.int, Coercion.float, Draft.fill, Except.map, facets, ht]

theorem fill_absent (hparts : AreParts items properties anyOf i p a) {key : WireKey}
    (h : wireValue Value.plain f i p a key = none) :
    Draft.fill (node f items properties anyOf) key {} = {} := by
  cases key with
  | items => simp [Draft.fill, Schema.items, hparts.noItems h]
  | properties => simp [Draft.fill, Schema.properties, hparts.noProperties h]
  | anyOf => simp [Draft.fill, Schema.anyOf, hparts.noAnyOf h]
  | _ => simp [Draft.fill, facets, Option.map_eq_none_iff.1 h]

theorem decodeEntries_wire (hparts : AreParts items properties anyOf i p a)
    (hsample : ∀ v ∈ f.sample, v.isNull = false ∧ v.plain = v) (given : List String)
    {es : List (Value × Value)} (h : es.Perm (entries Value.plain f i p a)) :
    decodeEntries given es = { facets := f, items, properties, anyOf } := by
  have hkeys (keys : List WireKey) : decodeEntries given (keys.flatMap fun key =>
      entry key (wireValue Value.plain f i p a key)) =
        keys.foldr (Draft.fill (node f items properties anyOf)) {} := by
    induction keys with
    | nil => rw [List.flatMap_nil, decodeEntries]; rfl
    | cons key keys ih =>
      rw [List.flatMap_cons, List.foldr_cons]
      cases hv : wireValue Value.plain f i p a key with
      | none => rw [foldr_fill_fill, fill_absent hparts hv]; exact ih
      | some v => rw [← ih]; exact decodeEntries_field hparts hsample given hv _
  rw [entries_eq] at h
  have hfills : ∀ e ∈ es, ∃ key, ∀ rest, decodeEntries given (e :: rest) =
      (decodeEntries given rest).fill (node f items properties anyOf) key := by
    intro e he
    obtain ⟨key, -, he⟩ := List.mem_flatMap.1 (h.mem_iff.1 he)
    cases hv : wireValue Value.plain f i p a key with
    | none => rw [hv] at he; cases he
    | some v =>
      rw [hv] at he
      obtain rfl := List.mem_singleton.1 he
      exact ⟨key, decodeEntries_field hparts hsample given hv⟩
  rw [decodeEntries_perm h hfills, hkeys, foldr_fill_all]

end parts

theorem decodeProperties_wire {ps : List (String × Schema)} {vs : List (Value × Value)}
    (hps : ∀ p ∈ ps, ∀ w, p.2.IsWire w → decode w = .ok p.2) (h : AreProperties ps vs) :
    decodeProperties vs = .ok ps := by
  induction ps generalizing vs with
  | nil =>
    rw [AreProperties] at h
    rw [h, decodeProperties]
  | cons p ps ih =>
    obtain ⟨hp, hps⟩ := List.forall_mem_cons.1 hps
    obtain ⟨v, rest, rfl, hv, hrest⟩ := h
    have hkey : decodePropertyKey (.str p.1) = .ok p.1 := rfl
    rw [decodeProperties, hkey, hp v hv, ih hps hrest]

theorem decodeMembers_wire {ms : List Schema} {vs : List Value}
    (hms : ∀ m ∈ ms, ∀ w, m.IsWire w → decode w = .ok m) (h : AreMembers ms vs) (place : Nat) :
    decodeMembers place vs = .ok ms := by
  induction ms generalizing vs place with
  | nil =>
    rw [AreMembers] at h
    rw [h, decodeMembers]
  | cons m ms ih =>
    obtain ⟨hm, hms⟩ := List.forall_mem_cons.1 hms
    obtain ⟨v, rest, rfl, hv, hrest⟩ := h
    rw [decodeMembers, hm v hv, ih hms hrest]

/-- A wire form of a schema is read as the schema. -/
theorem decode_wire {s : Schema} : ∀ {w : Value}, s.Legible → s.IsWire w → decode w = .ok s := by
  induction s with
  | node f items properties anyOf ihItems ihProperties ihAnyOf =>
    intro w hlegible hw
    obtain ⟨hsample, hkeys, hlItems, hlProperties, hlAnyOf⟩ := hlegible
    rw [IsWire] at hw
    obtain ⟨es, i, p, a, rfl, hperm, hi, hp, ha⟩ := hw
    have hitems : ∀ v ∈ i, v.isNull = false ∧ ∃ s, items = some s ∧ decode v = .ok s := by
      cases items with
      | none => simp [show i = none from hi]
      | some s =>
        obtain ⟨v, rfl, hv⟩ := hi
        have hread := ihItems s rfl (hlItems s rfl) hv
        have hnull : v.isNull = false := by
          cases v with
          | null => simp [decode] at hread
          | _ => rfl
        simpa using ⟨hnull, hread⟩
    have hproperties : ∀ v ∈ p, ∃ vs ps, v = .dict vs ∧ decodeProperties vs = .ok ps ∧
        properties = some (dictOfList ps) := by
      cases properties with
      | none => simp [show p = none from hp]
      | some ps =>
        obtain ⟨vs, rfl, hvs⟩ := hp
        have hread := decodeProperties_wire (fun q hq w hw =>
          ihProperties ps rfl q hq (hlProperties ps rfl q hq) hw) hvs
        rintro v ⟨⟩
        exact ⟨vs, ps, rfl, hread, by rw [dictOfList_eq_self (hkeys ps rfl)]⟩
    have hanyOf : ∀ v ∈ a, ∃ vs ms, v = .list vs ∧ decodeMembers 0 vs = .ok ms ∧
        anyOf = some ms := by
      cases anyOf with
      | none => simp [show a = none from ha]
      | some ms =>
        obtain ⟨vs, rfl, hvs⟩ := ha
        have hread := decodeMembers_wire (fun m hm w hw =>
          ihAnyOf ms rfl m hm (hlAnyOf ms rfl m hm) hw) hvs 0
        rintro v ⟨⟩
        exact ⟨vs, ms, rfl, hread, rfl⟩
    have hparts : AreParts items properties anyOf i p a := by
      refine ⟨hitems, hproperties, hanyOf, ?_, ?_, ?_⟩
      · rintro rfl
        cases items <;> simp_all
      · rintro rfl
        cases properties <;> simp_all
      · rintro rfl
        cases anyOf <;> simp_all
    rw [decode, decodeEntries_wire hparts hsample _ hperm]
    rfl

theorem areProperties_encode {ps : List (String × Schema)} (h : ∀ p ∈ ps, p.2.IsWire p.2.encode) :
    AreProperties ps (encodeProperties Value.plain ps) := by
  induction ps with
  | nil => rfl
  | cons p ps ih =>
    obtain ⟨hp, hps⟩ := List.forall_mem_cons.1 h
    exact ⟨_, _, rfl, hp, ih hps⟩

theorem areMembers_encode {ms : List Schema} (h : ∀ m ∈ ms, m.IsWire m.encode) :
    AreMembers ms (encodeMembers Value.plain ms) := by
  induction ms with
  | nil => rfl
  | cons m ms ih =>
    obtain ⟨hm, hms⟩ := List.forall_mem_cons.1 h
    exact ⟨_, _, rfl, hm, ih hms⟩

theorem encode_node (f : Facets) (items : Option Schema)
    (properties : Option (List (String × Schema))) (anyOf : Option (List Schema)) :
    (node f items properties anyOf).encode = .dict (entries Value.plain f (items.map encode)
      (properties.map fun ps => .dict (encodeProperties Value.plain ps))
      (anyOf.map fun ms => .list (encodeMembers Value.plain ms))) := by
  cases items <;> cases properties <;> cases anyOf <;> rfl

theorem isWire_encode (s : Schema) : s.IsWire s.encode := by
  induction s with
  | node f items properties anyOf ihItems ihProperties ihAnyOf =>
    rw [IsWire, encode_node]
    refine ⟨_, _, _, _, rfl, .refl _, ?_, ?_, ?_⟩
    · cases items with
      | none => rfl
      | some s => exact ⟨_, rfl, ihItems s rfl⟩
    · cases properties with
      | none => rfl
      | some ps => exact ⟨_, rfl, areProperties_encode (ihProperties ps rfl)⟩
    · cases anyOf with
      | none => rfl
      | some ms => exact ⟨_, rfl, areMembers_encode (ihAnyOf ms rfl)⟩

/-- Reading a schema undoes writing it. -/
theorem decode_encode {s : Schema} (hs : s.Legible) : decode s.encode = .ok s :=
  decode_wire hs s.isWire_encode

/-! ## Keys of schemas that are read -/

/-- No object of a schema has a key twice. -/
inductive Keyed : Schema → Prop
  | node {f : Facets} {items : Option Schema} {properties : Option (List (String × Schema))}
      {anyOf : Option (List Schema)} : ((properties.getD []).map (·.1)).Nodup →
      (∀ s ∈ items, Keyed s) → (∀ p ∈ properties.getD [], Keyed p.2) →
      (∀ m ∈ anyOf.getD [], Keyed m) → Keyed (node f items properties anyOf)

/-- What is read so far has no key twice. -/
structure Draft.Keyed (d : Draft) : Prop where
  keys : ((d.properties.getD []).map (·.1)).Nodup
  items : ∀ s ∈ d.items, s.Keyed
  properties : ∀ p ∈ d.properties.getD [], p.2.Keyed
  anyOf : ∀ m ∈ d.anyOf.getD [], m.Keyed

theorem Draft.Keyed.decodeFacet {d : Draft} (h : d.Keyed) (name : String) (key : WireKey)
    (v : Value) : (Schema.decodeFacet d name key v).Keyed := by
  have hput {α : Type} (result : Except (List Issue) α) (set : Facets → α → Facets) :
      (d.putFacet name result set).Keyed := by
    cases result <;> exact ⟨h.1, h.2, h.3, h.4⟩
  cases key <;> rw [Schema.decodeFacet] <;> first | exact hput _ _ | exact h

mutual

theorem keyed_decode {w : Value} {s : Schema} (h : decode w = .ok s) : s.Keyed := by
  cases w with
  | dict es =>
    rw [decode, Draft.finish] at h
    split at h
    · cases h
      obtain ⟨hkeys, hitems, hproperties, hanyOf⟩ := keyed_decodeEntries _ es
      exact .node hkeys hitems hproperties hanyOf
    · cases h
  | _ => simp [decode] at h

theorem keyed_decodeEntries (given : List String) (es : List (Value × Value)) :
    (decodeEntries given es).Keyed := by
  cases es with
  | nil =>
    rw [decodeEntries]
    exact ⟨List.nodup_nil, by simp, by simp, by simp⟩
  | cons e rest =>
    obtain ⟨k, v⟩ := e
    have hrest := keyed_decodeEntries given rest
    have hput {α : Type} (name : String) (result : Except (List Issue) α) {set : Draft → α → Draft}
        (hset : ∀ x, result = .ok x → (set (decodeEntries given rest) x).Keyed) :
        ((decodeEntries given rest).put name result set).Keyed := by
      cases result with
      | error issues => exact ⟨hrest.1, hrest.2, hrest.3, hrest.4⟩
      | ok x => exact hset x rfl
    rw [decodeEntries]
    cases keyOf given k with
    | error issue => exact ⟨hrest.1, hrest.2, hrest.3, hrest.4⟩
    | ok named =>
      obtain ⟨name, key⟩ := named
      cases key with
      | items =>
        dsimp only
        split
        · exact hrest
        · exact hput name _ fun s hs =>
            ⟨hrest.1, by rintro _ ⟨⟩; exact keyed_decode hs, hrest.3, hrest.4⟩
      | properties =>
        cases v with
        | null => exact hrest
        | dict ps =>
          refine hput name _ fun qs hqs => ⟨nodup_dictOfList qs, hrest.2, fun p hp => ?_, hrest.4⟩
          exact keyed_decodeProperties hqs p (mem_of_mem_dictOfList hp)
        | _ => exact ⟨hrest.1, hrest.2, hrest.3, hrest.4⟩
      | anyOf =>
        cases v with
        | null => exact hrest
        | list ms =>
          exact hput name _ fun ns hns => ⟨hrest.1, hrest.2, hrest.3, keyed_decodeMembers hns⟩
        | tuple ms =>
          exact hput name _ fun ns hns => ⟨hrest.1, hrest.2, hrest.3, keyed_decodeMembers hns⟩
        | _ => exact ⟨hrest.1, hrest.2, hrest.3, hrest.4⟩
      | _ => exact hrest.decodeFacet name _ v

theorem keyed_decodeProperties {es : List (Value × Value)} {ps : List (String × Schema)}
    (h : decodeProperties es = .ok ps) : ∀ p ∈ ps, p.2.Keyed := by
  cases es with
  | nil =>
    rw [decodeProperties] at h
    cases h
    simp
  | cons e rest =>
    obtain ⟨k, v⟩ := e
    rw [decodeProperties] at h
    split at h
    · cases h
      exact List.forall_mem_cons.2 ⟨keyed_decode ‹_›, keyed_decodeProperties ‹_›⟩
    · cases h

theorem keyed_decodeMembers {place : Nat} {vs : List Value} {ms : List Schema}
    (h : decodeMembers place vs = .ok ms) : ∀ m ∈ ms, m.Keyed := by
  cases vs with
  | nil =>
    rw [decodeMembers] at h
    cases h
    simp
  | cons v vs =>
    rw [decodeMembers] at h
    split at h
    · cases h
      exact List.forall_mem_cons.2 ⟨keyed_decode ‹_›, keyed_decodeMembers ‹_›⟩
    · cases h

end
end Schema

end TypeWire
