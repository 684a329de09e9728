import TypeWire.Proofs.PlainData
import TypeWire.Proofs.Reading

/-!
# Nothing is lost on reading

A way into wire data (`Value.at?`) leads to the objects that stand for schemas: the items, a property, a
member of a union, at any depth. At each of them what is written after reading keeps what was given
(`Schema.Kept`): the same fields, each named once, properties with the same keys in the same order, lists
of the same length.

The argument goes along the way: one step leads to a part that is read as the part of the schema
(`Schema.under?_decode`), so the whole way does (`Schema.at?_decode`), and at its end
`Schema.kept_of_decode` says what a schema that is read keeps.
-/

namespace TypeWire

/-- A step to a schema in a schema. -/
inductive Place where
  | items
  | property (name : String)
  | member (i : Nat)

namespace Value

/-- The entries of a dictionary. -/
def entries? : Value → Option (List (Value × Value))
  | .dict es => some es
  | _ => none

/-- The value under a text key. -/
def entry? (name : String) (entries : List (Value × Value)) : Option Value :=
  (entries.find? fun e => e.1.text? == some name).map (·.2)

/-- The value one step below. -/
def under? (w : Value) (p : Place) : Option Value := do
  let es ← w.entries?
  match p with
  | .items => field? .items es
  | .property name => do entry? name (← (← field? .properties es).entries?)
  | .member i => do (← (← field? .anyOf es).elements?)[i]?

/-- The value that a way leads to. -/
def at? : Value → List Place → Option Value
  | w, [] => some w
  | w, p :: path => do at? (← w.under? p) path

/-- All keys of dictionaries are texts, and no dictionary has one twice. -/
inductive TextKeyed : Value → Prop
  | dict {es : List (Value × Value)} : (∀ e ∈ es, e.1.isText = true) → (keyTextsOf es).Nodup →
      (∀ e ∈ es, TextKeyed e.2) → TextKeyed (.dict es)
  | list {vs : List Value} : (∀ v ∈ vs, TextKeyed v) → TextKeyed (.list vs)
  | tuple {vs : List Value} : (∀ v ∈ vs, TextKeyed v) → TextKeyed (.tuple vs)
  | scalar {v : Value} : v.entries? = none → v.elements? = none → TextKeyed v

/-- The examples of all schemas in wire data are JSON values. -/
def ExamplesJson (w : Value) : Prop :=
  ∀ path es v, w.at? path = some (.dict es) → field? .sample es = some v → v.IsJson

/-- Two dictionaries have the same keys in the same order. -/
def SameKeys (v w : Value) : Prop :=
  ∃ es os, v = .dict es ∧ w = .dict os ∧ es.map (·.1.text?) = os.map (·.1.text?)

/-- Two lists have the same length. -/
def SameLength (v w : Value) : Prop :=
  ∃ vs ws, v.elements? = some vs ∧ w.elements? = some ws ∧ vs.length = ws.length

theorem wireKey?_wireName (key : WireKey) : (Value.str key.wireName).wireKey? = some key := by
  cases key <;> rfl

theorem TextKeyed.entries {w : Value} {es : List (Value × Value)} (hw : w.TextKeyed)
    (h : w.entries? = some es) : (∀ e ∈ es, e.1.isText = true) ∧ (keyTextsOf es).Nodup ∧
      ∀ e ∈ es, e.2.TextKeyed := by
  cases hw with
  | dict htext hnodup hes =>
    cases h
    exact ⟨htext, hnodup, hes⟩
  | scalar hnone => rw [hnone] at h; cases h
  | _ => cases h

theorem TextKeyed.elements {w : Value} {vs : List Value} (hw : w.TextKeyed)
    (h : w.elements? = some vs) : ∀ v ∈ vs, v.TextKeyed := by
  cases hw with
  | list hvs | tuple hvs =>
    cases h
    exact hvs
  | scalar _ hnone => rw [hnone] at h; cases h
  | dict => cases h

theorem TextKeyed.field {w v : Value} {es : List (Value × Value)} {key : WireKey}
    (hw : w.TextKeyed) (hes : w.entries? = some es) (h : field? key es = some v) : v.TextKeyed := by
  obtain ⟨e, he, -, rfl, -⟩ := mem_of_field? h
  exact (hw.entries hes).2.2 e he

/-- One step into wire data with text keys leads to wire data with text keys. -/
theorem TextKeyed.under? {w d : Value} {p : Place} (hw : w.TextKeyed) (h : w.under? p = some d) :
    d.TextKeyed := by
  obtain ⟨es, hes, h⟩ := Option.bind_eq_some_iff.1 h
  cases p with
  | items => exact hw.field hes h
  | property name =>
    obtain ⟨v, hv, h⟩ := Option.bind_eq_some_iff.1 h
    obtain ⟨ps, hps, h⟩ := Option.bind_eq_some_iff.1 h
    obtain ⟨e, he, rfl⟩ := Option.map_eq_some_iff.1 h
    exact ((hw.field hes hv).entries hps).2.2 e (List.mem_of_find?_eq_some he)
  | member i =>
    obtain ⟨v, hv, h⟩ := Option.bind_eq_some_iff.1 h
    obtain ⟨ms, hms, h⟩ := Option.bind_eq_some_iff.1 h
    exact (hw.field hes hv).elements hms d (List.mem_of_getElem? h)

end Value

namespace Schema

open Value (field? entry? keyTextsOf SameKeys SameLength)

/-! ## The wire form of a schema that is read -/

/-- The entries of a wire form: a field is found under its wire name. -/
theorem field?_entries {wire : WireKey → Option Value} {keys : List WireKey} (hkeys : keys.Nodup)
    (hnull : ∀ key, ∀ v ∈ wire key, v.isNull = false) (key : WireKey) :
    field? key (keys.flatMap fun k => entry k (wire k)) = if key ∈ keys then wire key else none := by
  induction keys with
  | nil => rfl
  | cons k keys ih =>
    obtain ⟨hk, hkeys⟩ := List.nodup_cons.1 hkeys
    have ih := ih hkeys
    rw [List.flatMap_cons]
    cases hv : wire k with
    | none =>
      have hmem : (if key ∈ k :: keys then wire key else none) =
          if key ∈ keys then wire key else none := by
        by_cases hkey : key = k
        · simp [hkey, hv]
        · simp [hkey]
      rw [hmem]
      exact ih
    | some v =>
      show field? key ((.str k.wireName, v) :: keys.flatMap fun k => entry k (wire k)) = _
      rw [Value.field?_cons, Value.wireKey?_wireName, ih]
      by_cases hkey : key = k
      · subst hkey
        rw [if_pos ⟨rfl, hnull key v hv⟩, if_pos List.mem_cons_self, hv]
      · rw [if_neg (by simp [Ne.symm hkey])]
        simp [hkey]

theorem Reads.isNull {key : WireKey} {v o : Value} (h : Reads key v o)
    (hsample : key = .sample → o.isNull = false) : o.isNull = false := by
  cases key with
  | sample => exact hsample rfl
  | properties =>
    obtain ⟨es, ps, -, -, rfl⟩ := h
    rfl
  | anyOf =>
    obtain ⟨vs, ms, -, -, rfl⟩ := h
    rfl
  | items =>
    obtain ⟨s, -, rfl⟩ := h
    rw [encode_eq]
    rfl
  | _ =>
    obtain ⟨x, -, rfl⟩ := h
    rfl

/-! ## Properties that are read -/

section properties
variable {es : List (Value × Value)} {ps : List (String × Schema)}
  (htext : ∀ e ∈ es, e.1.isText = true) (h : decodeProperties es = .ok ps)
include htext h

theorem forall₂_of_decodeProperties :
    List.Forall₂ (fun e p => e.1.text? = some p.1 ∧ decode e.2 = .ok p.2) es ps := by
  have hread := List.forall₂_and_left _ _ |>.2 ⟨htext, decodeProperties_forall₂ h⟩
  exact hread.imp fun e p hp => ⟨text?_of_decodePropertyKey hp.1 hp.2.1, hp.2.2⟩

theorem texts_of_decodeProperties : es.map (·.1.text?) = ps.map fun p => some p.1 :=
  map_eq_of_forall₂ (forall₂_of_decodeProperties htext h) fun _ _ hp => hp.1

/-- Properties with distinct keys stay as they stand. -/
theorem dictOfList_of_decodeProperties (hnodup : (keyTextsOf es).Nodup) : dictOfList ps = ps := by
  have hkeys : keyTextsOf es = ps.map (·.1) := by
    have htexts := congrArg (List.filterMap id) (texts_of_decodeProperties htext h)
    simpa [keyTextsOf, List.filterMap_map, Function.comp_def] using htexts
  exact dictOfList_eq_self (hkeys ▸ hnodup)

/-- A property is found again under its key, as the schema that it is read as. -/
theorem entry?_of_decodeProperties {name : String} {d : Value} (hd : entry? name es = some d) :
    ∃ s, decode d = .ok s ∧ entry? name (encodeProperties Value.plain ps) = some s.encode := by
  have hread := forall₂_of_decodeProperties htext h
  clear h htext
  rw [encodeProperties_eq_map]
  induction hread with
  | nil => cases hd
  | @cons e p es ps hp _ ih =>
    unfold entry? at hd ih ⊢
    rw [List.map_cons]
    by_cases hname : p.1 = name
    · rw [List.find?_cons_of_pos (by simp [hp.1, hname])] at hd
      cases hd
      refine ⟨p.2, hp.2, ?_⟩
      rw [List.find?_cons_of_pos (by simp [Value.text?, hname])]
      rfl
    · rw [List.find?_cons_of_neg (by simp [hp.1, hname])] at hd
      rw [List.find?_cons_of_neg (by simp [Value.text?, hname])]
      exact ih hd

end properties

/-- An object that is read as a schema, with a JSON value as example if there is one. -/
structure IsRead (es : List (Value × Value)) (s : Schema) : Prop where
  decode : decode (.dict es) = .ok s
  texts : (keyTextsOf es).Nodup
  sample : ∀ v ∈ field? .sample es, v.IsJson

section read
variable {es : List (Value × Value)} {s : Schema} (h : IsRead es s)
include h

theorem IsRead.reads (key : WireKey) : Option.Rel (Reads key) (field? key es) (s.wire key) :=
  (reads_of_decode h.texts h.decode).2.2 key

theorem IsRead.wire_sample : s.wire .sample = field? .sample es := by
  have hreads := h.reads .sample
  cases hv : field? .sample es with
  | none => rwa [hv, option_rel_none] at hreads
  | some v =>
    rw [hv, option_rel_some] at hreads
    obtain ⟨o, ho, rfl⟩ := hreads
    rw [ho, (h.sample v hv).plain_eq]

theorem IsRead.wire_isNull (key : WireKey) : ∀ o ∈ s.wire key, o.isNull = false := by
  intro o ho
  have hreads := h.reads key
  rw [Option.mem_def.1 ho] at hreads
  cases hv : field? key es with
  | none => rw [hv, option_rel_none] at hreads; cases hreads
  | some v =>
    rw [hv, option_rel_some] at hreads
    obtain ⟨o', ho', hreads⟩ := hreads
    obtain rfl := Option.some.inj ho'
    refine hreads.isNull fun hkey => ?_
    subst hkey
    obtain ⟨e, -, -, -, hnull⟩ := Value.mem_of_field? (h.wire_sample.symm.trans ho)
    exact hnull

/-- In the wire form the fields are those of the schema. -/
theorem IsRead.field?_wire (key : WireKey) :
    field? key (WireKey.all.flatMap fun key => entry key (s.wire key)) = s.wire key := by
  rw [field?_entries (by decide) h.wire_isNull]
  exact if_pos (by cases key <;> decide)

/-- A step into wire data that is read leads to a part that is read as the part of the schema. -/
theorem IsRead.under? {p : Place} {d : Value} (htext : (Value.dict es).TextKeyed)
    (hd : (Value.dict es).under? p = some d) :
    ∃ s', Schema.decode d = .ok s' ∧ s.encode.under? p = some s'.encode := by
  unfold Value.under? at hd
  obtain ⟨es', hes, hd⟩ := Option.bind_eq_some_iff.1 hd
  cases hes
  -- Below, `hv` is the value of the field on the way, and `ho` what is written for it.
  have hwrite {key : WireKey} {v : Value} (hv : field? key es = some v) :
      ∃ o, field? key (WireKey.all.flatMap fun key => entry key (s.wire key)) = some o ∧
        Reads key v o := by
    have hreads := h.reads key
    rw [hv, option_rel_some, ← h.field?_wire] at hreads
    exact hreads
  rw [encode_eq]
  cases p with
  | items =>
    obtain ⟨o, ho, s', hs', rfl⟩ := hwrite hd
    exact ⟨s', hs', ho⟩
  | property name =>
    obtain ⟨v, hv, hd⟩ := Option.bind_eq_some_iff.1 hd
    obtain ⟨ps, hps, hd⟩ := Option.bind_eq_some_iff.1 hd
    obtain ⟨o, ho, _, qs, rfl, hqs, rfl⟩ := hwrite hv
    cases hps
    obtain ⟨hpsText, hpsNodup, -⟩ := (htext.field rfl hv).entries rfl
    obtain ⟨s', hs', hfound⟩ := entry?_of_decodeProperties hpsText hqs hd
    refine ⟨s', hs', ?_⟩
    show (field? .properties _ >>= fun v => v.entries? >>= entry? name) = _
    rw [ho, dictOfList_of_decodeProperties hpsText hqs hpsNodup]
    exact hfound
  | member i =>
    obtain ⟨v, hv, hd⟩ := Option.bind_eq_some_iff.1 hd
    obtain ⟨vs, hvs, hd⟩ := Option.bind_eq_some_iff.1 hd
    obtain ⟨o, ho, vs', ms, hvs', hms, rfl⟩ := hwrite hv
    obtain rfl := Option.some.inj (hvs.symm.trans hvs')
    obtain ⟨m, hm, hdm⟩ := getElem?_of_forall₂ (decodeMembers_forall₂ hms) hd
    refine ⟨m, hdm, ?_⟩
    show (field? .anyOf _ >>= fun v => v.elements? >>= (·[i]?)) = _
    rw [ho, encodeMembers_eq_map]
    show (ms.map encode)[i]? = _
    rw [List.getElem?_map, hm]
    rfl

end read

/-! ## What is kept -/

/-- What is written keeps what was given, at one object: every key names a field and no two keys name
one, the fields that are written are those that are not null, properties have the same keys in the same
order, lists are as long as they were, and an example stays as it is. -/
structure Kept (es os : List (Value × Value)) : Prop where
  named : ∀ e ∈ es, e.1.wireKey?.isSome
  distinct : (es.filterMap (·.1.wireKey?)).Nodup
  keys : (os.map (·.1)).Perm
    (((es.filter fun e => !e.2.isNull).filterMap (·.1.wireKey?)).map fun key => .str key.wireName)
  properties : Option.Rel SameKeys (field? .properties es) (field? .properties os)
  lengths : ∀ key ∈ [WireKey.anyOf, .enum, .required, .propertyOrdering],
    Option.Rel SameLength (field? key es) (field? key os)
  sample : field? .sample os = field? .sample es

theorem map_fst_entries (wire : WireKey → Option Value) (keys : List WireKey) :
    (keys.flatMap fun key => entry key (wire key)).map (·.1) =
      (keys.filter fun key => (wire key).isSome).map fun key => .str key.wireName := by
  induction keys with
  | nil => rfl
  | cons key keys ih =>
    rw [List.flatMap_cons, List.map_append, ih]
    cases hv : wire key with
    | none => rw [List.filter_cons_of_neg (by simp [hv])]; rfl
    | some v => rw [List.filter_cons_of_pos (by simp [hv])]; rfl

theorem sameLength_of_decodeTextList {v : Value} {texts : List String}
    (h : decodeTextList v = .ok texts) : SameLength v (textList texts) := by
  cases v with
  | list vs | tuple vs =>
    exact ⟨vs, texts.map .str, rfl, rfl, by rw [List.length_map, length_of_decodeTexts h]⟩
  | _ => cases h

theorem Reads.sameLength {key : WireKey} {v o : Value}
    (hkey : key ∈ [WireKey.anyOf, .enum, .required, .propertyOrdering]) (h : Reads key v o) :
    SameLength v o := by
  have hmembers {v o : Value} (h : Reads .anyOf v o) : SameLength v o := by
    obtain ⟨vs, ms, hvs, hms, rfl⟩ := h
    refine ⟨vs, _, hvs, rfl, ?_⟩
    rw [encodeMembers_eq_map, List.length_map, (decodeMembers_forall₂ hms).length_eq]
  have htexts {v o : Value} (h : ∃ ts, decodeTextList v = .ok ts ∧ o = textList ts) :
      SameLength v o := by
    obtain ⟨ts, hts, rfl⟩ := h
    exact sameLength_of_decodeTextList hts
  simp only [List.mem_cons, List.not_mem_nil, or_false] at hkey
  rcases hkey with rfl | rfl | rfl | rfl
  · exact hmembers h
  · exact htexts h
  · exact htexts h
  · exact htexts h

section kept
variable {es : List (Value × Value)} {s : Schema} (h : IsRead es s)
include h

theorem IsRead.isSome_wire (key : WireKey) :
    (s.wire key).isSome ↔ ∃ e ∈ es, e.1.wireKey? = some key ∧ e.2.isNull = false := by
  have hreads := h.reads key
  have hsome : (s.wire key).isSome ↔ field? key es ≠ none := by
    cases hv : field? key es <;> rw [hv] at hreads
    · rw [option_rel_none] at hreads
      simp [hreads]
    · obtain ⟨o, ho, -⟩ := option_rel_some.1 hreads
      simp [ho]
  rw [hsome, Ne, Value.field?_eq_none]
  simp

theorem IsRead.perm_keys (hdistinct : (es.filterMap (·.1.wireKey?)).Nodup) :
    (WireKey.all.filter fun key => (s.wire key).isSome).Perm
      ((es.filter fun e => !e.2.isNull).filterMap (·.1.wireKey?)) := by
  have hall : WireKey.all.Nodup := by decide
  refine (List.perm_ext_iff_of_nodup (hall.filter _) ?_).2 fun key => ?_
  · exact hdistinct.sublist (List.filter_sublist.filterMap _)
  · have hmem : key ∈ WireKey.all := by cases key <;> decide
    rw [List.mem_filter, List.mem_filterMap]
    simp only [hmem, true_and, h.isSome_wire, List.mem_filter, Bool.not_eq_true']
    constructor
    · rintro ⟨e, he, hkey, hnull⟩
      exact ⟨e, ⟨he, hnull⟩, hkey⟩
    · rintro ⟨e, ⟨he, hnull⟩, hkey⟩
      exact ⟨e, he, hkey, hnull⟩

theorem IsRead.sameKeys (htext : (Value.dict es).TextKeyed) :
    Option.Rel SameKeys (field? .properties es) (s.wire .properties) := by
  have hreads := h.reads .properties
  cases hv : field? .properties es with
  | none => rwa [hv, option_rel_none, ← option_rel_none] at hreads
  | some v =>
    rw [hv, option_rel_some] at hreads
    obtain ⟨o, ho, ps, qs, rfl, hqs, rfl⟩ := hreads
    obtain ⟨hpsText, hpsNodup, -⟩ := (htext.field rfl hv).entries rfl
    rw [ho, dictOfList_of_decodeProperties hpsText hqs hpsNodup]
    refine .some ⟨ps, _, rfl, rfl, ?_⟩
    rw [texts_of_decodeProperties hpsText hqs, encodeProperties_eq_map, List.map_map]
    rfl

/-- A schema that is read keeps what was given. -/
theorem IsRead.kept (htext : (Value.dict es).TextKeyed) :
    Kept es (WireKey.all.flatMap fun key => entry key (s.wire key)) := by
  obtain ⟨hnamed, hdistinct, -⟩ := reads_of_decode h.texts h.decode
  refine ⟨hnamed, hdistinct, ?_, ?_, fun key hkey => ?_, ?_⟩
  · rw [map_fst_entries]
    exact (h.perm_keys hdistinct).map _
  · rw [h.field?_wire]
    exact h.sameKeys htext
  · rw [h.field?_wire]
    exact option_rel_imp (fun _ _ hr => hr.sameLength hkey) (h.reads key)
  · rw [h.field?_wire, h.wire_sample]

end kept

/-! ## Along the way -/

theorem examplesJson_under? {w d : Value} {p : Place} (h : w.ExamplesJson)
    (hd : w.under? p = some d) : d.ExamplesJson := by
  intro path es v hes hv
  refine h (p :: path) es v ?_ hv
  rw [Value.at?, hd]
  exact hes

theorem examplesJson_dict {es : List (Value × Value)} (hsample : ∀ v ∈ field? .sample es, v.IsJson)
    (hunder : ∀ p d, (Value.dict es).under? p = some d → d.ExamplesJson) :
    (Value.dict es).ExamplesJson := by
  intro path es' v hes hv
  cases path with
  | nil =>
    cases hes
    exact hsample v hv
  | cons p path =>
    obtain ⟨d, hd, hes⟩ := Option.bind_eq_some_iff.1 hes
    exact hunder p d hd path es' v hes hv

theorem isRead_of_decode {w : Value} {s : Schema} (htext : w.TextKeyed) (hexamples : w.ExamplesJson)
    (hs : decode w = .ok s) : ∃ es, w = .dict es ∧ IsRead es s := by
  cases w with
  | dict es =>
    obtain ⟨-, hnodup, -⟩ := htext.entries rfl
    exact ⟨es, rfl, hs, hnodup, fun v hv => hexamples [] es v rfl hv⟩
  | _ => simp [decode] at hs

/-- At the end of a way into wire data that is read stands wire data that is read, as the part of the
schema that the way leads to. -/
theorem at?_decode {path : List Place} : ∀ {w d : Value} {s : Schema}, w.TextKeyed →
    w.ExamplesJson → decode w = .ok s → w.at? path = some d →
    ∃ s', d.TextKeyed ∧ d.ExamplesJson ∧ decode d = .ok s' ∧ s.encode.at? path = some s'.encode := by
  induction path with
  | nil =>
    intro w d s htext hexamples hs hd
    obtain rfl := Option.some.inj hd
    exact ⟨s, htext, hexamples, hs, rfl⟩
  | cons p path ih =>
    intro w d s htext hexamples hs hd
    obtain ⟨es, rfl, hread⟩ := isRead_of_decode htext hexamples hs
    rw [Value.at?] at hd
    obtain ⟨v, hv, hd⟩ := Option.bind_eq_some_iff.1 hd
    obtain ⟨t, ht, hout⟩ := hread.under? htext hv
    obtain ⟨s', htext', hexamples', hs', hat⟩ :=
      ih (htext.under? hv) (examplesJson_under? hexamples hv) ht hd
    refine ⟨s', htext', hexamples', hs', ?_⟩
    rw [Value.at?, hout]
    exact hat

/-- An object has a key that names no field, or both names of one. -/
def Misnamed (es : List (Value × Value)) : Prop :=
  (∃ name ∈ keyTextsOf es, ∀ key : WireKey, name ≠ key.wireName ∧ name ≠ key.attributeName) ∨
    ∃ key : WireKey, key.attributeName ≠ key.wireName ∧ key.wireName ∈ keyTextsOf es ∧
      key.attributeName ∈ keyTextsOf es

theorem ofName?_names {name : String} {key : WireKey} (h : WireKey.ofName? name = some key) :
    name = key.wireName ∨ name = key.attributeName := by
  rcases Option.or_eq_some_iff.1 h with h | ⟨-, h⟩
  · exact .inl (WireKey.wireName_of_ofWireName? h).symm
  · exact .inr (WireKey.attributeName_of_ofAttributeName? h).symm

theorem ofName?_attributeName (key : WireKey) : WireKey.ofName? key.attributeName = some key := by
  cases key <;> rfl

theorem Kept.not_misnamed {es os : List (Value × Value)} (h : Kept es os) : ¬ Misnamed es := by
  rintro (⟨name, hname, hnone⟩ | ⟨key, hne, hwire, hattribute⟩)
  · obtain ⟨e, he, htext⟩ := List.mem_filterMap.1 hname
    obtain ⟨key, hkey⟩ := Option.isSome_iff_exists.1 (h.named e he)
    rw [Value.wireKey?, htext] at hkey
    rcases ofName?_names hkey with hw | ha
    · exact (hnone key).1 hw
    · exact (hnone key).2 ha
  · obtain ⟨e, he, htext⟩ := List.mem_filterMap.1 hwire
    obtain ⟨e', he', htext'⟩ := List.mem_filterMap.1 hattribute
    have hkey : e.1.wireKey? = some key := by
      rw [Value.wireKey?, htext]
      exact Value.wireKey?_wireName key
    have hkey' : e'.1.wireKey? = some key := by
      rw [Value.wireKey?, htext']
      exact ofName?_attributeName key
    have hdiff : e ≠ e' := by
      rintro rfl
      exact hne (Option.some.inj (htext'.symm.trans htext))
    have hdistinct := h.distinct
    rw [List.Nodup, List.pairwise_filterMap] at hdistinct
    have hsymm : Std.Symm fun e e' : Value × Value => ∀ b, e.1.wireKey? = some b →
        ∀ b', e'.1.wireKey? = some b' → b ≠ b' :=
      ⟨fun e e' h b hb b' hb' heq => h b' hb' b hb heq.symm⟩
    exact hdistinct.forall he he' hdiff key hkey key hkey' rfl

/-- Nothing is lost on reading: at every schema in wire data that is read, what is written keeps what was
given, and wire data with a misnamed field in it at any depth is not read. -/
theorem decode_kept {w : Value} (hw : w.TextKeyed) (hexamples : w.ExamplesJson) :
    (∀ s, decode w = .ok s → ∀ path d, w.at? path = some d →
      ∃ es os, d = .dict es ∧ s.encode.at? path = some (.dict os) ∧ Kept es os) ∧
    ∀ path es, w.at? path = some (.dict es) → Misnamed es → ∃ issues, decode w = .error issues := by
  have hkept : ∀ s, decode w = .ok s → ∀ path d, w.at? path = some d →
      ∃ es os, d = .dict es ∧ s.encode.at? path = some (.dict os) ∧ Kept es os := by
    intro s hs path d hd
    obtain ⟨s', htext, hjson, hs', hat⟩ := at?_decode hw hexamples hs hd
    obtain ⟨es, rfl, hread⟩ := isRead_of_decode htext hjson hs'
    rw [encode_eq s'] at hat
    exact ⟨es, _, rfl, hat, hread.kept htext⟩
  refine ⟨hkept, fun path es hes hbad => ?_⟩
  cases hs : decode w with
  | error issues => exact ⟨issues, rfl⟩
  | ok s =>
    obtain ⟨_, os, ⟨⟩, -, hk⟩ := hkept s hs path _ hes
    exact absurd hbad hk.not_misnamed

/-- A list of texts as wire data, with an example. -/
def tags : List (Value × Value) :=
  [(.str "type", .str "array"), (.str "items", .dict [(.str "type", .str "string")]),
    (.str "min_items", .str "1"), (.str "example", .list [.str "sea", .null])]

/-- An object as wire data, with a field that is null. -/
def album : Value :=
  .dict [(.str "type", .str "object"), (.str "any_of", .null),
    (.str "properties", .dict [(.str "tags", .dict tags)])]

theorem album_textKeyed : album.TextKeyed := by
  have hstr (s : String) : (Value.str s).TextKeyed := .scalar rfl rfl
  have hnull : Value.null.TextKeyed := .scalar rfl rfl
  have hitems : (Value.dict [(.str "type", .str "string")]).TextKeyed :=
    .dict (by decide) (by decide) (by simp [hstr])
  have htags : (Value.dict tags).TextKeyed := by
    refine .dict (by decide) (by decide) ?_
    have hlist : (Value.list [.str "sea", .null]).TextKeyed := .list (by simp [hstr, hnull])
    simp [tags, hstr, hitems, hlist]
  have hproperties : (Value.dict [(.str "tags", .dict tags)]).TextKeyed :=
    .dict (by decide) (by decide) (by simp [htags])
  exact .dict (by decide) (by decide) (by simp [hstr, hnull, hproperties])

theorem album_examplesJson : album.ExamplesJson := by
  have hitems : (Value.dict [(.str "type", .str "string")]).ExamplesJson := by
    refine examplesJson_dict nofun ?_
    rintro (_ | _ | _) d hd <;> cases hd
  have htags : (Value.dict tags).ExamplesJson := by
    refine examplesJson_dict ?_ ?_
    · rintro v ⟨⟩
      refine .list fun v hv => ?_
      simp only [List.mem_cons, List.not_mem_nil, or_false] at hv
      rcases hv with rfl | rfl
      · exact .str _
      · exact .null
    · rintro (_ | _ | _) d hd <;> cases hd
      exact hitems
  refine examplesJson_dict nofun ?_
  rintro (_ | name | _) d hd
  · cases hd
  · have hname : entry? name [(.str "tags", .dict tags)] = some d := hd
    obtain ⟨e, he, rfl⟩ := Option.map_eq_some_iff.1 hname
    obtain rfl := List.mem_singleton.1 (List.mem_of_find?_eq_some he)
    exact htags
  · cases hd

theorem album_kept : album.TextKeyed ∧ album.ExamplesJson ∧ ∃ s os, decode album = .ok s ∧
    s.encode.at? [.property "tags"] = some (.dict os) ∧ Kept tags os := by
  have hdecode : (decode album).toOption.isSome = true := by decide +kernel
  refine ⟨album_textKeyed, album_examplesJson, ?_⟩
  cases hs : decode album with
  | error issues => rw [hs] at hdecode; cases hdecode
  | ok s =>
    obtain ⟨es, os, hes, hos, hkept⟩ := (decode_kept album_textKeyed album_examplesJson).1 s hs
      [.property "tags"] (.dict tags) rfl
    cases hes
    exact ⟨s, os, rfl, hos, hkept⟩

end Schema

end TypeWire
