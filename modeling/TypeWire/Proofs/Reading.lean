import TypeWire.Proofs.Restriction
import TypeWire.Proofs.WireForm

/-!
# What schemas are read from

`Schema.decode` collects issues, and it gives a schema if there are none. That alone does not say that
every part was read: a reader that fails without an issue would leave its field out. No reader does
(`Explained`), so if there are no issues each entry names a field (`Schema.keyOf_of_noIssues`) and fills
it in (`Schema.decodeEntries_cons`), and a schema that is read has exactly the fields that are not null
(`Schema.reads_of_decode`).

The fields of a schema are told by the values that they have in its wire form (`Schema.Draft.wire`), so
one relation, `Schema.Reads`, holds between what is given for a field and what is written for it.
-/

namespace TypeWire

/-! ## Keys and fields -/

/-- The field with a name, be it the wire name or the second name. -/
def WireKey.ofName? (name : String) : Option WireKey :=
  (ofWireName? name).or (ofAttributeName? name)

theorem WireKey.wireName_of_ofWireName? {name : String} {key : WireKey}
    (h : ofWireName? name = some key) : key.wireName = name := by
  simpa using List.find?_some h

theorem WireKey.attributeName_of_ofAttributeName? {name : String} {key : WireKey}
    (h : ofAttributeName? name = some key) : key.attributeName = name := by
  simpa using List.find?_some h

namespace Value

/-- The field that a key names. -/
def wireKey? (k : Value) : Option WireKey := k.text?.bind WireKey.ofName?

/-- The value that is given for a field, under whichever name; null counts as none. -/
def field? (key : WireKey) (entries : List (Value × Value)) : Option Value :=
  (entries.find? fun e => e.1.wireKey? == some key && !e.2.isNull).map (·.2)

/-- The values in a list. -/
def elements? : Value → Option (List Value)
  | .list vs => some vs
  | .tuple vs => some vs
  | _ => none

/-- The texts among the keys of a dictionary. -/
def keyTextsOf (entries : List (Value × Value)) : List String := entries.filterMap (·.1.text?)

theorem field?_cons (key : WireKey) (e : Value × Value) (es : List (Value × Value)) :
    field? key (e :: es) =
      if e.1.wireKey? = some key ∧ e.2.isNull = false then some e.2 else field? key es := by
  unfold field?
  by_cases h : e.1.wireKey? = some key ∧ e.2.isNull = false
  · rw [if_pos h, List.find?_cons_of_pos (by simp [h])]
    rfl
  · rw [if_neg h, List.find?_cons_of_neg (by simpa using h)]

theorem field?_eq_none {key : WireKey} {es : List (Value × Value)} :
    field? key es = none ↔ ∀ e ∈ es, e.1.wireKey? = some key → e.2.isNull = true := by
  simp [field?]

theorem mem_of_field? {key : WireKey} {es : List (Value × Value)} {v : Value}
    (h : field? key es = some v) : ∃ e ∈ es, e.1.wireKey? = some key ∧ e.2 = v ∧ v.isNull = false := by
  obtain ⟨e, he, rfl⟩ := Option.map_eq_some_iff.1 h
  have hp := List.find?_some he
  simp only [Bool.and_eq_true, beq_iff_eq, Bool.not_eq_true'] at hp
  exact ⟨e, List.mem_of_find?_eq_some he, hp.1, rfl, hp.2⟩

end Value

/-! ## Readers that fail say why -/

/-- A reading that fails has an issue. -/
def Explained {α : Type} (result : Except (List Issue) α) : Prop :=
  ∀ issues, result = .error issues → issues ≠ []

theorem explained_ok {α : Type} (x : α) : Explained (.ok x : Except (List Issue) α) := nofun

theorem explained_here {α : Type} (fault : Fault) :
    Explained (.error (Issue.here fault) : Except (List Issue) α) := by
  rintro issues ⟨⟩
  exact List.cons_ne_nil _ _

theorem Explained.ok_of_issuesOf {α : Type} {result : Except (List Issue) α} (h : Explained result)
    (hnil : issuesOf result = []) : ∃ x, result = .ok x := by
  cases result with
  | ok x => exact ⟨x, rfl⟩
  | error issues => exact absurd hnil (h issues rfl)

theorem under_eq_nil {step : Step} {issues : List Issue} :
    Issue.under step issues = [] ↔ issues = [] := by
  simp [Issue.under]

namespace Schema

theorem explained_scalar {α : Type} (read : Value → Except Fault (α × Match)) (v : Value) :
    Explained (scalar read v) := by
  unfold scalar
  split
  · exact explained_ok _
  · exact explained_here _

theorem explained_optional {α : Type} {read : Value → Except (List Issue) α} {v : Value}
    (h : Explained (read v)) : Explained (optional read v) := by
  unfold optional
  split
  · exact explained_ok _
  · cases hr : read v with
    | ok x => exact explained_ok _
    | error issues =>
      rintro _ ⟨⟩
      exact h issues hr

theorem explained_decodeType (v : Value) : Explained (decodeType v) := by
  unfold decodeType
  dsimp only
  split
  · exact explained_ok _
  · exact explained_here _

theorem explained_decodeTexts (i : Nat) (vs : List Value) : Explained (decodeTexts i vs) := by
  induction vs generalizing i with
  | nil => exact explained_ok _
  | cons v vs ih =>
    rw [decodeTexts]
    split
    · exact explained_ok _
    · rename_i hnot
      rintro _ ⟨⟩ hnil
      rw [List.append_eq_nil_iff, under_eq_nil] at hnil
      obtain ⟨s, hs⟩ := (explained_scalar _ v).ok_of_issuesOf hnil.1
      obtain ⟨ss, hss⟩ := (ih (i + 1)).ok_of_issuesOf hnil.2
      exact hnot s ss hs hss

theorem explained_decodeTextList (v : Value) : Explained (decodeTextList v) := by
  cases v with
  | list vs => exact explained_decodeTexts 0 vs
  | tuple vs => exact explained_decodeTexts 0 vs
  | _ => exact explained_here _

theorem explained_finish (d : Draft) : Explained d.finish := by
  unfold Draft.finish
  split
  · exact explained_ok _
  · rename_i h
    rintro _ ⟨⟩ hnil
    simp [hnil] at h

theorem explained_decode (v : Value) : Explained (decode v) := by
  cases v with
  | dict es =>
    rw [decode]
    exact explained_finish _
  | _ =>
    rw [decode]
    · exact explained_here _
    · simp

theorem explained_decodePropertyKey (k : Value) : Explained (decodePropertyKey k) := by
  unfold decodePropertyKey
  split
  · exact explained_ok _
  · rename_i issues h
    rintro _ ⟨⟩ hnil
    rw [under_eq_nil, under_eq_nil] at hnil
    exact explained_scalar _ k issues h hnil

theorem explained_decodeProperties (es : List (Value × Value)) : Explained (decodeProperties es) := by
  induction es with
  | nil =>
    rw [decodeProperties]
    exact explained_ok _
  | cons e es ih =>
    rw [decodeProperties]
    split
    · exact explained_ok _
    · rename_i hnot
      rintro _ ⟨⟩ hnil
      rw [List.append_eq_nil_iff, List.append_eq_nil_iff, under_eq_nil] at hnil
      obtain ⟨key, hkey⟩ := (explained_decodePropertyKey e.1).ok_of_issuesOf hnil.1.1
      obtain ⟨s, hs⟩ := (explained_decode e.2).ok_of_issuesOf hnil.1.2
      obtain ⟨ps, hps⟩ := ih.ok_of_issuesOf hnil.2
      exact hnot key s ps hkey hs hps

theorem explained_decodeMembers (i : Nat) (vs : List Value) : Explained (decodeMembers i vs) := by
  induction vs generalizing i with
  | nil =>
    rw [decodeMembers]
    exact explained_ok _
  | cons v vs ih =>
    rw [decodeMembers]
    split
    · exact explained_ok _
    · rename_i hnot
      rintro _ ⟨⟩ hnil
      rw [List.append_eq_nil_iff, under_eq_nil] at hnil
      obtain ⟨s, hs⟩ := (explained_decode v).ok_of_issuesOf hnil.1
      obtain ⟨ss, hss⟩ := (ih (i + 1)).ok_of_issuesOf hnil.2
      exact hnot s ss hs hss

theorem put_of_noIssues {α : Type} {d : Draft} {name : String} {result : Except (List Issue) α}
    {set : Draft → α → Draft} (hresult : Explained result)
    (hset : ∀ x, (set d x).issues = d.issues) (h : (d.put name result set).issues = []) :
    d.issues = [] ∧ ∃ x, result = .ok x ∧ d.put name result set = set d x := by
  cases result with
  | ok x => exact ⟨(hset x).symm.trans h, x, rfl, rfl⟩
  | error issues =>
    rw [Draft.put, List.append_eq_nil_iff, under_eq_nil] at h
    exact absurd h.1 (hresult issues rfl)

/-! ## What is given and what is written -/

/-- The value that a field has in the wire form of a schema. -/
def wire (s : Schema) (key : WireKey) : Option Value :=
  wireValue Value.plain s.facets (s.items.map encode)
    (s.properties.map fun ps => .dict (encodeProperties Value.plain ps))
    (s.anyOf.map fun ms => .list (encodeMembers Value.plain ms)) key

theorem encode_eq (s : Schema) :
    s.encode = .dict (WireKey.all.flatMap fun key => entry key (s.wire key)) := by
  obtain ⟨f, items, properties, anyOf⟩ := s
  rw [encode_node, entries_eq]
  rfl

/-- A value for a field that is not null, and what is written for the field if the value is read. -/
def Reads (key : WireKey) (v o : Value) : Prop :=
  match key with
  | .type => ∃ t, decodeType v = .ok t ∧ o = .str t.word
  | .format | .description => ∃ t, scalar Coercion.text v = .ok t ∧ o = .str t
  | .nullable => ∃ b, scalar Coercion.bool v = .ok b ∧ o = .bool b
  | .items => ∃ s, decode v = .ok s ∧ o = s.encode
  | .enum | .required | .propertyOrdering => ∃ ts, decodeTextList v = .ok ts ∧ o = textList ts
  | .properties => ∃ es ps, v = .dict es ∧ decodeProperties es = .ok ps ∧
      o = .dict (encodeProperties Value.plain (dictOfList ps))
  | .sample => o = v.plain
  | .anyOf => ∃ vs ms, v.elements? = some vs ∧ decodeMembers 0 vs = .ok ms ∧
      o = .list (encodeMembers Value.plain ms)
  | .minItems | .maxItems => ∃ n, scalar Coercion.int v = .ok n ∧ o = .int n
  | .minimum | .maximum => ∃ x, scalar Coercion.float v = .ok x ∧ o = .float x

/-- The schema of what is read so far. -/
def Draft.schema (d : Draft) : Schema := node d.facets d.items d.properties d.anyOf

/-- The second draft is the first with a field as a value says, and there are no issues. -/
structure Fills (d d' : Draft) (key : WireKey) (v : Value) : Prop where
  issues : d.issues = []
  others : ∀ key' ≠ key, d'.schema.wire key' = d.schema.wire key'
  ofNull : v.isNull = true → d'.schema.wire key = none ∨ d'.schema.wire key = d.schema.wire key
  ofValue : v.isNull = false → ∃ o, d'.schema.wire key = some o ∧ Reads key v o

section facets
variable {d : Draft} {name : String} {key : WireKey} {v : Value}

/-- A field that holds no schema is read on its own: `write` gives the value in the wire form. -/
theorem fills_putFacet {α : Type} {read : Value → Except (List Issue) α}
    {set : Facets → Option α → Facets} (write : α → Value) (hread : Explained (read v))
    (hothers : ∀ x, ∀ key' ≠ key,
      ({ d with facets := set d.facets x } : Draft).schema.wire key' = d.schema.wire key')
    (hwire : ∀ x, ({ d with facets := set d.facets x } : Draft).schema.wire key = x.map write)
    (hreads : ∀ y, read v = .ok y → Reads key v (write y))
    (h : (d.putFacet name (optional read v) set).issues = []) :
    Fills d (d.putFacet name (optional read v) set) key v := by
  obtain ⟨hd, x, hx, heq⟩ := put_of_noIssues (explained_optional hread) (fun _ => rfl) h
  have hput : d.putFacet name (optional read v) set = { d with facets := set d.facets x } := heq
  rw [hput]
  refine ⟨hd, hothers x, fun hnull => ?_, fun hnull => ?_⟩
  · rw [optional, if_pos hnull] at hx
    cases hx
    exact .inl (hwire none)
  · rw [optional, if_neg (by simp [hnull])] at hx
    obtain ⟨y, hy, rfl⟩ := isOk_map.1 hx
    exact ⟨write y, hwire (some y), hreads y hy⟩

theorem fills_decodeFacet (hkey : key ≠ .items ∧ key ≠ .properties ∧ key ≠ .anyOf)
    (h : (decodeFacet d name key v).issues = []) : Fills d (decodeFacet d name key v) key v := by
  cases key with
  | items | properties | anyOf => simp at hkey
  | type =>
    refine fills_putFacet (fun t => .str t.word) (explained_decodeType v) ?_ (fun _ => rfl) ?_ h
    · rintro x (_ | _) hk <;> first | rfl | exact absurd rfl hk
    · exact fun t ht => ⟨t, ht, rfl⟩
  | format | description =>
    refine fills_putFacet .str (explained_scalar _ v) ?_ (fun _ => rfl) ?_ h
    · rintro x (_ | _) hk <;> first | rfl | exact absurd rfl hk
    · exact fun t ht => ⟨t, ht, rfl⟩
  | nullable =>
    refine fills_putFacet .bool (explained_scalar _ v) ?_ (fun _ => rfl) ?_ h
    · rintro x (_ | _) hk <;> first | rfl | exact absurd rfl hk
    · exact fun b hb => ⟨b, hb, rfl⟩
  | enum | required | propertyOrdering =>
    refine fills_putFacet textList (explained_decodeTextList v) ?_ (fun _ => rfl) ?_ h
    · rintro x (_ | _) hk <;> first | rfl | exact absurd rfl hk
    · exact fun ts hts => ⟨ts, hts, rfl⟩
  | sample =>
    refine fills_putFacet Value.plain (explained_ok v) ?_ (fun _ => rfl) ?_ h
    · rintro x (_ | _) hk <;> first | rfl | exact absurd rfl hk
    · rintro _ ⟨⟩
      rfl
  | minItems | maxItems =>
    refine fills_putFacet .int (explained_scalar _ v) ?_ (fun _ => rfl) ?_ h
    · rintro x (_ | _) hk <;> first | rfl | exact absurd rfl hk
    · exact fun n hn => ⟨n, hn, rfl⟩
  | minimum | maximum =>
    refine fills_putFacet .float (explained_scalar _ v) ?_ (fun _ => rfl) ?_ h
    · rintro x (_ | _) hk <;> first | rfl | exact absurd rfl hk
    · exact fun x hx => ⟨x, hx, rfl⟩

end facets

theorem fills_self {d : Draft} {key : WireKey} {v : Value} (hd : d.issues = [])
    (hv : v.isNull = true) : Fills d d key v :=
  ⟨hd, fun _ _ => rfl, fun _ => .inr rfl, fun h => by simp [hv] at h⟩

/-- A part is put into a draft: the other fields stay, and `write` gives the value in the wire form. -/
theorem fills_put {α : Type} {d : Draft} {name : String} {key : WireKey} {v : Value}
    {result : Except (List Issue) α} {set : Draft → α → Draft} (write : α → Value)
    (hresult : Explained result) (hset : ∀ x, (set d x).issues = d.issues)
    (hothers : ∀ x, ∀ key' ≠ key, (set d x).schema.wire key' = d.schema.wire key')
    (hwire : ∀ x, (set d x).schema.wire key = some (write x))
    (hreads : ∀ x, result = .ok x → v.isNull = false ∧ Reads key v (write x))
    (h : (d.put name result set).issues = []) : Fills d (d.put name result set) key v := by
  obtain ⟨hd, x, hx, heq⟩ := put_of_noIssues hresult hset h
  obtain ⟨hnull, hreads⟩ := hreads x hx
  rw [heq]
  exact ⟨hd, hothers x, fun h => by simp [hnull] at h, fun _ => ⟨write x, hwire x, hreads⟩⟩

/-- One step of reading without issues: an entry names a field and fills it in. -/
theorem fills_entry {given : List String} {k v : Value} {rest : List (Value × Value)}
    (h : (decodeEntries given ((k, v) :: rest)).issues = []) :
    ∃ name key, keyOf given k = .ok (name, key) ∧
      Fills (decodeEntries given rest) (decodeEntries given ((k, v) :: rest)) key v := by
  rw [decodeEntries] at h ⊢
  cases hk : keyOf given k with
  | error issue => simp [hk] at h
  | ok named =>
    obtain ⟨name, key⟩ := named
    refine ⟨name, key, rfl, ?_⟩
    rw [hk] at h
    cases key with
    | items =>
      dsimp only at h ⊢
      split at h
      · rename_i hnull
        rw [if_pos hnull]
        exact fills_self h hnull
      · rename_i hnull
        rw [if_neg hnull]
        refine fills_put encode (explained_decode v) (fun _ => rfl) ?_ (fun _ => rfl) ?_ h
        · rintro x (_ | _) hk <;> first | rfl | exact absurd rfl hk
        · exact fun s hs => ⟨by simpa using hnull, s, hs, rfl⟩
    | properties =>
      cases v with
      | null => exact fills_self h rfl
      | dict ps =>
        refine fills_put (fun qs => .dict (encodeProperties Value.plain (dictOfList qs)))
          (explained_decodeProperties ps) (fun _ => rfl) ?_ (fun _ => rfl) ?_ h
        · rintro x (_ | _) hk <;> first | rfl | exact absurd rfl hk
        · exact fun qs hqs => ⟨rfl, ps, qs, rfl, hqs, rfl⟩
      | _ => exact absurd (put_of_noIssues (explained_here _) (fun _ => rfl) h).2 (by simp)
    | anyOf =>
      cases v with
      | null => exact fills_self h rfl
      | list ms | tuple ms =>
        refine fills_put (fun ns => .list (encodeMembers Value.plain ns))
          (explained_decodeMembers 0 ms) (fun _ => rfl) ?_ (fun _ => rfl) ?_ h
        · rintro x (_ | _) hk <;> first | rfl | exact absurd rfl hk
        · exact fun ns hns => ⟨rfl, ms, ns, rfl, hns, rfl⟩
      | _ => exact absurd (put_of_noIssues (explained_here _) (fun _ => rfl) h).2 (by simp)
    | _ => exact fills_decodeFacet (by simp) h

/-! ## All entries -/

theorem keyOf_ok {given : List String} {k : Value} {name : String} {key : WireKey}
    (h : keyOf given k = .ok (name, key)) : k.text? = some name ∧ k.wireKey? = some key ∧
      (name = key.wireName ∨ name = key.attributeName ∧ key.wireName ∉ given) := by
  unfold keyOf at h
  unfold Value.wireKey? WireKey.ofName?
  split at h
  · cases h
  · rename_i text htext
    split at h
    · rename_i hwire
      cases h
      exact ⟨htext, by simp [htext, hwire], .inl (WireKey.wireName_of_ofWireName? hwire).symm⟩
    · rename_i hnone
      split at h
      · rename_i hattribute
        split at h
        · cases h
        · rename_i hgiven
          cases h
          have hname := WireKey.attributeName_of_ofAttributeName? hattribute
          exact ⟨htext, by simp [htext, hnone, hattribute], .inr ⟨hname.symm, by simpa using hgiven⟩⟩
      · cases h

theorem keyOf_of_noIssues {given : List String} {es : List (Value × Value)}
    (h : (decodeEntries given es).issues = []) :
    ∀ e ∈ es, ∃ name key, keyOf given e.1 = .ok (name, key) := by
  induction es with
  | nil => exact List.forall_mem_nil _
  | cons e es ih =>
    obtain ⟨name, key, hkey, hfills⟩ := fills_entry h
    exact List.forall_mem_cons.2 ⟨⟨name, key, hkey⟩, ih hfills.issues⟩

/-- Two entries do not name one field: the second name is refused beside the wire name. -/
theorem nodup_wireKeys {es : List (Value × Value)} (htexts : (Value.keyTextsOf es).Nodup)
    (h : ∀ e ∈ es, ∃ name key, keyOf (Value.keyTextsOf es) e.1 = .ok (name, key)) :
    (es.filterMap (·.1.wireKey?)).Nodup := by
  have hgiven : ∀ e ∈ es, ∀ name, e.1.text? = some name → name ∈ Value.keyTextsOf es :=
    fun e he name hname => List.mem_filterMap.2 ⟨e, he, hname⟩
  rw [Value.keyTextsOf, List.Nodup, List.pairwise_filterMap] at htexts
  rw [List.Nodup, List.pairwise_filterMap]
  refine htexts.imp_of_mem fun {e e'} he he' hne key hkey key' hkey' heq => ?_
  obtain ⟨name, k, hok⟩ := h e he
  obtain ⟨name', k', hok'⟩ := h e' he'
  obtain ⟨htext, hwire, hname⟩ := keyOf_ok hok
  obtain ⟨htext', hwire', hname'⟩ := keyOf_ok hok'
  obtain rfl : key = k := Option.some.inj (hkey.symm.trans hwire)
  obtain rfl : key' = k' := Option.some.inj (hkey'.symm.trans hwire')
  subst heq
  -- Both the wire name, or both the second name, are one text; of one each the second is refused.
  rcases hname with rfl | ⟨rfl, hnot⟩
  · rcases hname' with rfl | ⟨rfl, hnot'⟩
    · exact hne _ htext _ htext' rfl
    · exact hnot' (hgiven e he _ htext)
  · rcases hname' with rfl | ⟨rfl, -⟩
    · exact hnot (hgiven e' he' _ htext')
    · exact hne _ htext _ htext' rfl

/-- What is written for each field is what is read from the value given for it. -/
theorem reads_of_noIssues {given : List String} {es : List (Value × Value)}
    (h : (decodeEntries given es).issues = []) (hkeys : (es.filterMap (·.1.wireKey?)).Nodup)
    (key : WireKey) : Option.Rel (Reads key) (Value.field? key es)
      ((decodeEntries given es).schema.wire key) := by
  induction es with
  | nil =>
    rw [decodeEntries]
    cases key <;> exact .none
  | cons e es ih =>
    obtain ⟨k, v⟩ := e
    obtain ⟨name, named, hkeyOf, hfills⟩ := fills_entry h
    have hwire := (keyOf_ok hkeyOf).2.1
    have hcons : ((k, v) :: es).filterMap (·.1.wireKey?) = named :: es.filterMap (·.1.wireKey?) :=
      List.filterMap_cons_some hwire
    rw [hcons] at hkeys
    obtain ⟨hnot, hkeys⟩ := List.nodup_cons.1 hkeys
    have ih := ih hfills.issues hkeys
    rw [Value.field?_cons]
    by_cases heq : key = named
    · subst heq
      cases hnull : v.isNull with
      | false =>
        obtain ⟨o, ho, hreads⟩ := hfills.ofValue hnull
        rw [if_pos ⟨hwire, rfl⟩, ho]
        exact .some hreads
      | true =>
        -- The null stands alone: no entry behind it names the field, so nothing is written.
        have hnone : Value.field? key es = none := Value.field?_eq_none.2 fun e he hk =>
          absurd (List.mem_filterMap.2 ⟨e, he, hk⟩) hnot
        rw [hnone, option_rel_none] at ih
        rw [if_neg (by simp), hnone, option_rel_none]
        exact (hfills.ofNull hnull).elim id (·.trans ih)
    · have hother : ¬ (k.wireKey? = some key ∧ v.isNull = false) := fun hk =>
        heq (Option.some.inj (hk.1.symm.trans hwire))
      rw [if_neg hother, hfills.others key heq]
      exact ih

/-- A schema that is read has the fields that are given for it, each under one name. -/
theorem reads_of_decode {es : List (Value × Value)} {s : Schema}
    (htexts : (Value.keyTextsOf es).Nodup) (h : decode (.dict es) = .ok s) :
    (∀ e ∈ es, e.1.wireKey?.isSome) ∧ (es.filterMap (·.1.wireKey?)).Nodup ∧
      ∀ key, Option.Rel (Reads key) (Value.field? key es) (s.wire key) := by
  rw [decode, Draft.finish] at h
  split at h
  · rename_i hnil
    cases h
    have hissues := List.isEmpty_iff.1 hnil
    have hkeyOf := keyOf_of_noIssues hissues
    have hkeys := nodup_wireKeys htexts hkeyOf
    refine ⟨fun e he => ?_, hkeys, reads_of_noIssues hissues hkeys⟩
    obtain ⟨name, key, hkey⟩ := hkeyOf e he
    rw [(keyOf_ok hkey).2.1]
    rfl
  · cases h

/-! ## Parts -/

theorem decodeProperties_forall₂ {es : List (Value × Value)} {ps : List (String × Schema)}
    (h : decodeProperties es = .ok ps) :
    List.Forall₂ (fun e p => decodePropertyKey e.1 = .ok p.1 ∧ decode e.2 = .ok p.2) es ps := by
  induction es generalizing ps with
  | nil =>
    rw [decodeProperties] at h
    cases h
    exact .nil
  | cons e es ih =>
    rw [decodeProperties] at h
    split at h
    · rename_i hkey hs hps
      cases h
      exact .cons ⟨hkey, hs⟩ (ih hps)
    · cases h

theorem decodeMembers_forall₂ {vs : List Value} {i : Nat} {ms : List Schema}
    (h : decodeMembers i vs = .ok ms) : List.Forall₂ (fun v m => decode v = .ok m) vs ms := by
  induction vs generalizing i ms with
  | nil =>
    rw [decodeMembers] at h
    cases h
    exact .nil
  | cons v vs ih =>
    rw [decodeMembers] at h
    split at h
    · rename_i hs hms
      cases h
      exact .cons hs (ih hms)
    · cases h

theorem length_of_decodeTexts {vs : List Value} {i : Nat} {texts : List String}
    (h : decodeTexts i vs = .ok texts) : vs.length = texts.length := by
  induction vs generalizing i texts with
  | nil =>
    cases h
    rfl
  | cons v vs ih =>
    rw [decodeTexts] at h
    split at h
    · rename_i hts
      cases h
      rw [List.length_cons, List.length_cons, ih hts]
    · cases h

theorem text?_of_decodePropertyKey {k : Value} {key : String} (hk : k.isText = true)
    (h : decodePropertyKey k = .ok key) : k.text? = some key := by
  unfold Value.isText Value.text? at *
  split at hk
  · cases h
    rfl
  · cases h
    rfl
  · cases hk

theorem encodeProperties_eq_map (sample : Value → Value) (ps : List (String × Schema)) :
    encodeProperties sample ps = ps.map fun p => (.str p.1, p.2.encodeWith sample) := by
  induction ps with
  | nil => rfl
  | cons p ps ih => rw [encodeProperties, ih, List.map_cons]

theorem encodeMembers_eq_map (sample : Value → Value) (ms : List Schema) :
    encodeMembers sample ms = ms.map (encodeWith sample) := by
  induction ms with
  | nil => rfl
  | cons m ms ih => rw [encodeMembers, ih, List.map_cons]

end Schema

end TypeWire
