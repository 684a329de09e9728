import TypeWire.Proofs.ExactValue
import TypeWire.Proofs.WireForm
import TypeWire.Schema.Equality

/-!
# JSON values, and schemas that are kept as them

A JSON value (`Value.IsJson`) is in plain form already (`Value.IsJson.plain_eq`), and it equals itself
(`Value.IsJson.equals_self`), which of all values only those with numbers that are none fail to do.

So a schema whose bounds are finite and whose examples are JSON values is read from its wire form as it
is, and equals what is read (`Schema.decode_encode_storable`).
-/

namespace TypeWire

namespace Value

open Numeric (Decimal Binary64)

/-! ## JSON values -/

/-- Values that JSON can hold: numbers are finite, and a dictionary has text keys, each once. -/
inductive IsJson : Value → Prop
  | null : IsJson .null
  | bool (b : Bool) : IsJson (.bool b)
  | int (n : Int) : IsJson (.int n)
  | float {x : Float} : x.isFinite = true → IsJson (.float x)
  | str (s : String) : IsJson (.str s)
  | list {vs : List Value} : (∀ v ∈ vs, IsJson v) → IsJson (.list vs)
  | dict {es : List (String × Value)} : (es.map (·.1)).Nodup → (∀ e ∈ es, IsJson e.2) →
      IsJson (.dict (es.map fun e => (.str e.1, e.2)))

theorem plainItems_eq_map (vs : List Value) : plainItems vs = vs.map plain := by
  induction vs with
  | nil => rfl
  | cons v vs ih => rw [plainItems, ih, List.map_cons]

theorem plainEntries_eq_map (es : List (Value × Value)) :
    plainEntries es = es.map fun e => (e.1.keyText, e.2.plain) := by
  induction es with
  | nil => rfl
  | cons e es ih =>
    obtain ⟨k, v⟩ := e
    rw [plainEntries, ih, List.map_cons]

/-- The plain form of a JSON value is the value itself. -/
theorem IsJson.plain_eq {v : Value} (h : v.IsJson) : v.plain = v := by
  induction h with
  | null | bool | int | str => rfl
  | float hx => rw [plain, if_pos hx]
  | @list vs _ ih =>
    rw [plain, plainItems_eq_map, List.map_congr_left ih, List.map_id']
  | @dict es hkeys _ ih =>
    have hentries : plainEntries (es.map fun e => (.str e.1, e.2)) = es := by
      rw [plainEntries_eq_map, List.map_map]
      conv_rhs => rw [← List.map_id es]
      exact List.map_congr_left fun e he => Prod.ext rfl (ih e he)
    rw [plain, hentries, dictOfList_eq_self hkeys]

theorem sameNumber_self {d : Decimal} (h : d.canonical ≠ .nan) : d.sameNumber d = true := by
  simp [Decimal.sameNumber, h]

theorem canonical_finite_ne_nan (negative : Bool) (coefficient : Nat) (exponent : Int) :
    (Decimal.finite negative coefficient exponent).canonical ≠ .nan := by
  rw [Decimal.canonical]
  split <;> simp

theorem number_equals_self_of_isFinite {x : Float} (h : x.isFinite = true) :
    (Number.real x).equals (.real x) = true := by
  obtain ⟨b, hb⟩ := Numeric.finite_of_isFinite h
  refine sameNumber_self ?_
  simp only [Number.exactly, decimalOfFloat, hb]
  split <;> exact canonical_finite_ne_nan _ _ _

theorem listEquals_self {vs : List Value} (h : ∀ v ∈ vs, v.equals v = true) :
    listEquals vs vs = true := by
  induction vs with
  | nil => rfl
  | cons v vs ih =>
    obtain ⟨hv, hvs⟩ := List.forall_mem_cons.1 h
    rw [listEquals, hv, ih hvs]
    rfl

theorem entriesWithin_of_mem {es other : List (Value × Value)}
    (h : ∀ e ∈ es, e ∈ other ∧ e.1.equals e.1 = true ∧ e.2.equals e.2 = true) :
    entriesWithin es other = true := by
  induction es with
  | nil => rfl
  | cons e es ih =>
    obtain ⟨⟨hmem, hk, hv⟩, hes⟩ := List.forall_mem_cons.1 h
    rw [entriesWithin, ih hes, Bool.and_true, List.any_eq_true]
    exact ⟨e, hmem, by simp [hk, hv]⟩

/-- A JSON value equals itself. -/
theorem IsJson.equals_self {v : Value} (h : v.IsJson) : v.equals v = true := by
  induction h with
  | null => rfl
  | bool b => cases b <;> rfl
  | int n => exact sameNumber_self (canonical_finite_ne_nan _ _ _)
  | float hx => exact number_equals_self_of_isFinite hx
  | str s => simp [equals, number?, text?]
  | list _ ih =>
    rw [equals]
    exact listEquals_self ih
  | @dict es _ _ ih =>
    rw [equals, beq_self_eq_true, Bool.true_and]
    refine entriesWithin_of_mem fun e he => ⟨he, ?_⟩
    obtain ⟨e', he', rfl⟩ := List.mem_map.1 he
    exact ⟨by simp [equals, number?, text?], ih e' he'⟩

end Value

namespace Schema

/-! ## Schemas -/

/-- A schema with finite bounds and JSON values as examples, in which no object has a key twice. An
example that is null would count as absent. -/
inductive Storable : Schema → Prop
  | node {f : Facets} {items : Option Schema} {properties : Option (List (String × Schema))}
      {anyOf : Option (List Schema)} :
      (∀ x, x ∈ f.minimum ∨ x ∈ f.maximum → x.isFinite = true) →
      (∀ v ∈ f.sample, v.isNull = false ∧ v.IsJson) →
      (∀ ps ∈ properties, (ps.map (·.1)).Nodup) →
      (∀ s ∈ items, Storable s) → (∀ ps ∈ properties, ∀ p ∈ ps, Storable p.2) →
      (∀ ms ∈ anyOf, ∀ m ∈ ms, Storable m) → Storable (node f items properties anyOf)

theorem Storable.legible {s : Schema} (h : s.Storable) : s.Legible := by
  induction h with
  | node _ hsample hkeys _ _ _ ihItems ihProperties ihAnyOf =>
    exact .node (fun v hv => ⟨(hsample v hv).1, (hsample v hv).2.plain_eq⟩) hkeys ihItems
      ihProperties ihAnyOf

theorem facets_equals_self {f : Facets}
    (hbounds : ∀ x, x ∈ f.minimum ∨ x ∈ f.maximum → x.isFinite = true)
    (hsample : ∀ v ∈ f.sample, v.equals v = true) : f.equals f = true := by
  have hbound {b : Option Float} (hb : ∀ x ∈ b, x.isFinite = true) : sameBound b b = true := by
    cases b with
    | none => rfl
    | some x => exact Numeric.beq_self_of_isFinite (hb x rfl)
  have hminimum := hbound fun x hx => hbounds x (.inl hx)
  have hmaximum := hbound fun x hx => hbounds x (.inr hx)
  unfold Facets.equals
  cases h : f.sample with
  | none => simp [hminimum, hmaximum]
  | some v => simp [hminimum, hmaximum, hsample v h]

theorem propertiesWithin_of_mem {ps others : List (String × Schema)}
    (h : ∀ p ∈ ps, p ∈ others ∧ p.2.equals p.2 = true) : propertiesWithin ps others = true := by
  induction ps with
  | nil => rw [propertiesWithin]
  | cons p ps ih =>
    obtain ⟨⟨hmem, hp⟩, hps⟩ := List.forall_mem_cons.1 h
    rw [propertiesWithin, ih hps, Bool.and_true, List.any_eq_true]
    exact ⟨p, hmem, by simp [hp]⟩

theorem membersEqual_self {ms : List Schema} (h : ∀ m ∈ ms, m.equals m = true) :
    membersEqual ms ms = true := by
  induction ms with
  | nil => rw [membersEqual]
  | cons m ms ih =>
    obtain ⟨hm, hms⟩ := List.forall_mem_cons.1 h
    rw [membersEqual, hm, ih hms]
    rfl

theorem Storable.equals_self {s : Schema} (h : s.Storable) : s.equals s = true := by
  induction h with
  | @node f items properties anyOf hbounds hsample _ _ _ _ ihItems ihProperties ihAnyOf =>
    have hfacets := facets_equals_self hbounds fun v hv => (hsample v hv).2.equals_self
    have hitems : itemsEqual items items = true := by
      cases items with
      | none => rw [itemsEqual]
      | some s =>
        rw [itemsEqual]
        exact ihItems s rfl
    have hproperties : propertiesEqual properties properties = true := by
      cases properties with
      | none => rw [propertiesEqual]
      | some ps =>
        rw [propertiesEqual, beq_self_eq_true, Bool.true_and]
        exact propertiesWithin_of_mem fun p hp => ⟨hp, ihProperties ps rfl p hp⟩
    have hanyOf : anyOfEqual anyOf anyOf = true := by
      cases anyOf with
      | none => rw [anyOfEqual]
      | some ms =>
        rw [anyOfEqual]
        exact membersEqual_self (ihAnyOf ms rfl)
    rw [equals, hfacets, hitems, hproperties, hanyOf]
    rfl

/-- A schema is read from its wire form as it is, and it equals what is read. -/
theorem decode_encode_storable {s : Schema} (hs : s.Storable) :
    decode s.encode = .ok s ∧ s.equals s = true :=
  ⟨decode_encode hs.legible, hs.equals_self⟩

/-- A schema in which fields are empty, false, and absent, on two levels. -/
def listing : Schema :=
  .node
    { type := some .object, description := some "", nullable := some false, required := some []
      sample := some (.dict [(.str "price", .float 2.5), (.str "tags", .list [.str "new", .null])]) }
    none
    (some [("price", .leaf { type := some .number, minimum := some (-0.0), maximum := some 99.5 }),
      ("code", .node {} none (some []) (some []))])
    none

theorem listing_kept :
    listing.Storable ∧ decode listing.encode = .ok listing ∧ listing.equals listing = true := by
  have hsample : (Value.dict [(.str "price", .float 2.5),
      (.str "tags", .list [.str "new", .null])]).IsJson := by
    have htags : (Value.list [.str "new", .null]).IsJson := by
      refine .list ?_
      simp only [List.forall_mem_cons]
      exact ⟨.str _, .null, List.forall_mem_nil _⟩
    have hentries : ∀ e ∈ [("price", Value.float 2.5), ("tags", .list [.str "new", .null])],
        e.2.IsJson := by
      simp only [List.forall_mem_cons]
      exact ⟨.float rfl, htags, List.forall_mem_nil _⟩
    exact .dict (by decide) hentries
  have hprice : (leaf { type := some .number, minimum := some (-0.0)
                        maximum := some 99.5 }).Storable := by
    refine .node ?_ (by simp) (by simp) (by simp) (by simp) (by simp)
    rintro x (⟨⟨⟩⟩ | ⟨⟨⟩⟩) <;> rfl
  have hcode : (node {} none (some []) (some [])).Storable := by
    refine .node ?_ ?_ ?_ ?_ ?_ ?_ <;> simp
  have hlisting : listing.Storable := by
    refine .node ?_ ?_ ?_ ?_ ?_ ?_
    · simp
    · rintro v ⟨⟩
      exact ⟨rfl, hsample⟩
    · rintro ps ⟨⟩
      decide
    · simp
    · rintro ps ⟨⟩
      simpa using ⟨hprice, hcode⟩
    · simp
  exact ⟨hlisting, decode_encode_storable hlisting⟩

end Schema

end TypeWire
