import TypeWire.Proofs.Canonical

/-!
# Malformed schemas

`TypeExpr.ofSchema` goes into the members of a union, the items of a list and the properties of an
object, and into nothing else: `Schema.reached` lists what it comes to, a schema before its parts. It
stops at the first malformed schema there (`TypeExpr.ofSchema_error_iff`), unless bounds or names stop
it before.

The one argument is `TypeExpr.ends_ofSchema`, which says how every run ends, whatever the names and the
bounds are. The bounds matter to it, since the validators of an object are built as soon as its
properties are read.
-/

namespace TypeWire

/-- The reading ended because the schema is malformed. -/
def SchemaError.IsMalformation (e : SchemaError) : Prop := e = undescribedItems ∨ e = untyped

namespace Schema

open Numeric (Binary64)

/-! ## What is reached -/

/-- The parts that count: the members of a union, else the items of a list or the properties of an
object. -/
def readParts : Schema → List Schema
  | node f items properties anyOf =>
    match anyOf.getD [] with
    | m :: ms => m :: ms
    | [] =>
      match f.type with
      | some .array => items.toList
      | some .object => (properties.getD []).map (·.2)
      | _ => []

mutual

/-- The schema and all that counts below it, a schema before its parts. -/
def reached : Schema → List Schema
  | node f items properties anyOf =>
    node f items properties anyOf ::
      match anyOf with
      | some (m :: ms) => reached m ++ reachedOfMembers ms
      | _ =>
        match f.type, items, properties with
        | some .array, some s, _ => reached s
        | some .object, _, some ps => reachedOfProperties ps
        | _, _, _ => []

def reachedOfMembers : List Schema → List Schema
  | [] => []
  | m :: ms => reached m ++ reachedOfMembers ms

def reachedOfProperties : List (String × Schema) → List Schema
  | [] => []
  | (_, s) :: ps => reached s ++ reachedOfProperties ps

end

theorem reachedOfMembers_eq (ms : List Schema) : reachedOfMembers ms = ms.flatMap reached := by
  induction ms with
  | nil => rfl
  | cons m ms ih => rw [reachedOfMembers, ih, List.flatMap_cons]

theorem reachedOfProperties_eq (ps : List (String × Schema)) :
    reachedOfProperties ps = (ps.map (·.2)).flatMap reached := by
  induction ps with
  | nil => rfl
  | cons p ps ih => rw [reachedOfProperties, ih, List.map_cons, List.flatMap_cons]

theorem reached_eq (s : Schema) : s.reached = s :: s.readParts.flatMap reached := by
  obtain ⟨f, items, properties, anyOf⟩ := s
  rcases anyOf with _ | _ | ⟨m, ms⟩
  case some.cons => simp [reached, readParts, reachedOfMembers_eq]
  all_goals
    rcases h : f.type with _ | _ | _ | _ | _ | _ | _ <;> cases items <;> cases properties <;>
      simp [reached, readParts, reachedOfProperties_eq, h]

/-- One schema leads to another through parts of parts. -/
def Reaches : Schema → Schema → Prop := Relation.ReflTransGen fun a b => b ∈ a.readParts

theorem mem_readParts_of_member {f : Facets} {items : Option Schema}
    {properties : Option (List (String × Schema))} {anyOf : Option (List Schema)} {m : Schema}
    (hm : m ∈ anyOf.getD []) : m ∈ (node f items properties anyOf).readParts := by
  rw [readParts]
  split
  · rename_i h
    rwa [h] at hm
  · rename_i h
    rw [h] at hm
    cases hm

theorem mem_readParts_of_item {f : Facets} {items : Option Schema}
    {properties : Option (List (String × Schema))} {anyOf : Option (List Schema)} {i : Schema}
    (hnil : anyOf.getD [] = []) (htype : f.type = some .array) (hi : i ∈ items) :
    i ∈ (node f items properties anyOf).readParts := by
  simpa [readParts, hnil, htype] using hi

theorem mem_readParts_of_property {f : Facets} {items : Option Schema}
    {properties : Option (List (String × Schema))} {anyOf : Option (List Schema)} {s : Schema}
    (hnil : anyOf.getD [] = []) (htype : f.type = some .object)
    (hs : s ∈ (properties.getD []).map (·.2)) : s ∈ (node f items properties anyOf).readParts := by
  simpa [readParts, hnil, htype] using hs

/-- A property of schemas holds of all if it holds of a schema whose parts that count have it. -/
theorem readParts_induction {motive : Schema → Prop}
    (step : ∀ s, (∀ p ∈ s.readParts, motive p) → motive s) (s : Schema) : motive s := by
  induction s with
  | node f items properties anyOf ihItems ihProperties ihAnyOf =>
    refine step _ fun p hp => ?_
    rw [readParts] at hp
    split at hp
    · rename_i m ms h
      cases anyOf with
      | none => cases h
      | some ns => exact ihAnyOf ns rfl p (by rwa [← h] at hp)
    · split at hp
      · exact ihItems p (by simpa using hp)
      · cases properties with
        | none => cases hp
        | some ps =>
          obtain ⟨q, hq, rfl⟩ := List.mem_map.1 hp
          exact ihProperties ps rfl q hq
      · cases hp

theorem self_mem_reached (s : Schema) : s ∈ s.reached := by
  rw [reached_eq]
  exact List.mem_cons_self

theorem mem_reached_of_part {s p r : Schema} (hp : p ∈ s.readParts) (hr : r ∈ p.reached) :
    r ∈ s.reached := by
  rw [reached_eq]
  exact List.mem_cons_of_mem _ (List.mem_flatMap.2 ⟨p, hp, hr⟩)

theorem mem_reached_iff {s r : Schema} : r ∈ s.reached ↔ s.Reaches r := by
  constructor
  · intro h
    induction s using readParts_induction with
    | step s ih =>
      rw [reached_eq] at h
      rcases List.mem_cons.1 h with rfl | h
      · exact .refl
      · obtain ⟨p, hp, hr⟩ := List.mem_flatMap.1 h
        exact .head hp (ih p hp hr)
  · intro h
    induction h using Relation.ReflTransGen.head_induction_on with
    | refl => exact r.self_mem_reached
    | head hp _ ih => exact mem_reached_of_part hp ih

/-! ## What a schema itself says -/

/-- No union, and either without a type or a list without a schema for its items. -/
def Malformed (s : Schema) : Prop :=
  s.anyOf.getD [] = [] ∧ (s.facets.type = none ∨ s.facets.type = some .array ∧ s.items = none)

/-- What is wrong with a malformed schema. -/
def malformation? (s : Schema) : Option SchemaError :=
  match s.anyOf.getD [], s.facets.type, s.items with
  | [], none, _ => some .untyped
  | [], some .array, none => some .undescribedItems
  | _, _, _ => none

theorem malformation?_eq_none {s : Schema} : s.malformation? = none ↔ ¬ s.Malformed := by
  unfold malformation? Malformed
  split <;> simp_all

theorem isMalformation_of_malformation? {s : Schema} {e : SchemaError}
    (h : s.malformation? = some e) : e.IsMalformation := by
  unfold malformation? at h
  split at h
  · cases h
    exact .inr rfl
  · cases h
    exact .inl rfl
  · cases h

theorem findSome?_reached (s : Schema) : s.reached.findSome? malformation? =
    s.malformation?.or ((s.readParts.flatMap reached).findSome? malformation?) := by
  rw [reached_eq, List.findSome?_cons]
  cases s.malformation? <;> rfl

/-- The bounds that count in a schema itself: those of an integer are whole numbers in a range, and the
lengths of a list are natural numbers of 64 bits. -/
structure BoundedIn (range : Set Int) (s : Schema) : Prop where
  whole : s.anyOf.getD [] = [] → s.facets.type = some .integer →
    ∀ x, x ∈ s.facets.minimum ∨ x ∈ s.facets.maximum →
      ∃ b n, Binary64.ofFloat x = .finite b ∧ b.value = (n : Int) ∧ n ∈ range
  lengths : s.anyOf.getD [] = [] → s.facets.type = some .array →
    ∀ n, n ∈ s.facets.minItems ∨ n ∈ s.facets.maxItems → 0 ≤ n ∧ n < 2 ^ 64

theorem boundedIn_of_type {range : Set Int} {s : Schema} (hinteger : s.facets.type ≠ some .integer)
    (harray : s.facets.type ≠ some .array) : s.BoundedIn range :=
  ⟨fun _ htype => absurd htype hinteger, fun _ htype => absurd htype harray⟩

/-- The whole numbers that doubles are read as. -/
def wholeRange : Set Int := Set.Ioo (-2 ^ 63) (2 ^ 63)

/-- The keys that count in a schema itself hold no null character. -/
def ClearKeys (s : Schema) : Prop :=
  s.anyOf.getD [] = [] → s.facets.type = some .object →
    ∀ p ∈ s.properties.getD [], TypeExpr.Clear p.1

open Validator (WholeBound LengthBound)

theorem exists_wholeBound {x : Float} : (∃ n, WholeBound x n) ↔
    ∃ b n, Binary64.ofFloat x = .finite b ∧ b.value = (n : Int) ∧ n ∈ wholeRange := by
  simp only [WholeBound, Numeric.intOfFloat_ok, wholeRange, Set.mem_Ioo]
  constructor
  · rintro ⟨n, ⟨b, hb, hv⟩, hn⟩
    exact ⟨b, n, hb, hv, by omega⟩
  · rintro ⟨b, n, hb, hv, hn⟩
    exact ⟨n, ⟨b, hb, hv⟩, by omega⟩

theorem exists_lengthBound {n : Int} : (∃ k, LengthBound n k) ↔ 0 ≤ n ∧ n < 2 ^ 64 := by
  constructor
  · rintro ⟨k, rfl, hk⟩
    omega
  · intro h
    exact ⟨n.toNat, by omega, by omega⟩

theorem exists_option_rel {α β : Type} {r : α → β → Prop} {a : Option α} :
    (∃ b, Option.Rel r a b) ↔ ∀ x ∈ a, ∃ y, r x y := by
  cases a <;> simp [option_rel_none, option_rel_some]

/-- A schema is buildable if the bounds of all that is reached from it can be those of validators. -/
theorem buildable_of_reached {s : Schema} (h : ∀ r ∈ s.reached, r.BoundedIn wholeRange) :
    s.Buildable := by
  induction s with
  | node f items properties anyOf ihItems ihProperties ihAnyOf =>
    obtain ⟨hwhole, hlengths⟩ := h _ (self_mem_reached _)
    have hpart : ∀ p ∈ (node f items properties anyOf).readParts, ∀ r ∈ p.reached,
        r.BoundedIn wholeRange := fun p hp r hr => h r (mem_reached_of_part hp hr)
    refine .node ?_ ?_ ?_ ?_
    · intro m hm
      cases anyOf with
      | none => cases hm
      | some ms => exact ihAnyOf ms rfl m hm (hpart m (mem_readParts_of_member hm))
    · intro hnil htype i hi
      exact ihItems i hi (hpart i (mem_readParts_of_item hnil htype hi))
    -- What is left are the bounds of the schema itself.
    · intro hnil htype
      simp only [exists_option_rel, exists_wholeBound]
      exact ⟨fun x hx => hwhole hnil htype x (.inl hx), fun x hx => hwhole hnil htype x (.inr hx)⟩
    · intro hnil htype
      simp only [exists_option_rel, exists_lengthBound]
      exact ⟨fun n hn => hlengths hnil htype n (.inl hn), fun n hn => hlengths hnil htype n (.inr hn)⟩

end Schema

namespace TypeExpr

open Schema (malformation? reached)

/-! ## How a reading ends -/

/-- A reading that stops at the first malformed schema, if there is one: it gives a result if there is
none, and it can stop at a name that is not clear or at a bound that no validator can have. -/
inductive Ends {α : Type} (clear bounded : Prop) (first : Option SchemaError) :
    Except SchemaError α → Prop
  | ok {a : α} : first = none → Ends clear bounded first (.ok a)
  | malformed {e : SchemaError} : first = some e → Ends clear bounded first (.error e)
  | unusable : ¬ clear → Ends clear bounded first (.error .unusableName)
  | unbuildable {u : Unbuildable} : ¬ bounded → Ends clear bounded first (.error (.unbuildable u))

theorem Ends.bind {α β : Type} {clear bounded : Prop} {first rest : Option SchemaError}
    {x : Except SchemaError α} {f : α → Except SchemaError β} (hx : Ends clear bounded first x)
    (hf : ∀ a, x = .ok a → Ends clear bounded rest (f a)) :
    Ends clear bounded (first.or rest) (x >>= f) := by
  cases hx with
  | @ok a h =>
    subst h
    exact hf a rfl
  | malformed h =>
    subst h
    exact .malformed rfl
  | unusable h => exact .unusable h
  | unbuildable h => exact .unbuildable h

theorem Ends.map {α β : Type} {clear bounded : Prop} {first : Option SchemaError}
    {x : Except SchemaError α} (hx : Ends clear bounded first x) (g : α → β) :
    Ends clear bounded first (x >>= fun a => pure (g a)) := by
  rw [← Option.or_none (o := first)]
  exact hx.bind fun a _ => .ok rfl

theorem Ends.imp {α : Type} {clear clear' bounded bounded' : Prop} {first : Option SchemaError}
    {x : Except SchemaError α} (h : Ends clear bounded first x) (hc : clear' → clear)
    (hb : bounded' → bounded) : Ends clear' bounded' first x := by
  cases h with
  | ok h => exact .ok h
  | malformed h => exact .malformed h
  | unusable h => exact .unusable fun hc' => h (hc hc')
  | unbuildable h => exact .unbuildable fun hb' => h (hb hb')

section shapes
variable {clear bounded : Prop} {name : String} (hname : clear → Clear name) {f : Facets}
  {items : Option Schema} {properties : Option (List (String × Schema))} {anyOf : Option (List Schema)}

include hname in
theorem clear_longer {suffix : String} (hsuffix : Clear suffix) : clear → Clear (name ++ suffix) :=
  fun hc => clear_append.2 ⟨hname hc, hsuffix⟩

include hname in
theorem ends_ofMembers {ms : List Schema}
    (h : ∀ m ∈ ms, ∀ n, (clear → Clear n) →
      Ends clear bounded (m.reached.findSome? malformation?) (ofSchema n m)) :
    ∀ i, Ends clear bounded ((ms.flatMap reached).findSome? malformation?) (ofMembers name i ms) := by
  induction ms with
  | nil => exact fun i => .ok rfl
  | cons m ms ih =>
    intro i
    obtain ⟨hm, hms⟩ := List.forall_mem_cons.1 h
    have hfirst := hm (name ++ "_" ++ toString i)
      (clear_longer (clear_longer hname (by decide)) (clear_toString i))
    rw [List.flatMap_cons, List.findSome?_append, ofMembers_cons]
    refine hfirst.bind fun t _ => ?_
    exact (ih hms (i + 1)).map (t :: ·)

theorem ends_ofProperties {ps : List (String × Schema)}
    (h : ∀ p ∈ ps, Ends clear bounded (p.2.reached.findSome? malformation?)
      (ofSchema (name ++ "_" ++ p.1) p.2)) :
    Ends clear bounded (((ps.map (·.2)).flatMap reached).findSome? malformation?)
      (ofProperties name ps) := by
  induction ps with
  | nil => exact .ok rfl
  | cons p ps ih =>
    obtain ⟨hp, hps⟩ := List.forall_mem_cons.1 h
    rw [List.map_cons, List.flatMap_cons, List.findSome?_append, ofProperties_cons]
    refine hp.bind fun t _ => ?_
    exact (ih hps).map ((p.1, t) :: ·)

include hname in
/-- The record of an object is made unless its name is not clear or its validator cannot be built. -/
theorem ends_recordOf (f : Facets) {ps : List (String × Schema)} {types : List (String × TypeExpr)}
    (htypes : ofProperties name ps = .ok types) (hps : bounded → ∀ p ∈ ps, p.2.Buildable) :
    Ends clear bounded none (recordOf name f types) := by
  by_cases hclear : Clear name
  · rcases recordOf_clear hclear f types with ⟨t, ht⟩ | ⟨u, hu⟩
    · rw [ht]
      exact .ok rfl
    · rw [hu]
      refine .unbuildable fun hb => ?_
      have hrebuilt := ofProperties_forall₂ htypes
      obtain ⟨t, ht⟩ := exists_recordOf hclear f (regular_properties hrebuilt) fun q hq => by
        obtain ⟨p, hp, -, n, -, hpq⟩ := exists_of_forall₂ hrebuilt q hq
        exact (hasValidator_iff_buildable hpq).2 (hps hb p hp)
      rw [ht] at hu
      cases hu
  · rw [recordOf_unusable hclear]
    exact .unusable fun h => hclear (hname h)

include hname in
theorem ends_union {m : Schema} {ms : List Schema}
    (h : ∀ p ∈ m :: ms, ∀ n, (clear → Clear n) →
      Ends clear bounded (p.reached.findSome? malformation?) (ofSchema n p)) :
    Ends clear bounded (((m :: ms).flatMap reached).findSome? malformation?)
      (ofSchema name (.node f items properties (some (m :: ms)))) := by
  obtain ⟨hm, hms⟩ := List.forall_mem_cons.1 h
  have hfirst := hm (name ++ "_0") (clear_longer hname (by decide))
  rw [List.flatMap_cons, List.findSome?_append, ofSchema_union]
  exact hfirst.bind fun t _ => (ends_ofMembers hname hms 1).map _

include hname in
theorem ends_array {i : Schema} (hnil : anyOf.getD [] = []) (htype : f.type = some .array)
    (h : ∀ n, (clear → Clear n) →
      Ends clear bounded (i.reached.findSome? malformation?) (ofSchema n i)) :
    Ends clear bounded (i.reached.findSome? malformation?)
      (ofSchema name (.node f (some i) properties anyOf)) := by
  have hitem := h (name ++ "_item") (clear_longer hname (by decide))
  rw [ofSchema_array hnil htype]
  exact hitem.map _

include hname in
theorem ends_object (hnil : anyOf.getD [] = []) (htype : f.type = some .object)
    (hbuildable : bounded → ∀ p ∈ properties.getD [], p.2.Buildable)
    (h : ∀ p ∈ properties.getD [], Ends clear bounded (p.2.reached.findSome? malformation?)
      (ofSchema (name ++ "_" ++ p.1) p.2)) :
    Ends clear bounded ((((properties.getD []).map (·.2)).flatMap reached).findSome? malformation?)
      (ofSchema name (.node f items properties anyOf)) := by
  rw [ofSchema_object hnil htype, ← Option.or_none (o := List.findSome? _ _)]
  refine (ends_ofProperties h).bind fun types htypes => ?_
  exact (ends_recordOf hname f htypes hbuildable).map _

include hname in
/-- One step of a reading: what a schema itself says, and then its parts. -/
theorem ends_step {s : Schema} (hkeys : clear → s.ClearKeys)
    (hbuildable : bounded → ∀ p ∈ s.readParts, p.Buildable)
    (h : ∀ p ∈ s.readParts, ∀ n, (clear → Clear n) →
      Ends clear bounded (p.reached.findSome? malformation?) (ofSchema n p)) :
    Ends clear bounded (s.reached.findSome? malformation?) (ofSchema name s) := by
  rw [Schema.findSome?_reached]
  obtain ⟨f, items, properties, anyOf⟩ := s
  -- Members come before the type: a schema that has some is malformed only in them.
  by_cases hnil : anyOf.getD [] = []
  case neg =>
    rcases anyOf with _ | _ | ⟨m, ms⟩
    · simp at hnil
    · simp at hnil
    · exact ends_union hname h
  have hself (hwell : ¬ (Schema.node f items properties anyOf).Malformed) :=
    Schema.malformation?_eq_none.2 hwell
  rcases htype : f.type with _ | _ | _ | _ | _ | _ | _
  case none =>
    rw [ofSchema_untyped hnil htype]
    exact .malformed (by simp [malformation?, Schema.facets, Schema.anyOf, hnil, htype])
  case some.array =>
    cases items with
    | none =>
      rw [ofSchema_undescribed hnil htype]
      exact .malformed (by simp [malformation?, Schema.facets, Schema.anyOf, Schema.items, hnil,
        htype])
    | some i =>
      have hparts : (Schema.node f (some i) properties anyOf).readParts = [i] := by
        simp [Schema.readParts, hnil, htype]
      rw [hself (by simp [Schema.Malformed, Schema.facets, Schema.items, htype]), hparts,
        List.flatMap_singleton, Option.none_or]
      exact ends_array hname hnil htype (h i (by simp [hparts]))
  case some.object =>
    have hparts : (Schema.node f items properties anyOf).readParts = (properties.getD []).map (·.2) := by
      simp [Schema.readParts, hnil, htype]
    have hmem : ∀ p ∈ properties.getD [], p.2 ∈ (Schema.node f items properties anyOf).readParts :=
      fun p hp => hparts ▸ List.mem_map_of_mem hp
    rw [hself (by simp [Schema.Malformed, Schema.facets, htype]), hparts, Option.none_or]
    refine ends_object hname hnil htype (fun hb p hp => hbuildable hb _ (hmem p hp)) fun p hp => ?_
    refine h p.2 (hmem p hp) _ fun hc => clear_append.2 ⟨?_, hkeys hc hnil htype p hp⟩
    exact clear_longer hname (by decide) hc
  all_goals
    obtain ⟨t, ht⟩ : ∃ t, ofSchema name (.node f items properties anyOf) = .ok t :=
      exists_ofSchema_scalar hnil (by simp [htype]) (by simp [htype]) (by simp [htype])
    rw [ht, hself (by simp [Schema.Malformed, Schema.facets, htype])]
    exact .ok (by simp [Schema.readParts, hnil, htype])

end shapes

/-- How every reading ends: the first malformed schema that is reached stops it, unless names or bounds
stop it before. -/
theorem ends_ofSchema (s : Schema) : ∀ name,
    Ends (Clear name ∧ ∀ r ∈ s.reached, r.ClearKeys)
      (∀ r ∈ s.reached, r.BoundedIn Schema.wholeRange) (s.reached.findSome? malformation?)
      (ofSchema name s) := by
  induction s using Schema.readParts_induction with
  | step s ih =>
    intro name
    have hreached : ∀ p ∈ s.readParts, ∀ r ∈ p.reached, r ∈ s.reached := fun p hp r =>
      Schema.mem_reached_of_part hp
    refine ends_step (·.1) (fun hc => hc.2 s s.self_mem_reached) (fun hb p hp => ?_) fun p hp n hn => ?_
    · exact Schema.buildable_of_reached fun r hr => hb r (hreached p hp r hr)
    · refine (ih p hp n).imp (fun hc => ?_) fun hb r hr => hb r (hreached p hp r hr)
      exact ⟨hn hc, fun r hr => hc.2 r (hreached p hp r hr)⟩

/-- The reading stops at the first malformed schema that is reached, in depth-first order and that of
declaration, and where there is none it gives a type. -/
theorem ofSchema_error_iff {name : String} {s : Schema} (hname : Clear name)
    (hbounds : ∀ r, s.Reaches r → r.BoundedIn Schema.wholeRange)
    (hkeys : ∀ r, s.Reaches r → r.ClearKeys) :
    ((∃ e, e.IsMalformation ∧ ofSchema name s = .error e) ↔ ∃ r, s.Reaches r ∧ r.Malformed) ∧
      ((∀ r, s.Reaches r → ¬ r.Malformed) → ∃ t, ofSchema name s = .ok t) ∧
      ∀ e, ofSchema name s = .error e ↔ ∃ before r after, s.reached = before ++ r :: after ∧
        (∀ b ∈ before, ¬ b.Malformed) ∧ r.malformation? = some e := by
  simp only [← Schema.mem_reached_iff] at hbounds hkeys ⊢
  have herror : ∀ e, ofSchema name s = .error e ↔ s.reached.findSome? malformation? = some e := by
    intro e
    have h := ends_ofSchema s name
    generalize ofSchema name s = result at h ⊢
    cases h with
    | ok h => simp [h]
    | malformed h => simp [h]
    | unusable h => exact absurd ⟨hname, hkeys⟩ h
    | unbuildable h => exact absurd hbounds h
  have hnone : s.reached.findSome? malformation? = none ↔ ∀ r ∈ s.reached, ¬ r.Malformed := by
    simp only [List.findSome?_eq_none_iff, Schema.malformation?_eq_none]
  refine ⟨⟨?_, ?_⟩, ?_, ?_⟩
  · rintro ⟨e, -, he⟩
    by_contra hall
    push Not at hall
    rw [herror, hnone.2 hall] at he
    cases he
  · rintro ⟨r, hr, hbad⟩
    obtain ⟨e, he⟩ := Option.ne_none_iff_exists'.1 fun h => hnone.1 h r hr hbad
    obtain ⟨r', -, hr'⟩ := List.exists_of_findSome?_eq_some he
    exact ⟨e, Schema.isMalformation_of_malformation? hr', (herror e).2 he⟩
  · intro hall
    cases h : ofSchema name s with
    | ok t => exact ⟨t, rfl⟩
    | error e =>
      rw [herror, hnone.2 hall] at h
      cases h
  · intro e
    rw [herror, List.findSome?_eq_some_iff]
    simp only [Schema.malformation?_eq_none, and_comm]


/-- A record in which a list has no schema for its items and, behind it, a field has no type. The items
of its text are malformed too, but nothing looks at them. -/
def parcel : Schema :=
  .node { type := some .object } none
    (some [("weight", .leaf { type := some .integer, minimum := some 1.0 }),
      ("note", .node { type := some .string } (some (.leaf {})) none none),
      ("stops", .leaf { type := some .array, maxItems := some 9 }), ("rest", .leaf {})]) none

theorem parcel_malformed : (∀ r, parcel.Reaches r → r.BoundedIn Schema.wholeRange) ∧
    (∀ r, parcel.Reaches r → r.ClearKeys) ∧
    ofSchema "VertexModel" parcel = .error .undescribedItems := by
  have hreached : ∀ r, parcel.Reaches r → r = parcel ∨
      r = .leaf { type := some .integer, minimum := some 1.0 } ∨
      r = .node { type := some .string } (some (.leaf {})) none none ∨
      r = .leaf { type := some .array, maxItems := some 9 } ∨ r = .leaf {} := by
    intro r hr
    rw [← Schema.mem_reached_iff] at hr
    simpa [parcel, Schema.leaf, Schema.reached, Schema.reachedOfProperties] using hr
  have hbounds : ∀ r, parcel.Reaches r → r.BoundedIn Schema.wholeRange := by
    intro r hr
    rcases hreached r hr with rfl | rfl | rfl | rfl | rfl
    case inr.inl =>
      refine ⟨fun _ _ x hx => ?_, fun _ htype => absurd htype (by decide)⟩
      obtain rfl : (1.0 : Float) = x := by simpa [Schema.leaf, Schema.facets] using hx
      have hbits : Numeric.Binary64.ofFloat 1.0 = .finite ⟨false, 2 ^ 52, -52⟩ := rfl
      exact ⟨_, 1, hbits, by norm_num [Numeric.Finite.value], by norm_num [Schema.wholeRange]⟩
    case inr.inr.inr.inl =>
      refine ⟨fun _ htype => absurd htype (by decide), fun _ _ n hn => ?_⟩
      obtain rfl : 9 = n := by simpa [Schema.leaf, Schema.facets] using hn
      decide
    all_goals exact Schema.boundedIn_of_type (by decide) (by decide)
  have hkeys : ∀ r, parcel.Reaches r → r.ClearKeys := by
    intro r hr
    rcases hreached r hr with rfl | rfl | rfl | rfl | rfl
    case inl => exact fun _ _ => by decide
    all_goals exact fun _ htype => absurd htype (by decide)
  refine ⟨hbounds, hkeys, ((ofSchema_error_iff (by decide) hbounds hkeys).2.2 _).2 ?_⟩
  refine ⟨[parcel, .leaf { type := some .integer, minimum := some 1.0 },
    .node { type := some .string } (some (.leaf {})) none none],
    .leaf { type := some .array, maxItems := some 9 }, [.leaf {}], rfl, ?_, rfl⟩
  simp only [← Schema.malformation?_eq_none, List.forall_mem_cons]
  exact ⟨rfl, rfl, rfl, List.forall_mem_nil _⟩

theorem recordOf_unbuildable {name : String} {f : Facets} {properties : List (String × TypeExpr)}
    {u : Unbuildable} (hname : Clear name)
    (h : Validator.ofFields (fieldsOf (f.required.getD []) properties) = .error u) :
    recordOf name f properties = .error (.unbuildable u) := by
  have hclear : ¬ name.contains '\x00' = true := by
    simpa [Clear, String.contains_char_eq] using hname
  unfold fieldsOf at h
  simp only [recordOf, if_neg hclear, h]

/-- A whole number that is at least the least one of 64 bits. -/
def leastWhole : Facets := { type := some .integer, minimum := some (-9223372036854775808.0) }

def leastWholeRecord : Schema :=
  .node { type := some .object } none (some [("n", .leaf leastWhole)]) none

theorem boundedIn_leastWhole : (Schema.leaf leastWhole).BoundedIn (Set.Ico (-2 ^ 63) (2 ^ 63)) := by
  have hbits : Numeric.Binary64.ofFloat (-9223372036854775808.0) = .finite ⟨true, 2 ^ 52, 11⟩ := rfl
  refine ⟨fun _ _ x hx => ?_, fun _ htype => absurd htype (by decide)⟩
  obtain rfl : -9223372036854775808.0 = x := by
    simpa [leastWhole, Schema.leaf, Schema.facets] using hx
  exact ⟨_, -2 ^ 63, hbits, by norm_num [Numeric.Finite.value], by norm_num, by norm_num⟩

/-- The least whole number of 64 bits is one, but no bound that validators can have. -/
theorem ofSchema_leastWholeRecord :
    (∀ r, leastWholeRecord.Reaches r → r.BoundedIn (Set.Ico (-2 ^ 63) (2 ^ 63)) ∧
      (∀ p ∈ r.properties.getD [], p.1 ≠ "" ∧ Clear p.1) ∧ ¬ r.Malformed) ∧
    ofSchema "VertexModel" leastWholeRecord = .error (.unbuildable .invalidBound) := by
  constructor
  · intro r hr
    have hr' : r = leastWholeRecord ∨ r = .leaf leastWhole := by
      rw [← Schema.mem_reached_iff] at hr
      simpa [leastWholeRecord, leastWhole, Schema.leaf, Schema.reached, Schema.reachedOfProperties]
        using hr
    rcases hr' with rfl | rfl
    · refine ⟨Schema.boundedIn_of_type (by decide) (by decide), ?_, ?_⟩
      · simp [leastWholeRecord, Schema.properties, Clear]
      · simp [leastWholeRecord, Schema.Malformed, Schema.facets]
    · exact ⟨boundedIn_leastWhole, by simp [Schema.leaf, Schema.properties],
        by simp [leastWhole, Schema.Malformed, Schema.facets, Schema.leaf]⟩
  · have hkeys : FieldName.forKeys ["n"] = ["n"] := by decide +kernel
    have hfields : Validator.ofFields (fieldsOf [] [("n", ofNumberSchema .int leastWhole)]) =
        .error .invalidBound := by
      simp only [fieldsOf, List.map_cons, List.map_nil, hkeys]
      rfl
    have hrecord : recordOf "VertexModel" { type := some .object }
        [("n", ofNumberSchema .int leastWhole)] = .error (.unbuildable .invalidBound) :=
      recordOf_unbuildable (by decide) hfields
    have htypes : ofProperties "VertexModel" [("n", .leaf leastWhole)] =
        .ok [("n", ofNumberSchema .int leastWhole)] := by
      rw [ofProperties_cons, Schema.leaf, ofSchema_integer rfl rfl]
      rfl
    rw [leastWholeRecord, ofSchema_object rfl rfl, Option.getD_some, htypes]
    show recordOf "VertexModel" _ _ >>= _ = _
    rw [hrecord]
    rfl

end TypeExpr
end TypeWire
