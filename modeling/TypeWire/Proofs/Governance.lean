import TypeWire.Proofs.Malformation

/-!
# What governs a rebuilt type

Each shape of a schema is rebuilt from a few of its fields: a union from its members, a text from its
values or else from whether it is a time, a number from its bounds, a list from its items and lengths,
an object from its properties and from which of these are required. A description and null count with
all of them.

`Schema.AgreeWhereRead` relates two schemas that agree on these fields, at every depth, and may differ
in all the others at any number of places. Where it holds the schemas are rebuilt into one type or are
refused for one reason (`TypeExpr.ofSchema_eq_of_agree`). It goes down through `Schema.readParts` only,
so a part that nothing reads may be malformed in one of the schemas and missing in the other.
-/

namespace TypeWire

/-- Equal descriptions, where an empty one is none, and null in both or in neither. -/
structure Facets.SameModifiers (f g : Facets) : Prop where
  description : nonEmpty f.description = nonEmpty g.description
  nullable : f.nullable = some true ↔ g.nullable = some true

namespace Schema

/-- Neither schema is a union, and both have the type, or none. -/
structure BothOf (type : Option SchemaType) (s t : Schema) : Prop where
  left : s.anyOf.getD [] = [] ∧ s.facets.type = type
  right : t.anyOf.getD [] = [] ∧ t.facets.type = type

/-- The schemas agree in what they are rebuilt from. -/
inductive AgreeWhereRead : Schema → Schema → Prop
  | union {s t : Schema} : s.anyOf.getD [] ≠ [] → s.facets.SameModifiers t.facets →
      List.Forall₂ AgreeWhereRead (s.anyOf.getD []) (t.anyOf.getD []) → AgreeWhereRead s t
  | untyped {s t : Schema} : BothOf none s t → AgreeWhereRead s t
  | text {s t : Schema} : BothOf (some .string) s t → s.facets.SameModifiers t.facets →
      s.facets.enum.getD [] = t.facets.enum.getD [] →
      (s.facets.enum.getD [] = [] →
        (s.facets.format = some "date-time" ↔ t.facets.format = some "date-time")) →
      AgreeWhereRead s t
  | number {s t : Schema} {type : SchemaType} : type = .number ∨ type = .integer →
      BothOf (some type) s t → s.facets.SameModifiers t.facets →
      s.facets.minimum = t.facets.minimum → s.facets.maximum = t.facets.maximum →
      AgreeWhereRead s t
  | boolean {s t : Schema} : BothOf (some .boolean) s t → s.facets.SameModifiers t.facets →
      AgreeWhereRead s t
  | array {s t : Schema} : BothOf (some .array) s t → s.facets.SameModifiers t.facets →
      s.facets.minItems = t.facets.minItems → s.facets.maxItems = t.facets.maxItems →
      Option.Rel AgreeWhereRead s.items t.items → AgreeWhereRead s t
  /-- What is required that is no property does not count, nor how often or where it is named. -/
  | object {s t : Schema} : BothOf (some .object) s t → s.facets.SameModifiers t.facets →
      (s.properties.getD []).map (·.1) = (t.properties.getD []).map (·.1) →
      List.Forall₂ AgreeWhereRead ((s.properties.getD []).map (·.2))
        ((t.properties.getD []).map (·.2)) →
      (∀ p ∈ s.properties.getD [],
        p.1 ∈ s.facets.required.getD [] ↔ p.1 ∈ t.facets.required.getD []) → AgreeWhereRead s t

theorem AgreeWhereRead.refl (s : Schema) : s.AgreeWhereRead s := by
  induction s using readParts_induction with
  | step s ih =>
    obtain ⟨f, items, properties, anyOf⟩ := s
    have hmodifiers : f.SameModifiers f := ⟨rfl, Iff.rfl⟩
    by_cases hnil : anyOf.getD [] = []
    case neg =>
      exact .union hnil hmodifiers
        (List.forall₂_same.2 fun m hm => ih m (mem_readParts_of_member hm))
    have hboth {type : Option SchemaType} (htype : f.type = type) :
        BothOf type (node f items properties anyOf) (node f items properties anyOf) :=
      ⟨⟨hnil, htype⟩, hnil, htype⟩
    rcases htype : f.type with _ | _ | _ | _ | _ | _ | _
    case none => exact .untyped (hboth htype)
    case some.string => exact .text (hboth htype) hmodifiers rfl fun _ => Iff.rfl
    case some.number => exact .number (.inl rfl) (hboth htype) hmodifiers rfl rfl
    case some.integer => exact .number (.inr rfl) (hboth htype) hmodifiers rfl rfl
    case some.boolean => exact .boolean (hboth htype) hmodifiers
    case some.array =>
      refine .array (hboth htype) hmodifiers rfl rfl ?_
      cases items with
      | none => exact .none
      | some i => exact .some (ih i (mem_readParts_of_item hnil htype rfl))
    case some.object =>
      exact .object (hboth htype) hmodifiers rfl
        (List.forall₂_same.2 fun p hp => ih p (mem_readParts_of_property hnil htype hp))
        fun _ _ => Iff.rfl

end Schema

namespace TypeExpr

open Schema (AgreeWhereRead BothOf)

/-! ## The builders -/

section builders
variable {f g : Facets} (h : f.SameModifiers g)

include h in
theorem orNull_congr (t : TypeExpr) : t.orNull f.nullable = t.orNull g.nullable := by
  unfold orNull
  simp only [h.nullable]

include h in
theorem described_congr (t : TypeExpr) (ms : List Meta) :
    t.described f.description ms = t.described g.description ms := by
  unfold described withDescription
  rw [h.description]

include h in
theorem ofStringSchema_congr (henum : f.enum.getD [] = g.enum.getD [])
    (hformat : f.enum.getD [] = [] → (f.format = some "date-time" ↔ g.format = some "date-time")) :
    ofStringSchema f = ofStringSchema g := by
  by_cases hnone : f.enum.getD [] = []
  · rw [ofStringSchema_plain hnone, ofStringSchema_plain (henum ▸ hnone), described_congr h]
    simp only [hformat hnone]
  · rw [ofStringSchema_enum hnone, ofStringSchema_enum (henum ▸ hnone), described_congr h, henum]

include h in
theorem ofNumberSchema_congr (hmin : f.minimum = g.minimum) (hmax : f.maximum = g.maximum)
    (base : Scalar) : ofNumberSchema base f = ofNumberSchema base g := by
  unfold ofNumberSchema
  rw [described_congr h, hmin, hmax]

include h in
theorem ofArraySchema_congr (hmin : f.minItems = g.minItems) (hmax : f.maxItems = g.maxItems)
    (item : TypeExpr) : ofArraySchema item f = ofArraySchema item g := by
  unfold ofArraySchema
  rw [described_congr h, hmin, hmax]

/-- Of the required keys only those of properties count, and it does not matter how often or in which
order they stand. -/
theorem fieldsOf_congr {required required' : List String} {properties : List (String × TypeExpr)}
    (hrequired : ∀ p ∈ properties, p.1 ∈ required ↔ p.1 ∈ required') :
    fieldsOf required properties = fieldsOf required' properties := by
  unfold fieldsOf
  refine List.map_congr_left ?_
  rintro ⟨name, key, t⟩ hp
  have hkey : required.contains key = required'.contains key := by
    rw [Bool.eq_iff_iff, List.contains_iff_mem, List.contains_iff_mem]
    exact hrequired _ (List.of_mem_zip hp).2
  dsimp only [fieldOfProperty]
  rw [hkey]

include h in
theorem recordOf_congr {name : String} {properties : List (String × TypeExpr)}
    (hrequired : ∀ p ∈ properties, p.1 ∈ f.required.getD [] ↔ p.1 ∈ g.required.getD []) :
    recordOf name f properties = recordOf name g properties := by
  have hfields := fieldsOf_congr hrequired
  unfold fieldsOf at hfields
  unfold recordOf
  dsimp only
  rw [hfields, h.description]

end builders

/-! ## Schemas -/

theorem ofMembers_congr {ms ns : List Schema}
    (h : List.Forall₂ (fun m n => ∀ name, ofSchema name m = ofSchema name n) ms ns) (name : String) :
    ∀ i, ofMembers name i ms = ofMembers name i ns := by
  induction h with
  | nil => exact fun _ => rfl
  | cons hm _ ih =>
    intro i
    rw [ofMembers_cons, ofMembers_cons, hm, ih]

/-- Properties are rebuilt alike under the same keys. -/
theorem ofProperties_congr (name : String) {ps : List (String × Schema)} :
    ∀ {qs : List (String × Schema)}, ps.map (·.1) = qs.map (·.1) →
      List.Forall₂ (fun p q => ∀ name, ofSchema name p = ofSchema name q) (ps.map (·.2))
        (qs.map (·.2)) →
      ofProperties name ps = ofProperties name qs := by
  induction ps with
  | nil =>
    intro qs hkeys _
    rw [List.map_eq_nil_iff.1 hkeys.symm]
  | cons p ps ih =>
    intro qs hkeys h
    cases qs with
    | nil => cases hkeys
    | cons q qs =>
      obtain ⟨key, p⟩ := p
      obtain ⟨key', q⟩ := q
      obtain ⟨rfl, hrest⟩ : key = key' ∧ ps.map (·.1) = qs.map (·.1) := List.cons.inj hkeys
      obtain ⟨hp, h⟩ := List.forall₂_cons.1 h
      have hfirst : ofSchema (name ++ "_" ++ key) p = ofSchema (name ++ "_" ++ key) q := hp _
      rw [ofProperties_cons, ofProperties_cons, hfirst, ih hrest h]

/-- Parts that agree are rebuilt alike, if all of them are read. -/
theorem forall₂_agree {ps qs : List Schema}
    (hpart : ∀ p ∈ ps, ∀ q, p.AgreeWhereRead q → ∀ name, ofSchema name p = ofSchema name q)
    (h : List.Forall₂ AgreeWhereRead ps qs) :
    List.Forall₂ (fun p q => ∀ name, ofSchema name p = ofSchema name q) ps qs :=
  ((List.forall₂_and_left _ _).2 ⟨hpart, h⟩).imp fun _ q hq => hq.1 q hq.2

theorem optionRel_agree {i j : Option Schema}
    (hpart : ∀ p ∈ i, ∀ q, p.AgreeWhereRead q → ∀ name, ofSchema name p = ofSchema name q)
    (h : Option.Rel AgreeWhereRead i j) :
    Option.Rel (fun p q => ∀ name, ofSchema name p = ofSchema name q) i j := by
  cases h with
  | none => exact .none
  | some hpq => exact .some (hpart _ rfl _ hpq)

section shapes
variable {f g : Facets} (h : f.SameModifiers g) {items items' : Option Schema}
  {properties properties' : Option (List (String × Schema))} {anyOf anyOf' : Option (List Schema)}

include h in
theorem ofSchema_union_congr (hne : anyOf.getD [] ≠ [])
    (hmembers : List.Forall₂ (fun m n => ∀ name, ofSchema name m = ofSchema name n)
      (anyOf.getD []) (anyOf'.getD [])) (name : String) :
    ofSchema name (.node f items properties anyOf) =
      ofSchema name (.node g items' properties' anyOf') := by
  rcases anyOf with _ | _ | ⟨m, ms⟩
  · exact absurd rfl hne
  · exact absurd rfl hne
  · rcases anyOf' with _ | _ | ⟨n, ns⟩
    · cases hmembers
    · cases hmembers
    · obtain ⟨hm, hms⟩ := List.forall₂_cons.1 hmembers
      rw [ofSchema_union, ofSchema_union, hm, ofMembers_congr hms]
      simp only [described_congr h, orNull_congr h]

include h in
theorem ofSchema_text_congr (hs : anyOf.getD [] = [] ∧ f.type = some .string)
    (ht : anyOf'.getD [] = [] ∧ g.type = some .string) (henum : f.enum.getD [] = g.enum.getD [])
    (hformat : f.enum.getD [] = [] → (f.format = some "date-time" ↔ g.format = some "date-time"))
    (name : String) :
    ofSchema name (.node f items properties anyOf) =
      ofSchema name (.node g items' properties' anyOf') := by
  rw [ofSchema_text hs.1 hs.2, ofSchema_text ht.1 ht.2, ofStringSchema_congr h henum hformat,
    orNull_congr h]

include h in
/-- Of a number, or an integer, the bounds are read. -/
theorem ofSchema_number_congr {type : SchemaType} (htype : type = .number ∨ type = .integer)
    (hs : anyOf.getD [] = [] ∧ f.type = some type) (ht : anyOf'.getD [] = [] ∧ g.type = some type)
    (hmin : f.minimum = g.minimum) (hmax : f.maximum = g.maximum) (name : String) :
    ofSchema name (.node f items properties anyOf) =
      ofSchema name (.node g items' properties' anyOf') := by
  rcases htype with rfl | rfl
  · rw [ofSchema_number hs.1 hs.2, ofSchema_number ht.1 ht.2, ofNumberSchema_congr h hmin hmax,
      orNull_congr h]
  · rw [ofSchema_integer hs.1 hs.2, ofSchema_integer ht.1 ht.2, ofNumberSchema_congr h hmin hmax,
      orNull_congr h]

include h in
theorem ofSchema_boolean_congr (hs : anyOf.getD [] = [] ∧ f.type = some .boolean)
    (ht : anyOf'.getD [] = [] ∧ g.type = some .boolean) (name : String) :
    ofSchema name (.node f items properties anyOf) =
      ofSchema name (.node g items' properties' anyOf') := by
  rw [ofSchema_boolean hs.1 hs.2, ofSchema_boolean ht.1 ht.2, described_congr h, orNull_congr h]

include h in
/-- Of a list the lengths and the items are read. -/
theorem ofSchema_array_congr (hs : anyOf.getD [] = [] ∧ f.type = some .array)
    (ht : anyOf'.getD [] = [] ∧ g.type = some .array) (hmin : f.minItems = g.minItems)
    (hmax : f.maxItems = g.maxItems)
    (hitems : Option.Rel (fun i j => ∀ name, ofSchema name i = ofSchema name j) items items')
    (name : String) :
    ofSchema name (.node f items properties anyOf) =
      ofSchema name (.node g items' properties' anyOf') := by
  cases hitems with
  | none => rw [ofSchema_undescribed hs.1 hs.2, ofSchema_undescribed ht.1 ht.2]
  | some hitem =>
    rw [ofSchema_array hs.1 hs.2, ofSchema_array ht.1 ht.2, hitem]
    simp only [ofArraySchema_congr h hmin hmax, orNull_congr h]

include h in
/-- Of an object the properties are read, in their order, and which of them are required. -/
theorem ofSchema_object_congr (hs : anyOf.getD [] = [] ∧ f.type = some .object)
    (ht : anyOf'.getD [] = [] ∧ g.type = some .object)
    (hkeys : (properties.getD []).map (·.1) = (properties'.getD []).map (·.1))
    (hvalues : List.Forall₂ (fun p q => ∀ name, ofSchema name p = ofSchema name q)
      ((properties.getD []).map (·.2)) ((properties'.getD []).map (·.2)))
    (hrequired : ∀ p ∈ properties.getD [],
      p.1 ∈ f.required.getD [] ↔ p.1 ∈ g.required.getD []) (name : String) :
    ofSchema name (.node f items properties anyOf) =
      ofSchema name (.node g items' properties' anyOf') := by
  rw [ofSchema_object hs.1 hs.2, ofSchema_object ht.1 ht.2, ← ofProperties_congr name hkeys hvalues]
  cases htypes : ofProperties name (properties.getD []) with
  | error e => rfl
  | ok types =>
    -- the types stand under the keys of the properties
    have hread : ∀ q ∈ types, q.1 ∈ f.required.getD [] ↔ q.1 ∈ g.required.getD [] := by
      intro q hq
      obtain ⟨p, hp, hkey, -⟩ := exists_of_forall₂ (ofProperties_forall₂ htypes) q hq
      rw [← hkey]
      exact hrequired p hp
    show (recordOf name f types >>= fun t => pure (t.orNull f.nullable)) =
      recordOf name g types >>= fun t => pure (t.orNull g.nullable)
    rw [recordOf_congr h hread]
    simp only [orNull_congr h]

end shapes

/-- Schemas that agree where they are read are rebuilt into one type, or refused for one reason. -/
theorem ofSchema_eq_of_agree {s t : Schema} (h : s.AgreeWhereRead t) (name : String) :
    ofSchema name s = ofSchema name t := by
  induction s using Schema.readParts_induction generalizing t name with
  | step s ih =>
    obtain ⟨f, items, properties, anyOf⟩ := s
    obtain ⟨g, items', properties', anyOf'⟩ := t
    cases h with
    | union hne hmodifiers hmembers =>
      refine ofSchema_union_congr hmodifiers hne
        (forall₂_agree (fun m hm n hmn => ?_) hmembers) name
      exact ih m (Schema.mem_readParts_of_member hm) hmn
    | untyped hboth =>
      exact (ofSchema_untyped hboth.left.1 hboth.left.2).trans
        (ofSchema_untyped hboth.right.1 hboth.right.2).symm
    | text hboth hmodifiers henum hformat =>
      exact ofSchema_text_congr hmodifiers hboth.left hboth.right henum hformat name
    | number htype hboth hmodifiers hmin hmax =>
      exact ofSchema_number_congr hmodifiers htype hboth.left hboth.right hmin hmax name
    | boolean hboth hmodifiers =>
      exact ofSchema_boolean_congr hmodifiers hboth.left hboth.right name
    | array hboth hmodifiers hmin hmax hitems =>
      refine ofSchema_array_congr hmodifiers hboth.left hboth.right hmin hmax
        (optionRel_agree (fun i hi j hij => ?_) hitems) name
      exact ih i (Schema.mem_readParts_of_item hboth.left.1 hboth.left.2 hi) hij
    | object hboth hmodifiers hkeys hvalues hrequired =>
      refine ofSchema_object_congr hmodifiers hboth.left hboth.right hkeys
        (forall₂_agree (fun p hp q hpq => ?_) hvalues) hrequired name
      exact ih p (Schema.mem_readParts_of_property hboth.left.1 hboth.left.2 hp) hpq

/-- A ticket as it is declared. -/
def ticket : Schema :=
  .node { type := some .object, required := some ["seat"] } none
    (some [("seat", .leaf { type := some .string, enum := some ["window", "aisle"] }),
      ("extras", .node { type := some .array, maxItems := some 3 }
        (some (.node { nullable := some true } none none
          (some [.leaf { type := some .string }, .leaf { type := some .boolean }]))) none none),
      ("fare", .leaf { type := some .number, minimum := some 0.0 })]) none

/-- The ticket with much beside it that is not read, some of it malformed. -/
def clutteredTicket : Schema :=
  .node { type := some .object, description := some "", nullable := some false
          required := some ["gate", "seat", "seat"], propertyOrdering := some ["extras"]
          minItems := some (-1) } (some (.leaf {}))
    (some [("seat", .node
          { type := some .string, enum := some ["window", "aisle"], format := some "date-time"
            sample := some (.int 7) } none (some [("row", .leaf { type := some .array })]) none),
      ("extras", .node { type := some .array, maxItems := some 3, required := some ["seat"] }
        (some (.node { type := some .array, nullable := some true, enum := some [] } none none
          (some [.leaf { type := some .string, format := some "email" },
            .node { type := some .boolean } (some (.leaf {})) none none]))) none none),
      ("fare", .leaf { type := some .number, minimum := some 0.0 })]) none

theorem ticket_agrees : ticket.AgreeWhereRead clutteredTicket := by
  refine .object ⟨⟨rfl, rfl⟩, rfl, rfl⟩ ⟨rfl, by decide⟩ rfl
    (.cons ?_ (.cons ?_ (.cons (.refl _) .nil))) ?_
  · exact .text ⟨⟨rfl, rfl⟩, rfl, rfl⟩ ⟨rfl, by decide⟩ rfl (by decide)
  · refine .array ⟨⟨rfl, rfl⟩, rfl, rfl⟩ ⟨rfl, by decide⟩ rfl rfl (.some ?_)
    refine .union (List.cons_ne_nil _ _) ⟨rfl, by decide⟩ (.cons ?_ (.cons ?_ .nil))
    · exact .text ⟨⟨rfl, rfl⟩, rfl, rfl⟩ ⟨rfl, by decide⟩ rfl (by decide)
    · exact .boolean ⟨⟨rfl, rfl⟩, rfl, rfl⟩ ⟨rfl, by decide⟩
  · simp [ticket, clutteredTicket, Schema.properties, Schema.facets]

theorem exists_ofSchema_ticket : ∃ t, ofSchema "Ticket" ticket = .ok t := by
  have htypes : ofProperties "Ticket" (ticket.properties.getD []) =
      .ok [("seat", literalOf [.str "window", .str "aisle"]),
        ("extras", .annotated (.list .builtin (.union [.scalar .str, .scalar .bool, .null]))
          [.restriction (.maxLength (.int 3))]),
        ("fare", .annotated (.scalar .float) [.restriction (.ge (.float 0.0))])] := rfl
  have hregular := regular_properties (ofProperties_forall₂ htypes)
  have hname : Clear "Ticket" := by decide
  obtain ⟨t, ht⟩ := exists_recordOf hname ticket.facets hregular (by
    simp only [List.forall_mem_cons]
    exact ⟨⟨_, rfl⟩, ⟨_, rfl⟩, ⟨_, rfl⟩, List.forall_mem_nil _⟩)
  refine ⟨t, ?_⟩
  rw [ticket, ofSchema_object rfl rfl]
  exact isOk_bind.2 ⟨_, htypes, isOk_bind.2 ⟨t, ht, rfl⟩⟩

theorem ticket_rebuilt : ticket.AgreeWhereRead clutteredTicket ∧
    ∃ t, ofSchema "Ticket" ticket = .ok t ∧ ofSchema "Ticket" clutteredTicket = .ok t := by
  obtain ⟨t, ht⟩ := exists_ofSchema_ticket
  exact ⟨ticket_agrees, t, ht, ofSchema_eq_of_agree ticket_agrees "Ticket" ▸ ht⟩

end TypeExpr

end TypeWire
