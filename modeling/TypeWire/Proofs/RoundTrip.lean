import TypeWire.Proofs.CanonicalIdentity
import TypeWire.Proofs.Remembered

/-!
# Round trips in a session

A session remembers the types that it put together, so what becomes of a schema can depend on what was
rebuilt before it. As long as no two constructions are equal and have different results, every schema is
rebuilt as if nothing were remembered (`Session.reforward_eq`), and canonical wire data becomes itself
again (`rebuildWireIn_canonical`).

Otherwise it need not. Enumerations of the same values are equal types in whatever order the values
stand, and the second of two comes back in the order of the first (`tides_reordered`).
-/

namespace TypeWire

/-! ## Steps of a session -/

theorem Session.reforward_of_get {session : Session} {slot name : String} {s s' : Schema}
    (hget : session.get slot = .ok s)
    (h : (TypeExpr.rebuild name s session.types).1 = TypeExpr.ofSchema name s') :
    session.reforward slot name =
      ({ session with types := (TypeExpr.rebuild name s session.types).2 }, s'.rebuild name) := by
  unfold reforward reverse
  rw [hget]
  dsimp only
  rw [h, Schema.rebuild]
  cases TypeExpr.ofSchema name s' <;> rfl

/-- A session in which no two constructions are equal and have different results rebuilds a schema as if
nothing were remembered, and it stays such a session. -/
theorem Session.reforward_eq {cs : List Construction} (hcs : Construction.Unambiguous cs)
    {session : Session} (htypes : session.types.Among cs) {slot name : String} {s : Schema}
    (hget : session.get slot = .ok s) (hmade : TypeExpr.constructions name s ⊆ cs) :
    (session.reforward slot name).2 = s.rebuild name ∧
      (session.reforward slot name).1.types.Among cs := by
  obtain ⟨hresult, hafter⟩ := TypeExpr.rebuild_eq_ofSchema hcs htypes hmade
  rw [reforward_of_get hget hresult]
  exact ⟨rfl, hafter⟩

/-! ## Canonical wire data -/

/-- The wire data that becomes of wire data in a session that remembers types. -/
def rebuildWireIn (types : TypeCache) (name : String) (w : Value) : Except StepError Value := do
  let s ← Session.parse w
  let s' ← (Session.reforward { slots := [("schema", s)], types } "schema" name).2
  return s'.encode

theorem rebuildWireIn_eq {types : TypeCache} {name : String} {w : Value} {s s' : Schema}
    (hw : Schema.decode w = .ok s)
    (h : (Session.reforward { slots := [("schema", s)], types } "schema" name).2 = s'.rebuild name) :
    rebuildWireIn types name w = s'.rebuild name >>= fun s'' => pure s''.encode := by
  have hparse : Session.parse w = .ok s := by
    unfold Session.parse
    rw [hw]
  unfold rebuildWireIn
  rw [hparse]
  exact congrArg (· >>= fun s'' => pure s''.encode) h

/-- Canonical wire data becomes itself again, its fields in wire order, if its records can be made;
otherwise nothing becomes of it. This is so in any session in which no two constructions are equal and
have different results. -/
theorem rebuildWireIn_canonical {cs : List Construction} (hcs : Construction.Unambiguous cs)
    {types : TypeCache} (htypes : types.Among cs) {name : String} {s : Schema}
    (hmade : TypeExpr.constructions name s ⊆ cs) {w w' : Value} (hw : s.IsWire w)
    (hs : s.Canonical) :
    rebuildWireIn types name w = .ok w' ↔ s.Realizable (TypeExpr.Clear name) ∧ w' = s.encode := by
  have hget : Session.get { slots := [("schema", s)], types } "schema" = .ok s := rfl
  have hreforward := (Session.reforward_eq hcs htypes hget hmade).1
  rw [rebuildWireIn_eq (Schema.decode_wire hs.legible hw) hreforward, isOk_bind]
  constructor
  · rintro ⟨s', hs', h⟩
    obtain ⟨t, ht, -⟩ := Schema.rebuild_ok.1 hs'
    have hr := TypeExpr.realizable_of_ofSchema ht
    rw [hs.rebuild_eq hr] at hs'
    cases hs'
    cases h
    exact ⟨hr, rfl⟩
  · rintro ⟨hr, rfl⟩
    exact ⟨s, hs.rebuild_eq hr, rfl⟩

/-- A price is a number of cents or a word, or null. -/
def price : Schema :=
  .node { nullable := some true } none none
    (some [.leaf { type := some .integer, description := some "cents" },
      .leaf { type := some .string, enum := some ["free", "unknown"] }])

/-- An offer has prices, and a note that can be left out. -/
def offered : List (String × Schema) :=
  [("note", .leaf { type := some .string, nullable := some true }),
    ("prices", .node { type := some .array, minItems := some 1 } (some price) none none)]

/-- The schema of an offer. -/
def offer : Schema :=
  .node { type := some .object, description := some "An offer", required := some ["prices"]
          propertyOrdering := some ["note", "prices"] } none (some offered) none

theorem canonical_price : price.Canonical := by
  refine .node (f := {}) (.union (by simp) ?_ ?_ ?_ ?_) (by simp) (by simp) (by simp)
  · rw [List.forall_mem_cons, List.forall_mem_singleton]
    exact ⟨.node (f := { type := some .integer }) (.integer none none) (by simp) (by simp) (by simp),
      .node (f := { type := some .string, enum := some ["free", "unknown"] })
        (.enumeration (by simp) (by decide)) (by simp) (by simp) (by simp)⟩
  · simp [Schema.leaf, Schema.facets]
  · simp [Schema.leaf, Schema.anyOf]
  · rw [List.pairwise_pair]
    rintro n n' t u ⟨⟩ ⟨⟩
    rfl

theorem canonical_offer : offer.Canonical := by
  refine .node (f := { type := some .object, required := some ["prices"]
                       propertyOrdering := some ["note", "prices"] })
    (@Schema.Shape.object Schema.Canonical ["prices"] offered ?_ ?_ ?_ ?_) (by simp) (by simp) ?_
  · rw [offered, List.forall_mem_cons, List.forall_mem_singleton]
    exact ⟨.node (f := { type := some .string }) .text (by simp) (by simp) (by simp),
      .node (f := { type := some .array, minItems := some 1 }) (.array (some 1) none canonical_price)
        (by simp) (by simp) (by simp)⟩
  · simp [offered]
  · simp [offered]
  · simp [offered]
  · rintro - d ⟨⟩
    rfl

theorem realizable_offer : offer.Realizable (TypeExpr.Clear "VertexModel") := by
  have hprice (clear : Prop) : price.Realizable clear := by
    refine .node ?_ (by simp) (by simp) (by simp)
    simpa using ⟨Schema.realizable_leaf (by simp), Schema.realizable_leaf (by simp)⟩
  have hbuildable : price.Buildable := by
    refine .node ?_ (by simp) (by simp) (by simp)
    rw [Option.getD_some, List.forall_mem_cons, List.forall_mem_singleton]
    exact ⟨Schema.buildable_leaf (by simp) fun _ => ⟨⟨none, .none⟩, ⟨none, .none⟩⟩,
      Schema.buildable_leaf (by simp) (by simp)⟩
  refine .node (by simp) (by simp) (fun _ _ => ?_) (fun _ _ => ⟨by decide, ?_⟩)
  · rw [Option.getD_some, offered, List.forall_mem_cons, List.forall_mem_singleton]
    exact ⟨Schema.realizable_leaf (by simp),
      .node (by simp) (by simpa using hprice _) (by simp) (by simp)⟩
  · rw [Option.getD_some, offered, List.forall_mem_cons, List.forall_mem_singleton]
    refine ⟨Schema.buildable_leaf (by simp) (by simp), .node (by simp) ?_ (by simp) ?_⟩
    · simpa using hbuildable
    · exact fun _ _ => ⟨⟨some 1, .some ⟨rfl, by decide⟩⟩, ⟨none, .none⟩⟩

/-- What is put together for the type of an offer, in this order. -/
def offerConstructions : List Construction :=
  let cents : List Meta := [.field { description := some (some "cents") }]
  let price : List TypeExpr :=
    [.annotated (.scalar .int) cents, .literal [.str "free", .str "unknown"]]
  [.optional (.scalar .str), .annotated (.scalar .int) cents, .union price, .optional (.union price),
    .annotated (.list .builtin (TypeExpr.union price).optionalOf) [.restriction (.minLength (.int 1))]]

theorem constructions_offer : TypeExpr.constructions "VertexModel" offer = offerConstructions := by
  rw [offer, TypeExpr.constructions_object rfl rfl (by simp)]
  rfl

theorem unambiguous_offer : Construction.Unambiguous offerConstructions := by
  refine Construction.unambiguous_of_pairwise ?_
  decide

theorem offer_returned : rebuildWireIn {} "VertexModel" offer.encode = .ok offer.encode := by
  have hmade : TypeExpr.constructions "VertexModel" offer ⊆ offerConstructions := by
    rw [constructions_offer]
    exact List.Subset.refl _
  exact (rebuildWireIn_canonical unambiguous_offer (TypeCache.among_empty _) hmade
    offer.isWire_encode canonical_offer).2 ⟨realizable_offer, rfl⟩

/-! ## Equal constructions -/

/-- A tide is one of some values, or null. -/
def tide (values : List String) : Schema :=
  .leaf { type := some .string, nullable := some true, enum := some values }

/-- The tides of a day. -/
def tides (first second : List String) : List (String × Schema) :=
  [("first", tide first), ("second", tide second)]

/-- The schema of the tides of a day. -/
def day (first second : List String) : Schema :=
  .node { type := some .object, required := some [], propertyOrdering := some ["first", "second"] } none
    (some (tides first second)) none

theorem canonical_day {first second : List String} (hfirst : first ≠ [] ∧ first.Nodup)
    (hsecond : second ≠ [] ∧ second.Nodup) : (day first second).Canonical := by
  have htide {values : List String} (h : values ≠ [] ∧ values.Nodup) : (tide values).Canonical :=
    .node (f := { type := some .string, enum := some values }) (.enumeration h.1 h.2) (by simp)
      (by simp) (by simp)
  refine .node (f := { type := some .object, required := some []
                       propertyOrdering := some ["first", "second"] })
    (@Schema.Shape.object Schema.Canonical [] (tides first second) ?_ ?_ ?_ ?_) (by simp) (by simp)
    (by simp)
  · rw [tides, List.forall_mem_cons, List.forall_mem_singleton]
    exact ⟨htide hfirst, htide hsecond⟩
  · simp [tides]
  · simp [tides]
  · simp

theorem realizable_day (first second : List String) {clear : Prop} (h : clear) :
    (day first second).Realizable clear := by
  refine .node (by simp) (by simp) (fun _ _ => ?_) (fun _ _ => ⟨h, ?_⟩)
  · rw [Option.getD_some, tides, List.forall_mem_cons, List.forall_mem_singleton]
    exact ⟨Schema.realizable_leaf (by simp), Schema.realizable_leaf (by simp)⟩
  · rw [Option.getD_some, tides, List.forall_mem_cons, List.forall_mem_singleton]
    exact ⟨Schema.buildable_leaf (by simp) (by simp), Schema.buildable_leaf (by simp) (by simp)⟩

/-- The type of the first tide is remembered for the second. -/
theorem rebuild_day : (TypeExpr.rebuild "VertexModel" (day ["ebb", "flow"] ["flow", "ebb"]) {}).1 =
    TypeExpr.ofSchema "VertexModel" (day ["ebb", "flow"] ["ebb", "flow"]) := by
  have hanew : TypeExpr.ofProperties "VertexModel" (tides ["ebb", "flow"] ["ebb", "flow"]) =
      .ok [("first", (TypeExpr.literal [.str "ebb", .str "flow"]).optionalOf),
        ("second", (TypeExpr.literal [.str "ebb", .str "flow"]).optionalOf)] := rfl
  have hrecalled : ((TypeExpr.convertProperties TypeExpr.recalled "VertexModel"
      (tides ["ebb", "flow"] ["flow", "ebb"])).run.run {}).1 =
      .ok [("first", (TypeExpr.literal [.str "ebb", .str "flow"]).optionalOf),
        ("second", (TypeExpr.literal [.str "ebb", .str "flow"]).optionalOf)] := rfl
  rw [day, TypeExpr.rebuild_object rfl rfl (by simp) (Prod.ext hrecalled rfl), day,
    TypeExpr.ofSchema_object rfl rfl, Option.getD_some, hanew]
  exact (bind_pure _).symm

/-- A canonical schema whose records can be made, and that does not become itself again: the values of the
second tide come back in the order of the first. -/
theorem tides_reordered :
    (day ["ebb", "flow"] ["flow", "ebb"]).Canonical ∧
    (day ["ebb", "flow"] ["flow", "ebb"]).Realizable (TypeExpr.Clear "VertexModel") ∧
    rebuildWireIn {} "VertexModel" (day ["ebb", "flow"] ["flow", "ebb"]).encode =
      .ok (day ["ebb", "flow"] ["ebb", "flow"]).encode ∧
    (day ["ebb", "flow"] ["ebb", "flow"]).encode ≠ (day ["ebb", "flow"] ["flow", "ebb"]).encode := by
  have hsame : (day ["ebb", "flow"] ["ebb", "flow"]).Canonical :=
    canonical_day (by simp) (by simp)
  have hcanonical : (day ["ebb", "flow"] ["flow", "ebb"]).Canonical :=
    canonical_day (by simp) (by simp)
  refine ⟨hcanonical, realizable_day _ _ (by decide), ?_, ?_⟩
  · have hget : Session.get { slots := [("schema", day ["ebb", "flow"] ["flow", "ebb"])] } "schema" =
        .ok (day ["ebb", "flow"] ["flow", "ebb"]) := rfl
    have hreforward := congrArg Prod.snd (Session.reforward_of_get hget rebuild_day)
    rw [rebuildWireIn_eq (Schema.decode_encode hcanonical.legible) hreforward,
      hsame.rebuild_eq (realizable_day _ _ (by decide))]
    rfl
  · intro h
    have hdecode := congrArg Schema.decode h
    rw [Schema.decode_encode hsame.legible, Schema.decode_encode hcanonical.legible] at hdecode
    simp [day, tides, tide, Schema.leaf] at hdecode

end TypeWire
