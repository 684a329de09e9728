import TypeWire.Proofs.DeclaredDefaults
import TypeWire.Proofs.Places

/-!
# What defaults decide

A default says that data may leave its field out, and nothing else. `Schema.withoutRequired` takes from
a schema the lists of what is required, and `Schema.ofType_same_but_required` says that types which
differ in defaults only have schemas which differ in these lists only, or fail alike. The lists name
the fields without a default (`Schema.RequiresFields`), and whether a field can be null is not asked.

On the way a default leaves one trace: the mark by which the node of a field is optional
(`Node.unmarked`). It is set after the field is read and looked at by the node of the record alone.
-/

namespace TypeWire

/-! ## Nodes -/

theorem Reading.step_withoutDefaults (r : Reading) (m : Meta) :
    r.step m.withoutDefaults = r.step m := by
  cases m <;> rfl

@[simp] theorem Reading.ofMetadata_withoutDefaults (description discriminator : Option String)
    (ms : List Meta) : ofMetadata description discriminator (Meta.withoutDefaultsAll ms) =
      ofMetadata description discriminator ms := by
  have hfold (items : List Meta) (r : Reading) :
      (Meta.withoutDefaultsAll items).foldl step r = items.foldl step r := by
    rw [Meta.withoutDefaultsAll_eq, List.foldl_map]
    simp only [step_withoutDefaults]
  rw [ofMetadata, ofMetadata, Meta.flattenAll_withoutDefaultsAll, hfold]

namespace Node

mutual

/-- The node with no mark of a field that can be left out, at any depth. -/
def unmarked : Node → Node
  | array h items =>
    array { h with isOptional := false } (match items with
      | none => none
      | some item => some (unmarked item))
  | object h fields => object { h with isOptional := false } (unmarkedFields fields)
  | union h variants discriminator =>
    union { h with isOptional := false } (unmarkedVariants variants) discriminator
  | n => n.withHead { n.head with isOptional := false }

def unmarkedFields : List (String × Node) → List (String × Node)
  | [] => []
  | (name, n) :: rest => (name, unmarked n) :: unmarkedFields rest

def unmarkedVariants : List Node → List Node
  | [] => []
  | n :: rest => unmarked n :: unmarkedVariants rest

end

theorem unmarkedFields_eq (fields : List (String × Node)) :
    unmarkedFields fields = fields.map fun f => (f.1, f.2.unmarked) := by
  induction fields with
  | nil => rfl
  | cons f fields ih => rw [unmarkedFields, ih, List.map_cons]

theorem unmarkedVariants_eq (variants : List Node) :
    unmarkedVariants variants = variants.map unmarked := by
  induction variants with
  | nil => rfl
  | cons n variants ih => rw [unmarkedVariants, ih, List.map_cons]

theorem unmarked_under (checks : List Check) (nullable : Bool) (n : Node) :
    (n.under checks nullable).unmarked = n.unmarked.under checks nullable := by
  cases n with
  | array h items => cases items <;> rfl
  | _ => rfl

/-- The mark of a field is all that its default leaves in its node. -/
theorem unmarked_asField (f : Field) (n : Node) :
    (asField f n).unmarked = asField f.withoutDefault n.unmarked := by
  cases n with
  | array h items => cases items <;> rfl
  | _ => rfl

theorem unmarked_read (t : TypeExpr) : ∀ description metadata discriminator,
    (read description metadata discriminator t).unmarked =
      read description (Meta.withoutDefaultsAll metadata) discriminator t.withoutDefaults := by
  induction t with
  | scalar s =>
    intro description metadata discriminator
    simp only [TypeExpr.withoutDefaults, read, Reading.ofMetadata_withoutDefaults]
    cases s <;> rfl
  | null | other | enumeration | model | bareList | forward | generic =>
    intro description metadata discriminator
    simp only [TypeExpr.withoutDefaults, read, Reading.ofMetadata_withoutDefaults]
    rfl
  | literal values =>
    intro description metadata discriminator
    simp only [TypeExpr.withoutDefaults, read, Reading.ofMetadata_withoutDefaults]
    rcases ofLiteral_cases values with h | ⟨nullable, members, -, h | h⟩ <;> rw [h] <;> rfl
  | list form item ih =>
    intro description metadata discriminator
    rw [TypeExpr.withoutDefaults, read, read, Reading.ofMetadata_withoutDefaults]
    exact congrArg (fun n => array _ (some n)) (ih none [] none)
  | annotated base inner ih =>
    intro description metadata discriminator
    rw [TypeExpr.withoutDefaults, read, read, ← Meta.withoutDefaultsAll_append]
    exact ih description (inner ++ metadata) discriminator
  | union members ih =>
    intro description metadata discriminator
    have hnull : (members.map TypeExpr.withoutDefaults).any TypeExpr.isNull =
        members.any TypeExpr.isNull := by
      simp [List.any_map, Function.comp_def]
    have hfilter := TypeExpr.filter_isNull_withoutDefaults members
    rw [TypeExpr.withoutDefaults, TypeExpr.withoutDefaultsAll_eq]
    obtain ⟨m, hmem, hm⟩ | hlen := TypeExpr.sole_or_variants members
    · rw [hm, List.map_singleton] at hfilter
      rw [read_sole hm, read_sole hfilter, unmarked_under, ih m hmem, hnull,
        Reading.ofMetadata_withoutDefaults]
      rfl
    · have hlen' : ((members.map TypeExpr.withoutDefaults).filter fun m => !m.isNull).length ≠ 1 := by
        rwa [hfilter, List.length_map]
      rw [read_variants hlen, read_variants hlen', hfilter, hnull, unmarked, unmarkedVariants_eq,
        Reading.ofMetadata_withoutDefaults, List.map_map, List.map_map]
      refine congrArg (union _ · _) (List.map_congr_left fun m hm => ?_)
      exact ih m (List.mem_filter.1 hm).1 none [] none
  | record name doc fields ih =>
    intro description metadata discriminator
    rw [TypeExpr.withoutDefaults, read, read, Reading.ofMetadata_withoutDefaults, unmarked,
      TypeExpr.withoutDefaultsFields_eq, readFields_eq, readFields_eq, unmarkedFields_eq,
      List.map_map, List.map_map]
    refine congrArg (object _) (List.map_congr_left fun f hf => ?_)
    show (f.1.wireName, _) = (f.1.wireName, _)
    rw [unmarked_asField, ih f hf]
    rfl

end Node

/-! ## Schemas -/

/-- Results that agree seen in one way, and are continued to results that agree in another, agree. -/
theorem map_bind_congr {ε α β γ δ : Type} {x y : Except ε α} {g h : α → Except ε β} {f : α → γ}
    {k : β → δ} (hxy : x.map f = y.map f)
    (hgh : ∀ a b, f a = f b → (g a).map k = (h b).map k) : (x >>= g).map k = (y >>= h).map k := by
  cases x with
  | error e =>
    cases y with
    | error e' => exact congrArg Except.error (Except.error.inj hxy)
    | ok b => cases hxy
  | ok a =>
    cases y with
    | error e => cases hxy
    | ok b => exact hgh a b (Except.ok.inj hxy)

theorem map_bind_congr_right {ε α β γ : Type} {x : Except ε α} {g h : α → Except ε β} {k : β → γ}
    (hgh : ∀ a, (g a).map k = (h a).map k) : (x >>= g).map k = (x >>= h).map k := by
  cases x with
  | error e => rfl
  | ok a => exact hgh a

namespace Schema

mutual

/-- The schema with nothing required in it, at any depth. -/
def withoutRequired : Schema → Schema
  | node f items properties anyOf =>
    node { f with required := f.required.map fun _ => [] }
      (match items with
        | none => none
        | some s => some (withoutRequired s))
      (match properties with
        | none => none
        | some ps => some (withoutRequiredProperties ps))
      (match anyOf with
        | none => none
        | some ms => some (withoutRequiredMembers ms))

def withoutRequiredProperties : List (String × Schema) → List (String × Schema)
  | [] => []
  | (name, s) :: rest => (name, withoutRequired s) :: withoutRequiredProperties rest

def withoutRequiredMembers : List Schema → List Schema
  | [] => []
  | s :: rest => withoutRequired s :: withoutRequiredMembers rest

end

theorem withoutRequiredProperties_eq (ps : List (String × Schema)) :
    withoutRequiredProperties ps = ps.map fun p => (p.1, p.2.withoutRequired) := by
  induction ps with
  | nil => rfl
  | cons p ps ih => rw [withoutRequiredProperties, ih, List.map_cons]

theorem ofFields_unmarked {fields : List (String × Node)}
    (h : ∀ f ∈ fields, (ofNode f.2).map withoutRequired = (ofNode f.2.unmarked).map withoutRequired) :
    (ofFields fields).map withoutRequiredProperties =
      (ofFields (Node.unmarkedFields fields)).map withoutRequiredProperties := by
  induction fields with
  | nil => rfl
  | cons f fields ih =>
    obtain ⟨hf, hfields⟩ := List.forall_mem_cons.1 h
    rw [Node.unmarkedFields, ofFields, ofFields]
    refine map_bind_congr hf fun s s' hs => ?_
    refine map_bind_congr (ih hfields) fun ss ss' hss => ?_
    show Except.ok ((f.1, s.withoutRequired) :: withoutRequiredProperties ss) = _
    rw [hs, hss]
    rfl

theorem ofVariants_unmarked {variants : List Node}
    (h : ∀ n ∈ variants, (ofNode n).map withoutRequired = (ofNode n.unmarked).map withoutRequired) :
    (ofVariants variants).map withoutRequiredMembers =
      (ofVariants (Node.unmarkedVariants variants)).map withoutRequiredMembers := by
  induction variants with
  | nil => rfl
  | cons n variants ih =>
    obtain ⟨hn, hvariants⟩ := List.forall_mem_cons.1 h
    rw [Node.unmarkedVariants, ofVariants, ofVariants]
    refine map_bind_congr hn fun s s' hs => ?_
    refine map_bind_congr (ih hvariants) fun ss ss' hss => ?_
    show Except.ok (s.withoutRequired :: withoutRequiredMembers ss) = _
    rw [hs, hss]
    rfl

/-- Properties that agree but for what is required in them make dictionaries that do. -/
theorem withoutRequiredProperties_dictOfList (ps : List (String × Schema)) :
    withoutRequiredProperties (dictOfList ps) = dictOfList (withoutRequiredProperties ps) := by
  rw [withoutRequiredProperties_eq, withoutRequiredProperties_eq, dictOfList_map]

theorem keys_withoutRequiredProperties (ps : List (String × Schema)) :
    (withoutRequiredProperties ps).map (·.1) = ps.map (·.1) := by
  rw [withoutRequiredProperties_eq, List.map_map]
  rfl

/-- Whether data may leave fields out does not show in a schema without the required lists. -/
theorem withoutRequired_ofNode_unmarked (n : Node) :
    (ofNode n).map withoutRequired = (ofNode n.unmarked).map withoutRequired := by
  induction n using Node.induction with
  | step n ih =>
    cases n with
    | array h items =>
      cases items with
      | none => rfl
      | some item =>
        have hitem := ih item (Option.mem_toList.2 rfl)
        rw [Node.unmarked, ofNode, ofNode]
        refine map_bind_congr_right fun _ => ?_
        refine map_bind_congr hitem fun s s' hs => ?_
        refine map_bind_congr_right ?_
        rintro ⟨lo, hi⟩
        show Except.ok (node _ (some s.withoutRequired) none none) = _
        rw [hs]
        rfl
    | object h fields =>
      have hfields := ofFields_unmarked fun f hf => ih f.2 (List.mem_map_of_mem hf)
      rw [Node.unmarked, ofNode, ofNode]
      refine map_bind_congr_right fun _ => ?_
      refine map_bind_congr hfields fun ps qs hps => ?_
      have hdict : withoutRequiredProperties (dictOfList ps) =
          withoutRequiredProperties (dictOfList qs) := by
        rw [withoutRequiredProperties_dictOfList, withoutRequiredProperties_dictOfList, hps]
      have hkeys : (dictOfList ps).map (·.1) = (dictOfList qs).map (·.1) := by
        rw [← keys_withoutRequiredProperties, hdict, keys_withoutRequiredProperties]
      show Except.ok (node _ none (some (withoutRequiredProperties (dictOfList ps))) none) = _
      rw [hkeys, hdict]
      rfl
    | union h variants discriminator =>
      rw [Node.unmarked, ofNode, ofNode]
      refine map_bind_congr_right fun _ => ?_
      refine map_bind_congr (ofVariants_unmarked ih) fun ms ms' hms => ?_
      show Except.ok (node _ none none (some (withoutRequiredMembers ms))) = _
      rw [hms]
      rfl
    | _ => exact congrArg (Except.map withoutRequired) (ofNode_withHead_isOptional _ false).symm

/-- Defaults make no difference to the schema of a type but to what is required in it. -/
theorem withoutRequired_ofType (models : List Model) (t : TypeExpr) :
    (ofType models t).map withoutRequired =
      (ofType (models.map Model.withoutDefaults) t.withoutDefaults).map withoutRequired := by
  rw [ofType, ofType, Node.ofTypeIn, Node.ofTypeIn, Node.ofType, Node.ofType,
    TypeExpr.expand_withoutDefaults, withoutRequired_ofNode_unmarked, Node.unmarked_read]
  rfl

/-- The required lists of a schema are right: wherever a model stands in the type, they name the fields
without a default in the order of the fields, and nothing else. -/
structure RequiresFields (models : List Model) (root : TypeExpr) (s : Schema) : Prop where
  placed : ∀ t fields, root.Reaches models t → t.fields? models = some fields →
    ∃ path, root.StandsAt models path t
  required : ∀ path t fields, root.StandsAt models path t → t.fields? models = some fields →
    ∃ p, s.at? path = some p ∧ p.facets.required =
      some ((fields.filter fun f => f.1.default.isNone).map fun f => f.1.wireName)

theorem requiresFields_of_ok {models : List Model} {root : TypeExpr} {s : Schema}
    (hs : ofType models root = .ok s)
    (hnames : ∀ t, root.Reaches models t → t.NamesApart models) : s.RequiresFields models root where
  placed t fields ht hfields := by
    refine TypeExpr.StandsAt.of_reaches (clean_of_ok hs) ht ?_
    cases t with
    | null => cases hfields
    | _ => rfl
  required path t fields ht hfields := by
    obtain ⟨a, n, p, hv, hn, hp, hnp⟩ := ht.exists_written hs hnames
    refine ⟨p, hp, ?_⟩
    rw [(hv.holds_fields (clean_of_ok hs) (hnames t hv.reaches) hfields hn hnp).2.required]
    congr 2
    refine List.filter_congr fun f _ => ?_
    rw [Field.isOptional]
    cases f.1.default <;> rfl

/-- Types that differ in defaults only fail alike, or have schemas that differ only in what is
required. In each, the fields without a default are required, whether or not they can be null. -/
theorem ofType_same_but_required {models models' : List Model} {t t' : TypeExpr}
    (hmodels : models.map Model.withoutDefaults = models'.map Model.withoutDefaults)
    (ht : t.withoutDefaults = t'.withoutDefaults) :
    (ofType models t).map withoutRequired = (ofType models' t').map withoutRequired ∧
      (∀ s, ofType models t = .ok s → (∀ u, t.Reaches models u → u.NamesApart models) →
        s.RequiresFields models t) ∧
      ∀ s, ofType models' t' = .ok s → (∀ u, t'.Reaches models' u → u.NamesApart models') →
        s.RequiresFields models' t' := by
  refine ⟨?_, fun s => requiresFields_of_ok, fun s => requiresFields_of_ok⟩
  rw [withoutRequired_ofType, withoutRequired_ofType models', hmodels, ht]

end Schema

/-- Baskets of orders. An order has an amount and a note that can be null; either can have a default. -/
def basketScope (amount : Option FieldSpec) (note : Option Value) : Scope :=
  (({} : Scope).declareModel
    { name := "Order"
      fields := [{ name := "amount", type := .scalar .int, spec := amount },
        { name := "note", type := .union [.scalar .str, .null], default := note }] }).declareModel
    { name := "Basket"
      fields := [{ name := "orders", type := .list .builtin (.model "Order") }] }

def basketModels (amount note : Option Default) : List Model :=
  [⟨"Order", none, [({ name := "amount", default := amount }, .scalar .int),
      ({ name := "note", default := note }, .union [.scalar .str, .null])]⟩,
    ⟨"Basket", none, [({ name := "orders" }, .list .builtin (.model "Order"))]⟩]

theorem basketScope_sameButDefaults :
    Scope.SameButDefaults (basketScope (some { default := some .computed }) none)
      (basketScope none (some .null)) := by
  refine .declareModel (.declareModel .empty rfl ?_ ?_) rfl ?_ ?_
  all_goals simp [FieldDecl.isConstant]

def basketTypes : List TypeExpr :=
  [.model "Basket", .annotated (.list .builtin (.model "Order")) [],
    .list .builtin (.model "Order"), .model "Order", .annotated (.scalar .int) [], .scalar .int,
    .annotated (.union [.scalar .str, .null]) [], .union [.scalar .str, .null], .scalar .str, .null]

theorem basket_namesApart (amount note : Option Default) : ∀ t,
    (TypeExpr.model "Basket").Reaches (basketModels amount note) t →
      t.NamesApart (basketModels amount note) := by
  have hclosed : ∀ t ∈ basketTypes, ∀ p ∈ t.parts (basketModels amount note), p ∈ basketTypes := by
    simp [basketTypes, TypeExpr.parts, TypeExpr.ofField, basketModels, Model.find?]
  have hapart : ∀ t ∈ basketTypes, t.NamesApart (basketModels amount note) := by
    simp [basketTypes, TypeExpr.NamesApart, TypeExpr.fields?, basketModels, Model.find?,
      Field.wireName]
  intro t ht
  exact hapart t (ht.mem_of_closed hclosed List.mem_cons_self)

theorem basket_standsAt (amount note : Option Default) :
    (TypeExpr.model "Basket").StandsAt (basketModels amount note) [0, 0] (.model "Order") :=
  ((TypeExpr.StandsAt.here.next (.field List.not_mem_nil rfl rfl)).next .base).next .item

/-- A note that can be null is required without a default, and an amount that cannot is not required
with one. -/
theorem Schema.basket_same_but_required :
    ∃ s s', ofType (basketScope (some { default := some .computed }) none).models
        (.model "Basket") = .ok s ∧
      ofType (basketScope none (some .null)).models (.model "Basket") = .ok s' ∧
      s.withoutRequired = s'.withoutRequired ∧
      (∃ p, s.at? [0, 0] = some p ∧ p.facets.required = some ["note"]) ∧
      ∃ p, s'.at? [0, 0] = some p ∧ p.facets.required = some ["amount"] := by
  have hmodels : (basketScope (some { default := some .computed }) none).models =
      basketModels (some .computed) none := rfl
  have hmodels' : (basketScope none (some .null)).models = basketModels none (some (.value .null)) :=
    rfl
  obtain ⟨hsame, hrequired, hrequired'⟩ := ofType_same_but_required
    basketScope_sameButDefaults.models (rfl : (TypeExpr.model "Basket").withoutDefaults = _)
  rw [hmodels, hmodels'] at hsame ⊢
  rw [hmodels] at hrequired
  rw [hmodels'] at hrequired'
  obtain ⟨s, hs⟩ : ∃ s, ofType (basketModels (some .computed) none) (.model "Basket") = .ok s :=
    ⟨_, rfl⟩
  obtain ⟨s', hs'⟩ :
      ∃ s, ofType (basketModels none (some (.value .null))) (.model "Basket") = .ok s := ⟨_, rfl⟩
  rw [hs, hs'] at hsame
  refine ⟨s, s', hs, hs', Except.ok.inj hsame, ?_, ?_⟩
  · exact (hrequired s hs (basket_namesApart _ _)).required _ _ _ (basket_standsAt _ _) rfl
  · exact (hrequired' s' hs' (basket_namesApart _ _)).required _ _ _ (basket_standsAt _ _) rfl

end TypeWire
