import TypeWire.Proofs.Induction
import TypeWire.Proofs.Restriction

/-!
# Equality of types

Unions drop a member that equals an earlier one, so equality has to be sameness of meaning where
types are rebuilt. It is not so for all types: a literal of values, a union that repeats a member and
a metadata item that equals itself in part would each break it. `TypeExpr.Regular` describes the types
that schemas are rebuilt into, and on these

* equality is symmetric and transitive (`TypeExpr.Regular.interchangeable`), which for unions rests
  on a count: members that equal no other cannot share a partner (`exists_partner`);
* equal types take the same data (`TypeExpr.Regular.alike_of_equals`).
-/

namespace TypeWire

namespace Numeric.Decimal

theorem sameNumber_symm {a b : Decimal} (h : a.sameNumber b = true) : b.sameNumber a = true := by
  obtain ⟨hc, hn⟩ := canonical_eq_of_sameNumber h
  simpa [sameNumber, hc] using hc ▸ hn

theorem sameNumber_trans {a b c : Decimal} (h : a.sameNumber b = true) (h' : b.sameNumber c = true) :
    a.sameNumber c = true := by
  obtain ⟨hc, hn⟩ := canonical_eq_of_sameNumber h
  obtain ⟨hc', -⟩ := canonical_eq_of_sameNumber h'
  simpa [sameNumber, hc, hc'] using hc' ▸ hc ▸ hn

end Numeric.Decimal

/-- Two doubles are equal as numbers. -/
def SameDouble (x y : Float) : Prop := (Value.float x).equals (.float y) = true

theorem SameDouble.symm {x y : Float} (h : SameDouble x y) : SameDouble y x :=
  Numeric.Decimal.sameNumber_symm h

theorem SameDouble.trans {x y z : Float} (h : SameDouble x y) (h' : SameDouble y z) :
    SameDouble x z :=
  Numeric.Decimal.sameNumber_trans h h'

theorem Value.equals_int {m n : Int} : (Value.int m).equals (.int n) = true ↔ m = n := by
  constructor
  · intro h
    have hs : (Number.whole m).exactly.sameNumber (Number.whole n).exactly = true := h
    have hv := Numeric.Decimal.value?_eq_of_sameNumber hs
    rw [Numeric.value?_whole, Numeric.value?_whole, Option.some.injEq] at hv
    exact_mod_cast hv
  · rintro rfl
    have hc : (Number.whole m).exactly.canonical ≠ .nan := by
      simp only [Number.exactly, Numeric.Decimal.canonical]
      split <;> simp
    show (Number.whole m).exactly.sameNumber (Number.whole m).exactly = true
    simpa [Numeric.Decimal.sameNumber] using hc

@[simp] theorem Value.identical_str (a b : String) :
    (Value.str a).identical (.str b) = (a == b) := by
  simp [identical, className, equals, number?, text?]

namespace TypeExpr

/-- Bounds are compared as numbers, so the two zeros are one bound. -/
theorem allEqual_bounds {lo hi lo' hi' : Option Float} :
    Meta.allEqual (bounds lo hi) (bounds lo' hi') = true ↔
      Option.Rel SameDouble lo lo' ∧ Option.Rel SameDouble hi hi' := by
  cases lo <;> cases hi <;> cases lo' <;> cases hi' <;>
    simp [bounds, Meta.allEqual, Meta.equals, Restriction.equals, option_rel_none,
      option_rel_some, SameDouble]

theorem allEqual_lengths {lo hi lo' hi' : Option Int} :
    Meta.allEqual (lengths lo hi) (lengths lo' hi') = true ↔ lo = lo' ∧ hi = hi' := by
  cases lo <;> cases hi <;> cases lo' <;> cases hi' <;>
    simp [lengths, Meta.allEqual, Meta.equals, Restriction.equals, Value.equals_int]

theorem sameValues_str {ss ts : List String} :
    sameValues (ss.map .str) (ts.map .str) = true ↔ ∀ s, s ∈ ss ↔ s ∈ ts := by
  simp only [sameValues, Bool.and_eq_true, List.all_eq_true, List.any_eq_true, List.mem_map,
    exists_exists_and_eq_and, forall_exists_index, and_imp, forall_apply_eq_imp_iff₂,
    Value.identical_str, beq_iff_eq, exists_eq_right']
  exact ⟨fun h s => ⟨h.1 s, h.2 s⟩, fun h => ⟨fun s => (h s).1, fun s => (h s).2⟩⟩


/-- Whether a type is one with metadata. -/
def isAnnotated : TypeExpr → Bool
  | .annotated _ _ => true
  | _ => false

/-- The metadata that types are rebuilt with: restrictions, and descriptions that are not empty. -/
inductive Plain : Meta → Prop
  | restriction (r : Restriction) : Plain (.restriction r)
  | description {d : String} : d ≠ "" → Plain (.field { description := some (some d) })

/-- The types on which equality is sameness of what they take. Literals are texts, unions hold no
member twice, and metadata is either that of a number or list alone or has a field specification,
which equals no other. -/
inductive Regular : TypeExpr → Prop
  | scalar (s : Scalar) : Regular (.scalar s)
  | null : Regular .null
  | literal (texts : List String) : Regular (.literal (texts.map .str))
  | list (form : ListForm) {item : TypeExpr} : Regular item → Regular (.list form item)
  | union {ms : List TypeExpr} : ms.Pairwise (fun a b => b.equals a = false) →
      (∀ m ∈ ms, Regular m) → Regular (.union ms)
  | record (name : String) (doc : Option String) {fields : List (Field × TypeExpr)} :
      (∀ f ∈ fields, Regular f.2) → Regular (.record name doc fields)
  | bounded {s : Scalar} (lo hi : Option Float) : s = .int ∨ s = .float →
      Regular (.annotated (.scalar s) (bounds lo hi))
  | sized (form : ListForm) {item : TypeExpr} (lo hi : Option Int) : Regular item →
      Regular (.annotated (.list form item) (lengths lo hi))
  | described {base : TypeExpr} {ms : List Meta} {spec : FieldSpec} : Regular base →
      base.isAnnotated = false → (∀ m ∈ ms, Plain m) → .field spec ∈ ms →
      Regular (.annotated base ms)

/-- Lists of metadata that are the same hold no field specification. -/
theorem not_field_of_allEqual {ms ns : List Meta} (h : Meta.allEqual ms ns = true)
    (spec : FieldSpec) : .field spec ∉ ms ∧ .field spec ∉ ns := by
  induction ms generalizing ns with
  | nil =>
    cases ns with
    | nil => simp
    | cons n ns => simp [Meta.allEqual] at h
  | cons m ms ih =>
    cases ns with
    | nil => simp [Meta.allEqual] at h
    | cons n ns =>
      rw [Meta.allEqual, Bool.and_eq_true] at h
      obtain ⟨hm, hn⟩ := ih h.2
      refine ⟨?_, ?_⟩
      · rw [List.mem_cons, not_or]
        refine ⟨?_, hm⟩
        rintro rfl
        simp [Meta.equals] at h
      · rw [List.mem_cons, not_or]
        refine ⟨?_, hn⟩
        rintro rfl
        cases m <;> simp [Meta.equals] at h

/-- Lists of one length, each item of the first with a partner in the second and no two with the
same, leave no item of the second without a partner. -/
theorem exists_partner {α β : Type} {R : α → β → Prop} {as : List α} {bs : List β}
    (hlen : as.length = bs.length) (hpartner : ∀ a ∈ as, ∃ b ∈ bs, R a b)
    (hapart : as.Pairwise fun a a' => ∀ b, R a b → ¬ R a' b) : ∀ b ∈ bs, ∃ a ∈ as, R a b := by
  have hidx : ∀ i : Fin as.length, ∃ j : Fin bs.length, R as[i] bs[j] := fun i => by
    obtain ⟨b, hb, hr⟩ := hpartner as[i] (List.getElem_mem _)
    obtain ⟨j, hj, rfl⟩ := List.getElem_of_mem hb
    exact ⟨⟨j, hj⟩, hr⟩
  choose f hf using hidx
  have hinj : Function.Injective f := by
    intro i j hij
    rcases lt_trichotomy i j with hlt | heq | hgt
    · exact absurd (hij ▸ hf j) (List.pairwise_iff_get.1 hapart i j hlt _ (hf i))
    · exact heq
    · exact absurd (hij ▸ hf i) (List.pairwise_iff_get.1 hapart j i hgt _ (hf j))
  have hsurj : Function.Surjective f :=
    ((Fintype.bijective_iff_injective_and_card f).2 ⟨hinj, by simp [hlen]⟩).2
  intro b hb
  obtain ⟨j, hj, rfl⟩ := List.getElem_of_mem hb
  obtain ⟨i, hi⟩ := hsurj ⟨j, hj⟩
  exact ⟨as[i], List.getElem_mem _, by simpa [hi] using hf i⟩

theorem membersWithin_iff {as bs : List TypeExpr} :
    membersWithin as bs = true ↔ ∀ a ∈ as, ∃ b ∈ bs, a.equals b = true := by
  induction as with
  | nil => simp [membersWithin]
  | cons a as ih => simp [membersWithin, ih]


/-! ### What equality with a type says of the other type -/

section

attribute [local simp] equals

theorem equals_scalar {s : Scalar} {b : TypeExpr} :
    (TypeExpr.scalar s).equals b = true ↔ b = .scalar s := by
  cases b with
  | scalar s' =>
    rw [equals, beq_iff_eq, TypeExpr.scalar.injEq]
    exact eq_comm
  | _ => simp

theorem equals_null {b : TypeExpr} : TypeExpr.null.equals b = true ↔ b = .null := by
  cases b <;> simp

theorem equals_list {form : ListForm} {item b : TypeExpr} :
    (TypeExpr.list form item).equals b = true ↔
      ∃ item', b = .list form item' ∧ item.equals item' = true := by
  cases b <;> simp
  grind

/-- Unions are equal if they have as many members, and those of one are found among those of the other.
-/
theorem equals_union {as : List TypeExpr} {b : TypeExpr} :
    (TypeExpr.union as).equals b = true ↔
      ∃ bs, b = .union bs ∧ as.length = bs.length ∧ ∀ a ∈ as, ∃ b ∈ bs, a.equals b = true := by
  cases b <;> simp [membersWithin_iff]

/-- Literals are equal if they have the same values, in whatever order. -/
theorem equals_literal {ss : List String} {b : TypeExpr} (hb : Regular b) :
    (TypeExpr.literal (ss.map .str)).equals b = true ↔
      ∃ ts : List String, b = .literal (ts.map .str) ∧ ∀ s, s ∈ ss ↔ s ∈ ts := by
  constructor
  · intro h
    cases hb with
    | literal ts => exact ⟨ts, rfl, sameValues_str.1 (by simpa using h)⟩
    | _ => simp at h
  · rintro ⟨ts, rfl, h⟩
    simpa using sameValues_str.2 h

theorem equals_annotated {base : TypeExpr} {ms : List Meta} {b : TypeExpr} :
    (TypeExpr.annotated base ms).equals b = true ↔
      ∃ base' ns, b = .annotated base' ns ∧ base.equals base' = true ∧
        Meta.allEqual ms ns = true := by
  cases b <;> simp

end

/-- The annotated types that can be equal: numbers with bounds, and lists with lengths. -/
inductive Refined : TypeExpr → List Meta → Prop
  | number {s : Scalar} (hs : s = .int ∨ s = .float) (lo hi : Option Float) :
      Refined (.scalar s) (bounds lo hi)
  | list (form : ListForm) {item : TypeExpr} (hi : Regular item) (lo hi : Option Int) :
      Refined (.list form item) (lengths lo hi)

theorem Refined.regular {base : TypeExpr} {ms : List Meta} (h : Refined base ms) :
    Regular base := by
  cases h with
  | number => exact .scalar _
  | list form hi => exact .list form hi

/-- A field specification equals no other, so annotated types that are equal have none. -/
theorem Regular.refined {base base' : TypeExpr} {ms ns : List Meta}
    (ha : Regular (.annotated base ms)) (hb : Regular (.annotated base' ns))
    (h : Meta.allEqual ms ns = true) : Refined base ms ∧ Refined base' ns := by
  constructor
  · cases ha with
    | described _ _ _ hf => exact absurd hf (not_field_of_allEqual h _).1
    | bounded lo hi hs => exact .number hs lo hi
    | sized form lo hi hi => exact .list form hi _ _
  · cases hb with
    | described _ _ _ hf => exact absurd hf (not_field_of_allEqual h _).2
    | bounded lo hi hs => exact .number hs lo hi
    | sized form lo hi hi => exact .list form hi _ _

theorem Refined.metadata_symm {base base' : TypeExpr} {ms ns : List Meta} (ha : Refined base ms)
    (hb : Refined base' ns) (hbase : base.equals base' = true) (h : Meta.allEqual ms ns = true) :
    Meta.allEqual ns ms = true := by
  cases ha with
  | number _ lo hi =>
    cases hb with
    | number _ lo' hi' =>
      rw [allEqual_bounds] at h ⊢
      exact ⟨option_rel_symm (r := SameDouble) (fun _ _ => .symm) h.1,
        option_rel_symm (r := SameDouble) (fun _ _ => .symm) h.2⟩
    | list => simp [equals] at hbase
  | list _ _ lo hi =>
    cases hb with
    | number => simp [equals] at hbase
    | list _ _ lo' hi' =>
      rw [allEqual_lengths] at h ⊢
      exact ⟨h.1.symm, h.2.symm⟩

theorem Refined.metadata_trans {base base' base'' : TypeExpr} {ms ns os : List Meta}
    (ha : Refined base ms) (hb : Refined base' ns) (hc : Refined base'' os)
    (hbase : base.equals base' = true) (hbase' : base'.equals base'' = true)
    (h : Meta.allEqual ms ns = true) (h' : Meta.allEqual ns os = true) :
    Meta.allEqual ms os = true := by
  cases hb with
  | number _ lo hi =>
    cases ha with
    | list => simp [equals] at hbase
    | number _ lo' hi' =>
      cases hc with
      | list => simp [equals] at hbase'
      | number _ lo'' hi'' =>
        rw [allEqual_bounds] at h h' ⊢
        exact ⟨option_rel_trans (r := SameDouble) (fun _ _ _ => .trans) h.1 h'.1,
          option_rel_trans (r := SameDouble) (fun _ _ _ => .trans) h.2 h'.2⟩
  | list _ _ lo hi =>
    cases ha with
    | number => simp [equals] at hbase
    | list _ _ lo' hi' =>
      cases hc with
      | number => simp [equals] at hbase'
      | list _ _ lo'' hi'' =>
        rw [allEqual_lengths] at h h' ⊢
        exact ⟨h.1.trans h'.1, h.2.trans h'.2⟩

/-! ### Equality is an equivalence on regular types, apart from reflexivity -/

/-- Equality with `a` can be turned around, and carries over what `b` equals. -/
def Interchangeable (a : TypeExpr) : Prop :=
  ∀ b, Regular b → a.equals b = true → b.equals a = true ∧
    ∀ c, Regular c → b.equals c = true → a.equals c = true

/-- Every member of an equal union has a partner, since no two members share one. -/
theorem exists_partner_of_union {as bs : List TypeExpr} (ha : Regular (.union as))
    (hb : ∀ b ∈ bs, Regular b) (ih : ∀ a ∈ as, Interchangeable a) (hlen : as.length = bs.length)
    (h : ∀ a ∈ as, ∃ b ∈ bs, a.equals b = true) : ∀ b ∈ bs, ∃ a ∈ as, a.equals b = true := by
  cases ha with
  | union hpw hreg =>
  intro b hbmem
  obtain ⟨a, ha, -, hab⟩ := exists_partner (R := fun a b => b ∈ bs ∧ a.equals b = true) hlen
    (fun a ha => by
      obtain ⟨b, hb, hab⟩ := h a ha
      exact ⟨b, hb, hb, hab⟩)
    (hpw.imp_of_mem fun {a a'} ha ha' hne b hab ha'b => by
      have hba := (ih a ha b (hb b hab.1) hab.2).1
      have := (ih a' ha' b (hb b hab.1) ha'b.2).2 a (hreg a ha) hba
      rw [hne] at this
      cases this) b hbmem
  exact ⟨a, ha, hab⟩

theorem interchangeable_union {as : List TypeExpr} (ha : Regular (.union as))
    (ih : ∀ a ∈ as, Interchangeable a) : Interchangeable (.union as) := by
  intro b hb h
  obtain ⟨bs, rfl, hlen, h⟩ := equals_union.1 h
  cases hb with
  | union _ hreg =>
  refine ⟨equals_union.2 ⟨as, rfl, hlen.symm, fun b hb => ?_⟩, fun c hc h' => ?_⟩
  · obtain ⟨a, ha, hab⟩ := exists_partner_of_union ha hreg ih hlen h b hb
    exact ⟨a, ha, (ih a ha b (hreg b hb) hab).1⟩
  · obtain ⟨cs, rfl, hlen', h'⟩ := equals_union.1 h'
    cases hc with
    | union _ hreg' =>
    refine equals_union.2 ⟨cs, rfl, hlen.trans hlen', fun a ha => ?_⟩
    obtain ⟨b, hb, hab⟩ := h a ha
    obtain ⟨c, hc, hbc⟩ := h' b hb
    exact ⟨c, hc, (ih a ha b (hreg b hb) hab).2 c (hreg' c hc) hbc⟩

theorem interchangeable_annotated {base : TypeExpr} {ms : List Meta}
    (ha : Regular (.annotated base ms)) (ih : Regular base → Interchangeable base) :
    Interchangeable (.annotated base ms) := by
  intro b hb h
  obtain ⟨base', ns, rfl, hbase, hms⟩ := equals_annotated.1 h
  obtain ⟨hr, hr'⟩ := ha.refined hb hms
  obtain ⟨hs, ht⟩ := ih hr.regular base' hr'.regular hbase
  refine ⟨equals_annotated.2 ⟨base, ms, rfl, hs, hr.metadata_symm hr' hbase hms⟩,
    fun c hc h' => ?_⟩
  obtain ⟨base'', os, rfl, hbase', hns⟩ := equals_annotated.1 h'
  obtain ⟨-, hr''⟩ := hb.refined hc hns
  exact equals_annotated.2 ⟨base'', os, rfl, ht base'' hr''.regular hbase',
    hr.metadata_trans hr' hr'' hbase hbase' hms hns⟩

/-- By induction over the type: partners of members are found in both directions because no two members
of a regular union are equal. -/
theorem Regular.interchangeable {a : TypeExpr} (ha : Regular a) : Interchangeable a := by
  induction a with
  | scalar s =>
    intro b _ h
    obtain rfl := equals_scalar.1 h
    exact ⟨h, fun c _ hc => hc⟩
  | null =>
    intro b _ h
    obtain rfl := equals_null.1 h
    exact ⟨h, fun c _ hc => hc⟩
  | list form item ih =>
    intro b hb h
    obtain ⟨item', rfl, hitem⟩ := equals_list.1 h
    cases ha with
    | list _ hi =>
    cases hb with
    | list _ hi' =>
    obtain ⟨hs, ht⟩ := ih hi item' hi' hitem
    refine ⟨equals_list.2 ⟨item, rfl, hs⟩, fun c hc h' => ?_⟩
    obtain ⟨item'', rfl, hitem'⟩ := equals_list.1 h'
    cases hc with
    | list _ hi'' => exact equals_list.2 ⟨item'', rfl, ht item'' hi'' hitem'⟩
  | union as ih =>
    cases ha with
    | union hpw hreg =>
    exact interchangeable_union (.union hpw hreg) fun a ha => ih a ha (hreg a ha)
  | literal vs =>
    intro b hb h
    cases ha with
    | literal ss =>
    obtain ⟨ts, rfl, hmem⟩ := (equals_literal hb).1 h
    refine ⟨(equals_literal (.literal ss)).2 ⟨ss, rfl, fun s => (hmem s).symm⟩, fun c hc h' => ?_⟩
    obtain ⟨us, rfl, hmem'⟩ := (equals_literal hc).1 h'
    exact (equals_literal hc).2 ⟨us, rfl, fun s => (hmem s).trans (hmem' s)⟩
  | annotated base ms ih => exact interchangeable_annotated ha ih
  | other | enumeration | model | bareList | generic | forward => cases ha
  | record => intro b _ h; simp [equals] at h

theorem Regular.equals_symm {a b : TypeExpr} (ha : Regular a) (hb : Regular b)
    (h : a.equals b = true) : b.equals a = true :=
  (ha.interchangeable b hb h).1

/-! ### Equal types take the same data -/

open Validator

theorem SameDouble.wholeBound {x y : Float} (h : SameDouble x y) {n : Int} :
    WholeBound x n ↔ WholeBound y n := by
  rw [WholeBound, WholeBound, Numeric.intOfFloat_congr h]

theorem rel_wholeBound_congr {lo lo' : Option Float} (h : Option.Rel SameDouble lo lo')
    (l : Option Int) : Option.Rel WholeBound lo l ↔ Option.Rel WholeBound lo' l := by
  cases h with
  | none => rfl
  | some h => simp only [option_rel_some, SameDouble.wholeBound h]

/-- Bounds that are equal as numbers restrict alike. -/
theorem alike_of_sameBounds {s : Scalar} (hs : s = .int ∨ s = .float) {lo hi lo' hi' : Option Float}
    (hlo : Option.Rel SameDouble lo lo') (hhi : Option.Rel SameDouble hi hi') :
    Alike (.annotated (.scalar s) (bounds lo hi)) (.annotated (.scalar s) (bounds lo' hi')) := by
  rcases hs with rfl | rfl
  · refine alike_of_ofType fun v => ?_
    simp only [ofType, isOk_bind, Except.ok.injEq, exists_eq_left',
      restrictAll_bounds_int, rel_wholeBound_congr hlo, rel_wholeBound_congr hhi]
  · refine ⟨?_, fun x => ?_⟩
    · simp only [HasValidator, ofType_bounded_float, Except.ok.injEq, exists_eq']
    · have hl (y : Float) : (∀ b ∈ lo, b ≤ y) ↔ ∀ b ∈ lo', b ≤ y := by
        cases hlo with
        | none => rfl
        | some h => simp [(Numeric.le_congr_of_equals h y).1]
      have hg (y : Float) : (∀ b ∈ hi, y ≤ b) ↔ ∀ b ∈ hi', y ≤ b := by
        cases hhi with
        | none => rfl
        | some h => simp [(Numeric.le_congr_of_equals h y).2]
      simp only [takes_bounded_float, hl, hg]

theorem Alike.sized (form : ListForm) {item item' : TypeExpr} (h : Alike item item')
    (lo hi : Option Int) : Alike (.annotated (.list form item) (lengths lo hi))
      (.annotated (.list form item') (lengths lo hi)) := by
  refine alike_of ?_ fun ha hb x => ?_
  · rw [hasValidator_sized, hasValidator_sized, h.1]
  · simp only [takes_sized ha, takes_sized hb, h.2]

/-- Unions are alike if every member of each has a like among those of the other. -/
theorem alike_union {as bs : List TypeExpr} (h : ∀ a ∈ as, ∃ b ∈ bs, Alike a b)
    (h' : ∀ b ∈ bs, ∃ a ∈ as, Alike a b) : Alike (.union as) (.union bs) := by
  refine alike_of ?_ fun ha hb x => ?_
  · rw [hasValidator_union, hasValidator_union]
    constructor
    · intro hall b hb
      obtain ⟨a, ha, hab⟩ := h' b hb
      exact hab.1.1 (hall a ha)
    · intro hall a ha
      obtain ⟨b, hb, hab⟩ := h a ha
      exact hab.1.2 (hall b hb)
  · rw [takes_union (hasValidator_union.1 ha), takes_union (hasValidator_union.1 hb)]
    constructor
    · rintro ⟨a, ha, hx⟩
      obtain ⟨b, hb, hab⟩ := h a ha
      exact ⟨b, hb, (hab.2 x).1 hx⟩
    · rintro ⟨b, hb, hx⟩
      obtain ⟨a, ha, hab⟩ := h' b hb
      exact ⟨a, ha, (hab.2 x).2 hx⟩

theorem ofType_literal_str (texts : List String) :
    ofType (.literal (texts.map .str)) = .ok (.literal texts) := by
  have h : (texts.map Value.str).mapM Value.text? = some texts := by
    induction texts with
    | nil => rfl
    | cons s ss ih => simp [List.mapM_cons, ih, Value.text?]
  rw [ofType, h]

theorem alike_literal {ss ts : List String} (h : ∀ s, s ∈ ss ↔ s ∈ ts) :
    Alike (.literal (ss.map .str)) (.literal (ts.map .str)) := by
  refine ⟨?_, fun x => ?_⟩
  · simp only [HasValidator, ofType_literal_str, Except.ok.injEq, exists_eq']
  · rw [takes_iff (ofType_literal_str ss), takes_iff (ofType_literal_str ts), accepts_literal,
      accepts_literal]
    simp only [h]

/-- Equal types take the same data: dropping one of them from a union drops no data. -/
theorem Regular.alike_of_equals {a : TypeExpr} (ha : Regular a) :
    ∀ b, Regular b → a.equals b = true → Alike a b := by
  induction a with
  | scalar s =>
    intro b _ h
    rw [equals_scalar.1 h]
    exact .refl _
  | null =>
    intro b _ h
    rw [equals_null.1 h]
    exact .refl _
  | list form item ih =>
    intro b hb h
    obtain ⟨item', rfl, hitem⟩ := equals_list.1 h
    cases ha with
    | list _ hi =>
    cases hb with
    | list _ hi' => exact alike_list.2 (ih hi item' hi' hitem)
  | union as ih =>
    intro b hb h
    obtain ⟨bs, rfl, hlen, hwithin⟩ := equals_union.1 h
    have hfull := ha
    cases ha with
    | union _ hreg =>
    cases hb with
    | union _ hreg' =>
    refine alike_union (fun a ha => ?_) (fun b hb => ?_)
    · obtain ⟨b, hb, hab⟩ := hwithin a ha
      exact ⟨b, hb, ih a ha (hreg a ha) b (hreg' b hb) hab⟩
    · obtain ⟨a, ha, hab⟩ := exists_partner_of_union hfull hreg'
        (fun a ha => (hreg a ha).interchangeable) hlen hwithin b hb
      exact ⟨a, ha, ih a ha (hreg a ha) b (hreg' b hb) hab⟩
  | literal vs =>
    intro b hb h
    cases ha with
    | literal ss =>
    obtain ⟨ts, rfl, hmem⟩ := (equals_literal hb).1 h
    exact alike_literal hmem
  | annotated base ms ih =>
    intro b hb h
    obtain ⟨base', ns, rfl, hbase, hms⟩ := equals_annotated.1 h
    obtain ⟨hr, hr'⟩ := ha.refined hb hms
    cases hr with
    | number hs lo hi =>
      obtain rfl := equals_scalar.1 hbase
      cases hr' with
      | number _ lo' hi' =>
        obtain ⟨hlo, hhi⟩ := allEqual_bounds.1 hms
        exact alike_of_sameBounds hs hlo hhi
    | list form hitem lo hi =>
      obtain ⟨item', rfl, -⟩ := equals_list.1 hbase
      cases hr' with
      | list _ hitem' lo' hi' =>
        obtain ⟨rfl, rfl⟩ := allEqual_lengths.1 hms
        exact (alike_list.1 (ih (.list form hitem) _ (.list form hitem') hbase)).sized form lo hi
  | other | enumeration | model | bareList | generic | forward => cases ha
  | record => intro b _ h; simp [equals] at h

end TypeExpr
end TypeWire
