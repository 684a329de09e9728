import TypeWire.Proofs.Admission
import TypeWire.Proofs.NodeSchema

/-!
# Source types

A source type (`TypeExpr.SourceType`) is built from scalars, literals of texts, lists, unions, layers
of bounds, lengths and descriptions, and models. Its cores that have bounds or lengths read the same
restrictions as their schemas (`means_integer`, `means_number`, `means_array`).

The layers around one core, those of metadata and those that add null, are what takes care: reading
moves the checks of an outer layer in front of those of an inner one, while a validator is restricted
from the inside out. `TypeExpr.SourceType` therefore carries the restrictions met on the way to the
core, and asks that none of them is there twice; then their order says nothing
(`Check.last?_perm`, `Validator.restrictEach_spec`).
-/

namespace TypeWire

open Numeric (Binary64)

/-! ## Validators under restrictions -/

namespace Validator

/-- The validator under restrictions, one after the other. -/
def restrictEach (rs : List Restriction) (v : Validator) : Except Unbuildable Validator :=
  rs.foldlM (fun v r => restrict r v) v

theorem restrictAll_eq (ms : List Meta) (v : Validator) :
    restrictAll ms v = restrictEach (Reading.restrictions ms) v := rfl

theorem restrictEach_append (rs rs' : List Restriction) (v : Validator) :
    restrictEach (rs ++ rs') v = restrictEach rs v >>= restrictEach rs' :=
  List.foldlM_append

theorem restrictEach_nullable (rs : List Restriction) (v : Validator) :
    restrictEach rs (.nullable v) = (restrictEach rs v).map .nullable := by
  induction rs generalizing v with
  | nil => rfl
  | cons r rs ih =>
    show restrict r (.nullable v) >>= restrictEach rs =
      (restrict r v >>= restrictEach rs).map .nullable
    rw [restrict]
    cases hv : restrict r v with
    | error e => rfl
    | ok w => exact ih w

/-- What a validator with two limits makes of one restriction: it reads the one or the other. -/
def ReadsLimits {β : Type} (make : Option β → Option β → Validator)
    (read : Value → Except Unbuildable β) (least greatest : String) : Prop :=
  ∀ r l g v, restrict r (make l g) = .ok v → ∃ b limit, read b = .ok limit ∧
    (r.checks = [⟨least, b⟩] ∧ v = make (some limit) g ∨
      r.checks = [⟨greatest, b⟩] ∧ v = make l (some limit))

theorem readsLimits_int : ReadsLimits .int intBound "min" "max" := by
  intro r l g v h
  cases r with
  | ge b =>
    obtain ⟨n, hn, rfl⟩ := isOk_map.1 h
    exact ⟨b, n, hn, .inl ⟨rfl, rfl⟩⟩
  | le b =>
    obtain ⟨n, hn, rfl⟩ := isOk_map.1 h
    exact ⟨b, n, hn, .inr ⟨rfl, rfl⟩⟩
  | _ => cases h

theorem readsLimits_float : ReadsLimits .float floatBound "min" "max" := by
  intro r l g v h
  cases r with
  | ge b =>
    obtain ⟨x, hx, rfl⟩ := isOk_map.1 h
    exact ⟨b, x, hx, .inl ⟨rfl, rfl⟩⟩
  | le b =>
    obtain ⟨x, hx, rfl⟩ := isOk_map.1 h
    exact ⟨b, x, hx, .inr ⟨rfl, rfl⟩⟩
  | _ => cases h

theorem readsLimits_list (item : Validator) :
    ReadsLimits (.list item) lengthBound "min_length" "max_length" := by
  intro r l g v h
  cases r with
  | minLength b =>
    obtain ⟨k, hk, rfl⟩ := isOk_map.1 h
    exact ⟨b, k, hk, .inl ⟨rfl, rfl⟩⟩
  | maxLength b =>
    obtain ⟨k, hk, rfl⟩ := isOk_map.1 h
    exact ⟨b, k, hk, .inr ⟨rfl, rfl⟩⟩
  | _ => cases h

/-- The limit that a list of checks leaves: the last that is given, else the one from before. -/
def Leaves {β : Type} (read : Value → Except Unbuildable β) (last : Option Value)
    (before after : Option β) : Prop :=
  match last with
  | none => after = before
  | some b => ∃ limit, read b = .ok limit ∧ after = some limit

theorem Leaves.rel {β : Type} {read : Value → Except Unbuildable β} {last : Option Value}
    {after : Option β} (h : Leaves read last none after) :
    Option.Rel (fun b limit => read b = .ok limit) last after := by
  cases last with
  | none =>
    obtain rfl : after = none := h
    exact .none
  | some b =>
    obtain ⟨limit, hb, rfl⟩ := h
    exact .some hb

theorem Leaves.or_some {β : Type} {read : Value → Except Unbuildable β} {last : Option Value}
    {b : Value} {limit : β} {before after : Option β} (hb : read b = .ok limit)
    (h : Leaves read last (some limit) after) : Leaves read (last.or (some b)) before after := by
  cases last with
  | none => exact ⟨limit, hb, h⟩
  | some c => exact h

/-- After several restrictions each limit is the last that was given for it. -/
theorem restrictEach_spec {β : Type} {make : Option β → Option β → Validator}
    {read : Value → Except Unbuildable β} {least greatest : String} (hne : least ≠ greatest)
    (hread : ReadsLimits make read least greatest) {rs : List Restriction} :
    ∀ {l g : Option β} {v : Validator}, restrictEach rs (make l g) = .ok v → ∃ l' g', v = make l' g' ∧
      Leaves read (Check.last? least (rs.flatMap Restriction.checks)) l l' ∧
      Leaves read (Check.last? greatest (rs.flatMap Restriction.checks)) g g' := by
  induction rs with
  | nil =>
    intro l g v h
    cases h
    exact ⟨l, g, rfl, rfl, rfl⟩
  | cons r rs ih =>
    intro l g v h
    obtain ⟨w, hw, h⟩ := isOk_bind.1 h
    obtain ⟨b, limit, hb, hcase⟩ := hread r l g w hw
    rcases hcase with ⟨hr, rfl⟩ | ⟨hr, rfl⟩
    · obtain ⟨l', g', rfl, hl, hg⟩ := ih h
      refine ⟨l', g', rfl, ?_, ?_⟩
      · rw [List.flatMap_cons, hr, Check.last?_append, Check.last?_singleton, if_pos rfl]
        exact hl.or_some hb
      · rw [List.flatMap_cons, hr, Check.last?_append, Check.last?_singleton, if_neg hne]
        rwa [Option.or_none]
    · obtain ⟨l', g', rfl, hl, hg⟩ := ih h
      refine ⟨l', g', rfl, ?_, ?_⟩
      · rw [List.flatMap_cons, hr, Check.last?_append, Check.last?_singleton, if_neg hne.symm]
        rwa [Option.or_none]
      · rw [List.flatMap_cons, hr, Check.last?_append, Check.last?_singleton, if_pos rfl]
        exact hg.or_some hb

end Validator

/-! ## Source types -/

/-- A bound that is a finite double exactly, whatever number it is written as. -/
def IsDouble (v : Value) : Prop :=
  ∃ x q b, Coercion.float v = .ok (x, q) ∧ Binary64.ofFloat x = .finite b ∧
    v.equals (.float x) = true

/-- The restrictions that schemas can express. -/
inductive Expressible : Restriction → Prop
  | ge {v : Value} : IsDouble v → Expressible (.ge v)
  | le {v : Value} : IsDouble v → Expressible (.le v)
  | minLength (v : Value) : Expressible (.minLength v)
  | maxLength (v : Value) : Expressible (.maxLength v)

/-- The metadata of source types: restrictions that schemas can express, and descriptions. -/
inductive SourceMeta : Meta → Prop
  | restriction {r : Restriction} : Expressible r → SourceMeta (.restriction r)
  | description (d : Option (Option String)) : SourceMeta (.field { description := d })

/-- No kind of restriction is among these twice. -/
def NoneTwice (rs : List Restriction) : Prop :=
  ((rs.flatMap Restriction.checks).map Check.kind).Nodup

instance (rs : List Restriction) : Decidable (NoneTwice rs) :=
  inferInstanceAs (Decidable (List.Nodup _))

namespace TypeExpr

/-- The types that sources are written with, their models written out, inside layers that restrict
the core in some way. A layer is metadata, or null beside one other member. -/
inductive SourceType : List Restriction → TypeExpr → Prop
  | scalar {outer : List Restriction} {s : Scalar} : NoneTwice outer → s ≠ .date →
      SourceType outer (.scalar s)
  | literal {outer : List Restriction} {texts : List String} : NoneTwice outer → texts ≠ [] →
      SourceType outer (.literal (texts.map .str))
  | list {outer : List Restriction} (form : ListForm) {item : TypeExpr} : NoneTwice outer →
      SourceType [] item → SourceType outer (.list form item)
  | annotated {outer : List Restriction} {base : TypeExpr} {ms : List Meta} :
      (∀ m ∈ ms, SourceMeta m) → SourceType (Reading.restrictions ms ++ outer) base →
      SourceType outer (.annotated base ms)
  | optional {outer : List Restriction} {members : List TypeExpr} {m : TypeExpr} :
      members.filter (fun m => !m.isNull) = [m] → SourceType outer m →
      SourceType outer (.union members)
  | union {outer : List Restriction} {members : List TypeExpr} : NoneTwice outer →
      2 ≤ (members.filter fun m => !m.isNull).length →
      (∀ m ∈ members, m.isNull = false → SourceType [] m) → SourceType outer (.union members)
  | record {outer : List Restriction} (name : String) (doc : Option String)
      {fields : List (Field × TypeExpr)} : NoneTwice outer →
      (fields.map fun f => f.1.wireName).Nodup → (∀ f ∈ fields, f.1.dataName ≠ some "") →
      (∀ f ∈ fields, ∀ m ∈ f.1.metadata, SourceMeta m) →
      (∀ f ∈ fields, SourceType (Reading.restrictions f.1.metadata) f.2) →
      SourceType outer (.record name doc fields)

end TypeExpr

theorem restrictions_expressible {ms : List Meta} (h : ∀ m ∈ ms, SourceMeta m) :
    ∀ r ∈ Reading.restrictions ms, Expressible r := by
  induction ms with
  | nil => simp [Reading.restrictions, Meta.flattenAll]
  | cons m ms ih =>
    obtain ⟨hm, hms⟩ := List.forall_mem_cons.1 h
    have happend : Reading.restrictions (m :: ms) =
        Reading.restrictions [m] ++ Reading.restrictions ms := by
      simp [Reading.restrictions, Meta.flattenAll]
    rw [happend, List.forall_mem_append]
    refine ⟨?_, ih hms⟩
    cases hm with
    | restriction hr => simpa [Reading.restrictions, Meta.flattenAll, Meta.flatten,
        Validator.restrictionsOf] using hr
    | description d => simp [Reading.restrictions, Meta.flattenAll, Meta.flatten,
        Validator.restrictionsOf, FieldSpec.restrictions, namedRestrictions]

/-- The kinds of checks that restrictions of source types are read as. -/
def restrictionKinds : List String := ["min", "max", "min_length", "max_length"]

theorem Expressible.kind {r : Restriction} (h : Expressible r) :
    ∃ c, r.checks = [c] ∧ c.kind ∈ restrictionKinds := by
  cases h <;> exact ⟨_, rfl, by simp [restrictionKinds]⟩

/-- Where no check of these kinds can be, there is no restriction. -/
theorem eq_nil_of_expressible {outer : List Restriction} {allowed : List String}
    (houter : ∀ r ∈ outer, Expressible r)
    (hallowed : ∀ k ∈ allowed, k ∉ restrictionKinds)
    (h : ∀ c ∈ outer.flatMap Restriction.checks, c.kind ∈ allowed) : outer = [] := by
  rw [List.eq_nil_iff_forall_not_mem]
  intro r hr
  obtain ⟨c, hc, hkind⟩ := (houter r hr).kind
  exact hallowed c.kind (h c (List.mem_flatMap.2 ⟨r, hr, by simp [hc]⟩)) hkind

/-! ## The cores -/

namespace Schema

theorem admits_modified {h : Head} {f : Facets} {items : Option Schema}
    {properties : Option (List (String × Schema))} (x : Value) :
    (node (modified h f) items properties none).Admits x ↔
      h.nullable = true ∧ x.isNull = true ∨ AdmitsByType f items properties x := by
  rw [admits_noMembers rfl]
  refine or_congr (and_congr_left fun _ => ?_) Iff.rfl
  cases hn : h.nullable <;> simp [modified, hn]

end Schema

open Validator (restrictEach)

theorem isDouble_of_mem {rs : List Restriction} (hrs : ∀ r ∈ rs, Expressible r) {kind : String}
    {v : Value} (h : ⟨kind, v⟩ ∈ rs.flatMap Restriction.checks) (hkind : kind = "min" ∨ kind = "max") :
    IsDouble v := by
  obtain ⟨r, hr, hc⟩ := List.mem_flatMap.1 h
  cases hrs r hr with
  | ge hv | le hv =>
    simp only [Restriction.checks, List.mem_singleton, Check.mk.injEq] at hc
    rw [hc.2]
    exact hv
  | minLength | maxLength =>
    simp only [Restriction.checks, List.mem_singleton, Check.mk.injEq] at hc
    rcases hkind with rfl | rfl <;> simp at hc

theorem IsDouble.not_null {v : Value} (h : IsDouble v) : v.isNull = false := by
  obtain ⟨x, q, b, hx, -⟩ := h
  cases v with
  | null => cases hx
  | _ => rfl

/-- The checks that a core has of itself stand in front of those of its restrictions unseen. -/
theorem last?_of_perm {outer : List Restriction} (hexp : ∀ r ∈ outer, Expressible r)
    (honce : NoneTwice outer) (fixed : List Check) {checks : List Check}
    (hfixed : ∀ c ∈ fixed, c.kind ∉ restrictionKinds) (hnodup : (fixed.map Check.kind).Nodup)
    (h : checks.Perm (fixed ++ outer.flatMap Restriction.checks)) {kind : String}
    (hkind : kind ∈ restrictionKinds) :
    Check.last? kind checks = Check.last? kind (outer.flatMap Restriction.checks) := by
  have hall : ((fixed ++ outer.flatMap Restriction.checks).map Check.kind).Nodup := by
    rw [List.map_append, List.nodup_append]
    refine ⟨hnodup, honce, ?_⟩
    simp only [List.mem_map, List.mem_flatMap]
    rintro _ ⟨c, hc, rfl⟩ _ ⟨d, ⟨r, hr, hd⟩, rfl⟩ heq
    obtain ⟨e, he, hek⟩ := (hexp r hr).kind
    rw [he, List.mem_singleton] at hd
    exact hfixed c hc (heq ▸ hd ▸ hek)
  have hnone : Check.last? kind fixed = none := by
    rw [Option.eq_none_iff_forall_ne_some]
    intro v hv
    exact hfixed _ (Check.mem_of_last? hv) hkind
  rw [Check.last?_perm h ((h.map _).nodup_iff.2 hall), Check.last?_append, hnone, Option.or_none]

theorem compare_limit {given : Option Value} {bound : Option Float} {limit : Option Int}
    (hgiven : ∀ v ∈ given, IsDouble v)
    (hbound : Option.Rel (fun v x => ∃ q, Coercion.float v = .ok (x, q)) given bound)
    (hlimit : Option.Rel (fun v n => Validator.intBound v = .ok n) given limit) (n : Int) :
    ((∀ b ∈ bound, (Binary64.ofFloat b).AtMost n) ↔ ∀ b ∈ limit, b ≤ n) ∧
      ((∀ b ∈ bound, (Binary64.ofFloat b).AtLeast n) ↔ ∀ b ∈ limit, n ≤ b) := by
  cases hbound with
  | none =>
    obtain rfl := option_rel_none.1 hlimit
    simp
  | @some v x hx =>
    obtain ⟨k, rfl, hk⟩ := option_rel_some.1 hlimit
    obtain ⟨q, hx⟩ := hx
    obtain ⟨y, q', b, hy, hb, heq⟩ := hgiven v rfl
    obtain rfl : x = y := by
      rw [hx] at hy
      cases hy
      rfl
    unfold Validator.intBound at hk
    cases hint : Coercion.int v with
    | error e => simp [hint] at hk
    | ok r =>
      obtain ⟨m, q''⟩ := r
      simp only [hint, Except.ok.injEq] at hk
      subst hk
      have hvalue := Numeric.value_of_equals_float hb heq hint
      simp [hb, Binary64.AtMost, Binary64.AtLeast, hvalue]

theorem floatLimit_unique {given : Option Value} {bound limit : Option Float}
    (hlimit : Option.Rel (fun v x => Validator.floatBound v = .ok x) given limit)
    (hbound : Option.Rel (fun v x => ∃ q, Coercion.float v = .ok (x, q)) given bound) :
    bound = limit := by
  cases hlimit with
  | none => exact option_rel_none.1 hbound
  | some hx =>
    obtain ⟨y, rfl, q, hy⟩ := option_rel_some.1 hbound
    unfold Validator.floatBound at hx
    rw [hy] at hx
    cases hx
    rfl

theorem lengthLimit_eq {given : Option Value} {name : String} {bound : Option Int}
    {limit : Option Nat}
    (hlimit : Option.Rel (fun v k => Validator.lengthBound v = .ok k) given limit)
    (hbound : Schema.bound Coercion.int name given = .ok bound) :
    bound = limit.map Nat.cast := by
  have hrel := Schema.bound_ok hbound fun v hv => by
    cases hlimit with
    | none => cases hv
    | some hk =>
      cases hv
      cases v with
      | null => cases hk
      | _ => rfl
  cases hlimit with
  | none => exact option_rel_none.1 hrel
  | some hk =>
    obtain ⟨n, rfl, q, hn⟩ := option_rel_some.1 hrel
    unfold Validator.lengthBound at hk
    rw [hn] at hk
    simp only at hk
    split at hk
    · rename_i hrange
      cases hk
      rw [Option.map_some, Option.some.injEq]
      exact (Int.toNat_of_nonneg hrange.1).symm
    · cases hk

theorem means_integer {outer : List Restriction} (hexp : ∀ r ∈ outer, Expressible r)
    (honce : NoneTwice outer) {h : Head}
    (hchecks : h.checks.Perm ([⟨"int", .null⟩] ++ outer.flatMap Restriction.checks)) {s : Schema}
    (hs : Schema.ofNumber h = .ok s) {v : Validator}
    (hv : restrictEach outer (.int none none) = .ok v) (x : Value) :
    s.Admits x ↔ h.nullable = true ∧ x.isNull = true ∨ v.accepts x = true := by
  obtain ⟨-, lo, hi, hlo, hhi, rfl⟩ := Schema.ofNumber_ok.1 hs
  obtain ⟨l, g, rfl, hl, hg⟩ :=
    Validator.restrictEach_spec (by decide) Validator.readsLimits_int hv
  have hint : Check.has "int" h.checks = true :=
    Check.has_iff.2 ⟨_, hchecks.mem_iff.2 List.mem_cons_self, rfl⟩
  have hlast {kind : String} (hkind : kind = "min" ∨ kind = "max") :
      Check.last? kind h.checks = Check.last? kind (outer.flatMap Restriction.checks) := by
    refine last?_of_perm hexp honce [⟨"int", .null⟩] ?_ (by simp) hchecks ?_
    · simp [restrictionKinds]
    · rcases hkind with rfl | rfl <;> simp [restrictionKinds]
  have hdouble {kind : String} (hkind : kind = "min" ∨ kind = "max") :
      ∀ v ∈ Check.last? kind (outer.flatMap Restriction.checks), IsDouble v := fun v hv =>
    isDouble_of_mem hexp (Check.mem_of_last? hv) hkind
  rw [hlast (.inl rfl)] at hlo
  rw [hlast (.inr rfl)] at hhi
  have hmin := compare_limit (hdouble (.inl rfl))
    (Schema.bound_ok hlo fun v hv => (hdouble (.inl rfl) v hv).not_null) hl.rel
  have hmax := compare_limit (hdouble (.inr rfl))
    (Schema.bound_ok hhi fun v hv => (hdouble (.inr rfl) v hv).not_null) hg.rel
  rw [Schema.leaf, Schema.admits_modified, Validator.accepts_int]
  simp only [Schema.AdmitsByType, hint, ↓reduceIte, Schema.AdmitsInteger, (hmin _).1, (hmax _).2]

theorem means_number {outer : List Restriction} (hexp : ∀ r ∈ outer, Expressible r)
    (honce : NoneTwice outer) {h : Head}
    (hchecks : h.checks.Perm (outer.flatMap Restriction.checks)) {s : Schema}
    (hs : Schema.ofNumber h = .ok s) {v : Validator}
    (hv : restrictEach outer (.float none none) = .ok v) (x : Value) :
    s.Admits x ↔ h.nullable = true ∧ x.isNull = true ∨ v.accepts x = true := by
  obtain ⟨-, lo, hi, hlo, hhi, rfl⟩ := Schema.ofNumber_ok.1 hs
  obtain ⟨l, g, rfl, hl, hg⟩ :=
    Validator.restrictEach_spec (by decide) Validator.readsLimits_float hv
  have hint : Check.has "int" h.checks = false := by
    rw [Bool.eq_false_iff, ne_eq, Check.has_iff]
    rintro ⟨c, hc, hkind⟩
    obtain ⟨r, hr, hcr⟩ := List.mem_flatMap.1 (hchecks.mem_iff.1 hc)
    obtain ⟨d, hd, hdk⟩ := (hexp r hr).kind
    rw [hd, List.mem_singleton] at hcr
    simp [← hcr, hkind, restrictionKinds] at hdk
  rw [Check.last?_perm hchecks ((hchecks.map _).nodup_iff.2 honce)] at hlo hhi
  have hdouble {kind : String} (hkind : kind = "min" ∨ kind = "max") :
      ∀ v ∈ Check.last? kind (outer.flatMap Restriction.checks), v.isNull = false := fun v hv =>
    (isDouble_of_mem hexp (Check.mem_of_last? hv) hkind).not_null
  obtain rfl := floatLimit_unique hl.rel (Schema.bound_ok hlo (hdouble (.inl rfl)))
  obtain rfl := floatLimit_unique hg.rel (Schema.bound_ok hhi (hdouble (.inr rfl)))
  rw [Schema.leaf, Schema.admits_modified, Validator.accepts_float]
  simp only [Schema.AdmitsByType, hint, Bool.false_eq_true, ↓reduceIte, Schema.AdmitsNumber]

theorem means_array {outer : List Restriction} (honce : NoneTwice outer) {h : Head}
    (hchecks : h.checks.Perm (outer.flatMap Restriction.checks)) {item : Node} {s : Schema}
    (hs : Schema.ofNode (.array h (some item)) = .ok s) {w v : Validator}
    (hitem : ∀ i, Schema.ofNode item = .ok i → ∀ x, i.Admits x ↔ w.accepts x = true)
    (hv : restrictEach outer (.list w none none) = .ok v) (x : Value) :
    s.Admits x ↔ h.nullable = true ∧ x.isNull = true ∨ v.accepts x = true := by
  obtain ⟨-, i, lo, hi, hi', hlo, hhi, rfl⟩ := Schema.ofNode_array.1 hs
  obtain ⟨l, g, rfl, hl, hg⟩ :=
    Validator.restrictEach_spec (by decide) (Validator.readsLimits_list w) hv
  rw [Check.last?_perm hchecks ((hchecks.map _).nodup_iff.2 honce)] at hlo hhi
  have hmin := lengthLimit_eq hl.rel hlo
  have hmax := lengthLimit_eq hg.rel hhi
  rw [Schema.admits_modified, Validator.accepts_list]
  simp only [Schema.AdmitsByType, Option.some.injEq, exists_eq_left', hitem i hi', hmin, hmax,
    Option.mem_def, Option.map_eq_some_iff, forall_exists_index, and_imp, forall_apply_eq_imp_iff₂,
    Nat.cast_le]

end TypeWire
