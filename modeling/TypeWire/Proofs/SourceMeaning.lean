import TypeWire.Proofs.SourceType

/-!
# Source types keep their meaning

What `TypeExpr.SourceType` is defined for: a source type, its schema, and the type that is rebuilt
from the schema all take the same data (`Schema.ofType_accepts`).

The claim that goes through the induction is `TypeExpr.KeepsMeaning`. It speaks about a type inside
layers: the checks of the layers stand before those of the node, in any order, and the null that the
layers add is a flag beside the data that the restricted validator takes.
-/

namespace TypeWire

open Validator (restrictEach)

namespace Schema

theorem admits_modified_members {h : Head} {f : Facets} {items : Option Schema}
    {properties : Option (List (String × Schema))} {m : Schema} {ms : List Schema} (x : Value) :
    (node (modified h f) items properties (some (m :: ms))).Admits x ↔
      h.nullable = true ∧ x.isNull = true ∨ AdmitsSome (m :: ms) x := by
  rw [admits_members]
  refine or_congr (and_congr_left fun _ => ?_) Iff.rfl
  cases hn : h.nullable <;> simp [modified, hn]

theorem admits_union {h : Head} {variants : List Node} {discriminator : Option String} {s : Schema}
    (hs : ofNode (.union h variants discriminator) = .ok s) (hne : variants ≠ []) (x : Value) :
    ∃ ms, List.Forall₂ (fun n s => ofNode n = .ok s) variants ms ∧
      (s.Admits x ↔ h.nullable = true ∧ x.isNull = true ∨ ∃ m ∈ ms, m.Admits x) := by
  obtain ⟨-, ms, hms, rfl⟩ := ofNode_union.1 hs
  rw [ofVariants_ok] at hms
  refine ⟨ms, hms, ?_⟩
  cases hms with
  | nil => exact absurd rfl hne
  | cons => rw [admits_modified_members, admitsSome_iff]

theorem admits_object {h : Head} {fields : List (String × Node)} {s : Schema}
    (hs : ofNode (.object h fields) = .ok s) (hnames : (fields.map (·.1)).Nodup) (x : Value) :
    ∃ ps : List (String × Schema),
      List.Forall₂ (fun f p => f.1 = p.1 ∧ ofNode f.2 = .ok p.2) fields ps ∧
      (s.Admits x ↔ h.nullable = true ∧ x.isNull = true ∨ ∃ entries, x = .dict entries ∧
        ∀ p ∈ ps, (∀ y ∈ Value.lookup p.1 entries, p.2.Admits y) ∧
          (Value.lookup p.1 entries = none →
            p.1 ∉ (fields.filter fun (_, n) => !n.head.isOptional).map (·.1))) := by
  obtain ⟨-, ps, hps, rfl⟩ := ofNode_object.1 hs
  rw [ofFields_ok] at hps
  have hkeys : ps.map (·.1) = fields.map (·.1) := by
    clear hs hnames
    induction hps with
    | nil => rfl
    | cons hp _ ih => rw [List.map_cons, List.map_cons, ih, hp.1]
  rw [dictOfList_eq_self (hkeys ▸ hnames)]
  refine ⟨ps, hps, ?_⟩
  rw [admits_modified]
  simp only [AdmitsByType, Option.getD_some, admitsEach_iff]

end Schema

/-! ## From the layers to the core -/

/-- The checks that reach a core: its own, and those of the layers, in some order. -/
theorem gathered_perm {outer layers : List Restriction} {ms : List Meta} {pre : List Check}
    (houter : outer = Reading.restrictions ms ++ layers)
    (hpre : pre.Perm (layers.flatMap Restriction.checks)) (description discriminator : Option String)
    (fixed : List Check) :
    (pre ++ (fixed ++ (Reading.ofMetadata description discriminator ms).checks)).Perm
      (fixed ++ outer.flatMap Restriction.checks) := by
  rw [Reading.checks_ofMetadata, houter, List.flatMap_append]
  refine (hpre.append_right _).trans ?_
  rw [← List.append_assoc, ← List.append_assoc]
  exact (List.perm_append_comm.append_right _).trans
    (by rw [List.append_assoc, List.append_assoc]; exact List.perm_append_comm.append_left _)

/-- A core that can have no check of a restriction stands inside layers without any. -/
theorem noRestriction {outer : List Restriction} (hexp : ∀ r ∈ outer, Expressible r)
    (fixed : List Check) {checks : List Check}
    (h : checks.Perm (fixed ++ outer.flatMap Restriction.checks))
    {allowed : List String} (hchecks : ∀ c ∈ checks, c.kind ∈ allowed)
    (hallowed : ∀ k ∈ allowed, k ∉ restrictionKinds) : outer = [] :=
  eq_nil_of_expressible hexp hallowed fun c hc =>
    hchecks c (h.mem_iff.2 (List.mem_append_right _ hc))

/-- A node of texts that is inside no restriction, and has no check, is for any text. -/
theorem means_text {outer : List Restriction} (hexp : ∀ r ∈ outer, Expressible r) {h : Head}
    (hchecks : h.checks.Perm (outer.flatMap Restriction.checks)) {s : Schema}
    (hs : Schema.ofString h = .ok s) {v : Validator} (hv : restrictEach outer .text = .ok v)
    (x : Value) : s.Admits x ↔ h.nullable = true ∧ x.isNull = true ∨ v.accepts x = true := by
  obtain ⟨hallowed, rfl⟩ := Schema.ofString_ok.1 hs
  obtain rfl := noRestriction hexp [] hchecks hallowed
    (by simp [Check.ofString, restrictionKinds])
  cases hv
  have hnil : h.checks = [] := List.perm_nil.1 hchecks
  rw [Schema.leaf, Schema.admits_modified, Validator.accepts_text]
  simp [Schema.AdmitsByType, Schema.AdmitsText, hnil, Check.has]

/-- A node of texts whose one check says so is for times. -/
theorem means_datetime {outer : List Restriction} (hexp : ∀ r ∈ outer, Expressible r) {h : Head}
    (hchecks : h.checks.Perm ([⟨"date-time", .null⟩] ++ outer.flatMap Restriction.checks))
    {s : Schema} (hs : Schema.ofString h = .ok s) {v : Validator}
    (hv : restrictEach outer .datetime = .ok v) (x : Value) :
    s.Admits x ↔ h.nullable = true ∧ x.isNull = true ∨ v.accepts x = true := by
  obtain ⟨hallowed, rfl⟩ := Schema.ofString_ok.1 hs
  obtain rfl := noRestriction hexp [_] hchecks hallowed (by simp [Check.ofString, restrictionKinds])
  cases hv
  have hone : h.checks = [⟨"date-time", .null⟩] := List.perm_singleton.1 hchecks
  rw [Schema.leaf, Schema.admits_modified, Validator.accepts_datetime]
  simp [Schema.AdmitsByType, Schema.AdmitsText, hone, Check.has]

open Schema (noCheck_iff) in
theorem noRestriction_of_nil {outer : List Restriction} (hexp : ∀ r ∈ outer, Expressible r)
    {checks : List Check} (h : checks.Perm (outer.flatMap Restriction.checks)) (hnil : checks = []) :
    outer = [] :=
  noRestriction hexp [] h (noCheck_iff.2 hnil) (List.forall_mem_nil _)

theorem means_boolean {outer : List Restriction} (hexp : ∀ r ∈ outer, Expressible r) {h : Head}
    (hchecks : h.checks.Perm (outer.flatMap Restriction.checks)) {s : Schema}
    (hs : Schema.ofNode (.boolean h) = .ok s) {v : Validator}
    (hv : restrictEach outer .bool = .ok v) (x : Value) :
    s.Admits x ↔ h.nullable = true ∧ x.isNull = true ∨ v.accepts x = true := by
  obtain ⟨hnil, rfl⟩ := Schema.ofNode_boolean.1 hs
  obtain rfl := noRestriction_of_nil hexp hchecks hnil
  cases hv
  rw [Schema.leaf, Schema.admits_modified, Validator.accepts_bool]
  rfl

theorem means_literal {outer : List Restriction} (hexp : ∀ r ∈ outer, Expressible r)
    {texts : List String} (ht : texts ≠ []) {r : Reading} {pre : List Check} {nullable : Bool}
    (hchecks : (pre ++ r.checks).Perm (outer.flatMap Restriction.checks)) {s : Schema}
    (hs : Schema.ofNode ((Node.ofLiteral r (texts.map .str)).under pre nullable) = .ok s)
    {v : Validator} (hv : restrictEach outer (.literal texts) = .ok v) (x : Value) :
    s.Admits x ↔ nullable = true ∧ x.isNull = true ∨ v.accepts x = true := by
  obtain ⟨hnil, rfl⟩ := (Node.ofNode_ofLiteral r ht pre nullable).1 hs
  obtain rfl := noRestriction_of_nil hexp hchecks hnil
  cases hv
  rw [Schema.leaf, Schema.admits_modified, Validator.accepts_literal]
  simp [Schema.AdmitsByType, Schema.AdmitsText, ht]

namespace TypeExpr

/-- What is to be shown of a source type: a schema that its node has, with the checks and the null of
the layers around it, means what its validator takes under the restrictions of the layers. -/
def KeepsMeaning (outer : List Restriction) (t : TypeExpr) : Prop :=
  ∀ {description discriminator : Option String} {ms : List Meta} {layers : List Restriction}
    {pre : List Check} {nullable : Bool} {s : Schema} {v : Validator},
    outer = Reading.restrictions ms ++ layers → pre.Perm (layers.flatMap Restriction.checks) →
    Schema.ofNode ((Node.read description ms discriminator t).under pre nullable) = .ok s →
    Validator.ofType t >>= restrictEach outer = .ok v →
    ∀ x, s.Admits x ↔ nullable = true ∧ x.isNull = true ∨ v.accepts x = true

theorem keepsMeaning_scalar {outer : List Restriction} (hexp : ∀ r ∈ outer, Expressible r)
    (honce : NoneTwice outer) {s : Scalar} (hs : s ≠ .date) : KeepsMeaning outer (.scalar s) := by
  intro description discriminator ms layers pre nullable schema v houter hpre hschema hv x
  have hchecks := gathered_perm houter hpre description discriminator
  obtain ⟨w, hw, hv⟩ := isOk_bind.1 hv
  cases s with
  | str =>
    cases hw
    exact means_text hexp (hchecks []) hschema hv x
  | int =>
    cases hw
    exact means_integer hexp honce (hchecks [⟨"int", .null⟩]) hschema hv x
  | float =>
    cases hw
    exact means_number hexp honce (hchecks []) hschema hv x
  | bool =>
    cases hw
    exact means_boolean hexp (hchecks []) hschema hv x
  | datetime =>
    cases hw
    exact means_datetime hexp (hchecks [⟨"date-time", .null⟩]) hschema hv x
  | date => exact absurd rfl hs

theorem keepsMeaning_annotated {outer : List Restriction} {base : TypeExpr} {inner : List Meta}
    (ih : KeepsMeaning (Reading.restrictions inner ++ outer) base) :
    KeepsMeaning outer (.annotated base inner) := by
  intro description discriminator ms layers pre nullable s v houter hpre hs hv x
  have houter' : Reading.restrictions inner ++ outer =
      Reading.restrictions (inner ++ ms) ++ layers := by
    rw [houter, Reading.restrictions_append, List.append_assoc]
  refine ih houter' hpre hs ?_ x
  rw [Validator.ofType_annotated] at hv
  rw [← hv, bind_assoc]
  congr 1
  funext w
  rw [Validator.restrictEach_append, ← Validator.restrictAll_eq]

theorem ofMembers_filter (members : List TypeExpr) :
    Validator.ofMembers (members.filter fun m => !m.isNull) = Validator.ofMembers members := by
  induction members with
  | nil => rfl
  | cons m ms ih =>
    cases hm : m.isNull with
    | true => simp [hm, Validator.ofMembers, ih]
    | false => simp [hm, Validator.ofMembers, ih]

theorem ofType_optional {members : List TypeExpr} {m : TypeExpr}
    (h : members.filter (fun m => !m.isNull) = [m]) :
    Validator.ofType (.union members) = (Validator.ofType m).map fun w =>
      if members.any TypeExpr.isNull then .nullable w else w := by
  have hm : m.isNull = false := (mem_of_sole h).2
  rw [Validator.ofType, ← ofMembers_filter, h]
  cases hw : Validator.ofType m <;> simp [Validator.ofMembers, hm, hw, Except.map] <;> rfl

theorem keepsMeaning_optional {outer : List Restriction} {members : List TypeExpr} {m : TypeExpr}
    (h : members.filter (fun m => !m.isNull) = [m]) (ih : KeepsMeaning outer m) :
    KeepsMeaning outer (.union members) := by
  intro description discriminator ms layers pre nullable s v houter hpre hs hv x
  rw [ofType_optional h] at hv
  obtain ⟨_, hof, hv⟩ := isOk_bind.1 hv
  obtain ⟨w, hw, rfl⟩ := isOk_map.1 hof
  rw [Node.read_sole h, Node.under_under, Reading.checks_ofMetadata] at hs
  have hperm : (pre ++ (Reading.restrictions ms).flatMap Restriction.checks).Perm
      (outer.flatMap Restriction.checks) := by
    rw [houter, List.flatMap_append]
    exact (hpre.append_right _).trans List.perm_append_comm
  have houter' : outer = Reading.restrictions [] ++ outer := rfl
  have hm {w' : Validator} (hw' : restrictEach outer w = .ok w') :=
    ih houter' hperm hs (isOk_bind.2 ⟨w, hw, hw'⟩) x
  cases hany : members.any TypeExpr.isNull with
  | true =>
    rw [hany, if_pos rfl, Validator.restrictEach_nullable] at hv
    obtain ⟨w', hw', rfl⟩ := isOk_map.1 hv
    rw [hm hw', hany, Validator.accepts_nullable]
    cases x.isNull <;> simp
  | false =>
    rw [hany, if_neg (by simp)] at hv
    rw [hm hv, hany, Bool.false_or]

theorem keepsMeaning_literal {outer : List Restriction} (hexp : ∀ r ∈ outer, Expressible r)
    {texts : List String} (ht : texts ≠ []) : KeepsMeaning outer (.literal (texts.map .str)) := by
  intro description discriminator ms layers pre nullable s v houter hpre hs hv x
  rw [ofType_literal_str] at hv
  exact means_literal hexp ht (gathered_perm houter hpre description discriminator []) hs hv x

theorem KeepsMeaning.alone {t : TypeExpr} (h : KeepsMeaning [] t) {s : Schema}
    (hs : Schema.ofNode (Node.read none [] none t) = .ok s) (hv : t.HasValidator) (x : Value) :
    s.Admits x ↔ t.Takes x := by
  obtain ⟨v, hv⟩ := hv
  have hnil : ([] : List Restriction) = Reading.restrictions [] ++ [] := rfl
  have hm := h hnil (.refl []) (by rw [Node.under_nil]; exact hs) (isOk_bind.2 ⟨v, hv, rfl⟩) x
  rw [takes_iff hv]
  simpa using hm

theorem keepsMeaning_list {outer : List Restriction} (honce : NoneTwice outer) (form : ListForm)
    {item : TypeExpr} (ih : KeepsMeaning [] item) : KeepsMeaning outer (.list form item) := by
  intro description discriminator ms layers pre nullable s v houter hpre hs hv x
  have hchecks := gathered_perm houter hpre description discriminator []
  rw [Validator.ofType] at hv
  obtain ⟨_, hof, hv⟩ := isOk_bind.1 hv
  obtain ⟨w, hw, hof⟩ := isOk_bind.1 hof
  obtain rfl := isOk_pure.1 hof
  rw [Node.read] at hs
  refine means_array honce hchecks hs (fun i hi y => ?_) hv x
  rw [ih.alone hi ⟨w, hw⟩, takes_iff hw]

/-- What members take is what those take that are not null, and null if it is one of them. -/
theorem exists_takes_iff (members : List TypeExpr) (x : Value) :
    (∃ m ∈ members, m.Takes x) ↔ members.any TypeExpr.isNull = true ∧ x.isNull = true ∨
      ∃ m ∈ members.filter (fun m => !m.isNull), m.Takes x := by
  constructor
  · rintro ⟨m, hm, hx⟩
    cases hn : m.isNull with
    | true =>
      rw [isNull_eq_true.1 hn] at hm hx
      exact .inl ⟨List.any_eq_true.2 ⟨_, hm, rfl⟩, takes_null.1 hx⟩
    | false => exact .inr ⟨m, List.mem_filter.2 ⟨hm, by simp [hn]⟩, hx⟩
  · rintro (⟨hany, hx⟩ | ⟨m, hm, hx⟩)
    · obtain ⟨m, hm, hn⟩ := List.any_eq_true.1 hany
      rw [isNull_eq_true.1 hn] at hm
      exact ⟨_, hm, takes_null.2 hx⟩
    · exact ⟨m, (List.mem_filter.1 hm).1, hx⟩

theorem keepsMeaning_union {outer : List Restriction} (hexp : ∀ r ∈ outer, Expressible r)
    {members : List TypeExpr} (h : 2 ≤ (members.filter fun m => !m.isNull).length)
    (ih : ∀ m ∈ members, m.isNull = false → KeepsMeaning [] m) :
    KeepsMeaning outer (.union members) := by
  intro description discriminator ms layers pre nullable s v houter hpre hs hv x
  have hchecks := gathered_perm houter hpre description discriminator []
  rw [Node.read_variants (Nat.ne_of_gt h)] at hs
  obtain rfl := noRestriction_of_nil hexp hchecks (Schema.ofNode_union.1 hs).1
  have hne : (members.filter fun m => !m.isNull).map (Node.read none [] none) ≠ [] := by
    rw [ne_eq, List.map_eq_nil_iff, ← List.length_eq_zero_iff]
    omega
  obtain ⟨variants, hvariants, hadmits⟩ := Schema.admits_union hs hne x
  obtain ⟨_, hof, hv⟩ := isOk_bind.1 hv
  cases hv
  have hall := hasValidator_union.1 ⟨v, hof⟩
  have hmembers : ∀ m ∈ members.filter (fun m => !m.isNull), KeepsMeaning [] m ∧ m.HasValidator := by
    intro m hm
    obtain ⟨hm, hn⟩ := List.mem_filter.1 hm
    exact ⟨ih m hm (by simpa using hn), hall m hm⟩
  have hparts : (∃ i ∈ variants, i.Admits x) ↔
      ∃ m ∈ members.filter (fun m => !m.isNull), m.Takes x := by
    rw [List.forall₂_map_left_iff] at hvariants
    refine exists_congr_of_forall₂ (((List.forall₂_and_left _ _).2 ⟨hmembers, hvariants⟩).flip.imp ?_)
    rintro i m ⟨⟨hm, hmv⟩, hi⟩
    exact hm.alone hi hmv x
  have hnull : s.Admits x ↔ (members.any TypeExpr.isNull || nullable) = true ∧ x.isNull = true ∨
      ∃ i ∈ variants, i.Admits x := hadmits
  rw [hnull, hparts, ← takes_iff hof, takes_union hall, exists_takes_iff members, Bool.or_eq_true,
    or_and_right, or_assoc]
  exact or_left_comm

theorem required_iff {fields : List (Field × TypeExpr)}
    (hnames : (fields.map fun f => f.1.wireName).Nodup) {f : Field × TypeExpr} (hf : f ∈ fields) :
    f.1.wireName ∉ ((Node.readFields fields).filter fun (_, n) => !n.head.isOptional).map (·.1) ↔
      f.1.default.isSome = true := by
  rw [Node.required_readFields, List.mem_map]
  constructor
  · intro h
    by_contra hd
    exact h ⟨f, List.mem_filter.2 ⟨hf, by simpa [Field.isOptional] using hd⟩, rfl⟩
  · rintro hd ⟨g, hg, heq⟩
    obtain ⟨hg, ho⟩ := List.mem_filter.1 hg
    obtain rfl := List.inj_on_of_nodup_map hnames hg hf heq
    simp [Field.isOptional, hd] at ho

theorem rule_of_field {f : Field} (h : f.dataName ≠ some "") {rule : FieldRule}
    (hrule : Validator.ruleOf f = .ok rule) :
    rule.key = f.wireName ∧ rule.default.isSome = f.default.isSome := by
  have hname : f.dataName.getD f.name = f.wireName := by
    unfold Field.wireName
    cases ha : f.dataName with
    | none => rfl
    | some a =>
      have hne : a ≠ "" := fun he => h (by rw [ha, he])
      simp [hne]
  unfold Validator.ruleOf at hrule
  split at hrule
  · rename_i hd
    cases hrule
    exact ⟨hname, by rw [hd]; rfl⟩
  · rename_i w hd
    cases hrule
    exact ⟨hname, by rw [hd]; rfl⟩
  · cases hrule

/-- What is shown of the type of a field, which is inside the metadata of the field. -/
theorem KeepsMeaning.field {f : Field} {t : TypeExpr}
    (h : KeepsMeaning (Reading.restrictions f.metadata) t) {s : Schema}
    (hs : Schema.ofNode (Node.asField f (Node.read f.description f.metadata f.discriminator t)) =
      .ok s) {v : Validator} (hv : Validator.ofType t >>= Validator.restrictAll f.metadata = .ok v)
    (x : Value) : s.Admits x ↔ v.accepts x = true := by
  rw [Node.asField, Schema.ofNode_withHead_isOptional] at hs
  have hm := h (List.append_nil _).symm (.refl []) (by rw [Node.under_nil]; exact hs) hv x
  simpa using hm

theorem keepsMeaning_record {outer : List Restriction} (hexp : ∀ r ∈ outer, Expressible r)
    (name : String) (doc : Option String) {fields : List (Field × TypeExpr)}
    (hnames : (fields.map fun f => f.1.wireName).Nodup)
    (halias : ∀ f ∈ fields, f.1.dataName ≠ some "")
    (ih : ∀ f ∈ fields, KeepsMeaning (Reading.restrictions f.1.metadata) f.2) :
    KeepsMeaning outer (.record name doc fields) := by
  intro description discriminator ms layers pre nullable s v houter hpre hs hv x
  have hchecks := gathered_perm houter hpre description discriminator []
  rw [Node.read] at hs
  obtain rfl := noRestriction_of_nil hexp hchecks (Schema.ofNode_object.1 hs).1
  have hreadNames : ((Node.readFields fields).map (·.1)).Nodup := by
    rw [Node.readFields_eq, List.map_map]
    exact hnames
  obtain ⟨ps, hps, hadmits⟩ := Schema.admits_object hs hreadNames x
  obtain ⟨_, hof, hv⟩ := isOk_bind.1 hv
  cases hv
  rw [Validator.ofType] at hof
  obtain ⟨vs, hvs, hof⟩ := isOk_bind.1 hof
  obtain rfl := isOk_pure.1 hof
  rw [Node.readFields_eq, List.forall₂_map_left_iff] at hps
  refine hadmits.trans (or_congr Iff.rfl ?_)
  rw [Validator.accepts_record]
  refine exists_congr fun entries => and_congr_right fun _ => ?_
  refine forall_congr_of_forall₂ ((forall₂_join hps (ofFields_ok.1 hvs)).imp ?_)
  rintro p v ⟨f, hf, ⟨hname, hp⟩, hrule, hv⟩
  obtain ⟨hkey, hdefault⟩ := rule_of_field (halias f hf) hrule
  have hfield : KeepsMeaning (Reading.restrictions f.1.metadata) f.2 := ih f hf
  rw [← hname, hkey, required_iff hnames hf, hdefault]
  simp only [hfield.field hp hv]

/-- A source type keeps its meaning inside all layers that restrict it in ways that schemas can
express. -/
theorem SourceType.keepsMeaning {outer : List Restriction} {t : TypeExpr}
    (h : SourceType outer t) : (∀ r ∈ outer, Expressible r) → KeepsMeaning outer t := by
  induction h with
  | scalar honce hs => exact fun hexp => keepsMeaning_scalar hexp honce hs
  | literal _ ht => exact fun hexp => keepsMeaning_literal hexp ht
  | list form honce _ ih => exact fun _ => keepsMeaning_list honce form (ih (by simp))
  | annotated hms _ ih =>
    intro hexp
    refine keepsMeaning_annotated (ih ?_)
    exact List.forall_mem_append.2 ⟨restrictions_expressible hms, hexp⟩
  | optional h _ ih => exact fun hexp => keepsMeaning_optional h (ih hexp)
  | union _ h _ ih =>
    exact fun hexp => keepsMeaning_union hexp h fun m hm hn => ih m hm hn (by simp)
  | record name doc _ hnames halias hms _ ih =>
    intro hexp
    refine keepsMeaning_record hexp name doc hnames halias fun f hf => ?_
    exact ih f hf (restrictions_expressible (hms f hf))

end TypeExpr

/-- A source type, and the type that is rebuilt from its schema, take the same data. -/
theorem Schema.ofType_accepts {models : List Model} {a b : TypeExpr} {s : Schema} {name : String}
    {va vb : Validator} (ha : TypeExpr.SourceType [] (a.expand models))
    (hs : Schema.ofType models a = .ok s) (hb : TypeExpr.ofSchema name s = .ok b)
    (hva : Validator.ofType (a.expand models) = .ok va) (hvb : Validator.ofType b = .ok vb)
    (x : Value) : va.accepts x = vb.accepts x := by
  have hmeaning : TypeExpr.KeepsMeaning [] (a.expand models) := ha.keepsMeaning (List.forall_mem_nil _)
  have hsource : s.Admits x ↔ (a.expand models).Takes x := hmeaning.alone hs ⟨va, hva⟩ x
  have hrebuilt : b.Takes x ↔ s.Admits x := TypeExpr.means_ofSchema hb ⟨vb, hvb⟩ x
  rw [Bool.eq_iff_iff, ← TypeExpr.takes_iff hva, ← TypeExpr.takes_iff hvb, hrebuilt, hsource]

/-- A model whose one field is a list of numbers and marks, or null, under a key that is no name. -/
def labels : Model where
  name := "Labels"
  doc := none
  fields := [({ name := "items", dataName := some "all items", default := some (.value .null)
                metadata := [.restriction (.minLength (.int 1))] },
    .union [.list .builtin (.union [.scalar .int, .literal [.str "none", .str "all"]]), .null])]

namespace Schema

/-- The schema of the labels, with that of their items. -/
def labelsOf (items : Schema) : Schema :=
  .node { type := some .object, required := some [], propertyOrdering := some ["all items"] } none
    (some [("all items", items)]) none

theorem labels_accepts :
    ∃ va vb : Validator, Validator.ofType ((TypeExpr.model "Labels").expand [labels]) = .ok va ∧
      va.accepts (.dict []) = true ∧ va.accepts (.dict [(.str "all items", .list [])]) = false ∧
      vb.accepts (.dict [(.str "all items", .list [])]) = false := by
  have ha : TypeExpr.SourceType [] ((TypeExpr.model "Labels").expand [labels]) := by
    show TypeExpr.SourceType [] (.record "Labels" none labels.fields)
    refine .record "Labels" none (by decide) (by decide) (by decide) ?_ ?_
    · simp only [labels, List.forall_mem_singleton]
      exact .restriction (.minLength _)
    · simp only [labels, List.forall_mem_singleton]
      refine .optional rfl (.list _ (by decide) (.union (by decide) (by decide) ?_))
      simp only [List.forall_mem_cons]
      exact ⟨fun _ => .scalar (by decide) (by decide),
        fun _ => .literal (by decide) (List.cons_ne_nil "none" ["all"]), by simp⟩
  obtain ⟨items, hs, t, ht, w, hw⟩ : ∃ items, Schema.ofType [labels] (.model "Labels") =
      .ok (labelsOf items) ∧ ∃ t, TypeExpr.ofSchema "Labels_all items" items = .ok t ∧
        ∃ w, Validator.ofType t = .ok w := ⟨_, rfl, _, rfl, _, rfl⟩
  have hfields : Validator.ofFields (TypeExpr.fieldsOf [] [("all items", t)]) =
      .ok [({ key := "all items", default := some .null }, w)] :=
    (TypeExpr.ofFields_fieldsOf (by simpa using TypeExpr.regular_ofSchema ht)).2
      (.cons ⟨rfl, hw⟩ .nil)
  have hb : TypeExpr.ofSchema "Labels" (labelsOf items) =
      .ok (.record "Labels" none (TypeExpr.fieldsOf [] [("all items", t)])) := by
    rw [labelsOf, TypeExpr.ofSchema_object rfl rfl, Option.getD_some, TypeExpr.ofProperties_cons]
    refine isOk_bind.2 ⟨_, isOk_bind.2 ⟨t, ht, rfl⟩, isOk_bind.2 ⟨_, ?_, rfl⟩⟩
    exact TypeExpr.recordOf_ok.2 ⟨by decide, ⟨_, hfields⟩, rfl⟩
  have hva : Validator.ofType ((TypeExpr.model "Labels").expand [labels]) = .ok _ := rfl
  have hvb : Validator.ofType (.record "Labels" none (TypeExpr.fieldsOf [] [("all items", t)])) =
      .ok (.record "Labels" [({ key := "all items", default := some .null }, w)]) := by
    rw [Validator.ofType, hfields]
    rfl
  exact ⟨_, _, hva, rfl, rfl, (ofType_accepts ha hs hb hva hvb _).symm.trans rfl⟩

end Schema

end TypeWire
