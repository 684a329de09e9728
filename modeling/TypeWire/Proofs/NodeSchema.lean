import TypeWire.Proofs.Dictionary
import TypeWire.Proofs.Restriction
import TypeWire.Schema.OfType

/-!
# When a node has a schema

`Schema.ofNode` succeeds if every check of a node is one that its kind can have and its bounds can be
read, and then the schema is known. There is one such statement for each kind of node
(`Schema.ofNumber_ok` and the like); later proofs use these and do not look into `ofNode`.

Checks gather from several layers of a type. `Node.under` puts checks and null around a node, as
reading a layer does, and `Check.last?_perm` says that the order of the layers does not matter as long
as no kind of check occurs twice.
-/

namespace TypeWire

namespace Check

/-- Checks pass if their kinds are among the allowed ones, whatever their values are. -/
theorem reject_ok {allowed : List String} {label : String} {checks : List Check} :
    reject allowed label checks = .ok () ↔ ∀ c ∈ checks, c.kind ∈ allowed := by
  unfold reject
  cases h : checks.find? fun c => !allowed.contains c.kind with
  | none => simpa using h
  | some c =>
    obtain ⟨hc, hmem⟩ : c.kind ∉ allowed ∧ c ∈ checks :=
      ⟨by simpa using List.find?_some h, List.mem_of_find?_eq_some h⟩
    simpa using ⟨c, hmem, hc⟩

theorem reject_bind {α : Type} {allowed : List String} {label : String} {checks : List Check}
    {rest : Except NodeError α} {a : α} :
    (do reject allowed label checks; rest) = .ok a ↔
      (∀ c ∈ checks, c.kind ∈ allowed) ∧ rest = .ok a := by
  rw [isOk_bind, ← reject_ok]
  exact ⟨fun ⟨_, h⟩ => h, fun h => ⟨(), h⟩⟩

/-- Of the checks of a kind the last one counts, so a later list comes first. -/
theorem last?_append (kind : String) (cs ds : List Check) :
    last? kind (cs ++ ds) = (last? kind ds).or (last? kind cs) := by
  unfold last?
  rw [List.reverse_append, List.find?_append, Option.map_or]

theorem last?_singleton (kind : String) (c : Check) :
    last? kind [c] = if c.kind = kind then some c.value else none := by
  by_cases h : c.kind = kind <;> simp [last?, h]

/-- The value that counts is that of one of the checks. -/
theorem mem_of_last? {kind : String} {cs : List Check} {v : Value} (h : last? kind cs = some v) :
    ⟨kind, v⟩ ∈ cs := by
  unfold last? at h
  obtain ⟨c, hc, rfl⟩ := Option.map_eq_some_iff.1 h
  have hkind : c.kind = kind := by simpa using List.find?_some hc
  subst hkind
  simpa using List.mem_of_find?_eq_some hc

theorem last?_isSome {kind : String} {cs : List Check} {v : Value} (h : ⟨kind, v⟩ ∈ cs) :
    (last? kind cs).isSome := by
  unfold last?
  rw [Option.isSome_map, List.find?_isSome]
  exact ⟨_, List.mem_reverse.2 h, by simp⟩

/-- If no kind occurs twice, the last check of a kind is the only one. -/
theorem last?_eq_some {kind : String} {cs : List Check} (hcs : (cs.map Check.kind).Nodup)
    {v : Value} : last? kind cs = some v ↔ ⟨kind, v⟩ ∈ cs := by
  refine ⟨mem_of_last?, fun h => ?_⟩
  obtain ⟨w, hw⟩ := Option.isSome_iff_exists.1 (last?_isSome h)
  have heq := List.inj_on_of_nodup_map hcs (mem_of_last? hw) h rfl
  rw [hw, (Check.mk.injEq ..  ▸ heq : kind = kind ∧ w = v).2]

/-- The order of checks does not matter if no kind occurs twice. -/
theorem last?_perm {kind : String} {cs ds : List Check} (h : cs.Perm ds)
    (hcs : (cs.map Check.kind).Nodup) : last? kind cs = last? kind ds := by
  refine Option.ext fun v => ?_
  rw [last?_eq_some hcs, last?_eq_some ((h.map _).nodup_iff.1 hcs), h.mem_iff]

/-- A mark is there if some check has its kind. -/
theorem has_iff {kind : String} {cs : List Check} :
    has kind cs = true ↔ ∃ c ∈ cs, c.kind = kind := by
  simp [has]

end Check

namespace Schema

/-! ## One statement for each kind of node -/

/-- A bound is read from the value that is given, and is absent where none is. -/
theorem bound_ok {α : Type} {read : Value → Except Fault (α × Match)} {name : String}
    {value : Option Value} {x : Option α} (h : bound read name value = .ok x)
    (hvalue : ∀ v ∈ value, v.isNull = false) :
    Option.Rel (fun v a => ∃ q, read v = .ok (a, q)) value x := by
  unfold bound optional scalar at h
  cases value with
  | none => cases h; exact .none
  | some v =>
    rw [Option.getD_some, hvalue v rfl] at h
    cases hv : read v with
    | error e => simp [hv, Except.map] at h
    | ok r =>
      obtain ⟨a, q⟩ := r
      simp only [hv, Except.map, Bool.false_eq_true, ↓reduceIte, Except.ok.injEq] at h
      subst h
      exact .some ⟨q, hv⟩

/-- Both bounds have to be readable. -/
theorem bounds_ok {α : Type} {a b : Except (List Issue) α} {x y : α} :
    bounds a b = .ok (x, y) ↔ a = .ok x ∧ b = .ok y := by
  unfold bounds
  cases a <;> cases b <;> simp

/-- A text has a schema if its checks are the marks of a format. -/
theorem ofString_ok {h : Head} {s : Schema} :
    ofString h = .ok s ↔ (∀ c ∈ h.checks, c.kind ∈ Check.ofString) ∧
      s = leaf (modified h
        { type := some .string
          format :=
            if Check.has "date-time" h.checks then some "date-time"
            else if Check.has "date" h.checks then some "date"
            else none }) := by
  unfold ofString
  rw [Check.reject_bind]
  exact and_congr_right fun _ => isOk_pure

/-- A number has a schema if its checks are bounds or the mark of an integer, and its bounds are
readable. -/
theorem ofNumber_ok {h : Head} {s : Schema} :
    ofNumber h = .ok s ↔ (∀ c ∈ h.checks, c.kind ∈ Check.ofNumber) ∧ ∃ minimum maximum,
      bound Coercion.float "minimum" (Check.last? "min" h.checks) = .ok minimum ∧
      bound Coercion.float "maximum" (Check.last? "max" h.checks) = .ok maximum ∧
      s = leaf (modified h
        { type := some (if Check.has "int" h.checks then .integer else .number)
          minimum, maximum }) := by
  unfold ofNumber
  rw [Check.reject_bind, isOk_bind]
  refine and_congr_right fun _ => ⟨?_, ?_⟩
  · rintro ⟨⟨lo, hi⟩, hb, hs⟩
    obtain ⟨hlo, hhi⟩ := bounds_ok.1 hb
    cases hs
    exact ⟨lo, hi, hlo, hhi, rfl⟩
  · rintro ⟨lo, hi, hlo, hhi, rfl⟩
    exact ⟨(lo, hi), bounds_ok.2 ⟨hlo, hhi⟩, rfl⟩

theorem noCheck_iff {checks : List Check} : (∀ c ∈ checks, c.kind ∈ []) ↔ checks = [] := by
  simp [List.eq_nil_iff_forall_not_mem]

theorem ofNode_boolean {h : Head} {s : Schema} :
    ofNode (.boolean h) = .ok s ↔
      h.checks = [] ∧ s = leaf (modified h { type := some .boolean }) := by
  rw [ofNode, Check.reject_bind, noCheck_iff]
  exact and_congr_right fun _ => isOk_pure

theorem ofNode_null {h : Head} {s : Schema} :
    ofNode (.null h) = .ok s ↔ h.checks = [] ∧
      s = leaf (modified { h with nullable := true } { type := some .string }) := by
  rw [ofNode, Check.reject_bind, noCheck_iff]
  exact and_congr_right fun _ => isOk_pure

/-- Texts are read as themselves. -/
theorem textsOf_str (texts : List String) : textsOf (texts.map .str) = .ok texts := by
  induction texts with
  | nil => rfl
  | cons s ss ih =>
    rw [List.map_cons, textsOf, ih]
    rfl

/-- An enumeration has a schema if it has no checks and its values, of which there is one at least, are
texts. -/
theorem ofEnumeration_ok {h : Head} {values : List Value} {s : Schema} :
    ofEnumeration h values = .ok s ↔ h.checks = [] ∧ values ≠ [] ∧ ∃ texts,
      textsOf values = .ok texts ∧
        s = leaf (modified h { type := some .string, enum := some texts }) := by
  unfold ofEnumeration
  rw [Check.reject_bind, noCheck_iff]
  refine and_congr_right fun _ => ?_
  cases values with
  | nil => simp [isOk_bind, isOk_throw]
  | cons v vs =>
    rw [and_iff_right (List.cons_ne_nil v vs)]
    cases textsOf (v :: vs) with
    | error v => simp [isOk_throw]
    | ok texts => simp [isOk_pure]

theorem ofEnumeration_str {h : Head} {texts : List String} (ht : texts ≠ []) {s : Schema} :
    ofEnumeration h (texts.map .str) = .ok s ↔ h.checks = [] ∧
      s = leaf (modified h { type := some .string, enum := some texts }) := by
  rw [ofEnumeration_ok, textsOf_str]
  simp [ht]

/-- A literal has a schema if it has no checks and its values are texts. It may have none, unlike an
enumeration. -/
theorem ofLiteral_ok {h : Head} {values : List Value} {s : Schema} :
    ofLiteral h values = .ok s ↔ h.checks = [] ∧ ∃ texts, textsOf values = .ok texts ∧
      s = leaf (modified h { type := some .string, enum := some texts }) := by
  unfold ofLiteral
  rw [Check.reject_bind, noCheck_iff]
  refine and_congr_right fun _ => ?_
  cases textsOf values with
  | error v => simp [isOk_throw]
  | ok texts => simp [isOk_pure]

theorem ofLiteral_str {h : Head} (texts : List String) {s : Schema} :
    ofLiteral h (texts.map .str) = .ok s ↔ h.checks = [] ∧
      s = leaf (modified h { type := some .string, enum := some texts }) := by
  rw [ofLiteral_ok, textsOf_str]
  simp

/-- A list whose items are not described has no schema. -/
theorem ofNode_bareArray {h : Head} {s : Schema} : ofNode (.array h none) ≠ .ok s := by
  intro hs
  rw [ofNode, Check.reject_bind] at hs
  cases hs.2

/-- A list has a schema if its items have one, its checks are lengths, and these are readable. -/
theorem ofNode_array {h : Head} {item : Node} {s : Schema} :
    ofNode (.array h (some item)) = .ok s ↔ (∀ c ∈ h.checks, c.kind ∈ Check.ofArray) ∧
      ∃ i minItems maxItems, ofNode item = .ok i ∧
        bound Coercion.int "min_items" (Check.last? "min_length" h.checks) = .ok minItems ∧
        bound Coercion.int "max_items" (Check.last? "max_length" h.checks) = .ok maxItems ∧
        s = node (modified h { type := some .array, minItems, maxItems }) (some i) none none := by
  rw [ofNode, Check.reject_bind, isOk_bind]
  refine and_congr_right fun _ => exists_congr fun i => ?_
  rw [isOk_bind]
  constructor
  · rintro ⟨hi, ⟨lo, hi'⟩, hb, hs⟩
    obtain ⟨hlo, hhi⟩ := bounds_ok.1 hb
    exact ⟨lo, hi', hi, hlo, hhi, isOk_pure.1 hs⟩
  · rintro ⟨lo, hi', hi, hlo, hhi, rfl⟩
    exact ⟨hi, (lo, hi'), bounds_ok.2 ⟨hlo, hhi⟩, rfl⟩

/-- An object has a schema if it has no checks and each of its fields has one. The properties are those
of the fields, the last one where names are repeated. -/
theorem ofNode_object {h : Head} {fields : List (String × Node)} {s : Schema} :
    ofNode (.object h fields) = .ok s ↔ h.checks = [] ∧ ∃ ps, ofFields fields = .ok ps ∧
      s = node (modified h
        { type := some .object
          required := some ((fields.filter fun (_, n) => !n.head.isOptional).map (·.1))
          propertyOrdering := some ((dictOfList ps).map (·.1)) }) none (some (dictOfList ps)) none := by
  rw [ofNode, Check.reject_bind, noCheck_iff, isOk_bind]
  exact and_congr_right fun _ => exists_congr fun _ => and_congr_right fun _ => isOk_pure

/-- A union has a schema if it has no checks and each of its variants has one. The discriminator is
lost. -/
theorem ofNode_union {h : Head} {variants : List Node} {discriminator : Option String} {s : Schema} :
    ofNode (.union h variants discriminator) = .ok s ↔ h.checks = [] ∧
      ∃ ms, ofVariants variants = .ok ms ∧ s = node (modified h {}) none none (some ms) := by
  rw [ofNode, Check.reject_bind, noCheck_iff, isOk_bind]
  exact and_congr_right fun _ => exists_congr fun _ => and_congr_right fun _ => isOk_pure

/-- The fields have schemas side by side, under the same names. -/
theorem ofFields_ok {fields : List (String × Node)} {ps : List (String × Schema)} :
    ofFields fields = .ok ps ↔
      List.Forall₂ (fun f p => f.1 = p.1 ∧ ofNode f.2 = .ok p.2) fields ps := by
  induction fields generalizing ps with
  | nil => rw [ofFields, List.forall₂_nil_left_iff, Except.ok.injEq, eq_comm]
  | cons f fields ih =>
    rw [ofFields, List.forall₂_cons_left_iff, isOk_bind]
    constructor
    · rintro ⟨s, hs, h⟩
      obtain ⟨ss, hss, h⟩ := isOk_bind.1 h
      exact ⟨(f.1, s), ss, ⟨rfl, hs⟩, ih.1 hss, isOk_pure.1 h⟩
    · rintro ⟨⟨name, s⟩, ss, ⟨rfl, hs⟩, hss, rfl⟩
      exact ⟨s, hs, isOk_bind.2 ⟨ss, ih.2 hss, rfl⟩⟩

/-- The variants have schemas side by side. -/
theorem ofVariants_ok {variants : List Node} {ms : List Schema} :
    ofVariants variants = .ok ms ↔ List.Forall₂ (fun n s => ofNode n = .ok s) variants ms := by
  induction variants generalizing ms with
  | nil => rw [ofVariants, List.forall₂_nil_left_iff, Except.ok.injEq, eq_comm]
  | cons n variants ih =>
    rw [ofVariants, List.forall₂_cons_left_iff, isOk_bind]
    constructor
    · rintro ⟨s, hs, h⟩
      obtain ⟨ss, hss, h⟩ := isOk_bind.1 h
      exact ⟨s, ss, hs, ih.1 hss, isOk_pure.1 h⟩
    · rintro ⟨s, ss, hs, hss, rfl⟩
      exact ⟨s, hs, isOk_bind.2 ⟨ss, ih.2 hss, rfl⟩⟩

/-- Whether a field can be left out is not written in its schema. -/
theorem ofNode_withHead_isOptional (n : Node) (b : Bool) :
    ofNode (n.withHead { n.head with isOptional := b }) = ofNode n := by
  cases n with
  | array h items => cases items <;> rfl
  | _ => rfl

end Schema

namespace Node

/-- The node with checks in front and, if the layer has null, nullable: what reading a layer does. -/
def under (checks : List Check) (nullable : Bool) (n : Node) : Node :=
  n.withHead { n.head with
    nullable := n.head.nullable || nullable, checks := checks ++ n.head.checks }

@[simp] theorem head_withHead (h : Head) (n : Node) : (n.withHead h).head = h := by
  cases n <;> rfl

@[simp] theorem withHead_head (n : Node) : n.withHead n.head = n := by
  cases n <;> rfl

@[simp] theorem withHead_withHead (h h' : Head) (n : Node) :
    (n.withHead h).withHead h' = n.withHead h' := by
  cases n <;> rfl

@[simp] theorem under_nil (n : Node) : n.under [] false = n := by
  cases n <;> simp [under, withHead, head]

/-- What comes from further outside stands first. -/
theorem under_under (cs ds : List Check) (a b : Bool) (n : Node) :
    (n.under cs a).under ds b = n.under (ds ++ cs) (a || b) := by
  simp [under, Bool.or_assoc]

/-- The only member of a union stands under what is said around the union. -/
theorem asSoleMember_eq (r : Reading) (nullable : Bool) (n : Node) :
    asSoleMember r nullable n = n.under r.checks nullable := rfl

end Node

theorem TypeExpr.mem_of_sole {members : List TypeExpr} {m : TypeExpr}
    (hm : members.filter (fun m => !m.isNull) = [m]) : m ∈ members ∧ m.isNull = false := by
  have hmem : m ∈ members.filter fun m => !m.isNull := by simp [hm]
  simpa using List.mem_filter.1 hmem

/-- A union has one member that is not null, as which it is read, or is one of variants. -/
theorem TypeExpr.sole_or_variants (members : List TypeExpr) :
    (∃ m ∈ members, members.filter (fun m => !m.isNull) = [m]) ∨
      (members.filter fun m => !m.isNull).length ≠ 1 := by
  by_cases hlen : (members.filter fun m => !m.isNull).length = 1
  · obtain ⟨m, hm⟩ := List.length_eq_one_iff.1 hlen
    exact .inl ⟨m, (mem_of_sole hm).1, hm⟩
  · exact .inr hlen

/-- What goes through members to the first that is not null finds the sole one. -/
theorem TypeExpr.sole_eq {α : Type} {f : List TypeExpr → α} {g : TypeExpr → α}
    (hf : ∀ m ms, f (m :: ms) = if m.isNull then f ms else g m) {members : List TypeExpr}
    {m : TypeExpr} (h : members.filter (fun m => !m.isNull) = [m]) : f members = g m := by
  induction members with
  | nil => cases h
  | cons m' ms ih =>
    rw [hf]
    cases hm : m'.isNull with
    | true => exact ih (by simpa [hm] using h)
    | false =>
      simp only [hm, Bool.not_false, List.filter_cons_of_pos, List.cons.injEq] at h
      simp [h.1]

namespace Node

/-- The kind of the node of a literal type is not a matter of what is read around the type. -/
theorem ofLiteral_cases (values : List Value) : (∀ r, ofLiteral r values = null r.head) ∨
    ∃ nullable members, members ≠ [] ∧
      ((∀ r : Reading, ofLiteral r values = enumeration { r.head with nullable } members) ∨
        ∀ r : Reading, ofLiteral r values = literal { r.head with nullable } members) := by
  unfold ofLiteral
  generalize values.filter (fun v => !v.isNull) = members
  dsimp only
  rcases members with _ | ⟨v, _ | ⟨w, vs⟩⟩
  · exact .inl fun r => rfl
  · exact .inr ⟨decide ([v].length < values.length), [v], List.cons_ne_nil _ _, .inr fun r => rfl⟩
  · refine .inr ⟨decide ((v :: w :: vs).length < values.length), _, List.cons_ne_nil v (w :: vs), ?_⟩
    by_cases htext : (v :: w :: vs).all Value.isText = true
    · exact .inl fun r => if_pos htext
    · exact .inr fun r => if_neg htext

/-- A literal of texts is an enumeration of them, whatever the kind of its node. -/
theorem ofNode_ofLiteral (r : Reading) {texts : List String} (ht : texts ≠ []) (pre : List Check)
    (nullable : Bool) {s : Schema} :
    Schema.ofNode ((ofLiteral r (texts.map .str)).under pre nullable) = .ok s ↔
      pre ++ r.checks = [] ∧ s = .leaf (Schema.modified
        { description := r.description, nullable, checks := pre ++ r.checks }
        { type := some .string, enum := some texts }) := by
  have hall : (texts.map Value.str).filter (fun v => !v.isNull) = texts.map .str := by
    simp [List.filter_eq_self, Value.isNull]
  have htext : (texts.map Value.str).all Value.isText = true := by
    simp [Value.isText, Value.text?]
  unfold ofLiteral
  simp only [hall, lt_irrefl, decide_false]
  cases texts with
  | nil => exact absurd rfl ht
  | cons t ts =>
    cases ts with
    | nil => exact Schema.ofLiteral_str [t]
    | cons u us =>
      simp only [List.map_cons] at htext ⊢
      rw [if_pos htext]
      exact Schema.ofEnumeration_str ht

/-- Members other than null are read each for itself, without what is said around the union. -/
theorem readMembers_eq (members : List TypeExpr) :
    readMembers members = (members.filter fun m => !m.isNull).map (read none [] none) := by
  induction members with
  | nil => rfl
  | cons m ms ih =>
    rw [readMembers, ih]
    cases hm : m.isNull <;> simp [hm]

theorem readSole_eq {description discriminator : Option String} {members : List TypeExpr}
    {m : TypeExpr} (h : members.filter (fun m => !m.isNull) = [m]) :
    readSole description discriminator members = read description [] discriminator m :=
  TypeExpr.sole_eq (fun m ms => by rw [readSole]) h

/-- A union with one member besides null is read as that member, which takes over the description and
the discriminator. The checks stay with the union and are put before those of the member. -/
theorem read_sole {members : List TypeExpr} {m : TypeExpr}
    (hm : members.filter (fun m => !m.isNull) = [m]) (description : Option String)
    (metadata : List Meta) (discriminator : Option String) :
    let r := Reading.ofMetadata description discriminator metadata
    read description metadata discriminator (.union members) =
      (read r.description [] r.discriminator m).under r.checks (members.any TypeExpr.isNull) := by
  rw [read]
  simp only [hm, List.length_singleton, ↓reduceIte, readSole_eq hm, asSoleMember_eq]

/-- Any other union is read as a union of its members. Null is told by the head. -/
theorem read_variants {members : List TypeExpr}
    (hlen : (members.filter fun m => !m.isNull).length ≠ 1) (description : Option String)
    (metadata : List Meta) (discriminator : Option String) :
    let r := Reading.ofMetadata description discriminator metadata
    read description metadata discriminator (.union members) =
      .union { r.head with nullable := members.any TypeExpr.isNull }
        ((members.filter fun m => !m.isNull).map (read none [] none)) r.discriminator := by
  rw [read]
  simp only [hlen, ↓reduceIte, readMembers_eq]

/-- Fields are read under their wire names, in their order. -/
theorem readFields_eq (fields : List (Field × TypeExpr)) :
    readFields fields = fields.map fun f =>
      (f.1.wireName, asField f.1 (read f.1.description f.1.metadata f.1.discriminator f.2)) := by
  induction fields with
  | nil => rfl
  | cons f fields ih => rw [readFields, ih, List.map_cons]

/-- The fields that data may not leave out. -/
theorem required_readFields (fields : List (Field × TypeExpr)) :
    ((readFields fields).filter fun f => !f.2.head.isOptional).map (·.1) =
      (fields.filter fun f => !f.1.isOptional).map fun f => f.1.wireName := by
  rw [readFields_eq, List.filter_map, List.map_map]
  simp [Function.comp_def, asField]

end Node

namespace Reading

open Validator (restrictionsOf)

/-- The restrictions of metadata, groups taken apart. -/
def restrictions (ms : List Meta) : List Restriction := (Meta.flattenAll ms).flatMap restrictionsOf

/-- The restrictions of two layers are those of the inner one and then those of the outer one. -/
theorem restrictions_append (ms ns : List Meta) :
    restrictions (ms ++ ns) = restrictions ms ++ restrictions ns := by
  simp [restrictions, Validator.flattenAll_append]

theorem foldl_step_checks (ms : List Meta) (r : Reading) :
    (ms.foldl step r).checks = r.checks ++ (ms.flatMap restrictionsOf).flatMap Restriction.checks := by
  induction ms generalizing r with
  | nil => simp
  | cons m ms ih =>
    rw [List.foldl_cons, ih, List.flatMap_cons, List.flatMap_append, ← List.append_assoc]
    congr 1
    cases m <;> simp [step, restrictionsOf]

/-- The checks of a reading are those of the restrictions in its metadata, in their order. Descriptions
and discriminators say nothing about checks. -/
theorem checks_ofMetadata (description discriminator : Option String) (ms : List Meta) :
    (ofMetadata description discriminator ms).checks =
      (restrictions ms).flatMap Restriction.checks := by
  unfold ofMetadata restrictions
  rw [foldl_step_checks]
  rfl

end Reading

end TypeWire
