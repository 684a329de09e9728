import TypeWire.Proofs.Equality
import TypeWire.TypeExpr.OfSchema

/-!
# Normal forms keep what types take

Rebuilt types are put into normal form at once: unions are written flat and lose their repetitions,
null joins a union that is there, a description joins the metadata that is there. None of this
changes what the type takes:

* `TypeExpr.alike_unionOf`: a member that is dropped equals one that is kept, and equal regular types
  take the same data;
* `TypeExpr.Regular.takes_orNull`: null is added, and nothing else;
* `TypeExpr.ofType_described`: a description says nothing about data.

Each construction also leads from regular types to regular ones.
-/

namespace TypeWire

namespace TypeExpr

open Validator

/-! ## Unions without repetition -/

theorem mem_of_mem_distinctFrom {earlier ts : List TypeExpr} {t : TypeExpr}
    (h : t ∈ distinctFrom earlier ts) : t ∈ ts := by
  induction ts generalizing earlier with
  | nil => exact h
  | cons u us ih =>
    rw [distinctFrom] at h
    split at h
    · exact List.mem_cons_of_mem _ (ih h)
    · rcases List.mem_cons.1 h with rfl | h
      · exact List.mem_cons_self
      · exact List.mem_cons_of_mem _ (ih h)

/-- A type that is left out equals one that is kept. -/
theorem exists_kept (earlier : List TypeExpr) {ts : List TypeExpr} {t : TypeExpr} (h : t ∈ ts) :
    ∃ e ∈ earlier ++ distinctFrom earlier ts, t = e ∨ t.equals e = true := by
  induction ts generalizing earlier with
  | nil => cases h
  | cons u us ih =>
    rw [distinctFrom]
    by_cases hu : earlier.any (fun e => u.equals e) = true
    · rw [if_pos hu]
      rcases List.mem_cons.1 h with rfl | h
      · obtain ⟨e, he, heq⟩ := List.any_eq_true.1 hu
        exact ⟨e, List.mem_append_left _ he, .inr heq⟩
      · exact ih earlier h
    · rw [if_neg hu]
      rcases List.mem_cons.1 h with rfl | h
      · exact ⟨t, by simp, .inl rfl⟩
      · obtain ⟨e, he, heq⟩ := ih (earlier ++ [u]) h
        exact ⟨e, by simpa using he, heq⟩

/-- No type that is kept equals an earlier one. -/
theorem distinctFrom_apart (earlier ts : List TypeExpr) :
    (∀ t ∈ distinctFrom earlier ts, ∀ e ∈ earlier, t.equals e = false) ∧
      (distinctFrom earlier ts).Pairwise (fun a b => b.equals a = false) := by
  induction ts generalizing earlier with
  | nil => simp [distinctFrom]
  | cons u us ih =>
    rw [distinctFrom]
    by_cases hu : earlier.any (fun e => u.equals e) = true
    · rw [if_pos hu]
      exact ih earlier
    · rw [if_neg hu]
      obtain ⟨hearlier, hpairs⟩ := ih (earlier ++ [u])
      refine ⟨List.forall_mem_cons.2 ⟨by simpa using hu, fun t ht e he => ?_⟩,
        List.pairwise_cons.2 ⟨fun t ht => ?_, hpairs⟩⟩
      · exact hearlier t ht e (List.mem_append_left _ he)
      · exact hearlier t ht u (by simp)

theorem distinctFrom_eq_self {earlier ts : List TypeExpr}
    (h : ∀ t ∈ ts, ∀ e ∈ earlier, t.equals e = false)
    (hts : ts.Pairwise (fun a b => b.equals a = false)) : distinctFrom earlier ts = ts := by
  induction ts generalizing earlier with
  | nil => rfl
  | cons u us ih =>
    obtain ⟨hu, hus⟩ := List.pairwise_cons.1 hts
    rw [distinctFrom, if_neg (by simpa using h u List.mem_cons_self),
      ih (fun t ht e he => ?_) hus]
    rcases List.mem_append.1 he with he | he
    · exact h t (List.mem_cons_of_mem _ ht) e he
    · obtain rfl := List.mem_singleton.1 he
      exact hu t ht

theorem Regular.members {t : TypeExpr} (ht : Regular t) : ∀ m ∈ t.members, Regular m := by
  cases ht with
  | union _ hreg => exact hreg
  | _ => rintro m (_ | ⟨_, ⟨⟩⟩); constructor <;> assumption

theorem regular_flatMap_members {ts : List TypeExpr} (hts : ∀ t ∈ ts, Regular t) :
    ∀ m ∈ ts.flatMap TypeExpr.members, Regular m := by
  intro m hm
  obtain ⟨t, ht, hm⟩ := List.mem_flatMap.1 hm
  exact (hts t ht).members m hm

theorem unionOf_cases (ts : List TypeExpr) :
    (∃ t, distinct (ts.flatMap members) = [t] ∧ unionOf ts = t) ∨
      unionOf ts = .union (distinct (ts.flatMap members)) := by
  unfold unionOf
  split
  · rename_i t h
    exact .inl ⟨t, h, rfl⟩
  · exact .inr rfl

theorem Regular.unionOf {ts : List TypeExpr} (hts : ∀ t ∈ ts, Regular t) :
    Regular (unionOf ts) := by
  have hms : ∀ m ∈ distinct (ts.flatMap TypeExpr.members), Regular m := fun m hm =>
    regular_flatMap_members hts m (mem_of_mem_distinctFrom hm)
  rcases unionOf_cases ts with ⟨t, ht, h⟩ | h
  · rw [h]
    exact hms t (by simp [ht])
  · rw [h]
    exact .union (distinctFrom_apart [] _).2 hms

theorem alike_union_singleton (t : TypeExpr) : Alike t (.union [t]) := by
  refine alike_of ?_ fun _ hb x => ?_
  · simp [hasValidator_union]
  · rw [takes_union (hasValidator_union.1 hb)]
    simp

theorem alike_union_members (t : TypeExpr) : Alike (.union t.members) t := by
  cases t with
  | union => exact .refl _
  | _ => exact (alike_union_singleton _).symm

theorem alike_union_flatMap (ts : List TypeExpr) :
    Alike (.union (ts.flatMap members)) (.union ts) := by
  have hm (t : TypeExpr) := alike_union_members t
  refine alike_of ?_ fun ha hb x => ?_
  · simp only [hasValidator_union, List.forall_mem_flatMap]
    exact forall₂_congr fun t _ => hasValidator_union.symm.trans (hm t).1
  · have hall := hasValidator_union.1 hb
    rw [takes_union (hasValidator_union.1 ha), takes_union hall]
    have hx (t : TypeExpr) (ht : t ∈ ts) : (∃ m ∈ t.members, m.Takes x) ↔ t.Takes x := by
      have hms := hasValidator_union.1 ((hm t).1.2 (hall t ht))
      rw [← (hm t).2 x, takes_union hms]
    constructor
    · rintro ⟨m, hmem, hmx⟩
      obtain ⟨t, ht, hmt⟩ := List.mem_flatMap.1 hmem
      exact ⟨t, ht, (hx t ht).1 ⟨m, hmt, hmx⟩⟩
    · rintro ⟨t, ht, htx⟩
      obtain ⟨m, hmt, hmx⟩ := (hx t ht).2 htx
      exact ⟨m, List.mem_flatMap.2 ⟨t, ht, hmt⟩, hmx⟩

theorem alike_union_distinct {ts : List TypeExpr} (hts : ∀ t ∈ ts, Regular t) :
    Alike (.union (distinct ts)) (.union ts) := by
  refine alike_union (fun a ha => ⟨a, mem_of_mem_distinctFrom ha, .refl a⟩) fun b hb => ?_
  obtain ⟨e, he, hbe⟩ := exists_kept [] hb
  refine ⟨e, he, ?_⟩
  rcases hbe with rfl | hbe
  · exact .refl _
  · exact ((hts b hb).alike_of_equals e (hts e (mem_of_mem_distinctFrom he)) hbe).symm

/-- Writing a union flat and without repetition changes nothing of what it takes. -/
theorem alike_unionOf {ts : List TypeExpr} (hts : ∀ t ∈ ts, Regular t) :
    Alike (unionOf ts) (.union ts) := by
  have h := (alike_union_distinct (regular_flatMap_members hts)).trans (alike_union_flatMap ts)
  rcases unionOf_cases ts with ⟨t, ht, hu⟩ | hu
  · rw [ht] at h
    rw [hu]
    exact (alike_union_singleton t).trans h
  · rw [hu]
    exact h

theorem Regular.optionalOf {t : TypeExpr} (ht : Regular t) : Regular (optionalOf t) :=
  .unionOf (List.forall_mem_cons.2 ⟨ht, by simp [Regular.null]⟩)

theorem hasValidator_null : TypeExpr.null.HasValidator := ⟨.null, by rw [ofType]⟩

/-- An optional type takes null, and what the type takes. -/
theorem Regular.takes_optionalOf {t : TypeExpr} (ht : Regular t) :
    ((TypeExpr.optionalOf t).HasValidator ↔ t.HasValidator) ∧
      ∀ x, t.HasValidator → ((TypeExpr.optionalOf t).Takes x ↔ x.isNull = true ∨ t.Takes x) := by
  have hregular : ∀ u ∈ [t, .null], Regular u :=
    List.forall_mem_cons.2 ⟨ht, by simp [Regular.null]⟩
  obtain ⟨hv, htakes⟩ := alike_unionOf hregular
  refine ⟨by simp [TypeExpr.optionalOf, hv, hasValidator_union, hasValidator_null], fun x h => ?_⟩
  rw [TypeExpr.optionalOf, htakes, takes_union (by simp [h, hasValidator_null])]
  simp [takes_null, or_comm]

/-- The type with null, if the schema says so. -/
def orNull (nullable : Option Bool) (t : TypeExpr) : TypeExpr :=
  if nullable = some true then optionalOf t else t

theorem allowNull_anew (nullable : Option Bool) (t : TypeExpr) :
    allowNull anew nullable t = .ok (t.orNull nullable) := by
  unfold allowNull orNull
  split <;> rfl

/-- The type with null, if the schema says so, takes null if the schema says so. -/
theorem Regular.takes_orNull {t : TypeExpr} (ht : Regular t) (nullable : Option Bool) :
    ((t.orNull nullable).HasValidator ↔ t.HasValidator) ∧
      ∀ x, t.HasValidator → ((t.orNull nullable).Takes x ↔
        nullable = some true ∧ x.isNull = true ∨ t.Takes x) := by
  unfold orNull
  by_cases hn : nullable = some true
  · rw [if_pos hn]
    simpa [hn] using ht.takes_optionalOf
  · rw [if_neg hn]
    simp [hn]

theorem Regular.orNull {t : TypeExpr} (ht : Regular t) (nullable : Option Bool) :
    Regular (t.orNull nullable) := by
  unfold TypeExpr.orNull
  split
  · exact ht.optionalOf
  · exact ht

/-! ## Descriptions -/

/-- The type with a description, unless that is empty, behind other metadata. -/
def described (t : TypeExpr) (description : Option String) (metadata : List Meta) : TypeExpr :=
  t.annotate (withDescription metadata description)

theorem describe_anew (t : TypeExpr) (description : Option String) (metadata : List Meta) :
    describe anew t description metadata = .ok (t.described description metadata) := by
  unfold describe described
  cases withDescription metadata description <;> rfl

theorem modify_anew (f : Facets) (t : TypeExpr) (restrictions : List Meta) :
    modify anew f t restrictions = .ok ((t.described f.description restrictions).orNull f.nullable) := by
  rw [modify, describe_anew]
  exact allowNull_anew _ _

/-- The type without its layer of metadata. -/
def core : TypeExpr → TypeExpr
  | .annotated base _ => base
  | t => t

/-- The metadata of a type. -/
def metadata : TypeExpr → List Meta
  | .annotated _ ms => ms
  | _ => []

theorem annotate_cons (t : TypeExpr) (m : Meta) (ms : List Meta) :
    t.annotate (m :: ms) = .annotated t.core (t.metadata ++ m :: ms) := by
  cases t <;> rfl

theorem annotate_plain {t : TypeExpr} (ht : t.isAnnotated = false) {m : Meta} {ms : List Meta} :
    t.annotate (m :: ms) = .annotated t (m :: ms) := by
  cases t <;> first | rfl | cases ht

theorem ofType_core (t : TypeExpr) : ofType t = ofType t.core >>= restrictAll t.metadata := by
  cases t with
  | annotated base ms => exact ofType_annotated base ms
  | _ => exact (bind_pure _).symm

/-- A regular type has plain metadata around a regular type that has none. -/
theorem Regular.core {t : TypeExpr} (ht : Regular t) :
    Regular t.core ∧ t.core.isAnnotated = false ∧ ∀ m ∈ t.metadata, Plain m := by
  have hplain {α : Type} {o : Option α} {g : α → Restriction} :
      ∀ m ∈ (o.map fun a => Meta.restriction (g a)).toList, Plain m := by
    cases o with
    | none => simp
    | some a => simpa using .restriction _
  cases ht with
  | bounded lo hi => exact ⟨.scalar _, rfl, List.forall_mem_append.2 ⟨hplain, hplain⟩⟩
  | sized form lo hi hi' => exact ⟨.list form hi', rfl, List.forall_mem_append.2 ⟨hplain, hplain⟩⟩
  | described hb hn hp _ => exact ⟨hb, hn, hp⟩
  | scalar s => exact ⟨.scalar s, rfl, by simp [metadata]⟩
  | null => exact ⟨.null, rfl, by simp [metadata]⟩
  | literal texts => exact ⟨.literal texts, rfl, by simp [metadata]⟩
  | list form hi => exact ⟨.list form hi, rfl, by simp [metadata]⟩
  | union hpw hms => exact ⟨.union hpw hms, rfl, by simp [metadata]⟩
  | record name doc hf => exact ⟨.record name doc hf, rfl, by simp [metadata]⟩

/-- A description makes a type equal to no other. -/
theorem Regular.describe {t : TypeExpr} (ht : Regular t) {d : String} (hd : d ≠ "") :
    Regular (t.annotate [.field { description := some (some d) }]) := by
  obtain ⟨hb, hn, hp⟩ := ht.core
  rw [annotate_cons]
  refine .described hb hn (List.forall_mem_append.2 ⟨hp, ?_⟩)
    (List.mem_append_right _ (List.mem_singleton_self _))
  rw [List.forall_mem_singleton]
  exact .description hd

theorem described_cases (t : TypeExpr) (description : Option String) (ms : List Meta) :
    t.described description ms = t.annotate ms ∨
      ∃ d, d ≠ "" ∧ description = some d ∧
        t.described description ms = t.annotate (ms ++ [.field { description := some (some d) }]) := by
  unfold described withDescription
  cases description with
  | none => exact .inl rfl
  | some d =>
    by_cases hd : d = ""
    · subst hd
      exact .inl rfl
    · exact .inr ⟨d, hd, rfl, by simp [nonEmpty, Option.filter, hd]⟩

theorem ofType_described (t : TypeExpr) (description : Option String) (ms : List Meta) :
    ofType (t.described description ms) = ofType t >>= restrictAll ms := by
  rcases described_cases t description ms with h | ⟨d, -, -, h⟩
  · rw [h, ofType_annotate]
  · rw [h, ofType_annotate]
    congr 1
    funext v
    rw [restrictAll_append]
    exact bind_pure _

theorem alike_described (t : TypeExpr) (description : Option String) (ms : List Meta) :
    Alike (t.described description ms) (.annotated t ms) := by
  refine alike_of_ofType fun v => ?_
  rw [ofType_described, ofType_annotated]

theorem alike_annotated_nil (t : TypeExpr) : Alike (.annotated t []) t := by
  refine alike_of_ofType fun v => ?_
  rw [ofType_annotated]
  exact iff_of_eq (congrArg (· = _) (bind_pure _))

theorem regular_described {t : TypeExpr} (ht : Regular t) (description : Option String) :
    Regular (t.described description []) := by
  rcases described_cases t description [] with h | ⟨d, hd, -, h⟩
  · rw [h]
    exact ht
  · rw [h]
    exact ht.describe hd

theorem regular_restricted {t : TypeExpr} {ms : List Meta} (h : Regular (.annotated t ms))
    (description : Option String) : Regular (t.described description ms) := by
  obtain ⟨ht, hn, -⟩ := h.core
  cases ms with
  | nil => exact regular_described ht description
  | cons m ms =>
    have hannotate : t.annotate (m :: ms) = .annotated t (m :: ms) := annotate_plain hn
    rcases described_cases t description (m :: ms) with heq | ⟨d, hd, -, heq⟩
    · rw [heq, hannotate]
      exact h
    · have happend : t.annotate (m :: ms ++ [.field { description := some (some d) }]) =
          (TypeExpr.annotated t (m :: ms)).annotate [.field { description := some (some d) }] :=
        annotate_plain hn
      rw [heq, happend]
      exact h.describe hd

end TypeExpr

end TypeWire
