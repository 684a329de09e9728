import TypeWire.Validator.OfType
import Mathlib

/-!
# What validators take

`Validator.accepts` asks only whether a validator answers, and that can be said without its answer: a
union takes what one of its members takes (`Validator.accepts_union`), a list is taken item by item
(`Validator.accepts_list`), a record field by field (`Validator.accepts_record`).

The validator of a type is partial, so two things are said of a type: that it has a validator
(`TypeExpr.HasValidator`), and that it takes a piece of data (`TypeExpr.Takes`).
-/

namespace TypeWire

/-- A computation in steps succeeds if each step does. This is how most that follows takes apart what
the program computes. -/
theorem isOk_bind {ε α β : Type} {x : Except ε α} {f : α → Except ε β} {b : β} :
    x >>= f = .ok b ↔ ∃ a, x = .ok a ∧ f a = .ok b := by
  cases x <;> simp [bind, Except.bind]

theorem isOk_pure {ε α : Type} {a b : α} : (pure a : Except ε α) = .ok b ↔ b = a := by
  constructor
  · intro h; cases h; rfl
  · rintro rfl; rfl

theorem isOk_throw {ε α : Type} {e : ε} {a : α} : (throw e : Except ε α) ≠ .ok a := by
  simp [throw, throwThe, MonadExceptOf.throw]

theorem isOk_map {ε α β : Type} {x : Except ε α} {f : α → β} {b : β} :
    x.map f = .ok b ↔ ∃ a, x = .ok a ∧ f a = b := by
  cases x <;> simp [Except.map]

namespace Validator

attribute [local simp] run runMembers runFields gather Meta.flattenAll ofType

/-- Data is accepted if the validator has an answer, whatever it is. -/
theorem accepts_eq_true {validator : Validator} {v : Value} :
    validator.accepts v = true ↔ ∃ a, validator.run v = .ok a := by
  unfold accepts
  cases validator.run v <;> simp [Except.isOk, Except.toBool]

theorem ofScalar_isOk {α : Type} {result : Except Fault (α × Match)} {value : α → Value} :
    (∃ a, ofScalar result value = .ok a) ↔ ∃ x q, result = .ok (x, q) := by
  cases result with
  | ok r => obtain ⟨x, q⟩ := r; simp [ofScalar]
  | error e => simp [ofScalar]

/-! ## Unions -/

/-- A fold that leaves no value out keeps the first one or a later one. -/
theorem foldl_isSome {α β : Type} {f : Option β → α → Option β} (hf : ∀ b a, (f b a).isSome) :
    ∀ (l : List α) (b : Option β), b.isSome → (l.foldl f b).isSome := by
  intro l
  induction l with
  | nil => intro b hb; exact hb
  | cons a l ih => intro b _; exact ih (f b a) (hf b a)

/-- Of several answers one is the best. -/
theorem best_isSome {answers : List Accepted} (h : answers ≠ []) :
    (Accepted.best answers).isSome := by
  unfold Accepted.best
  split
  · rfl
  · obtain ⟨a, rest, rfl⟩ := List.exists_cons_of_ne_nil h
    rw [List.foldl_cons]
    refine foldl_isSome (fun b a => ?_) rest _ rfl
    cases b with
    | none => rfl
    | some b => dsimp only; split <;> rfl

/-- No answers come from a union if none of its members accepts the data. -/
theorem runMembers_eq_nil {members : List Validator} {v : Value} :
    runMembers members v = [] ↔ ∀ m ∈ members, m.accepts v = false := by
  induction members with
  | nil => simp
  | cons m ms ih =>
    unfold runMembers
    cases h : m.run v with
    | ok a => simp [accepts, h, Except.isOk, Except.toBool]
    | error e => simp [accepts, h, Except.isOk, Except.toBool, ih]

/-- A union takes what one of its members takes, whichever of them answers. -/
theorem accepts_union {members : List Validator} {v : Value} :
    (union members).accepts v = true ↔ ∃ m ∈ members, m.accepts v = true := by
  rw [accepts_eq_true]
  unfold run
  by_cases hm : runMembers members v = []
  · rw [hm]
    simp only [Accepted.best, List.find?_nil, List.foldl_nil, reduceCtorEq, exists_false, false_iff]
    rintro ⟨m, hmem, h⟩
    rw [runMembers_eq_nil.1 hm m hmem] at h
    cases h
  · obtain ⟨a, ha⟩ := Option.isSome_iff_exists.1 (best_isSome hm)
    rw [ha]
    simp only [Except.ok.injEq, exists_eq', true_iff]
    rw [runMembers_eq_nil] at hm
    push Not at hm
    simpa using hm

@[simp] theorem accepts_nullable {inner : Validator} {v : Value} :
    (nullable inner).accepts v = (v.isNull || inner.accepts v) := by
  unfold accepts
  rw [run]
  cases v.isNull <;> simp [Except.isOk, Except.toBool]

@[simp] theorem accepts_null {v : Value} : null.accepts v = v.isNull := by
  unfold accepts
  rw [run]
  cases v.isNull <;> simp [Except.isOk, Except.toBool]

/-! ## Lists -/

/-- The answers for a list are gathered if there is one for each item. -/
theorem gather_isOk (item : Value → Except (List Issue) Accepted) (vs : List Value) (i : Nat) :
    (∃ parts, gather i (vs.map item) = .ok parts) ↔ ∀ v ∈ vs, ∃ a, item v = .ok a := by
  induction vs generalizing i with
  | nil => simp
  | cons v vs ih =>
    have ih := ih (i + 1)
    simp only [List.map_cons, gather, List.forall_mem_cons]
    cases hv : item v with
    | error e => simp
    | ok a =>
      cases hg : gather (i + 1) (vs.map item) with
      | error e => rw [hg] at ih; simpa using ih
      | ok parts => rw [hg] at ih; simpa using ih

/-- A list is accepted if the data is one, its length is in range, and each item is accepted. In which
form the items come is up to `itemsOf?`. -/
theorem accepts_list {item : Validator} {shortest longest : Option Nat} {v : Value} :
    (list item shortest longest).accepts v = true ↔
      ∃ q vs, itemsOf? v = some (q, vs) ∧ (∀ k ∈ shortest, k ≤ vs.length) ∧
        (∀ k ∈ longest, vs.length ≤ k) ∧ ∀ x ∈ vs, item.accepts x = true := by
  rw [accepts_eq_true]
  unfold run checkList
  cases hi : itemsOf? v with
  | none => simp
  | some p =>
    obtain ⟨q, vs⟩ := p
    have hg := gather_isOk item.run vs 0
    have hlong : longest.any (· < vs.length) = false ↔ ∀ k ∈ longest, vs.length ≤ k := by
      cases longest <;> simp
    have hshort : shortest.any (vs.length < ·) = false ↔ ∀ k ∈ shortest, k ≤ vs.length := by
      cases shortest <;> simp
    simp only [accepts_eq_true, ← hg, ← hlong, ← hshort, Option.some.injEq, Prod.mk.injEq,
      ↓existsAndEq, and_true, true_and]
    cases longest.any (· < vs.length) <;> cases gather 0 (vs.map item.run) <;>
      cases shortest.any (vs.length < ·) <;> simp

/-! ## Records -/

/-- A record is taken if the data is a dictionary with a value that is taken for each field, or none
where the field has a default. Other entries are not looked at. -/
theorem accepts_record {name : String} {fields : List (FieldRule × Validator)} {v : Value} :
    (record name fields).accepts v = true ↔
      ∃ entries, v = .dict entries ∧ ∀ p ∈ fields,
        (∀ x ∈ Value.lookup p.1.key entries, p.2.accepts x = true) ∧
          (Value.lookup p.1.key entries = none → p.1.default.isSome) := by
  rw [accepts_eq_true]
  cases v with
  | dict entries =>
    simp only [run, Value.dict.injEq, exists_eq_left']
    have key : (∃ as, runFields fields entries = .ok as) ↔ ∀ p ∈ fields,
        (∀ x ∈ Value.lookup p.1.key entries, p.2.accepts x = true) ∧
          (Value.lookup p.1.key entries = none → p.1.default.isSome) := by
      induction fields with
      | nil => simp
      | cons p rest ih =>
        obtain ⟨rule, validator⟩ := p
        rw [List.forall_mem_cons, ← ih, runFields]
        cases hl : Value.lookup rule.key entries with
        | none =>
          cases rule.default <;> cases runFields rest entries <;> simp
        | some x =>
          cases hr : validator.run x <;> cases runFields rest entries <;>
            simp [accepts, hr, Except.isOk, Except.toBool, Except.map]
    rw [← key]
    cases runFields fields entries <;> simp [Except.map]
  | _ => simp

/-! ## Restrictions -/

theorem flattenAll_append (ms ns : List Meta) :
    Meta.flattenAll (ms ++ ns) = Meta.flattenAll ms ++ Meta.flattenAll ns := by
  induction ms with
  | nil => rfl
  | cons m ms ih => simp [ih]

@[simp] theorem restrictAll_nil (v : Validator) : restrictAll [] v = .ok v := rfl

/-- Metadata restricts from the inside out. -/
theorem restrictAll_append (ms ns : List Meta) (v : Validator) :
    restrictAll (ms ++ ns) v = restrictAll ms v >>= restrictAll ns := by
  simp only [restrictAll, flattenAll_append, List.flatMap_append, List.foldlM_append]
  rfl

theorem ofType_annotated (base : TypeExpr) (ms : List Meta) :
    ofType (.annotated base ms) = ofType base >>= restrictAll ms := by
  simp

/-- A layer of metadata restricts what the type takes, also where it is merged with one that the type
has. -/
theorem ofType_annotate (t : TypeExpr) (ms : List Meta) :
    ofType (t.annotate ms) = ofType t >>= restrictAll ms := by
  unfold TypeExpr.annotate
  split
  · cases ofType t <;> rfl
  · rename_i base inner _
    rw [ofType_annotated, ofType_annotated]
    cases ofType base with
    | error e => rfl
    | ok v => exact restrictAll_append inner _ v
  · exact ofType_annotated t ms

end Validator

namespace TypeExpr

open Validator

attribute [local simp] ofType ofMembers

/-- The type has a validator. -/
def HasValidator (t : TypeExpr) : Prop := ∃ v, ofType t = .ok v

/-- The type has a validator, and this takes the data. -/
def Takes (t : TypeExpr) (x : Value) : Prop := ∃ v, ofType t = .ok v ∧ v.accepts x = true

theorem takes_iff {t : TypeExpr} {v : Validator} (h : ofType t = .ok v) {x : Value} :
    t.Takes x ↔ v.accepts x = true := by
  simp [Takes, h]

theorem Takes.hasValidator {t : TypeExpr} {x : Value} (h : t.Takes x) : t.HasValidator := by
  obtain ⟨v, hv, -⟩ := h
  exact ⟨v, hv⟩

/-- Both types have a validator or none, and they take the same data. -/
def Alike (a b : TypeExpr) : Prop :=
  (a.HasValidator ↔ b.HasValidator) ∧ ∀ x, a.Takes x ↔ b.Takes x

theorem Alike.refl (a : TypeExpr) : Alike a a := ⟨.rfl, fun _ => .rfl⟩

theorem Alike.symm {a b : TypeExpr} (h : Alike a b) : Alike b a :=
  ⟨h.1.symm, fun x => (h.2 x).symm⟩

theorem Alike.trans {a b c : TypeExpr} (h : Alike a b) (h' : Alike b c) : Alike a c :=
  ⟨h.1.trans h'.1, fun x => (h.2 x).trans (h'.2 x)⟩

/-- Only types that have validators take data, so only these have to be compared. -/
theorem alike_of {a b : TypeExpr} (hv : a.HasValidator ↔ b.HasValidator)
    (ht : a.HasValidator → b.HasValidator → ∀ x, a.Takes x ↔ b.Takes x) : Alike a b := by
  refine ⟨hv, fun x => ⟨fun hx => ?_, fun hx => ?_⟩⟩
  · exact (ht hx.hasValidator (hv.1 hx.hasValidator) x).1 hx
  · exact (ht (hv.2 hx.hasValidator) hx.hasValidator x).2 hx

/-- Types with the same validators are alike. -/
theorem alike_of_ofType {a b : TypeExpr} (h : ∀ v, ofType a = .ok v ↔ ofType b = .ok v) :
    Alike a b := by
  simp only [Alike, HasValidator, Takes, h, implies_true, and_self]

theorem takes_null {x : Value} : TypeExpr.null.Takes x ↔ x.isNull = true := by
  rw [takes_iff (v := .null) (by simp), accepts_null]

theorem hasValidator_list {form : ListForm} {item : TypeExpr} :
    (TypeExpr.list form item).HasValidator ↔ item.HasValidator := by
  unfold HasValidator
  rw [ofType]
  constructor
  · rintro ⟨v, h⟩
    obtain ⟨w, hw, -⟩ := isOk_bind.1 h
    exact ⟨w, hw⟩
  · rintro ⟨w, hw⟩
    exact ⟨_, isOk_bind.2 ⟨w, hw, rfl⟩⟩

/-- A list needs a validator for its items even if there are none. -/
theorem takes_list {form : ListForm} {item : TypeExpr} {x : Value} :
    (TypeExpr.list form item).Takes x ↔ item.HasValidator ∧
      ∃ q vs, itemsOf? x = some (q, vs) ∧ ∀ v ∈ vs, item.Takes v := by
  unfold Takes
  rw [ofType]
  simp only [isOk_bind]
  constructor
  · rintro ⟨v, ⟨w, hw, hv⟩, hx⟩
    cases hv
    obtain ⟨q, vs, hvs, -, -, hall⟩ := accepts_list.1 hx
    exact ⟨⟨w, hw⟩, q, vs, hvs, fun v hv => ⟨w, hw, hall v hv⟩⟩
  · rintro ⟨⟨w, hw⟩, q, vs, hvs, hall⟩
    exact ⟨_, ⟨w, hw, rfl⟩, accepts_list.2 ⟨q, vs, hvs, by simp, by simp,
      fun v hv => (takes_iff hw).1 (hall v hv)⟩⟩

/-- Lists are alike exactly if their items are. -/
theorem alike_list {form : ListForm} {item item' : TypeExpr} :
    Alike (.list form item) (.list form item') ↔ Alike item item' := by
  constructor
  · rintro ⟨hv, ht⟩
    rw [hasValidator_list, hasValidator_list] at hv
    -- A list of one item is taken if that item is.
    refine alike_of hv fun ha hb x => ?_
    have hx := ht (.list [x])
    simpa [takes_list, ha, hb, itemsOf?] using hx
  · intro h
    refine ⟨?_, fun x => ?_⟩
    · rw [hasValidator_list, hasValidator_list, h.1]
    · simp only [takes_list, h.1, h.2]

theorem isNull_eq_true {t : TypeExpr} : t.isNull = true ↔ t = .null := by
  cases t <;> simp [isNull]

/-- The members of a union have validators, and null apart these take what the members take. -/
theorem ofMembers_ok {ms : List TypeExpr} {vs : List Validator} (h : ofMembers ms = .ok vs) :
    (∀ m ∈ ms, m.HasValidator) ∧ ∀ x, (∃ v ∈ vs, v.accepts x = true) ↔
      ∃ m ∈ ms, m.isNull = false ∧ m.Takes x := by
  induction ms generalizing vs with
  | nil =>
    rw [ofMembers] at h
    cases h
    simp
  | cons m ms ih =>
    rw [ofMembers] at h
    by_cases hm : m.isNull = true
    · rw [if_pos hm] at h
      obtain ⟨hv, ht⟩ := ih h
      refine ⟨List.forall_mem_cons.2 ⟨?_, hv⟩, fun x => ?_⟩
      · rw [isNull_eq_true.1 hm]
        exact ⟨.null, by simp⟩
      · rw [ht x]
        simp [hm]
    · rw [if_neg hm] at h
      obtain ⟨w, hw, h⟩ := isOk_bind.1 h
      obtain ⟨ws, hws, h⟩ := isOk_bind.1 h
      cases h
      obtain ⟨hv, ht⟩ := ih hws
      refine ⟨List.forall_mem_cons.2 ⟨⟨w, hw⟩, hv⟩, fun x => ?_⟩
      have := ht x
      simp_all [takes_iff hw]

theorem ofMembers_isOk {ms : List TypeExpr} (h : ∀ m ∈ ms, m.HasValidator) :
    ∃ vs, ofMembers ms = .ok vs := by
  induction ms with
  | nil => exact ⟨[], by simp⟩
  | cons m ms ih =>
    obtain ⟨⟨w, hw⟩, h⟩ := List.forall_mem_cons.1 h
    obtain ⟨ws, hws⟩ := ih h
    rw [ofMembers]
    split
    · exact ⟨ws, hws⟩
    · exact ⟨w :: ws, by rw [hw, hws]; rfl⟩

/-- A union has a validator if every member has one, null included. -/
theorem hasValidator_union {ms : List TypeExpr} :
    (TypeExpr.union ms).HasValidator ↔ ∀ m ∈ ms, m.HasValidator := by
  unfold HasValidator
  rw [ofType]
  constructor
  · rintro ⟨v, h⟩
    obtain ⟨vs, hvs, -⟩ := isOk_bind.1 h
    exact (ofMembers_ok hvs).1
  · intro h
    obtain ⟨vs, hvs⟩ := ofMembers_isOk h
    rw [hvs]
    exact ⟨_, rfl⟩

/-- A union takes what one of its members takes. Null, which is taken out of the members first, is put
back here. -/
theorem takes_union {ms : List TypeExpr} (h : ∀ m ∈ ms, m.HasValidator) {x : Value} :
    (TypeExpr.union ms).Takes x ↔ ∃ m ∈ ms, m.Takes x := by
  obtain ⟨vs, hvs⟩ := ofMembers_isOk h
  have hms := (ofMembers_ok hvs).2 x
  obtain ⟨w, hof, hacc⟩ : ∃ w, ofType (.union ms) =
      .ok (if ms.any TypeExpr.isNull then .nullable w else w) ∧
        (w.accepts x = true ↔ ∃ v ∈ vs, v.accepts x = true) := by
    rw [ofType, hvs]
    rcases vs with _ | ⟨v, _ | ⟨v', vs⟩⟩
    · exact ⟨_, rfl, accepts_union⟩
    · exact ⟨v, rfl, by simp⟩
    · exact ⟨_, rfl, accepts_union⟩
  rw [takes_iff hof]
  by_cases hn : ms.any TypeExpr.isNull = true
  · rw [if_pos hn, accepts_nullable, Bool.or_eq_true, hacc, hms]
    obtain ⟨m, hm, hmn⟩ := List.any_eq_true.1 hn
    obtain rfl := isNull_eq_true.1 hmn
    constructor
    · rintro (hx | ⟨m, hm, -, hmx⟩)
      · exact ⟨_, hm, takes_null.2 hx⟩
      · exact ⟨m, hm, hmx⟩
    · rintro ⟨m, hm, hmx⟩
      cases hb : m.isNull
      · exact .inr ⟨m, hm, hb, hmx⟩
      · rw [isNull_eq_true.1 hb] at hmx
        exact .inl (takes_null.1 hmx)
  · rw [if_neg hn, hacc, hms]
    constructor
    · rintro ⟨m, hm, -, hmx⟩
      exact ⟨m, hm, hmx⟩
    · rintro ⟨m, hm, hmx⟩
      refine ⟨m, hm, ?_, hmx⟩
      cases hb : m.isNull
      · rfl
      · exact absurd (List.any_eq_true.2 ⟨m, hm, hb⟩) hn

end TypeExpr

end TypeWire
