import TypeWire.Proofs.Acceptance
import TypeWire.Proofs.ExactValue
import TypeWire.TypeExpr.OfSchema

/-!
# Bounds and lengths

A schema restricts numbers by bounds (`TypeExpr.bounds`) and lists by lengths (`TypeExpr.lengths`).
Both are written as metadata, and a validator takes them over one by one:

* `Validator.restrictAll_bounds_int`: a bound of whole numbers has to be one within 64 bits;
* `Validator.restrictAll_bounds_float`: a bound of doubles can be any double;
* `Validator.restrictAll_lengths`: a length has to be a natural number of 64 bits.

What the types then take is said in terms of the bounds of the schema: whole numbers are compared
with doubles exactly (`TypeExpr.takes_bounded_int`), doubles as doubles
(`TypeExpr.takes_bounded_float`), and lengths as whole numbers (`TypeExpr.takes_sized`).
-/

namespace TypeWire

theorem option_rel_none {α β : Type} {r : α → β → Prop} {b : Option β} :
    Option.Rel r none b ↔ b = none := by
  constructor
  · rintro ⟨⟩; rfl
  · rintro rfl; exact .none

theorem option_rel_some {α β : Type} {r : α → β → Prop} {a : α} {b : Option β} :
    Option.Rel r (some a) b ↔ ∃ c, b = some c ∧ r a c := by
  constructor
  · rintro (h | _); exact ⟨_, rfl, h⟩
  · rintro ⟨c, rfl, h⟩; exact .some h

theorem option_rel_imp {α β : Type} {r r' : α → β → Prop} (hr : ∀ a b, r a b → r' a b)
    {a : Option α} {b : Option β} (h : Option.Rel r a b) : Option.Rel r' a b := by
  cases h with
  | none => exact .none
  | some h => exact .some (hr _ _ h)

theorem option_rel_symm {α : Type} {r : α → α → Prop} (hr : ∀ a b, r a b → r b a) {a b : Option α}
    (h : Option.Rel r a b) : Option.Rel r b a := by
  cases h with
  | none => exact .none
  | some h => exact .some (hr _ _ h)

theorem option_rel_trans {α : Type} {r : α → α → Prop} (hr : ∀ a b c, r a b → r b c → r a c)
    {a b c : Option α} (h : Option.Rel r a b) (h' : Option.Rel r b c) : Option.Rel r a c := by
  cases h with
  | none => exact h'
  | some h => cases h' with | some h' => exact .some (hr _ _ _ h h')

namespace Validator

open TypeExpr (bounds lengths)

/-! ## Validators under bounds and lengths -/

/-- A double that bounds whole numbers is one itself, within 64 bits. -/
def WholeBound (x : Float) (n : Int) : Prop := Coercion.intOfFloat x = .ok n

/-- A length that bounds lists is not negative, and has at most 64 bits. -/
def LengthBound (n : Int) (k : Nat) : Prop := n = k ∧ k < 2 ^ 64

theorem intBound_float {x : Float} {n : Int} : intBound (.float x) = .ok n ↔ WholeBound x n := by
  unfold WholeBound
  cases h : Coercion.intOfFloat x <;> simp [intBound, Coercion.int, h, Except.map]

theorem lengthBound_int {n : Int} {k : Nat} : lengthBound (.int n) = .ok k ↔ LengthBound n k := by
  unfold lengthBound Coercion.int LengthBound
  simp only
  split
  · simp only [Except.ok.injEq]
    omega
  · simp only [reduceCtorEq, false_iff]
    omega

theorem restrictAll_restriction (r : Restriction) (rest : List Meta) (v : Validator) :
    restrictAll (.restriction r :: rest) v = restrict r v >>= restrictAll rest := by
  rfl

/-- Bounds of whole numbers are whole numbers. -/
theorem restrictAll_bounds_int {lo hi : Option Float} {v : Validator} :
    restrictAll (bounds lo hi) (.int none none) = .ok v ↔
      ∃ l g, Option.Rel WholeBound lo l ∧ Option.Rel WholeBound hi g ∧ .int l g = v := by
  cases lo <;> cases hi <;>
    simp [bounds, restrictAll_restriction, restrict, isOk_bind, isOk_map, intBound_float,
      option_rel_none, option_rel_some]

theorem restrictAll_bounds_float (lo hi : Option Float) :
    restrictAll (bounds lo hi) (.float none none) = .ok (.float lo hi) := by
  cases lo <;> cases hi <;> rfl

/-- The lengths of lists are natural numbers of 64 bits. -/
theorem restrictAll_lengths {lo hi : Option Int} {item v : Validator} :
    restrictAll (lengths lo hi) (.list item none none) = .ok v ↔
      ∃ l g, Option.Rel LengthBound lo l ∧ Option.Rel LengthBound hi g ∧ .list item l g = v := by
  cases lo <;> cases hi <;>
    simp [lengths, restrictAll_restriction, restrict, isOk_bind, isOk_map, lengthBound_int,
      option_rel_none, option_rel_some]

/-! ## What validators of scalars take -/

theorem accepts_text {v : Value} :
    text.accepts v = true ↔ ∃ s q, Coercion.text v = .ok (s, q) := by
  rw [accepts_eq_true, run, ofScalar_isOk]

theorem accepts_datetime {v : Value} :
    datetime.accepts v = true ↔ ∃ t q, Coercion.datetime v = .ok (t, q) := by
  rw [accepts_eq_true, run, ofScalar_isOk]

theorem accepts_bool {v : Value} :
    bool.accepts v = true ↔ ∃ b q, Coercion.bool v = .ok (b, q) := by
  rw [accepts_eq_true, run, ofScalar_isOk]

theorem checkInt_isOk {least greatest : Option Int} {n : Int} :
    checkInt least greatest n = .ok () ↔ (∀ b ∈ least, b ≤ n) ∧ ∀ b ∈ greatest, n ≤ b := by
  unfold checkInt
  cases least <;> cases greatest <;> simp
  grind

theorem checkFloat_isOk {least greatest : Option Float} {x : Float} :
    checkFloat least greatest x = .ok () ↔ (∀ b ∈ least, b ≤ x) ∧ ∀ b ∈ greatest, x ≤ b := by
  unfold checkFloat
  cases least <;> cases greatest <;> simp
  grind

theorem accepts_int {least greatest : Option Int} {v : Value} :
    (int least greatest).accepts v = true ↔ ∃ n q, Coercion.int v = .ok (n, q) ∧
      (∀ b ∈ least, b ≤ n) ∧ ∀ b ∈ greatest, n ≤ b := by
  rw [accepts_eq_true, run, ofScalar_isOk]
  simp only [boundedInt, isOk_bind, ← checkInt_isOk]
  constructor
  · rintro ⟨_, _, ⟨n, q⟩, h, _, hc, -⟩
    exact ⟨n, q, h, hc⟩
  · rintro ⟨n, q, h, hc⟩
    exact ⟨n, q, (n, q), h, (), hc, rfl⟩

/-- A double is taken if it lies within the bounds, as doubles are compared. -/
theorem accepts_float {least greatest : Option Float} {v : Value} :
    (float least greatest).accepts v = true ↔ ∃ x q, Coercion.float v = .ok (x, q) ∧
      (∀ b ∈ least, b ≤ x) ∧ ∀ b ∈ greatest, x ≤ b := by
  rw [accepts_eq_true, run, ofScalar_isOk]
  simp only [boundedFloat, isOk_bind, ← checkFloat_isOk]
  constructor
  · rintro ⟨_, _, ⟨x, q⟩, h, _, hc, -⟩
    exact ⟨x, q, h, hc⟩
  · rintro ⟨x, q, h, hc⟩
    exact ⟨x, q, (x, q), h, (), hc, rfl⟩

theorem accepts_literal {texts : List String} {v : Value} :
    (literal texts).accepts v = true ↔ ∃ s ∈ texts, v = .str s := by
  rw [accepts_eq_true, run, ofScalar_isOk]
  cases v with
  | str s => by_cases hs : s ∈ texts <;> simp [oneOf, hs]
  | _ => simp [oneOf]

end Validator

/-! ## Numbers and lists under restrictions -/

namespace Numeric.Binary64

/-- Whether a double is at most a number, compared exactly. What is no number is not. -/
def AtMost : Binary64 → ℚ → Prop
  | finite b, q => b.value ≤ q
  | infinite negative, _ => negative = true
  | nan, _ => False

/-- Whether a double is at least a number, compared exactly. -/
def AtLeast : Binary64 → ℚ → Prop
  | finite b, q => q ≤ b.value
  | infinite negative, _ => negative = false
  | nan, _ => False

end Numeric.Binary64

namespace Validator

open Numeric (Binary64)

/-- The exact comparison with a bound of whole numbers is that with the double it came from. -/
theorem WholeBound.compare {x : Float} {m : Int} (h : WholeBound x m) (n : Int) :
    ((Binary64.ofFloat x).AtMost n ↔ m ≤ n) ∧ ((Binary64.ofFloat x).AtLeast n ↔ n ≤ m) := by
  obtain ⟨b, hb, hv⟩ := Numeric.value_of_intOfFloat h
  rw [hb, Binary64.AtMost, Binary64.AtLeast, hv]
  exact ⟨Int.cast_le, Int.cast_le⟩

end Validator

namespace TypeExpr

open Validator Numeric

theorem hasValidator_bounded_int {lo hi : Option Float} :
    (TypeExpr.annotated (.scalar .int) (bounds lo hi)).HasValidator ↔
      (∃ l, Option.Rel WholeBound lo l) ∧ ∃ g, Option.Rel WholeBound hi g := by
  unfold HasValidator
  rw [ofType_annotated, ofType]
  simp only [isOk_bind, Except.ok.injEq, exists_eq_left', restrictAll_bounds_int]
  grind

theorem takes_bounded_int {lo hi : Option Float} {x : Value}
    (h : (TypeExpr.annotated (.scalar .int) (bounds lo hi)).HasValidator) :
    (TypeExpr.annotated (.scalar .int) (bounds lo hi)).Takes x ↔
      ∃ n q, Coercion.int x = .ok (n, q) ∧ (∀ b ∈ lo, (Binary64.ofFloat b).AtMost n) ∧
        ∀ b ∈ hi, (Binary64.ofFloat b).AtLeast n := by
  obtain ⟨⟨l, hl⟩, g, hg⟩ := hasValidator_bounded_int.1 h
  have hv : ofType (.annotated (.scalar .int) (bounds lo hi)) = .ok (.int l g) := by
    rw [ofType_annotated, ofType]
    exact restrictAll_bounds_int.2 ⟨l, g, hl, hg, rfl⟩
  have hlo (n : Int) : (∀ b ∈ l, b ≤ n) ↔ ∀ b ∈ lo, (Binary64.ofFloat b).AtMost n := by
    cases hl with
    | none => simp
    | some hb => simp [(hb.compare n).1]
  have hhi (n : Int) : (∀ b ∈ g, n ≤ b) ↔ ∀ b ∈ hi, (Binary64.ofFloat b).AtLeast n := by
    cases hg with
    | none => simp
    | some hb => simp [(hb.compare n).2]
  rw [takes_iff hv, accepts_int]
  simp only [hlo, hhi]

theorem ofType_bounded_float (lo hi : Option Float) :
    ofType (.annotated (.scalar .float) (bounds lo hi)) = .ok (.float lo hi) := by
  rw [ofType_annotated, ofType]
  exact restrictAll_bounds_float lo hi

theorem takes_bounded_float {lo hi : Option Float} {x : Value} :
    (TypeExpr.annotated (.scalar .float) (bounds lo hi)).Takes x ↔
      ∃ y q, Coercion.float x = .ok (y, q) ∧ (∀ b ∈ lo, b ≤ y) ∧ ∀ b ∈ hi, y ≤ b := by
  rw [takes_iff (ofType_bounded_float lo hi), accepts_float]

theorem hasValidator_sized {form : ListForm} {item : TypeExpr} {lo hi : Option Int} :
    (TypeExpr.annotated (.list form item) (lengths lo hi)).HasValidator ↔ item.HasValidator ∧
      (∃ l, Option.Rel LengthBound lo l) ∧ ∃ g, Option.Rel LengthBound hi g := by
  unfold HasValidator
  rw [ofType_annotated, ofType]
  constructor
  · rintro ⟨v, h⟩
    obtain ⟨_, h, hv⟩ := isOk_bind.1 h
    obtain ⟨w, hw, hw'⟩ := isOk_bind.1 h
    cases hw'
    obtain ⟨l, g, hl, hg, -⟩ := restrictAll_lengths.1 hv
    exact ⟨⟨w, hw⟩, ⟨l, hl⟩, g, hg⟩
  · rintro ⟨⟨w, hw⟩, ⟨l, hl⟩, g, hg⟩
    exact ⟨_, isOk_bind.2 ⟨_, isOk_bind.2 ⟨w, hw, rfl⟩,
      restrictAll_lengths.2 ⟨l, g, hl, hg, rfl⟩⟩⟩

/-- A type of lists within lengths takes the lists of these lengths that the list type takes. -/
theorem takes_sized {form : ListForm} {item : TypeExpr} {lo hi : Option Int} {x : Value}
    (h : (TypeExpr.annotated (.list form item) (lengths lo hi)).HasValidator) :
    (TypeExpr.annotated (.list form item) (lengths lo hi)).Takes x ↔
      ∃ q vs, itemsOf? x = some (q, vs) ∧ (∀ n ∈ lo, n ≤ vs.length) ∧ (∀ n ∈ hi, vs.length ≤ n) ∧
        ∀ v ∈ vs, item.Takes v := by
  obtain ⟨⟨w, hw⟩, ⟨l, hl⟩, g, hg⟩ := hasValidator_sized.1 h
  have hv : ofType (.annotated (.list form item) (lengths lo hi)) = .ok (.list w l g) := by
    rw [ofType_annotated, ofType, hw]
    exact restrictAll_lengths.2 ⟨l, g, hl, hg, rfl⟩
  have hlo (k : Nat) : (∀ n ∈ l, n ≤ k) ↔ ∀ n ∈ lo, n ≤ (k : Int) := by
    cases hl with
    | none => simp
    | some hb => simp [hb.1]
  have hhi (k : Nat) : (∀ n ∈ g, k ≤ n) ↔ ∀ n ∈ hi, (k : Int) ≤ n := by
    cases hg with
    | none => simp
    | some hb => simp [hb.1]
  rw [takes_iff hv, accepts_list]
  simp only [hlo, hhi, takes_iff hw]

end TypeExpr

end TypeWire
