import TypeWire.Coercion
import Mathlib

/-!
# Exact values of numbers

Numbers are compared in two ways: as exact decimals, where types are compared (`Value.equals`), and
by the comparison of doubles, where data is checked against a bound. Both are related to the rational
value of a number here (`Finite.value`, `Decimal.value?`).

* A double is told by its parts (`Binary64.ofFloat_injective`), and its parts by its value except for
  the sign of zero (`Finite.Normal.eq_of_value`).
* So doubles that are equal as numbers bound the same doubles (`le_congr_of_equals`) and are read as
  the same whole number (`intOfFloat_congr`).
* A number that is read as a whole number has its value (`value_of_intOfFloat`), and so has a double
  that equals it (`value_of_equals_float`).
-/

namespace TypeWire.Numeric

/-! ## Values -/

/-- The value of a finite double. -/
def Finite.value (x : Finite) : ℚ := (if x.negative then -1 else 1) * (x.mantissa * 2 ^ x.exponent)

/-- The value of a decimal that is a number. -/
def Decimal.value? : Decimal → Option ℚ
  | .finite negative coefficient exponent =>
    some ((if negative then -1 else 1) * (coefficient * 10 ^ exponent))
  | _ => none

theorem Scaled.trim_value (fuel : Nat) (s : Scaled) :
    ((s.trim fuel).digits : ℚ) * 10 ^ (s.trim fuel).exponent = s.digits * 10 ^ s.exponent := by
  induction fuel generalizing s with
  | zero => rfl
  | succ fuel ih =>
    unfold trim
    split
    · rename_i h
      rw [ih]
      have hd : s.digits = s.digits / 10 * 10 := by omega
      have hq : (s.digits : ℚ) = (s.digits / 10 : ℕ) * 10 := by exact_mod_cast hd
      rw [hq, zpow_add_one₀ (by norm_num)]
      ring
    · rfl

namespace Decimal

/-- Trailing zeros are moved into the exponent, which leaves the value. -/
@[simp] theorem value?_canonical (d : Decimal) : d.canonical.value? = d.value? := by
  cases d with
  | finite negative coefficient exponent =>
    by_cases h : coefficient = 0
    · simp [canonical, h, value?]
    · have ht := Scaled.trim_value (digitCount coefficient) ⟨coefficient, exponent⟩
      simp only [canonical, h, ↓reduceIte, value?, ht]
  | infinite negative => rfl
  | nan => rfl

theorem canonical_eq_of_sameNumber {a b : Decimal} (h : a.sameNumber b = true) :
    a.canonical = b.canonical ∧ a.canonical ≠ .nan := by
  simpa [sameNumber] using h

theorem value?_eq_of_sameNumber {a b : Decimal} (h : a.sameNumber b = true) :
    a.value? = b.value? := by
  rw [← a.value?_canonical, ← b.value?_canonical, (canonical_eq_of_sameNumber h).1]

end Decimal

/-! ## Normal parts -/

/-- The bounds of the parts of a double: the mantissa has its leading bit unless the exponent is the
least one. -/
structure Finite.Normal (x : Finite) : Prop where
  mantissa_lt : x.mantissa < 2 ^ 53
  least_le : -1074 ≤ x.exponent
  leading : x.exponent = -1074 ∨ 2 ^ 52 ≤ x.mantissa

theorem Binary64.normal_ofFloat {x : Float} {b : Finite} (h : ofFloat x = .finite b) :
    b.Normal := by
  unfold ofFloat at h
  simp only at h
  split at h
  · split at h <;> cases h
  · split at h
    · cases h
      exact ⟨lt_trans (Nat.mod_lt _ (by decide)) (by decide), le_refl _, .inl rfl⟩
    · cases h
      refine ⟨?_, ?_, .inr (Nat.le_add_left ..)⟩
      · have := Nat.mod_lt x.toBits.toNat (show 0 < Nat.pow 2 52 by decide)
        simp only [Nat.pow_eq] at *
        omega
      · simp only [Nat.pow_eq] at *
        omega

namespace Finite

/-- Of two doubles of one value, both with their leading bits, neither has the greater exponent. -/
theorem Normal.exponent_le {a b : Finite} (ha : a.Normal) (hb : b.Normal)
    (h : (a.mantissa : ℚ) * 2 ^ a.exponent = b.mantissa * 2 ^ b.exponent) :
    b.exponent ≤ a.exponent := by
  by_contra hlt
  obtain ⟨k, hk⟩ : ∃ k : ℕ, b.exponent = a.exponent + (k + 1 : ℕ) :=
    ⟨(b.exponent - a.exponent - 1).toNat, by omega⟩
  have hm : a.mantissa = b.mantissa * 2 ^ (k + 1) := by
    rw [hk, zpow_add₀ (by norm_num), zpow_natCast] at h
    have h2 : (2 : ℚ) ^ a.exponent ≠ 0 := by positivity
    have : (a.mantissa : ℚ) = b.mantissa * 2 ^ (k + 1) := by
      apply mul_right_cancel₀ h2
      rw [h]; ring
    exact_mod_cast this
  have hlead : 2 ^ 52 ≤ b.mantissa := by
    rcases hb.leading with h | h
    · have := ha.least_le; omega
    · exact h
  have := ha.mantissa_lt
  have : 2 ≤ 2 ^ (k + 1) := by
    calc 2 = 2 ^ 1 := rfl
      _ ≤ 2 ^ (k + 1) := Nat.pow_le_pow_right (by decide) (by omega)
  nlinarith

theorem value_eq_zero {a : Finite} : a.value = 0 ↔ a.mantissa = 0 := by
  unfold value
  have h2 : (2 : ℚ) ^ a.exponent ≠ 0 := by positivity
  split <;> simp [h2]

/-- Doubles with one value have the same parts, or are zeros. -/
theorem Normal.eq_of_value {a b : Finite} (ha : a.Normal) (hb : b.Normal)
    (h : a.value = b.value) : a = b ∨ a.mantissa = 0 ∧ b.mantissa = 0 := by
  by_cases hz : a.mantissa = 0
  · exact .inr ⟨hz, value_eq_zero.1 (h ▸ value_eq_zero.2 hz)⟩
  have hz' : b.mantissa ≠ 0 := fun hb0 => hz (value_eq_zero.1 (h.trans (value_eq_zero.2 hb0)))
  have pa : (0 : ℚ) < a.mantissa * 2 ^ a.exponent :=
    mul_pos (by exact_mod_cast Nat.pos_of_ne_zero hz) (by positivity)
  have pb : (0 : ℚ) < b.mantissa * 2 ^ b.exponent :=
    mul_pos (by exact_mod_cast Nat.pos_of_ne_zero hz') (by positivity)
  obtain ⟨hs, hv⟩ : a.negative = b.negative ∧
      (a.mantissa : ℚ) * 2 ^ a.exponent = b.mantissa * 2 ^ b.exponent := by
    unfold value at h
    cases hna : a.negative <;> cases hnb : b.negative <;>
      simp only [hna, hnb, Bool.false_eq_true, ↓reduceIte] at h
    · exact ⟨rfl, by linarith⟩
    · linarith
    · linarith
    · exact ⟨rfl, by linarith⟩
  have he : a.exponent = b.exponent :=
    le_antisymm (hb.exponent_le ha hv.symm) (ha.exponent_le hb hv)
  left
  rw [he] at hv
  have hm : (a.mantissa : ℚ) = b.mantissa := mul_right_cancel₀ (by positivity) hv
  cases a; cases b
  simp_all

end Finite

theorem value?_decimalOfFloat {x : Float} {b : Finite} (h : Binary64.ofFloat x = .finite b) :
    (Value.decimalOfFloat x).value? = some b.value := by
  unfold Value.decimalOfFloat
  simp only [h]
  split
  · rename_i hneg
    simp only [Decimal.value?, Finite.value, Nat.pow_eq, Nat.cast_mul, Nat.cast_pow, Nat.cast_ofNat]
    obtain ⟨n, hn⟩ : ∃ n : ℕ, b.exponent = -(n : ℤ) := ⟨b.exponent.natAbs, by omega⟩
    rw [hn]
    have h10 : (10 : ℚ) ^ n = 2 ^ n * 5 ^ n := by rw [← mul_pow]; norm_num
    simp only [Int.natAbs_neg, Int.natAbs_natCast, zpow_neg, zpow_natCast, h10, mul_inv]
    congr 2
    field_simp
  · obtain ⟨n, hn⟩ : ∃ n : ℕ, b.exponent = n := ⟨b.exponent.natAbs, by omega⟩
    simp only [Decimal.value?, Finite.value, Nat.pow_eq, hn, Int.natAbs_natCast, zpow_zero, mul_one,
      zpow_natCast, Nat.cast_mul, Nat.cast_pow, Nat.cast_ofNat]

/-! ## Doubles and their bits -/

theorem toBits_injective {x y : Float} (h : x.toBits = y.toBits) : x = y := by
  obtain ⟨⟨bx, vx⟩⟩ := x
  obtain ⟨⟨bY, vy⟩⟩ := y
  have : bx = bY := h
  subst this
  rfl

namespace Binary64

/-- The bits of the double with these parts. -/
def bits : Binary64 → Nat
  | .finite x =>
    x.negative.toNat * 2 ^ 63 +
      if x.mantissa < 2 ^ 52 then x.mantissa
      else (x.exponent + 1075).toNat * 2 ^ 52 + (x.mantissa - 2 ^ 52)
  | .infinite negative => negative.toNat * 2 ^ 63 + 2047 * 2 ^ 52
  | .nan => 0

/-- Reading the parts of a double loses nothing, unless it is no number. -/
theorem bits_ofFloat {x : Float} (hx : ofFloat x ≠ .nan) : (ofFloat x).bits = x.toBits.toNat := by
  have hlt := x.toBits.toNat_lt
  unfold ofFloat at hx ⊢
  simp only [Nat.pow_eq] at hx ⊢
  generalize x.toBits.toNat = n at *
  have hsign : (decide (n / 2 ^ 63 = 1)).toNat = n / 2 ^ 63 := by
    rcases (by omega : n / 2 ^ 63 = 0 ∨ n / 2 ^ 63 = 1) with h | h <;> rw [h] <;> rfl
  by_cases hfield : n / 2 ^ 52 % 2 ^ 11 = 2047
  · rw [if_pos hfield] at hx ⊢
    by_cases hfraction : n % 2 ^ 52 = 0
    · rw [if_pos hfraction]
      simp only [bits, hsign]
      omega
    · rw [if_neg hfraction] at hx
      exact absurd rfl hx
  · clear hx
    rw [if_neg hfield]
    split
    · have hm : n % 2 ^ 52 < 2 ^ 52 := by omega
      simp only [bits, hsign, hm, ↓reduceIte]
      omega
    · have hm : ¬ n % 2 ^ 52 + 2 ^ 52 < 2 ^ 52 := by omega
      simp only [bits, hsign, hm, ↓reduceIte]
      omega

/-- A double is told by its parts, unless it is no number. -/
theorem ofFloat_injective {x y : Float} (h : ofFloat x = ofFloat y) (hx : ofFloat x ≠ .nan) :
    x = y := by
  apply toBits_injective
  apply UInt64.toNat_inj.1
  rw [← bits_ofFloat hx, ← bits_ofFloat (h ▸ hx), h]

theorem unpack_eq_zero {x : Float} {b : Finite} (h : ofFloat x = .finite b) (hm : b.mantissa = 0) :
    ∃ s, x.toModel.unpack = .zero s := by
  have hb := bits_ofFloat (x := x) (by rw [h]; simp)
  rw [h] at hb
  simp only [bits, hm, Nat.two_pow_pos, ↓reduceIte, Nat.add_zero] at hb
  obtain ⟨⟨bits, valid⟩⟩ := x
  cases hn : b.negative <;> rw [hn] at hb
  · have : bits = 0 := UInt64.toNat_inj.1 hb.symm
    subst this
    exact ⟨.positive, by cbv⟩
  · have : bits = 0x8000000000000000 := UInt64.toNat_inj.1 hb.symm
    subst this
    exact ⟨.negative, by cbv⟩

end Binary64

open Float.Model (UnpackedFloat Format) in
/-- What is infinite or no number has all bits of its exponent set. -/
theorem finite_of_isFinite {x : Float} (h : x.isFinite = true) :
    ∃ b, Binary64.ofFloat x = .finite b := by
  have hfield : x.toBits.toNat / 2 ^ 52 % 2 ^ 11 ≠ 2047 := by
    intro hf
    have hexponent : @UnpackedFloat.unpackExponent Format.binary64
        x.toModel.toBits.toBitVec = -1#11 := by
      apply BitVec.eq_of_toNat_eq
      simp [UnpackedFloat.unpackExponent, Nat.shiftRight_eq_div_pow]
      exact hf
    have hnot : x.toModel.unpack.isFinite = false := by
      unfold Float.Model.unpack UnpackedFloat.unpack
      simp only [hexponent, ↓reduceIte]
      split <;> rfl
    exact Bool.false_ne_true (hnot.symm.trans h)
  unfold Binary64.ofFloat
  simp only [Nat.pow_eq, if_neg hfield]
  split <;> exact ⟨_, rfl⟩

open Float.Model (UnpackedFloat) in
theorem beq_self_of_isFinite {x : Float} (h : x.isFinite = true) : (x == x) = true := by
  have hfinite : x.toModel.unpack.isFinite = true := h
  show x.toModel.unpack.beq x.toModel.unpack = true
  cases hx : x.toModel.unpack with
  | infinity s => cases s <;> rfl
  | notANumber => rw [hx] at hfinite; cases hfinite
  | zero s => rfl
  | finite s m e hm => cases s <;> simp [UnpackedFloat.beq, UnpackedFloat.compare]

/-! ## Equal numbers -/

open Float.Model (UnpackedFloat) in
theorem compare_zero (s t : UnpackedFloat.Sign) (u : UnpackedFloat) :
    UnpackedFloat.compare (.zero s) u = UnpackedFloat.compare (.zero t) u ∧
      UnpackedFloat.compare u (.zero s) = UnpackedFloat.compare u (.zero t) := by
  cases u with
  | infinity sign => cases sign <;> exact ⟨rfl, rfl⟩
  | finite sign m e h => cases sign <;> exact ⟨rfl, rfl⟩
  | notANumber => exact ⟨rfl, rfl⟩
  | zero sign => exact ⟨rfl, rfl⟩

/-- Doubles that are equal as numbers are the same double or both zero. -/
theorem eq_or_zero_of_equals {x y : Float} (h : (Value.float x).equals (.float y) = true) :
    x = y ∨ ∃ b c, Binary64.ofFloat x = .finite b ∧ Binary64.ofFloat y = .finite c ∧
      b.mantissa = 0 ∧ c.mantissa = 0 := by
  have hs : (Value.decimalOfFloat x).sameNumber (Value.decimalOfFloat y) = true := h
  have hv := Decimal.value?_eq_of_sameNumber hs
  obtain ⟨hc, hn⟩ := Decimal.canonical_eq_of_sameNumber hs
  cases hx : Binary64.ofFloat x with
  | nan => simp [Value.decimalOfFloat, hx, Decimal.canonical] at hn
  | infinite n =>
    cases hy : Binary64.ofFloat y with
    | nan => simp [Value.decimalOfFloat, hx, hy, Decimal.canonical] at hc
    | infinite m =>
      have hnm : n = m := by simpa [Value.decimalOfFloat, hx, hy, Decimal.canonical] using hc
      exact .inl (Binary64.ofFloat_injective (by rw [hx, hy, hnm]) (by rw [hx]; simp))
    | finite c =>
      rw [value?_decimalOfFloat hy] at hv
      simp [Value.decimalOfFloat, hx, Decimal.value?] at hv
  | finite b =>
    rw [value?_decimalOfFloat hx] at hv
    cases hy : Binary64.ofFloat y with
    | nan => simp [Value.decimalOfFloat, hy, Decimal.value?] at hv
    | infinite m => simp [Value.decimalOfFloat, hy, Decimal.value?] at hv
    | finite c =>
      rw [value?_decimalOfFloat hy, Option.some.injEq] at hv
      rcases (Binary64.normal_ofFloat hx).eq_of_value (Binary64.normal_ofFloat hy) hv with hbc | hz
      · exact .inl (Binary64.ofFloat_injective (by rw [hx, hy, hbc]) (by rw [hx]; simp))
      · exact .inr ⟨b, c, rfl, rfl, hz⟩

theorem le_iff_unpack {x y : Float} :
    x ≤ y ↔ x.toModel.unpack.le y.toModel.unpack = true := by
  show decide (x.toModel ≤ y.toModel) = true ↔ _
  rw [decide_eq_true_iff]
  rfl

open Float.Model (UnpackedFloat) in
/-- Equal doubles bound the same doubles. -/
theorem le_congr_of_equals {x y : Float} (h : (Value.float x).equals (.float y) = true)
    (z : Float) : (x ≤ z ↔ y ≤ z) ∧ (z ≤ x ↔ z ≤ y) := by
  rcases eq_or_zero_of_equals h with rfl | ⟨b, c, hx, hy, hb, hc⟩
  · exact ⟨Iff.rfl, Iff.rfl⟩
  obtain ⟨s, hs⟩ := Binary64.unpack_eq_zero hx hb
  obtain ⟨t, ht⟩ := Binary64.unpack_eq_zero hy hc
  obtain ⟨hl, hr⟩ := compare_zero s t z.toModel.unpack
  simp only [le_iff_unpack, hs, ht, UnpackedFloat.le, hl, hr, and_self]

/-! ## Whole numbers -/

theorem Finite.value_of_toInt? {b : Finite} {n : Int} (h : b.toInt? = some n) : b.value = n := by
  obtain ⟨negative, m, e⟩ := b
  unfold toInt? fraction at h
  by_cases he : e < 0
  · obtain ⟨k, rfl⟩ : ∃ k : ℕ, e = -(k : ℤ) := ⟨e.natAbs, by omega⟩
    simp only [he, ↓reduceIte, Int.natAbs_neg, Int.natAbs_natCast, Nat.pow_eq] at h
    split at h
    · rename_i hmod
      obtain ⟨q, rfl⟩ := Nat.dvd_of_mod_eq_zero hmod
      rw [Nat.mul_div_cancel_left _ (by positivity)] at h
      have hq : ((2 ^ k * q : ℕ) : ℚ) * 2 ^ (-(k : ℤ)) = q := by
        rw [zpow_neg, zpow_natCast]; push_cast; field_simp
      cases h
      simp only [value, hq]
      split <;> simp
    · cases h
  · obtain ⟨k, rfl⟩ : ∃ k : ℕ, e = k := ⟨e.natAbs, by omega⟩
    simp only [he, ↓reduceIte, Int.natAbs_natCast, Nat.pow_eq, Nat.mod_one, Nat.div_one] at h
    cases h
    simp only [value, zpow_natCast]
    split <;> simp

theorem Finite.toInt?_of_value {b : Finite} {n : Int} (h : b.value = n) : b.toInt? = some n := by
  obtain ⟨negative, m, e⟩ := b
  unfold value at h
  by_cases he : e < 0
  · obtain ⟨k, rfl⟩ : ∃ k : ℕ, e = -(k : ℤ) := ⟨e.natAbs, by omega⟩
    have hm : (m : ℤ) = (if negative then -n else n) * 2 ^ k := by
      simp only [zpow_neg, zpow_natCast] at h
      have hq : (m : ℚ) = (if negative then -n else n : ℤ) * 2 ^ k := by
        cases negative <;> simp only [Bool.false_eq_true, ↓reduceIte] at h ⊢ <;> push_cast <;>
          rw [← h] <;> field_simp
      exact_mod_cast hq
    have hsign : 0 ≤ if negative then -n else n := by
      by_contra hneg
      have : (if negative then -n else n) * 2 ^ k < 0 :=
        Int.mul_neg_of_neg_of_pos (by omega) (by positivity)
      omega
    obtain ⟨q, hq⟩ := Int.eq_ofNat_of_zero_le hsign
    rw [hq] at hm
    obtain rfl : m = q * 2 ^ k := by exact_mod_cast hm
    simp only [toInt?, fraction, he, ↓reduceIte, Int.natAbs_neg, Int.natAbs_natCast, Nat.pow_eq,
      Nat.mul_mod_left, Nat.mul_div_cancel _ (Nat.two_pow_pos k), Option.some.injEq]
    cases negative <;> simp only [Bool.false_eq_true, ↓reduceIte] at hq ⊢ <;> omega
  · obtain ⟨k, rfl⟩ : ∃ k : ℕ, e = k := ⟨e.natAbs, by omega⟩
    simp only [zpow_natCast] at h
    simp only [toInt?, fraction, he, ↓reduceIte, Int.natAbs_natCast, Nat.pow_eq, Nat.mod_one,
      Nat.div_one, Option.some.injEq]
    cases negative <;> simp only [Bool.false_eq_true, ↓reduceIte] at h ⊢
    · rw [one_mul] at h
      exact_mod_cast h
    · rw [neg_one_mul] at h
      exact_mod_cast h

theorem value_of_intOfFloat {x : Float} {n : Int} (h : Coercion.intOfFloat x = .ok n) :
    ∃ b, Binary64.ofFloat x = .finite b ∧ b.value = n := by
  unfold Coercion.intOfFloat at h
  split at h
  · rename_i b hb
    split at h
    · rename_i m hm
      split at h
      · cases h
        exact ⟨b, hb, Finite.value_of_toInt? hm⟩
      · cases h
    · cases h
  · cases h

/-- A double is read as a whole number if it is one, within 64 bits and not the least of them. -/
theorem intOfFloat_ok {x : Float} {n : Int} : Coercion.intOfFloat x = .ok n ↔
    (∃ b, Binary64.ofFloat x = .finite b ∧ b.value = n) ∧ n.natAbs < 2 ^ 63 := by
  constructor
  · intro h
    refine ⟨value_of_intOfFloat h, ?_⟩
    unfold Coercion.intOfFloat at h
    split at h
    · split at h
      · split at h
        · cases h
          assumption
        · cases h
      · cases h
    · cases h
  · rintro ⟨⟨b, hb, hv⟩, hn⟩
    simp only [Coercion.intOfFloat, hb, Finite.toInt?_of_value hv]
    exact if_pos hn

theorem Finite.toInt?_of_mantissa_eq_zero {b : Finite} (h : b.mantissa = 0) : b.toInt? = some 0 := by
  by_cases he : b.exponent < 0 <;> simp [toInt?, fraction, h, he]

theorem intOfFloat_congr {x y : Float} (h : (Value.float x).equals (.float y) = true) :
    Coercion.intOfFloat x = Coercion.intOfFloat y := by
  rcases eq_or_zero_of_equals h with rfl | ⟨b, c, hx, hy, hb, hc⟩
  · rfl
  · simp [Coercion.intOfFloat, hx, hy, Finite.toInt?_of_mantissa_eq_zero hb,
      Finite.toInt?_of_mantissa_eq_zero hc]

/-! ## Numbers of any class -/

theorem value?_whole (n : Int) : (Value.Number.whole n).exactly.value? = some (n : ℚ) := by
  simp only [Value.Number.exactly, Decimal.value?, zpow_zero, mul_one, Option.some.injEq,
    decide_eq_true_eq]
  split
  · rename_i hn
    rw [neg_one_mul, ← Int.cast_natCast, Int.ofNat_natAbs_of_nonpos (le_of_lt hn)]
    push_cast
    ring
  · rw [one_mul, ← Int.cast_natCast, Int.natAbs_of_nonneg (by omega)]

theorem Decimal.value?_of_toInt? {d : Decimal} {n : Int} (h : d.toInt? = some n) :
    d.value? = some (n : ℚ) := by
  rw [← value?_canonical]
  unfold toInt? at h
  split at h
  · rename_i negative coefficient exponent hc
    split at h
    · cases h
    · obtain ⟨k, rfl⟩ : ∃ k : ℕ, exponent = k := ⟨exponent.natAbs, by omega⟩
      cases h
      rw [hc, value?, Int.natAbs_natCast, zpow_natCast]
      cases negative <;> simp
  · cases h

theorem number?_of_equals_float {v : Value} {x : Float} (h : v.equals (.float x) = true) :
    ∃ m, v.number? = some m ∧ m.equals (.real x) = true := by
  have heq : v.equals (.float x) = (match v.number? with
      | some m => m.equals (.real x)
      | none => false) := by
    cases v with
    | constant name member base value =>
      rw [Value.equals]
      · cases (Value.constant name member base value).number? <;>
          simp [Value.number?, Value.text?]
      all_goals simp
    | _ => simp [Value.equals, Value.number?, Value.text?]
  rw [heq] at h
  cases hm : v.number? with
  | none => simp [hm] at h
  | some m => exact ⟨m, rfl, by simpa [hm] using h⟩

/-- A number that is read as a whole number is that number. -/
theorem value?_of_int {v : Value} {m : Value.Number} (hm : v.number? = some m) {n : Int} {q : Match}
    (h : Coercion.int v = .ok (n, q)) : m.exactly.value? = some (n : ℚ) := by
  unfold Value.number? at hm
  split at hm
  · cases hm
    cases h
    exact value?_whole _
  · cases hm
    cases h
    exact value?_whole _
  · rename_i x
    cases hm
    simp only [Coercion.int] at h
    cases hx : Coercion.intOfFloat x with
    | error e => simp [hx, Except.map] at h
    | ok k =>
      simp only [hx, Except.map, Except.ok.injEq, Prod.mk.injEq] at h
      obtain ⟨rfl, -⟩ := h
      obtain ⟨b, hb, hv⟩ := value_of_intOfFloat hx
      rw [← hv]
      exact value?_decimalOfFloat hb
  · rename_i d
    cases hm
    refine Decimal.value?_of_toInt? (?_ : d.toInt? = some n)
    cases d with
    | finite negative coefficient exponent =>
      cases hd : (Decimal.finite negative coefficient exponent).toInt? with
      | none => simp [Coercion.int, Coercion.intOfDecimal, hd, Except.map] at h
      | some k =>
        simp only [Coercion.int, Coercion.intOfDecimal, hd, Except.map, Except.ok.injEq,
          Prod.mk.injEq] at h
        rw [h.1]
    | infinite => simp [Coercion.int, Coercion.intOfDecimal, Except.map] at h
    | nan => simp [Coercion.int, Coercion.intOfDecimal, Except.map] at h
  · cases hm
    cases h
    exact value?_whole _
  · cases hm
    simp [Coercion.int, Coercion.textOrBytes?] at h
  · cases hm

/-- A double that equals what is read as a whole number has its value. -/
theorem value_of_equals_float {v : Value} {x : Float} {b : Finite}
    (hx : Binary64.ofFloat x = .finite b) (h : v.equals (.float x) = true) {n : Int} {q : Match}
    (hn : Coercion.int v = .ok (n, q)) : b.value = n := by
  obtain ⟨m, hm, heq⟩ := number?_of_equals_float h
  have hvalue := Decimal.value?_eq_of_sameNumber heq
  rw [value?_of_int hm hn, show (Value.Number.real x).exactly = Value.decimalOfFloat x from rfl,
    value?_decimalOfFloat hx, Option.some.injEq] at hvalue
  exact hvalue.symm

end TypeWire.Numeric
