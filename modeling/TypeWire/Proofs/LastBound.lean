import TypeWire.Proofs.Layers
import TypeWire.Proofs.PlainData
import TypeWire.Proofs.Refinement

/-!
# Which of several bounds is written

Around one core there can be several layers, each with bounds of its own, and data has to be within all
of them. A schema has place for one lower and one upper bound. Those that are read last are written
(`Schema.last_bounds`), so they are the strictest if and only if the strictest are read last
(`Schema.writes_strictest_iff`).

`TypeExpr.layered` lists the restrictions of all layers as they are read. A layer follows those inside
it, but where null stands between two layers it is the other way round: the bound around null is lost
even if it is the stricter one (`Schema.weaker_inside_null`).
-/

namespace TypeWire

namespace TypeExpr

mutual

/-- The restrictions in the layers of a type, in the order in which they are read, where `outer` are
those of the layers directly around it. -/
def layered (outer : List Restriction) : TypeExpr → List Restriction
  | .annotated base ms => layered (Reading.restrictions ms ++ outer) base
  | .union members =>
    if (members.filter fun m => !m.isNull).length = 1 then outer ++ layeredSole members else outer
  | _ => outer

/-- The restrictions in the layers of the first member that is not null. -/
def layeredSole : List TypeExpr → List Restriction
  | [] => []
  | m :: ms => if m.isNull then layeredSole ms else layered [] m

end

theorem layeredSole_eq {members : List TypeExpr} {m : TypeExpr}
    (h : members.filter (fun m => !m.isNull) = [m]) : layeredSole members = m.layered [] :=
  sole_eq (fun m ms => by rw [layeredSole]) h

theorem layered_sole {members : List TypeExpr} {m : TypeExpr}
    (h : members.filter (fun m => !m.isNull) = [m]) (outer : List Restriction) :
    (union members).layered outer = outer ++ m.layered [] := by
  rw [layered, if_pos (by rw [h, List.length_singleton]), layeredSole_eq h]

theorem layered_union {members : List TypeExpr}
    (h : (members.filter fun m => !m.isNull).length ≠ 1) (outer : List Restriction) :
    (union members).layered outer = outer := by
  rw [layered, if_neg h]

end TypeExpr

/-! ## Layers of types with their models written out -/

namespace Visit

variable (models : List Model) (a : List String)

theorem layered_written (t : TypeExpr) : ∀ outer : List Restriction,
    (written models ⟨a, t⟩).layered outer = t.layered outer := by
  induction t with
  | model name =>
    intro outer
    rcases written_model models a name with h | ⟨doc, fields, h⟩ <;> rw [h] <;> rfl
  | annotated base metadata ih => intro outer; exact ih _
  | union members ih =>
    intro outer
    rw [written_union]
    obtain ⟨m, hmem, hm⟩ | hlen := TypeExpr.sole_or_variants members
    · rw [TypeExpr.layered_sole (filter_written_sole hm models a), TypeExpr.layered_sole hm,
        ih m hmem]
    · rw [TypeExpr.layered_union hlen, TypeExpr.layered_union (by rwa [length_filter_written])]
  | _ => intro outer; rfl

end Visit

/-! ## Reading layers in order -/

namespace Node

/-- A type is read as its core, under metadata and behind checks that are those of its layers. -/
theorem exists_read_core (t : TypeExpr) : ∀ (description : Option String) (ms : List Meta)
    (discriminator : Option String), ∃ description' ms' discriminator' pre nullable,
      read description ms discriminator t =
        (read description' ms' discriminator' t.wrapped).under pre nullable ∧
      pre ++ (Reading.restrictions ms').flatMap Restriction.checks =
        (t.layered (Reading.restrictions ms)).flatMap Restriction.checks := by
  induction t with
  | annotated base inner ih =>
    intro description ms discriminator
    rw [TypeExpr.wrapped, TypeExpr.layered, ← Reading.restrictions_append]
    exact ih description (inner ++ ms) discriminator
  | union members ih =>
    intro description ms discriminator
    obtain ⟨m, hmem, hm⟩ | hlen := TypeExpr.sole_or_variants members
    · obtain ⟨description', ms', discriminator', pre, nullable, hread, hchecks⟩ :=
        ih m hmem (Reading.ofMetadata description discriminator ms).description []
          (Reading.ofMetadata description discriminator ms).discriminator
      refine ⟨description', ms', discriminator',
        (Reading.ofMetadata description discriminator ms).checks ++ pre,
        nullable || members.any TypeExpr.isNull, ?_, ?_⟩
      · rw [read_sole hm, hread, under_under, TypeExpr.wrapped_sole hm]
      · rw [TypeExpr.layered_sole hm, List.flatMap_append, Reading.checks_ofMetadata,
          List.append_assoc, hchecks]
        rfl
    · rw [TypeExpr.wrapped_union hlen, TypeExpr.layered_union hlen]
      exact ⟨description, ms, discriminator, [], false, (under_nil _).symm, rfl⟩
  | _ =>
    intro description ms discriminator
    exact ⟨description, ms, discriminator, [], false, (under_nil _).symm, rfl⟩

/-- The check that tells an integer stands between the others unseen. -/
theorem exists_number {t : TypeExpr} (ht : t.IsNumber) (description : Option String) (ms : List Meta)
    (discriminator : Option String) (pre : List Check) (nullable : Bool) :
    ∃ h, (read description ms discriminator t).under pre nullable = .number h ∧
      ∀ kind ≠ "int", Check.last? kind h.checks =
        Check.last? kind (pre ++ (Reading.restrictions ms).flatMap Restriction.checks) := by
  rcases ht with rfl | rfl
  · refine ⟨_, rfl, fun kind hkind => ?_⟩
    show Check.last? kind (pre ++ ([⟨"int", .null⟩] ++ (Reading.ofMetadata _ _ ms).checks)) = _
    rw [Reading.checks_ofMetadata, Check.last?_append, Check.last?_append, Check.last?_append,
      Check.last?_singleton, if_neg hkind.symm, Option.or_none]
  · refine ⟨_, rfl, fun kind _ => ?_⟩
    rw [← Reading.checks_ofMetadata description discriminator]
    rfl

theorem exists_array (form : ListForm) (item : TypeExpr) (description : Option String)
    (ms : List Meta) (discriminator : Option String) (pre : List Check) (nullable : Bool) :
    ∃ h, (read description ms discriminator (.list form item)).under pre nullable =
        .array h (some (read none [] none item)) ∧
      h.checks = pre ++ (Reading.restrictions ms).flatMap Restriction.checks := by
  refine ⟨_, rfl, ?_⟩
  rw [← Reading.checks_ofMetadata description discriminator]
  rfl

end Node

/-! ## The last bounds -/

namespace Restriction

def lowerBound? : Restriction → Option Value
  | .ge v | .gt v => some v
  | _ => none

def upperBound? : Restriction → Option Value
  | .le v | .lt v => some v
  | _ => none

def minLength? : Restriction → Option Value
  | .minLength v => some v
  | _ => none

def maxLength? : Restriction → Option Value
  | .maxLength v => some v
  | _ => none

/-- A lower or upper bound that is a finite double. -/
inductive IsBound : Restriction → Prop
  | ge {v : Value} : IsDouble v → IsBound (.ge v)
  | gt {v : Value} : IsDouble v → IsBound (.gt v)
  | le {v : Value} : IsDouble v → IsBound (.le v)
  | lt {v : Value} : IsDouble v → IsBound (.lt v)

/-- A least or greatest length that is a natural number. -/
inductive IsLength : Restriction → Prop
  | minLength (n : Nat) : IsLength (.minLength (.int n))
  | maxLength (n : Nat) : IsLength (.maxLength (.int n))

/-- A kind of check tells the one bound of a restriction, which has some property. -/
def Tells (kind : String) (bound? : Restriction → Option Value) (P : Value → Prop)
    (r : Restriction) : Prop :=
  Check.last? kind r.checks = bound? r ∧ ∀ v ∈ bound? r, P v

theorem IsBound.tells_min {r : Restriction} (h : r.IsBound) : r.Tells "min" lowerBound? IsDouble := by
  cases h with
  | ge hv | gt hv => exact ⟨rfl, by simpa [lowerBound?] using hv⟩
  | le | lt => exact ⟨rfl, by simp [lowerBound?]⟩

theorem IsBound.tells_max {r : Restriction} (h : r.IsBound) : r.Tells "max" upperBound? IsDouble := by
  cases h with
  | le hv | lt hv => exact ⟨rfl, by simpa [upperBound?] using hv⟩
  | ge | gt => exact ⟨rfl, by simp [upperBound?]⟩

theorem IsLength.tells_minLength {r : Restriction} (h : r.IsLength) :
    r.Tells "min_length" minLength? fun v => ∃ n : Nat, v = .int n := by
  cases h <;> exact ⟨rfl, by simp [minLength?]⟩

theorem IsLength.tells_maxLength {r : Restriction} (h : r.IsLength) :
    r.Tells "max_length" maxLength? fun v => ∃ n : Nat, v = .int n := by
  cases h <;> exact ⟨rfl, by simp [maxLength?]⟩

/-- The last check of a kind is that of the last restriction that has one. -/
theorem last?_flatMap {kind : String} {bound? : Restriction → Option Value} {P : Value → Prop}
    {rs : List Restriction} (h : ∀ r ∈ rs, r.Tells kind bound? P) :
    Check.last? kind (rs.flatMap checks) = (rs.filterMap bound?).getLast? ∧
      ∀ v ∈ (rs.filterMap bound?).getLast?, P v := by
  constructor
  · induction rs using List.reverseRecOn with
    | nil => rfl
    | append_singleton rs r ih =>
      obtain ⟨hrs, hr⟩ := List.forall_mem_append.1 h
      rw [List.flatMap_append, List.flatMap_singleton, Check.last?_append, ih hrs,
        (List.forall_mem_singleton.1 hr).1, List.filterMap_append, List.getLast?_append]
      cases hb : bound? r <;> simp [hb]
  · intro v hv
    obtain ⟨r, hr, hrv⟩ := List.mem_filterMap.1 (List.mem_of_getLast? hv)
    exact (h r hr).2 v hrv

end Restriction

/-- The value is the double, as a number. -/
def Value.EqualsFloat (v : Value) (x : Float) : Prop := v.equals (.float x) = true

instance (v : Value) (x : Float) : Decidable (v.EqualsFloat x) :=
  inferInstanceAs (Decidable (_ = true))

namespace Schema

theorem bound_rel {name : String} {value : Option Value} {x : Option Float}
    (h : bound Coercion.float name value = .ok x) (hvalue : ∀ v ∈ value, IsDouble v) :
    Option.Rel Value.EqualsFloat value x := by
  cases bound_ok h fun v hv => (hvalue v hv).not_null with
  | none => exact .none
  | some hx =>
    obtain ⟨q, hx⟩ := hx
    obtain ⟨y, q', b, hy, -, heq⟩ := hvalue _ rfl
    rw [hx] at hy
    cases hy
    exact .some heq

theorem bound_int {name : String} {value : Option Value} {x : Option Int}
    (h : bound Coercion.int name value = .ok x) (hvalue : ∀ v ∈ value, ∃ n : Nat, v = .int n) :
    value = x.map .int := by
  cases value with
  | none => cases h; rfl
  | some v =>
    obtain ⟨n, rfl⟩ := hvalue v rfl
    cases h
    rfl

/-- A schema is that of the core of its type, behind the checks of all layers. -/
theorem exists_core_of_ok {models : List Model} {t : TypeExpr} {s : Schema}
    (hs : ofType models t = .ok s) : ∃ description ms discriminator pre nullable,
      ofNode ((Node.read description ms discriminator
        (Visit.written models ⟨[], t.wrapped⟩)).under pre nullable) = .ok s ∧
      pre ++ (Reading.restrictions ms).flatMap Restriction.checks =
        (t.layered []).flatMap Restriction.checks := by
  obtain ⟨description, ms, discriminator, pre, nullable, hread, hchecks⟩ :=
    Node.exists_read_core (Visit.written models ⟨[], t⟩) none [] none
  have hnode : ofNode (Node.read none [] none (Visit.written models ⟨[], t⟩)) = .ok s := hs
  have hnone : Reading.restrictions [] = [] := rfl
  rw [hread, Visit.wrapped_written] at hnode
  rw [Visit.layered_written, hnone] at hchecks
  exact ⟨description, ms, discriminator, pre, nullable, hnode, hchecks⟩

/-- Of several bounds around a number or a list those that are read last are written. -/
theorem last_bounds {models : List Model} {t : TypeExpr} {s : Schema}
    (hs : ofType models t = .ok s) :
    (t.wrapped.IsNumber → (∀ r ∈ t.layered [], r.IsBound) →
      Option.Rel Value.EqualsFloat
          ((t.layered []).filterMap Restriction.lowerBound?).getLast? s.facets.minimum ∧
        Option.Rel Value.EqualsFloat
          ((t.layered []).filterMap Restriction.upperBound?).getLast? s.facets.maximum) ∧
      ∀ form item, t.wrapped = .list form item → (∀ r ∈ t.layered [], r.IsLength) →
        ((t.layered []).filterMap Restriction.minLength?).getLast? = s.facets.minItems.map .int ∧
          ((t.layered []).filterMap Restriction.maxLength?).getLast? = s.facets.maxItems.map .int := by
  obtain ⟨description, ms, discriminator, pre, nullable, hnode, hchecks⟩ := exists_core_of_ok hs
  constructor
  · intro hnumber hbounds
    have hwritten : (Visit.written models ⟨[], t.wrapped⟩).IsNumber := by
      rcases hnumber with h | h <;> rw [h]
      · exact .inl rfl
      · exact .inr rfl
    obtain ⟨h, hh, hkinds⟩ :=
      Node.exists_number hwritten description ms discriminator pre nullable
    rw [hh] at hnode
    obtain ⟨-, lo, hi, hlo, hhi, rfl⟩ := ofNumber_ok.1 hnode
    obtain ⟨hmin, hlower⟩ := Restriction.last?_flatMap fun r hr => (hbounds r hr).tells_min
    obtain ⟨hmax, hupper⟩ := Restriction.last?_flatMap fun r hr => (hbounds r hr).tells_max
    rw [hkinds _ (by decide), hchecks, hmin] at hlo
    rw [hkinds _ (by decide), hchecks, hmax] at hhi
    exact ⟨bound_rel hlo hlower, bound_rel hhi hupper⟩
  · intro form item hlist hlengths
    have hwritten : Visit.written models ⟨[], t.wrapped⟩ =
        .list form (Visit.written models ⟨[], item⟩) := by rw [hlist]; rfl
    obtain ⟨h, hh, hall⟩ := Node.exists_array form (Visit.written models ⟨[], item⟩) description ms
      discriminator pre nullable
    rw [hwritten, hh] at hnode
    obtain ⟨-, i, lo, hi, -, hlo, hhi, rfl⟩ := ofNode_array.1 hnode
    obtain ⟨hmin, hleast⟩ := Restriction.last?_flatMap fun r hr => (hlengths r hr).tells_minLength
    obtain ⟨hmax, hgreatest⟩ :=
      Restriction.last?_flatMap fun r hr => (hlengths r hr).tells_maxLength
    rw [hall, hchecks, hmin] at hlo
    rw [hall, hchecks, hmax] at hhi
    exact ⟨bound_int hlo hleast, bound_int hhi hgreatest⟩

end Schema

/-! ## The strictest bounds -/

/-- The number that a value stands for. -/
def Value.amount? (v : Value) : Option ℚ := v.number?.bind fun n => n.exactly.value?

theorem Value.amount?_int (n : Int) : (Value.int n).amount? = some (n : ℚ) := Numeric.value?_whole n

theorem Value.EqualsFloat.amount?_eq {v : Value} {x : Float} (h : v.EqualsFloat x) :
    v.amount? = (Value.float x).amount? := by
  obtain ⟨m, hm, heq⟩ := Numeric.number?_of_equals_float h
  rw [amount?, hm]
  exact Numeric.Decimal.value?_eq_of_sameNumber heq

theorem IsDouble.amount? {v : Value} (h : IsDouble v) : ∃ q, v.amount? = some q := by
  obtain ⟨x, -, b, -, hx, heq⟩ := h
  refine ⟨b.value, ?_⟩
  rw [Value.EqualsFloat.amount?_eq heq]
  exact Numeric.value?_decimalOfFloat hx

/-- The bounds of a kind in the layers of a type, as they are read. -/
def TypeExpr.amounts (bound? : Restriction → Option Value) (t : TypeExpr) : List ℚ :=
  ((t.layered []).filterMap bound?).filterMap Value.amount?

theorem getLast?_filterMap_of_forall {α β : Type} {f : α → Option β} {as : List α}
    (h : ∀ a ∈ as, ∃ b, f a = some b) : (as.filterMap f).getLast? = as.getLast?.bind f := by
  induction as using List.reverseRecOn with
  | nil => rfl
  | append_singleton as a ih =>
    obtain ⟨b, hb⟩ := h a (by simp)
    simp [List.filterMap_append, hb]

namespace Schema

/-- A bound is written if any are declared, and it is the strictest if and only if that is read last. -/
structure WritesBound (strictest : List ℚ → Option ℚ) (bounds : List ℚ) (written : Option Value) :
    Prop where
  absent_iff : written = none ↔ bounds = []
  strictest_iff : written.bind Value.amount? = strictest bounds ↔ bounds.getLast? = strictest bounds

theorem writesBound {strictest : List ℚ → Option ℚ} {bounds : List Value} {written : Option Value}
    (hbounds : ∀ v ∈ bounds, ∃ q, v.amount? = some q)
    (h : Option.Rel (fun v w => v.amount? = w.amount?) bounds.getLast? written) :
    WritesBound strictest (bounds.filterMap Value.amount?) written := by
  have hlast : (bounds.filterMap Value.amount?).getLast? = written.bind Value.amount? := by
    rw [getLast?_filterMap_of_forall hbounds]
    generalize bounds.getLast? = last at h
    cases h with
    | none => rfl
    | some h => exact h
  have hnone : bounds.filterMap Value.amount? = [] ↔ bounds = [] := by
    cases bounds with
    | nil => simp
    | cons v vs =>
      obtain ⟨q, hq⟩ := hbounds v List.mem_cons_self
      simp [hq]
  refine ⟨?_, by rw [hlast]⟩
  rw [hnone, ← List.getLast?_eq_none_iff]
  generalize bounds.getLast? = last at h
  cases h <;> simp

theorem writesBound_float {strictest : List ℚ → Option ℚ} {bounds : List Value} {x : Option Float}
    (hbounds : ∀ v ∈ bounds, IsDouble v) (h : Option.Rel Value.EqualsFloat bounds.getLast? x) :
    WritesBound strictest (bounds.filterMap Value.amount?) (x.map .float) := by
  refine writesBound (fun v hv => (hbounds v hv).amount?) ?_
  generalize bounds.getLast? = last at h
  cases h with
  | none => exact .none
  | some h => exact .some h.amount?_eq

theorem writesBound_int {strictest : List ℚ → Option ℚ} {bounds : List Value} {n : Option Int}
    (hbounds : ∀ v ∈ bounds, ∃ k : Nat, v = .int k) (h : bounds.getLast? = n.map .int) :
    WritesBound strictest (bounds.filterMap Value.amount?) (n.map .int) := by
  refine writesBound (fun v hv => ?_) ?_
  · obtain ⟨k, rfl⟩ := hbounds v hv
    exact ⟨k, Value.amount?_int k⟩
  · rw [h]
    cases n with
    | none => exact .none
    | some n => exact .some rfl

/-- Of several bounds around a number or a list one is written, and it is the strictest if and only if
the strictest is read last. -/
theorem writes_strictest_iff {models : List Model} {t : TypeExpr} {s : Schema}
    (hs : ofType models t = .ok s) :
    (t.wrapped.IsNumber → (∀ r ∈ t.layered [], r.IsBound) →
      WritesBound List.max? (t.amounts Restriction.lowerBound?) (s.facets.minimum.map .float) ∧
        WritesBound List.min? (t.amounts Restriction.upperBound?) (s.facets.maximum.map .float)) ∧
      ∀ form item, t.wrapped = .list form item → (∀ r ∈ t.layered [], r.IsLength) →
        WritesBound List.max? (t.amounts Restriction.minLength?) (s.facets.minItems.map .int) ∧
          WritesBound List.min? (t.amounts Restriction.maxLength?) (s.facets.maxItems.map .int) := by
  obtain ⟨hnumber, hlist⟩ := last_bounds hs
  have hall {kind : String} {bound? : Restriction → Option Value} {P : Value → Prop}
      (h : ∀ r ∈ t.layered [], r.Tells kind bound? P) : ∀ v ∈ (t.layered []).filterMap bound?, P v := by
    intro v hv
    obtain ⟨r, hr, hrv⟩ := List.mem_filterMap.1 hv
    exact (h r hr).2 v hrv
  constructor
  · intro ht hbounds
    obtain ⟨hmin, hmax⟩ := hnumber ht hbounds
    exact ⟨writesBound_float (hall fun r hr => (hbounds r hr).tells_min) hmin,
      writesBound_float (hall fun r hr => (hbounds r hr).tells_max) hmax⟩
  · intro form item ht hlengths
    obtain ⟨hmin, hmax⟩ := hlist form item ht hlengths
    exact ⟨writesBound_int (hall fun r hr => (hlengths r hr).tells_minLength) hmin,
      writesBound_int (hall fun r hr => (hlengths r hr).tells_maxLength) hmax⟩

end Schema

theorem isDouble_float {x : Float} (h : x.isFinite = true) : IsDouble (.float x) := by
  obtain ⟨b, hb⟩ := Numeric.finite_of_isFinite h
  exact ⟨x, _, b, rfl, hb, Value.number_equals_self_of_isFinite h⟩

/-- A weight with bounds around null, and narrower ones inside. -/
def weight : TypeExpr :=
  .annotated
    (.union [.annotated (.scalar .float)
      [.interval none (some (.float 2.0)) (some (.float 20.0)) none], .null])
    [.field { ge := some (.float 1.0), le := some (.float 30.0) }]

/-- Weights, two to eight of them by one layer and up to five by the next. -/
def weights : TypeExpr :=
  .annotated (.annotated (.list .generic weight) [.length (.int 2) (.int 8)])
    [.restriction (.maxLength (.int 5))]

theorem amounts_weight : weight.amounts Restriction.lowerBound? = [1, 2] ∧
    weight.amounts Restriction.upperBound? = [30, 20] := by
  have hamount (n : Int) {x : Float} (h : (Value.int n).EqualsFloat x) :
      (Value.float x).amount? = some (n : ℚ) := by rw [← h.amount?_eq, Value.amount?_int]
  have hlower : (weight.layered []).filterMap Restriction.lowerBound? =
      [.float 1.0, .float 2.0] := rfl
  have hupper : (weight.layered []).filterMap Restriction.upperBound? =
      [.float 30.0, .float 20.0] := rfl
  have h1 := hamount 1 (x := 1.0) (by decide +kernel)
  have h2 := hamount 2 (x := 2.0) (by decide +kernel)
  have h30 := hamount 30 (x := 30.0) (by decide +kernel)
  have h20 := hamount 20 (x := 20.0) (by decide +kernel)
  rw [TypeExpr.amounts, TypeExpr.amounts, hlower, hupper]
  simp [h1, h2, h20, h30]

theorem amounts_weights : weights.amounts Restriction.minLength? = [2] ∧
    weights.amounts Restriction.maxLength? = [8, 5] := by
  have hleast : (weights.layered []).filterMap Restriction.minLength? = [.int 2] := rfl
  have hgreatest : (weights.layered []).filterMap Restriction.maxLength? = [.int 8, .int 5] := rfl
  rw [TypeExpr.amounts, TypeExpr.amounts, hleast, hgreatest]
  simp [Value.amount?_int]

theorem Schema.weights_strictest :
    (∃ s, ofType [] weight = .ok s ∧
      (s.facets.minimum.map Value.float).bind Value.amount? = some 2 ∧
      (s.facets.maximum.map Value.float).bind Value.amount? = some 20) ∧
    ∃ s, ofType [] weights = .ok s ∧
      (s.facets.minItems.map Value.int).bind Value.amount? = some 2 ∧
      (s.facets.maxItems.map Value.int).bind Value.amount? = some 5 := by
  have hstrictest : [1, 2].max? = some (2 : ℚ) ∧ [30, 20].min? = some (20 : ℚ) ∧
      [2].max? = some (2 : ℚ) ∧ [8, 5].min? = some (5 : ℚ) := by
    norm_num [List.max?, List.min?]
  obtain ⟨h2, h20, h2', h5⟩ := hstrictest
  have hweight : weight.layered [] =
      [.ge (.float 1.0), .le (.float 30.0), .ge (.float 2.0), .lt (.float 20.0)] := rfl
  have hweights : weights.layered [] =
      [.minLength (.int 2), .maxLength (.int 8), .maxLength (.int 5)] := rfl
  obtain ⟨s, hs⟩ : ∃ s, ofType [] weight = .ok s := ⟨_, rfl⟩
  obtain ⟨s', hs'⟩ : ∃ s, ofType [] weights = .ok s := ⟨_, rfl⟩
  obtain ⟨hmin, hmax⟩ := (writes_strictest_iff hs).1 (.inr rfl) (by
    rw [hweight]
    simp only [List.forall_mem_cons]
    exact ⟨.ge (isDouble_float rfl), .le (isDouble_float rfl), .ge (isDouble_float rfl),
      .lt (isDouble_float rfl), by simp⟩)
  obtain ⟨hmin', hmax'⟩ := (writes_strictest_iff hs').2 .generic weight rfl (by
    rw [hweights]
    simp only [List.forall_mem_cons]
    exact ⟨.minLength 2, .maxLength 8, .maxLength 5, by simp⟩)
  rw [amounts_weight.1] at hmin
  rw [amounts_weight.2] at hmax
  rw [amounts_weights.1] at hmin'
  rw [amounts_weights.2] at hmax'
  -- In each list the last bound is the strictest.
  exact ⟨⟨s, hs, (hmin.strictest_iff.2 h2.symm).trans h2, (hmax.strictest_iff.2 h20.symm).trans h20⟩,
    s', hs', (hmin'.strictest_iff.2 h2'.symm).trans h2', (hmax'.strictest_iff.2 h5.symm).trans h5⟩

/-- A number that is at least one, or null, and where it is there at least five. -/
def atLeastFive : TypeExpr :=
  .annotated (.union [.annotated (.scalar .float) [.restriction (.ge (.float 1.0))], .null])
    [.restriction (.ge (.float 5.0))]

/-- The bound around null is lost, though it is stricter than the one inside. With both inside it is
written. -/
theorem Schema.weaker_inside_null :
    (∃ s, ofType [] atLeastFive = .ok s ∧ s.facets.minimum = some 1.0 ∧
      Restriction.ge (.float 5.0) ∈ atLeastFive.layered []) ∧
    ∃ s, ofType [] (.union [.annotated (.scalar .float)
      [.restriction (.ge (.float 1.0)), .restriction (.ge (.float 5.0))], .null]) = .ok s ∧
      s.facets.minimum = some 5.0 :=
  ⟨⟨_, rfl, rfl, List.mem_cons_self⟩, _, rfl, rfl⟩

end TypeWire
