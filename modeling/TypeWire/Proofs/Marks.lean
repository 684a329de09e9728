import TypeWire.Proofs.LastBound

/-!
# Marks of scalars

Nodes know numbers and texts only. Which number or text a scalar is, is said by a check of the node, its
mark (`Scalar.marks`). Metadata of unknown make (`Restriction.IsFreeForm`) is recorded as checks too,
under names of its own, and these stand among marks and bounds.

Where no such name is that of a mark or a bound, the schema tells the scalar that it was written for
(`Schema.tells_core`). Where one is, the schema can tell another: a number that may be no whole one is
written as an integer (`Schema.misread_number`).
-/

namespace TypeWire

/-- The checks that say which number or text a scalar is. -/
def Scalar.marks : Scalar → List Check
  | .int => [⟨"int", .null⟩]
  | .datetime => [⟨"date-time", .null⟩]
  | .date => [⟨"date", .null⟩]
  | .str | .float | .bool => []

namespace Check

/-- The kinds of checks that schemas of scalars are written from: marks and bounds. -/
def interpreted : List String := ["int", "date-time", "date", "min", "max"]

theorem has_append (kind : String) (cs ds : List Check) :
    has kind (cs ++ ds) = (has kind cs || has kind ds) := by
  simp [has]

theorem has_flatMap {kind : String} {rs : List Restriction} :
    has kind (rs.flatMap Restriction.checks) = true ↔ ∃ r ∈ rs, has kind r.checks = true := by
  simp [has]

end Check

namespace Restriction

/-- Metadata that is recorded under names of its own choice. -/
def IsFreeForm : Restriction → Prop
  | .named _ | .tagged _ _ => True
  | _ => False

/-- If the restriction chooses names, none of them is interpreted. -/
def KeepsApart (r : Restriction) : Prop :=
  r.IsFreeForm → ∀ c ∈ r.checks, c.kind ∉ Check.interpreted

/-- What is interpreted is then a bound, and never a mark. -/
theorem KeepsApart.bound_of_has {r : Restriction} (hr : r.KeepsApart) {kind : String}
    (hkind : kind ∈ Check.interpreted) (h : Check.has kind r.checks = true) :
    kind = "min" ∧ r.lowerBound?.isSome ∨ kind = "max" ∧ r.upperBound?.isSome := by
  obtain ⟨c, hc, rfl⟩ := Check.has_iff.1 h
  cases r with
  | named | tagged => exact absurd hkind (hr trivial c hc)
  | strict => cases hc
  | ge | gt =>
    obtain rfl := List.mem_singleton.1 hc
    exact .inl ⟨rfl, rfl⟩
  | le | lt =>
    obtain rfl := List.mem_singleton.1 hc
    exact .inr ⟨rfl, rfl⟩
  | minLength | maxLength | multipleOf =>
    obtain rfl := List.mem_singleton.1 hc
    simp [Check.interpreted] at hkind

end Restriction

namespace Schema

variable {models : List Model} {t : TypeExpr} {c : Scalar} {s : Schema}

/-- Inside its layers a scalar is a number or a text that has the marks of the scalar and the checks of
all layers. -/
theorem exists_node_of_scalar (hs : ofType models t = .ok s) (hcore : t.wrapped = .scalar c)
    (hbool : c ≠ .bool) : ∃ h, ((c = .int ∨ c = .float) ∧ ofNumber h = .ok s ∨
        (c ≠ .int ∧ c ≠ .float) ∧ ofString h = .ok s) ∧
      ∀ kind, Check.has kind h.checks = true ↔
        Check.has kind c.marks = true ∨ ∃ r ∈ t.layered [], Check.has kind r.checks = true := by
  obtain ⟨description, ms, discriminator, pre, nullable, hnode, hchecks⟩ := exists_core_of_ok hs
  have hscalar : Visit.written models ⟨[], .scalar c⟩ = .scalar c := rfl
  rw [hcore, hscalar, Node.read] at hnode
  rw [← Reading.checks_ofMetadata description discriminator] at hchecks
  have hlayers (own : List Check) (kind : String) : Check.has kind (pre ++
      (own ++ (Reading.ofMetadata description discriminator ms).checks)) = true ↔
        Check.has kind own = true ∨ ∃ r ∈ t.layered [], Check.has kind r.checks = true := by
    rw [← Check.has_flatMap, ← hchecks]
    simp only [Check.has_append, Bool.or_eq_true]
    exact or_left_comm
  cases c with
  | bool => exact absurd rfl hbool
  | int => exact ⟨_, .inl ⟨.inl rfl, hnode⟩, hlayers [_]⟩
  | float => exact ⟨_, .inl ⟨.inr rfl, hnode⟩, hlayers []⟩
  | str => exact ⟨_, .inr ⟨by decide, hnode⟩, hlayers []⟩
  | datetime | date => exact ⟨_, .inr ⟨by decide, hnode⟩, hlayers [_]⟩

/-- A bound that is written was given by a check. -/
theorem has_of_bound {kind name : String} {checks : List Check} {x : Option Float}
    (h : bound Coercion.float name (Check.last? kind checks) = .ok x) (hx : x.isSome) :
    Check.has kind checks = true := by
  cases hlast : Check.last? kind checks with
  | none =>
    rw [hlast] at h
    cases h
    cases hx
  | some v => exact Check.has_iff.2 ⟨_, Check.mem_of_last? hlast, rfl⟩

/-- The scalar can be told from the schema. -/
structure Tells (s : Schema) (c : Scalar) : Prop where
  integer : s.facets.type = some .integer ↔ c = .int
  number : s.facets.type = some .number ↔ c = .float
  text : s.facets.type = some .string ↔ c ≠ .int ∧ c ≠ .float
  time : s.facets.format = some "date-time" ↔ c = .datetime
  date : s.facets.format = some "date" ↔ c = .date

theorem tells_number {h : Head} {lo hi : Option Float} (hnumber : c = .int ∨ c = .float)
    (hint : Check.has "int" h.checks = true ↔ Check.has "int" c.marks = true) :
    Tells (leaf (modified h
      { type := some (if Check.has "int" h.checks then SchemaType.integer else .number)
        minimum := lo
        maximum := hi })) c := by
  rcases hnumber with rfl | rfl
  · have hint' : Check.has "int" h.checks = true := hint.2 rfl
    rw [hint']
    constructor <;> simp [facets, leaf, modified]
  · have hint' : Check.has "int" h.checks = false := by simpa [Check.has, Scalar.marks] using hint
    rw [hint']
    constructor <;> simp [facets, leaf, modified]

theorem tells_text {h : Head} (htext : c ≠ .int ∧ c ≠ .float) (hbool : c ≠ .bool)
    (htime : Check.has "date-time" h.checks = true ↔ Check.has "date-time" c.marks = true)
    (hdate : Check.has "date" h.checks = true ↔ Check.has "date" c.marks = true) :
    Tells (leaf (modified h
      { type := some .string
        format :=
          if Check.has "date-time" h.checks then some "date-time"
          else if Check.has "date" h.checks then some "date"
          else none })) c := by
  rw [← Bool.eq_iff_iff] at htime hdate
  rw [htime, hdate]
  cases c with
  | int => exact absurd rfl htext.1
  | float => exact absurd rfl htext.2
  | bool => exact absurd rfl hbool
  | str | datetime | date =>
    constructor <;> simp [facets, leaf, modified, Check.has, Scalar.marks]

/-- The schema of a scalar in layers tells the scalar and has no bounds but given ones, as long as
free-form metadata takes no name of a mark or a bound. -/
theorem tells_core (hs : ofType models t = .ok s) (hcore : t.wrapped = .scalar c)
    (hbool : c ≠ .bool) (hapart : ∀ r ∈ t.layered [], r.KeepsApart) :
    s.Tells c ∧
      (s.facets.minimum.isSome → ∃ r ∈ t.layered [], r.lowerBound?.isSome) ∧
      (s.facets.maximum.isSome → ∃ r ∈ t.layered [], r.upperBound?.isSome) := by
  obtain ⟨h, hnode, hhas⟩ := exists_node_of_scalar hs hcore hbool
  have hgiven {kind : String} (hkind : kind ∈ Check.interpreted)
      (hmarks : Check.has kind c.marks = false) (h' : Check.has kind h.checks = true) :
      ∃ r ∈ t.layered [],
        kind = "min" ∧ r.lowerBound?.isSome ∨ kind = "max" ∧ r.upperBound?.isSome := by
    rcases (hhas kind).1 h' with hown | ⟨r, hr, hrkind⟩
    · rw [hmarks] at hown
      cases hown
    · exact ⟨r, hr, (hapart r hr).bound_of_has hkind hrkind⟩
  have hmark {kind : String} (hkind : kind ∈ Check.interpreted) (hmin : kind ≠ "min")
      (hmax : kind ≠ "max") :
      Check.has kind h.checks = true ↔ Check.has kind c.marks = true := by
    refine ⟨fun h' => ?_, fun hown => (hhas kind).2 (.inl hown)⟩
    by_contra hown
    obtain ⟨r, -, hbound⟩ := hgiven hkind (by simpa using hown) h'
    simp [hmin, hmax] at hbound
  have hbounds {kind : String} (hkind : kind = "min" ∨ kind = "max") :
      Check.has kind c.marks = false := by
    rcases hkind with rfl | rfl <;> cases c <;> rfl
  rcases hnode with ⟨hnumber, hnode⟩ | ⟨htext, hnode⟩
  · obtain ⟨-, lo, hi, hlo, hhi, rfl⟩ := ofNumber_ok.1 hnode
    refine ⟨tells_number hnumber (hmark (by decide) (by decide) (by decide)), fun hx => ?_,
      fun hx => ?_⟩
    · obtain ⟨r, hr, hbound⟩ := hgiven (by decide) (hbounds (.inl rfl)) (has_of_bound hlo hx)
      exact ⟨r, hr, by simpa using hbound⟩
    · obtain ⟨r, hr, hbound⟩ := hgiven (by decide) (hbounds (.inr rfl)) (has_of_bound hhi hx)
      exact ⟨r, hr, by simpa using hbound⟩
  · obtain ⟨-, rfl⟩ := ofString_ok.1 hnode
    refine ⟨tells_text htext hbool (hmark (by decide) (by decide) (by decide))
      (hmark (by decide) (by decide) (by decide)), ?_, ?_⟩
    · intro hx
      cases hx
    · intro hx
      cases hx

/-- A count that may be missing. Its layers have a bound, a description and a note without a value. -/
def counted : TypeExpr :=
  .annotated
    (.union [.annotated (.scalar .int)
      [.field { description := some (some "How many."), ge := some (.int 0) }], .null])
    [.restriction (.named [("note", .null)])]

theorem counted_tells : ∃ s, ofType [] counted = .ok s ∧ s.Tells .int ∧ s.facets.minimum.isSome ∧
    ∃ r ∈ counted.layered [], r.lowerBound?.isSome := by
  obtain ⟨s, hs, hmin⟩ : ∃ s, ofType [] counted = .ok s ∧ s.facets.minimum.isSome := ⟨_, rfl, rfl⟩
  have hlayers : counted.layered [] = [.named [("note", .null)], .ge (.int 0)] := rfl
  have hapart : ∀ r ∈ counted.layered [], r.KeepsApart := by
    rw [hlayers]
    simp [Restriction.KeepsApart, Restriction.checks, Restriction.IsFreeForm, Value.isNull]
  obtain ⟨htells, hlower, -⟩ := tells_core hs rfl (by decide) hapart
  exact ⟨s, hs, htells, hmin, hlower hmin⟩

/-- A whole number among the metadata of a real one is recorded under the name of its class, which is
the mark of integers. -/
theorem misread_number : ∃ s,
    ofType [] (.annotated (.scalar .float) [.restriction (.tagged "int" (.int 5))]) = .ok s ∧
      s.facets.type = some .integer ∧ ¬ s.Tells .float := by
  refine ⟨_, rfl, rfl, fun h => ?_⟩
  have hinteger := h.integer.1 rfl
  cases hinteger

end Schema

end TypeWire
