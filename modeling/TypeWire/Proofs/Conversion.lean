import Mathlib.Data.List.Forall2
import TypeWire.Proofs.Induction
import TypeWire.TypeExpr.OfSchema

/-!
# Conversions side by side

`TypeExpr.convert` leaves open how types are put together, and in which monad. The equations here say
what it does with a schema of each shape, whatever the monad.

Two conversions of a schema that put types together in related ways lead to related types
(`Simulation.Preserves.rel_convert`). A `Simulation` relates computations in two monads for each relation
of their results; all that is asked of it is that it goes along `pure`, `bind` and `throw`. What puts
types together may be related by what was put together before, so a simulation can speak of the states
that the monads carry along.
-/

namespace TypeWire

/-- A schema is a union of at least one member, or none. -/
theorem members_cases (anyOf : Option (List Schema)) :
    (∃ m ms, anyOf = some (m :: ms)) ∨ anyOf.getD [] = [] := by
  rcases anyOf with _ | _ | ⟨m, ms⟩
  · exact .inr rfl
  · exact .inr rfl
  · exact .inl ⟨m, ms, rfl⟩

namespace TypeExpr

/-! ## Conversion by shape -/

section shapes

variable {m : Type → Type} [Monad m] [MonadExceptOf SchemaError m] {make : Construction → m TypeExpr}
  {name : String} {f : Facets} {items : Option Schema} {properties : Option (List (String × Schema))}
  {anyOf : Option (List Schema)}

theorem convert_union {s : Schema} {rest : List Schema} :
    convert make name (.node f items properties (some (s :: rest))) =
      convert make (name ++ "_0") s >>= fun t => convertMembers make name 1 rest >>= fun ts =>
        make (.union (t :: ts)) >>= fun u => modify make f u [] := by
  rw [convert]

/-- A union without members is none. -/
theorem convert_of_nil (hnil : anyOf.getD [] = []) :
    convert make name (.node f items properties anyOf) =
      convert make name (.node f items properties none) := by
  rcases anyOf with _ | _ | ⟨s, rest⟩
  · rfl
  · unfold convert
    rfl
  · cases hnil

variable (hnil : anyOf.getD [] = [])
include hnil

theorem convert_text (htype : f.type = some .string) :
    convert make name (.node f items properties anyOf) = modify make f (textBase f) [] := by
  rw [convert_of_nil hnil]
  unfold convert
  simp only [htype]

theorem convert_number (htype : f.type = some .number) :
    convert make name (.node f items properties anyOf) =
      modify make f (scalar .float) (bounds f.minimum f.maximum) := by
  rw [convert_of_nil hnil]
  unfold convert
  simp only [htype]

theorem convert_integer (htype : f.type = some .integer) :
    convert make name (.node f items properties anyOf) =
      modify make f (scalar .int) (bounds f.minimum f.maximum) := by
  rw [convert_of_nil hnil]
  unfold convert
  simp only [htype]

theorem convert_boolean (htype : f.type = some .boolean) :
    convert make name (.node f items properties anyOf) = modify make f (scalar .bool) [] := by
  rw [convert_of_nil hnil]
  unfold convert
  simp only [htype]

theorem convert_array {i : Schema} (htype : f.type = some .array) :
    convert make name (.node f (some i) properties anyOf) =
      convert make (name ++ "_item") i >>= fun item =>
        modify make f (list .builtin item) (lengths f.minItems f.maxItems) := by
  rw [convert_of_nil hnil]
  conv => lhs; unfold convert
  simp only [htype]

theorem convert_undescribed (htype : f.type = some .array) :
    convert make name (.node f none properties anyOf) = throw .undescribedItems := by
  rw [convert_of_nil hnil]
  unfold convert
  simp only [htype]

theorem convert_object (htype : f.type = some .object) :
    convert make name (.node f items properties anyOf) =
      convertProperties make name (properties.getD []) >>= fun types =>
        MonadExcept.ofExcept (recordOf name f types) >>= allowNull make f.nullable := by
  rw [convert_of_nil hnil]
  unfold convert
  cases properties <;> simp only [htype] <;> rfl

theorem convert_untyped (htype : f.type = none) :
    convert make name (.node f items properties anyOf) = throw .untyped := by
  rw [convert_of_nil hnil]
  unfold convert
  simp only [htype]

end shapes

/-! ## Related conversions -/

/-- Results that are both there and related, or errors that are related. -/
inductive SameResult {α β : Type} (E : SchemaError → SchemaError → Prop) (V : α → β → Prop) :
    Except SchemaError α → Except SchemaError β → Prop
  | ok {a : α} {b : β} : V a b → SameResult E V (.ok a) (.ok b)
  | error {e e' : SchemaError} : E e e' → SameResult E V (.error e) (.error e')

/-- What a schema says of related types beside their shape: bounds of numbers, lengths of lists. -/
inductive Restricted (V : TypeExpr → TypeExpr → Prop) : TypeExpr → TypeExpr → List Meta → Prop
  | plain {t u : TypeExpr} : V t u → Restricted V t u []
  | bounded {s : Scalar} (lo hi : Option Float) : s = .int ∨ s = .float →
      Restricted V (.scalar s) (.scalar s) (bounds lo hi)
  | sized {t u : TypeExpr} (lo hi : Option Int) : V t u →
      Restricted V (.list .builtin t) (.list .builtin u) (lengths lo hi)

section simulation

variable {m n : Type → Type} [Monad m] [MonadExceptOf SchemaError m] [Monad n]
  [MonadExceptOf SchemaError n]

variable (m n) in
/-- A relation of computations in two monads, for each relation of their results. -/
structure Simulation where
  Rel {α β : Type} (V : α → β → Prop) (x : m α) (y : n β) : Prop
  SameError (e e' : SchemaError) : Prop
  pure {α β : Type} {V : α → β → Prop} {a : α} {b : β} : V a b → Rel V (pure a) (pure b)
  bind {α β γ δ : Type} {V : α → β → Prop} {W : γ → δ → Prop} {x : m α} {y : n β} {f : α → m γ}
    {g : β → n δ} : Rel V x y → (∀ a b, V a b → Rel W (f a) (g b)) → Rel W (x >>= f) (y >>= g)
  throw {α β : Type} {V : α → β → Prop} {e e' : SchemaError} : SameError e e' →
    Rel V (throw e : m α) (throw e' : n β)
  refl (e : SchemaError) : SameError e e

theorem SameResult.eq {α : Type} {x y : Except SchemaError α} (h : SameResult Eq Eq x y) : x = y := by
  cases h with
  | ok h => exact congrArg Except.ok h
  | error h => exact congrArg Except.error h

theorem SameResult.exists_ok {α β : Type} {E : SchemaError → SchemaError → Prop} {V : α → β → Prop}
    {a : α} {y : Except SchemaError β} (h : SameResult E V (.ok a) y) : ∃ b, y = .ok b ∧ V a b := by
  cases h with
  | ok hab => exact ⟨_, rfl, hab⟩

namespace Simulation

variable (S : Simulation m n) {V : TypeExpr → TypeExpr → Prop} {make : Construction → m TypeExpr}
  {make' : Construction → n TypeExpr}

variable (V make make') in
/-- The types that are put together from related types are related. -/
structure Preserves : Prop where
  scalar (s : Scalar) : V (.scalar s) (.scalar s)
  text (f : Facets) : V (textBase f) (textBase f)
  list {t u : TypeExpr} : V t u → V (.list .builtin t) (.list .builtin u)
  record (name : String) (f : Facets) {types types' : List (String × TypeExpr)} :
    List.Forall₂ (fun p q => p.1 = q.1 ∧ V p.2 q.2) types types' →
      SameResult S.SameError V (recordOf name f types) (recordOf name f types')
  union {ts us : List TypeExpr} : List.Forall₂ V ts us →
    S.Rel V (make (.union ts)) (make' (.union us))
  optional {t u : TypeExpr} : V t u → S.Rel V (make (.optional t)) (make' (.optional u))
  annotated {t u : TypeExpr} {ms : List Meta} (description : Option String) : Restricted V t u ms →
    withDescription ms description ≠ [] →
      S.Rel V (make (.annotated t (withDescription ms description)))
        (make' (.annotated u (withDescription ms description)))

/-- What puts the same types together preserves equality. -/
theorem preserves_eq (h : ∀ c, S.Rel Eq (make c) (make' c)) : S.Preserves Eq make make' where
  scalar _ := rfl
  text _ := rfl
  list := congrArg _
  record name f types types' htypes := by
    have heq : types = types' := by
      rw [← List.forall₂_eq_eq_eq]
      exact htypes.imp fun p q h => Prod.ext h.1 h.2
    rw [heq]
    cases recordOf name f types' with
    | ok t => exact .ok rfl
    | error e => exact .error (S.refl e)
  union hts := by
    rw [List.forall₂_eq_eq_eq] at hts
    exact hts ▸ h _
  optional htu := htu ▸ h _
  annotated {t u ms} description hr _ := by
    have heq : t = u := by
      cases hr with
      | plain htu => exact htu
      | bounded => rfl
      | sized _ _ htu => exact congrArg _ htu
    exact heq ▸ h _

theorem rel_members {ms : List Schema}
    (hms : ∀ s ∈ ms, ∀ name, S.Rel V (convert make name s) (convert make' name s)) (name : String) :
    ∀ i, S.Rel (List.Forall₂ V) (convertMembers make name i ms) (convertMembers make' name i ms) := by
  induction ms with
  | nil => exact fun i => S.pure .nil
  | cons s ms ih =>
    intro i
    obtain ⟨hs, hms⟩ := List.forall_mem_cons.1 hms
    refine S.bind (hs _) fun t u htu => ?_
    exact S.bind (ih hms (i + 1)) fun ts us htus => S.pure (.cons htu htus)

theorem rel_properties {ps : List (String × Schema)}
    (hps : ∀ p ∈ ps, ∀ name, S.Rel V (convert make name p.2) (convert make' name p.2))
    (name : String) : S.Rel (List.Forall₂ fun p q => p.1 = q.1 ∧ V p.2 q.2)
      (convertProperties make name ps) (convertProperties make' name ps) := by
  induction ps with
  | nil => exact S.pure .nil
  | cons p ps ih =>
    obtain ⟨hp, hps⟩ := List.forall_mem_cons.1 hps
    refine S.bind (hp _) fun t u htu => ?_
    exact S.bind (ih hps) fun ts us htus => S.pure (.cons ⟨rfl, htu⟩ htus)

variable {S} (h : S.Preserves V make make')
include h

theorem Preserves.of_restricted {t u : TypeExpr} {ms : List Meta} (hr : Restricted V t u ms) :
    V t u := by
  cases hr with
  | plain htu => exact htu
  | bounded => exact h.scalar _
  | sized _ _ htu => exact h.list htu

theorem Preserves.rel_describe {t u : TypeExpr} {ms : List Meta} (hr : Restricted V t u ms)
    (description : Option String) :
    S.Rel V (describe make t description ms) (describe make' u description ms) := by
  unfold describe
  split
  · exact S.pure (h.of_restricted hr)
  · exact h.annotated description hr ‹_›

theorem Preserves.rel_allowNull (nullable : Option Bool) {t u : TypeExpr} (htu : V t u) :
    S.Rel V (allowNull make nullable t) (allowNull make' nullable u) := by
  unfold allowNull
  split
  · exact h.optional htu
  · exact S.pure htu

theorem Preserves.rel_modify (f : Facets) {t u : TypeExpr} {ms : List Meta}
    (hr : Restricted V t u ms) : S.Rel V (modify make f t ms) (modify make' f u ms) :=
  S.bind (h.rel_describe hr f.description) fun _ _ => h.rel_allowNull f.nullable

theorem Preserves.rel_record (name : String) (f : Facets) {types types' : List (String × TypeExpr)}
    (htypes : List.Forall₂ (fun p q => p.1 = q.1 ∧ V p.2 q.2) types types') :
    S.Rel V (MonadExcept.ofExcept (recordOf name f types))
      (MonadExcept.ofExcept (recordOf name f types')) := by
  have hrecord := h.record name f htypes
  generalize recordOf name f types = x at hrecord
  generalize recordOf name f types' = y at hrecord
  cases hrecord with
  | ok hab => exact S.pure hab
  | error he => exact S.throw he

/-- Conversions that put types together in related ways are related. -/
theorem Preserves.rel_convert (s : Schema) :
    ∀ name, S.Rel V (convert make name s) (convert make' name s) := by
  induction s with
  | node f items properties anyOf ihItems ihProperties ihAnyOf =>
    intro name
    rcases members_cases anyOf with ⟨s, rest, rfl⟩ | hnil
    · obtain ⟨hs, hrest⟩ := List.forall_mem_cons.1 (ihAnyOf _ rfl)
      rw [convert_union, convert_union]
      refine S.bind (hs _) fun t u htu => S.bind (S.rel_members hrest name 1) fun ts us htus => ?_
      exact S.bind (h.union (.cons htu htus)) fun a b hab => h.rel_modify f (.plain hab)
    rcases htype : f.type with _ | _ | _ | _ | _ | _ | _
    case none =>
      rw [convert_untyped hnil htype, convert_untyped hnil htype]
      exact S.throw (S.refl _)
    case some.string =>
      rw [convert_text hnil htype, convert_text hnil htype]
      exact h.rel_modify f (.plain (h.text f))
    case some.number =>
      rw [convert_number hnil htype, convert_number hnil htype]
      exact h.rel_modify f (.bounded _ _ (.inr rfl))
    case some.integer =>
      rw [convert_integer hnil htype, convert_integer hnil htype]
      exact h.rel_modify f (.bounded _ _ (.inl rfl))
    case some.boolean =>
      rw [convert_boolean hnil htype, convert_boolean hnil htype]
      exact h.rel_modify f (.plain (h.scalar _))
    case some.array =>
      cases items with
      | none =>
        rw [convert_undescribed hnil htype, convert_undescribed hnil htype]
        exact S.throw (S.refl _)
      | some i =>
        rw [convert_array hnil htype, convert_array hnil htype]
        exact S.bind (ihItems i rfl _) fun t u htu => h.rel_modify f (.sized _ _ htu)
    case some.object =>
      have hps : ∀ p ∈ properties.getD [], ∀ name,
          S.Rel V (convert make name p.2) (convert make' name p.2) := by
        cases properties with
        | none => exact List.forall_mem_nil _
        | some ps => exact ihProperties ps rfl
      rw [convert_object hnil htype, convert_object hnil htype]
      refine S.bind (S.rel_properties hps name) fun types types' htypes => ?_
      exact S.bind (h.rel_record name f htypes) fun t u => h.rel_allowNull f.nullable

end Simulation

end simulation

end TypeExpr

end TypeWire
