import TypeWire.Schema.Basic
import TypeWire.TypeExpr.Basic

/-!
# Induction over schemas and types

Schemas and type expressions are nested in lists, in pairs and in optional fields, so their own
recursors have a motive for each of these. The principles here have one motive and give the
hypothesis for a part by membership, whichever way the part is nested.
-/

namespace TypeWire

/-- A property of schemas holds of all if it holds of a schema whose parts have it. -/
@[induction_eliminator]
theorem Schema.induction {motive : Schema → Prop}
    (node : ∀ f items properties anyOf,
      (∀ s, items = some s → motive s) →
      (∀ ps, properties = some ps → ∀ p ∈ ps, motive p.2) →
      (∀ ms, anyOf = some ms → ∀ m ∈ ms, motive m) →
      motive (.node f items properties anyOf))
    (s : Schema) : motive s := by
  refine @Schema.rec motive
    (fun items => ∀ s, items = some s → motive s)
    (fun properties => ∀ ps, properties = some ps → ∀ p ∈ ps, motive p.2)
    (fun anyOf => ∀ ms, anyOf = some ms → ∀ m ∈ ms, motive m)
    (fun ps => ∀ p ∈ ps, motive p.2)
    (fun ms => ∀ m ∈ ms, motive m)
    (fun p => motive p.2)
    node ?noItems ?items ?noProperties ?properties ?noAnyOf ?anyOf
    ?noProperty ?property ?noMember ?member ?pair s
  case noItems => intro s h; cases h
  case items => intro s hs s' h; cases h; exact hs
  case noProperties => intro ps h; cases h
  case properties => intro ps hps ps' h; cases h; exact hps
  case noAnyOf => intro ms h; cases h
  case anyOf => intro ms hms ms' h; cases h; exact hms
  case noProperty => intro p h; cases h
  case property => intro p ps hp hps; exact List.forall_mem_cons.2 ⟨hp, hps⟩
  case noMember => intro m h; cases h
  case member => intro m ms hm hms; exact List.forall_mem_cons.2 ⟨hm, hms⟩
  case pair => intro k s hs; exact hs

/-- A property of type expressions holds of all if it holds of an expression whose parts have it. -/
@[induction_eliminator]
theorem TypeExpr.induction {motive : TypeExpr → Prop}
    (scalar : ∀ s, motive (.scalar s))
    (null : motive .null)
    (other : ∀ written shown, motive (.other written shown))
    (enumeration : ∀ e, motive (.enumeration e))
    (model : ∀ name, motive (.model name))
    (bareList : ∀ form, motive (.bareList form))
    (list : ∀ form item, motive item → motive (.list form item))
    (union : ∀ members, (∀ m ∈ members, motive m) → motive (.union members))
    (literal : ∀ values, motive (.literal values))
    (annotated : ∀ base metadata, motive base → motive (.annotated base metadata))
    (generic : ∀ written shown args, (∀ a ∈ args, motive a) → motive (.generic written shown args))
    (forward : ∀ name, motive (.forward name))
    (record : ∀ name doc fields, (∀ f ∈ fields, motive f.2) → motive (.record name doc fields))
    (t : TypeExpr) : motive t := by
  refine @TypeExpr.rec motive
    (fun ts => ∀ t ∈ ts, motive t)
    (fun fields => ∀ f ∈ fields, motive f.2)
    (fun f => motive f.2)
    scalar null other enumeration model bareList list union literal annotated generic forward record
    ?noType ?type ?noField ?field ?pair t
  case noType => intro t h; cases h
  case type => intro t ts ht hts; exact List.forall_mem_cons.2 ⟨ht, hts⟩
  case noField => intro f h; cases h
  case field => intro f fs hf hfs; exact List.forall_mem_cons.2 ⟨hf, hfs⟩
  case pair => intro f t ht; exact ht

end TypeWire
