import TypeWire.TypeExpr.Basic

/-!
# Constructions that are remembered

Types are put together by three constructions: a union of its members, a type with null, a type with
metadata (`Construction`). For a while it is remembered what was constructed (`TypeCache`), and a
construction that equals an earlier one gives what the earlier one gave.

Equal types need not be the same: unions and literals are equal in whatever order their members stand.
So what a construction gives can differ from `Construction.result`, which is what it gives if nothing is
remembered, in the order of what it is made from.
-/

namespace TypeWire

/-- A construction of a type from types. -/
inductive Construction where
  | union (members : List TypeExpr)
  | optional (type : TypeExpr)
  | annotated (type : TypeExpr) (metadata : List Meta)
deriving Inhabited

namespace Construction

/-- What is constructed if nothing is remembered. -/
def result : Construction → TypeExpr
  | union ts => .unionOf ts
  | optional t => t.optionalOf
  | annotated t metadata => t.annotate metadata

/-- Whether two constructions are taken for one: they are of one kind and made from equal parts. -/
def equals : Construction → Construction → Bool
  | union ts, union us => TypeExpr.allEqual ts us
  | optional t, optional u => t.equals u
  | annotated t ms, annotated u ns => t.equals u && Meta.allEqual ms ns
  | _, _ => false

end Construction

/-- Constructions and what they gave, the last used first. -/
abbrev Remembered := List (Construction × TypeExpr)

namespace Remembered

/-- How many constructions of a kind are remembered. -/
def limit : Nat := 128

/-- What a construction gives: what an equal one gave, which is the last used then, or else what it
builds, with what was remembered on the way. -/
def lookUp (c : Construction) (build : Remembered → TypeExpr × Remembered) (known : Remembered) :
    TypeExpr × Remembered :=
  match known.find? fun e => c.equals e.1 with
  | some e => (e.2, e :: known.eraseP fun e => c.equals e.1)
  | none =>
    let (t, known) := build known
    (t, ((c, t) :: known).take limit)

/-- What a construction gives that is made from its parts if no equal one is remembered. -/
def lookUpOrMake (c : Construction) (known : Remembered) : TypeExpr × Remembered :=
  lookUp c (fun known => (c.result, known)) known

end Remembered

/-- What is remembered of constructions. Annotated types are remembered apart from the others. -/
structure TypeCache where
  unions : Remembered := []
  annotated : Remembered := []
deriving Inhabited

/-- What a construction gives, and what is remembered after it. A type with null is a union with null,
which is remembered as well. -/
def TypeCache.make (cache : TypeCache) (c : Construction) : TypeExpr × TypeCache :=
  match c with
  | .annotated _ _ =>
    let (t, annotated) := Remembered.lookUpOrMake c cache.annotated
    (t, { cache with annotated })
  | .union _ =>
    let (t, unions) := Remembered.lookUpOrMake c cache.unions
    (t, { cache with unions })
  | .optional t =>
    let (t, unions) := Remembered.lookUp c (Remembered.lookUpOrMake (.union [t, .null])) cache.unions
    (t, { cache with unions })

end TypeWire
