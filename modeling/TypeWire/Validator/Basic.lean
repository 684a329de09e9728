import TypeWire.Coercion

/-!
# Validators

A validator takes data and answers with the data in the types that it asks for, or with the issues
that it has. `Validator.run` recurses on the validator; a list or a record reports the issues of all
its parts.

A union asks every member in order. The first that takes the data exactly answers; otherwise, of
those that take it, the one that fills most fields of records, then the one whose match is best, then
the first (`Accepted.best`).
-/

namespace TypeWire

/-- What a validator knows of a field beside the validator of its values. -/
structure FieldRule where
  key : String
  /-- What stands for an absent field; without it the field is required. -/
  default : Option Value := none
deriving Inhabited

/-- A validator. -/
inductive Validator where
  | text
  | bool
  | datetime
  | int (least greatest : Option Int)
  | float (least greatest : Option Float)
  | literal (texts : List String)
  | null
  | list (item : Validator) (shortest longest : Option Nat)
  | nullable (inner : Validator)
  | union (members : List Validator)
  | record (name : String) (fields : List (FieldRule × Validator))
deriving Inhabited

/-- Data that a validator takes: the value, how well it matches, and how many fields of records it
fills, if it has records. -/
structure Accepted where
  value : Value
  quality : Match := .exact
  filled : Option Nat := none
deriving Inhabited

namespace Accepted

/-- The number of fields filled by two parts together. -/
def addFilled : Option Nat → Option Nat → Option Nat
  | none, b => b
  | a, none => a
  | some a, some b => some (a + b)

/-- What parts amount to: the worst match and all fields filled. -/
def summary (quality : Match) (parts : List Accepted) : Match × Option Nat :=
  parts.foldl (fun (q, n) p => (q.min p.quality, addFilled n p.filled)) (quality, none)

/-- Whether an answer of a union's member settles the matter. -/
def isFinal (a : Accepted) : Bool := a.quality == .exact && a.filled.isNone

/-- Whether a later answer is better than the best so far. -/
def beats (best new : Accepted) : Bool :=
  match best.filled, new.filled with
  | some m, some n => if m = n then best.quality.rank < new.quality.rank else m < n
  | _, _ => best.quality.rank < new.quality.rank

/-- The best of the answers of a union's members. -/
def best (answers : List Accepted) : Option Accepted :=
  match answers.find? isFinal with
  | some a => some a
  | none =>
    answers.foldl
      (fun found a =>
        match found with
        | none => some a
        | some b => if b.beats a then some a else some b)
      none

end Accepted

namespace Validator

/-- The answer of a reader of scalars. -/
def ofScalar {α : Type} (result : Except Fault (α × Match)) (value : α → Value) :
    Except (List Issue) Accepted :=
  match result with
  | .ok (x, quality) => .ok { value := value x, quality }
  | .error fault => .error (Issue.here fault)

/-- A whole number within bounds; the greater bound is looked at first. -/
def checkInt (least greatest : Option Int) (n : Int) : Except Fault Unit :=
  if greatest.any (· < n) then .error .lessThanEqual
  else if least.any (n < ·) then .error .greaterThanEqual
  else .ok ()

/-- A double within bounds. What is no number lies within none. -/
def checkFloat (least greatest : Option Float) (x : Float) : Except Fault Unit :=
  if greatest.any (fun b => !(x ≤ b)) then .error .lessThanEqual
  else if least.any (fun b => !(b ≤ x)) then .error .greaterThanEqual
  else .ok ()

/-- Reads a whole number within bounds. -/
def boundedInt (least greatest : Option Int) (v : Value) : Except Fault (Int × Match) := do
  let (n, quality) ← Coercion.int v
  checkInt least greatest n
  return (n, quality)

/-- Reads a double within bounds. -/
def boundedFloat (least greatest : Option Float) (v : Value) : Except Fault (Float × Match) := do
  let (x, quality) ← Coercion.float v
  checkFloat least greatest x
  return (x, quality)

/-- One of the texts of a literal. -/
def oneOf (texts : List String) : Value → Except Fault (String × Match)
  | .str s => if texts.contains s then .ok (s, .exact) else .error .literalError
  | _ => .error .literalError

/-- The answers of the items of a list from a place on, or the issues of all of them. -/
def gather : Nat → List (Except (List Issue) Accepted) → Except (List Issue) (List Accepted)
  | _, [] => .ok []
  | i, r :: rs =>
    match r, gather (i + 1) rs with
    | .ok a, .ok as => .ok (a :: as)
    | r, rs => .error (Issue.under (.index i) (issuesOf r) ++ issuesOf rs)

/-- The items of data that is a list. -/
def itemsOf? : Value → Option (Match × List Value)
  | .list vs => some (.exact, vs)
  | .tuple vs => some (.lax, vs)
  | _ => none

/-- A list whose items are taken by `item`. Too long a list is not looked into; too short a list is
found so when its items are all taken. -/
def checkList (item : Value → Except (List Issue) Accepted) (shortest longest : Option Nat)
    (v : Value) : Except (List Issue) Accepted :=
  match itemsOf? v with
  | none => .error (Issue.here .listType)
  | some (quality, vs) =>
    if longest.any (· < vs.length) then .error (Issue.here .tooLong)
    else
      match gather 0 (vs.map item) with
      | .error issues => .error issues
      | .ok parts =>
        if shortest.any (vs.length < ·) then .error (Issue.here .tooShort)
        else
          let (quality, filled) := Accepted.summary quality parts
          .ok { value := .list (parts.map (·.value)), quality, filled }

/-- What the absence of a required field is reported as. A union reports every fault in one way. -/
def absence : Validator → Fault
  | .nullable inner => absence inner
  | .union _ => .union
  | _ => .missing

/-- A field as a validator takes it: its entry in the answer, and what was taken if data had it. -/
abbrev FieldAnswer := (String × Value) × Option Accepted

/-- The answer of a record: its fields in order. A record is made from a dictionary, which is a lax
match. -/
def recordAnswer (fields : List FieldAnswer) : Accepted :=
  let given := fields.filterMap (·.2)
  let (quality, filled) := Accepted.summary .lax given
  { value := .dict (fields.map fun ((k, v), _) => (.str k, v))
    quality
    filled := Accepted.addFilled filled (some given.length) }

mutual

/-- What the validator answers to data. -/
def run : Validator → Value → Except (List Issue) Accepted
  | .text, v => ofScalar (Coercion.text v) .str
  | .bool, v => ofScalar (Coercion.bool v) .bool
  | .datetime, v => ofScalar (Coercion.datetime v) .datetime
  | .int least greatest, v => ofScalar (boundedInt least greatest v) .int
  | .float least greatest, v => ofScalar (boundedFloat least greatest v) .float
  | .literal texts, v => ofScalar (oneOf texts v) .str
  | .null, v => if v.isNull then .ok { value := .null } else .error (Issue.here .literalError)
  | .nullable inner, v => if v.isNull then .ok { value := .null } else run inner v
  | .list item shortest longest, v => checkList (run item) shortest longest v
  | .union members, v =>
    match Accepted.best (runMembers members v) with
    | some a => .ok a
    | none => .error (Issue.here .union)
  | .record _ fields, v =>
    match v with
    | .dict entries => (runFields fields entries).map recordAnswer
    | _ => .error (Issue.here .modelType)

/-- The answers of the members of a union that take the data. -/
def runMembers : List Validator → Value → List Accepted
  | [], _ => []
  | m :: ms, v =>
    match run m v with
    | .ok a => a :: runMembers ms v
    | .error _ => runMembers ms v

/-- The answers of the fields of a record. A default is not looked at. -/
def runFields : List (FieldRule × Validator) → List (Value × Value) →
    Except (List Issue) (List FieldAnswer)
  | [], _ => .ok []
  | (rule, validator) :: rest, entries =>
    let answer : Except (List Issue) FieldAnswer :=
      match Value.lookup rule.key entries with
      | some v => (run validator v).map fun a => ((rule.key, a.value), some a)
      | none =>
        match rule.default with
        | some d => .ok ((rule.key, d), none)
        | none => .error (Issue.here (absence validator))
    match answer, runFields rest entries with
    | .ok a, .ok as => .ok (a :: as)
    | a, as => .error (Issue.under (.key rule.key) (issuesOf a) ++ issuesOf as)

end

/-- Whether a validator takes data. -/
def accepts (validator : Validator) (v : Value) : Bool := (validator.run v).isOk

end Validator

end TypeWire
