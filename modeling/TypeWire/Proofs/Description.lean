import TypeWire.Proofs.Places
import TypeWire.Proofs.LastBound

/-!
# Descriptions

A description can be given at each layer around a type, at a field and in a docstring. Of those that
are given to one node the outermost counts that is not empty (`Occurrence.description`): descriptions
go down as an argument, those of metadata come on the way, and a docstring is asked for last.

That a description does not go further down is the other half. `Occurrence.parts` says which types
inspection meets next and what it takes along, which is nothing but the description of a field for the
field itself. So `Occurrence.at?` says what stands at a place and how it is described there, and nodes
and schemas agree with it (`Schema.described_at`).
-/

namespace TypeWire

open Visit (written)

/-! ## The descriptions of a type -/

def Meta.description? : Meta → Option String
  | .field spec => spec.description.join
  | _ => none

namespace TypeExpr

mutual

/-- The descriptions in the layers of a type, from the outside in; within a layer the last comes
first. -/
def descriptions : TypeExpr → List String
  | .annotated base ms =>
    ((Meta.flattenAll ms).filterMap Meta.description?).reverse ++ descriptions base
  | .union members =>
    if (members.filter fun m => !m.isNull).length = 1 then descriptionsSole members else []
  | _ => []

def descriptionsSole : List TypeExpr → List String
  | [] => []
  | m :: ms => if m.isNull then descriptionsSole ms else descriptions m

end

theorem descriptionsSole_eq {members : List TypeExpr} {m : TypeExpr}
    (h : members.filter (fun m => !m.isNull) = [m]) : descriptionsSole members = m.descriptions :=
  sole_eq (fun m ms => by rw [descriptionsSole]) h

theorem descriptions_sole {members : List TypeExpr} {m : TypeExpr}
    (h : members.filter (fun m => !m.isNull) = [m]) :
    (union members).descriptions = m.descriptions := by
  rw [descriptions, if_pos (by rw [h, List.length_singleton]), descriptionsSole_eq h]

theorem descriptions_union {members : List TypeExpr}
    (h : (members.filter fun m => !m.isNull).length ≠ 1) : (union members).descriptions = [] := by
  rw [descriptions, if_neg h]

/-- The docstring of a model that is not open. -/
def docstring? (models : List Model) (active : List String) : TypeExpr → Option String
  | .model name => if name ∈ active then none else (Model.find? models name).bind Model.doc
  | .record _ doc _ => doc
  | _ => none

end TypeExpr

/-- A type that inspection meets, under the description of a field around it. -/
structure Occurrence extends Visit where
  outer : Option String := none

namespace Occurrence

/-- The text that describes the type where it occurs: the first description from the outside in that is
not empty, and where there is none the docstring. -/
def description (models : List Model) (o : Occurrence) : Option String :=
  (o.outer.toList ++ o.type.descriptions).find? (· != "") <|>
    (nonEmpty (o.type.wrapped.docstring? models o.active)).map Text.cleanDocstring

def ofField (active : List String) (f : Field × TypeExpr) : Occurrence :=
  ⟨⟨active, .ofField f⟩, f.1.description⟩

/-- The fields that inspection meets next, and the models that are open around them. -/
def fields (models : List Model) (o : Occurrence) : List String × List (Field × TypeExpr) :=
  match o.type.wrapped with
  | .model name =>
    if name ∈ o.active then (o.active, [])
    else (name :: o.active, ((Model.find? models name).map Model.fields).getD [])
  | .record _ _ fields => (o.active, fields)
  | _ => (o.active, [])

/-- What inspection meets next inside the layers. -/
def parts (models : List Model) (o : Occurrence) : List Occurrence :=
  match o.type.wrapped with
  | .bareList _ => [{ active := o.active, type := .other "Any" "Any" }]
  | .list _ item => [{ active := o.active, type := item }]
  | .union members =>
    (members.filter fun m => !m.isNull).map fun m => { active := o.active, type := m }
  | _ => (o.fields models).2.map (ofField (o.fields models).1)

def names (models : List Model) (o : Occurrence) : List String :=
  (o.fields models).2.map fun f => f.1.wireName

/-- What occurs at a place, which is given by the way to it. -/
def at? (models : List Model) : Occurrence → List Nat → Option Occurrence
  | o, [] => some o
  | o, i :: path => (o.parts models)[i]? >>= (at? models · path)

end Occurrence

/-! ## The description that is read -/

theorem nonEmpty_eq_find? (d : Option String) : nonEmpty d = d.toList.find? (· != "") := by
  cases d with
  | none => rfl
  | some d => by_cases hd : d = "" <;> simp [nonEmpty, Option.filter_some, hd]

theorem Reading.described_eq (ms : List Meta) : described ms =
    ((Meta.flattenAll ms).filterMap Meta.description?).reverse.find? (· != "") := by
  unfold described
  generalize Meta.flattenAll ms = items
  induction items with
  | nil => rfl
  | cons m items ih =>
    -- an item is read before those behind it, which go before it where they describe
    have hitem : (step {} m).description = (Meta.description? m).toList.find? (· != "") := by
      rw [← nonEmpty_eq_find?]
      cases m <;> simp [step, Meta.description?, nonEmpty]
    have hcons : (m :: items).filterMap Meta.description? =
        (Meta.description? m).toList ++ items.filterMap Meta.description? := by
      cases h : Meta.description? m <;> simp [h]
    have hone : (Meta.description? m).toList.reverse = (Meta.description? m).toList := by
      cases Meta.description? m <;> rfl
    rw [List.foldl_cons, description_foldl_step, ih, hitem, hcons, List.reverse_append,
      List.find?_append, hone, Option.orElse_eq_orElse, Option.orElse_eq_or]

namespace Visit

variable {models : List Model} {a : List String}

theorem descriptions_written (t : TypeExpr) :
    (written models ⟨a, t⟩).descriptions = t.descriptions := by
  induction t with
  | model name =>
    rcases written_model models a name with h | ⟨doc, fields, h⟩ <;> rw [h] <;> rfl
  | annotated base metadata ih =>
    show TypeExpr.descriptions (.annotated (written models ⟨a, base⟩) metadata) = _
    rw [TypeExpr.descriptions, TypeExpr.descriptions, ih]
  | union members ih =>
    rw [written_union]
    obtain ⟨m, hmem, hm⟩ | hlen := TypeExpr.sole_or_variants members
    · rw [TypeExpr.descriptions_sole (filter_written_sole hm models a),
        TypeExpr.descriptions_sole hm, ih m hmem]
    · rw [TypeExpr.descriptions_union hlen,
        TypeExpr.descriptions_union (by rwa [length_filter_written])]
  | _ => rfl

theorem docstring?_written {t : TypeExpr} (h : Sound models ⟨a, t⟩) :
    (written models ⟨a, t⟩).docstring? [] [] = t.docstring? models a := by
  cases t with
  | model name =>
    rw [TypeExpr.docstring?]
    by_cases hname : name ∈ a
    · rw [written_of_mem models hname, if_pos hname]
      rfl
    · rw [if_neg hname]
      cases hm : Model.find? models name with
      | none =>
        rw [written_of_find?_eq_none hm]
        rfl
      | some m =>
        rw [written_of_find? h hname hm]
        rfl
  | _ => rfl

end Visit

namespace Node

theorem description_ofLiteral (r : Reading) (values : List Value) :
    (ofLiteral r values).head.description = r.description := by
  rcases ofLiteral_cases values with h | ⟨nullable, members, -, h | h⟩ <;> rw [h] <;> rfl

/-- A type is described from outside, else by its layers, else by its docstring. -/
theorem description_read (t : TypeExpr) : ∀ (description : Option String) (ms : List Meta)
    (discriminator : Option String), (read description ms discriminator t).head.description =
      ((Reading.ofMetadata description discriminator ms).description <|>
        t.descriptions.find? (· != "") <|>
          (nonEmpty (t.wrapped.docstring? [] [])).map Text.cleanDocstring) := by
  have hcore (d : Option String) : d = (d <|> none <|> none) := by cases d <;> rfl
  induction t with
  | annotated base inner ih =>
    intro description ms discriminator
    rw [read, ih, TypeExpr.wrapped, TypeExpr.descriptions, List.find?_append,
      ← Reading.described_eq]
    simp only [Reading.description_ofMetadata, Reading.described_append,
      Option.orElse_eq_orElse, Option.orElse_eq_or, Option.or_assoc]
  | union members ih =>
    intro description ms discriminator
    obtain ⟨m, hmem, hm⟩ | hlen := TypeExpr.sole_or_variants members
    · rw [read_sole hm, under, head_withHead, ih m hmem, Reading.ofMetadata_nil,
        Reading.nonEmpty_description, TypeExpr.wrapped_sole hm, TypeExpr.descriptions_sole hm]
    · rw [read_variants hlen, TypeExpr.wrapped_union hlen, TypeExpr.descriptions_union hlen]
      exact hcore _
  | record name doc fields => exact fun _ _ _ => rfl
  | literal values =>
    intro description ms discriminator
    rw [read, description_ofLiteral]
    exact hcore _
  | scalar s =>
    intro description ms discriminator
    cases s <;> exact hcore _
  | _ =>
    intro description ms discriminator
    exact hcore _

end Node

/-! ## Nodes where types occur -/

/-- Inside the layers of a type no node is shared. -/
theorem Visit.isCore_wrapped (models : List Model) (a : List String) (t : TypeExpr) :
    IsCore models ⟨a, t.wrapped⟩ := by
  induction t with
  | annotated base metadata ih => exact ih
  | union members ih =>
    obtain ⟨m, hmem, hm⟩ | hlen := TypeExpr.sole_or_variants members
    · rw [TypeExpr.wrapped_sole hm]
      exact ih m hmem
    · rw [TypeExpr.wrapped_union hlen]
      intro w hcall
      cases hcall with
      | sole hm => exact hlen (by rw [hm, List.length_singleton])
  | _ => intro w hcall; cases hcall

namespace Occurrence

variable {models : List Model} {o : Occurrence} {n : Node}

/-- The node is read from the type as it occurs, with no description from outside but that of a field,
and may have been marked as one that can be left out. -/
def Makes (models : List Model) (o : Occurrence) (n : Node) : Prop :=
  o.Sound models ∧ ∃ discriminator isOptional,
    n = (Node.read o.outer [] discriminator (o.written models)).withHead
      { (Node.read o.outer [] discriminator (o.written models)).head with isOptional }

theorem Makes.description_eq (h : o.Makes models n) :
    n.head.description = o.description models := by
  obtain ⟨hsound, discriminator, isOptional, rfl⟩ := h
  have hcore : Visit.Sound models ⟨o.active, o.type.wrapped⟩ := ⟨hsound.nodup, hsound.declared⟩
  rw [Node.head_withHead, Node.description_read, Reading.ofMetadata_nil, nonEmpty_eq_find?,
    Visit.descriptions_written, Visit.wrapped_written, Visit.docstring?_written hcore, description,
    List.find?_append]
  simp only [Option.orElse_eq_orElse, Option.orElse_eq_or, Option.or_assoc]

theorem makes_inside {a : List String} {t : TypeExpr} (h : Visit.Sound models ⟨a, t⟩) :
    Makes models { active := a, type := t } (Node.read none [] none (written models ⟨a, t⟩)) :=
  ⟨h, none, _, (Node.withHead_head _).symm⟩

theorem makes_ofField {a : List String} {f : Field × TypeExpr} (h : Visit.Sound models ⟨a, f.2⟩) :
    Makes models (ofField a f) (Node.asField f.1
      (Node.read f.1.description f.1.metadata f.1.discriminator (written models ⟨a, f.2⟩))) :=
  ⟨⟨h.nodup, h.declared⟩, f.1.discriminator, f.1.isOptional, Node.asField_read ..⟩

theorem makes_fields {a : List String} (fields : List (Field × TypeExpr))
    (h : ∀ f ∈ fields, Visit.Sound models ⟨a, f.2⟩) (head : Head) :
    let n := Node.object head
      (Node.readFields (fields.map fun f => (f.1, written models ⟨a, f.2⟩)))
    List.Forall₂ (Makes models) (fields.map (ofField a)) n.children ∧
      n.names = fields.map fun f => f.1.wireName := by
  dsimp only
  rw [Node.children, Node.names, Node.readFields_eq, List.map_map, List.map_map, List.map_map,
    List.forall₂_map_left_iff, List.forall₂_map_right_iff, List.forall₂_same]
  exact ⟨fun f hf => makes_ofField (h f hf), by rw [List.map_map]; rfl⟩

/-- The children of the node are those of what inspection meets next, under the same names. -/
theorem Makes.parts (h : o.Makes models n) :
    List.Forall₂ (Makes models) (o.parts models) n.children ∧ n.names = o.names models := by
  obtain ⟨hsound, discriminator, isOptional, rfl⟩ := h
  obtain ⟨description', ms', discriminator', pre, nullable, hread, -⟩ :=
    Node.exists_read_core (o.written models) o.outer [] discriminator
  have hcore := Visit.isCore_wrapped models o.active o.type
  have hinside (t : TypeExpr) : Visit.Sound models ⟨o.active, t⟩ := ⟨hsound.nodup, hsound.declared⟩
  -- whatever is read around the core goes to the head of the node and not to its children
  rw [Node.children_withHead, Node.names_withHead, hread, Node.under, Node.children_withHead,
    Node.names_withHead, Visit.wrapped_written]
  unfold Occurrence.parts names fields
  generalize o.type.wrapped = t at hcore
  cases t with
  | scalar s => cases s <;> exact ⟨.nil, rfl⟩
  | null | other | enumeration | generic | forward => exact ⟨.nil, rfl⟩
  | literal values =>
    rw [show written models ⟨o.active, .literal values⟩ = .literal values from rfl, Node.read,
      Node.children_ofLiteral, Node.names_ofLiteral]
    exact ⟨.nil, rfl⟩
  | bareList form => exact ⟨.cons (makes_inside (hinside (.other "Any" "Any"))) .nil, rfl⟩
  | list form item => exact ⟨.cons (makes_inside (hinside item)) .nil, rfl⟩
  | annotated base ms => exact absurd .base (hcore _)
  | union members =>
    rw [Visit.read_written_variants hcore.length_ne_one, Node.children, List.forall₂_map_left_iff,
      List.forall₂_map_right_iff, List.forall₂_same]
    exact ⟨fun m _ => makes_inside (hinside m), rfl⟩
  | model name =>
    dsimp only
    by_cases hname : name ∈ o.active
    · rw [Visit.written_of_mem models hname, if_pos hname]
      exact ⟨.nil, rfl⟩
    · rw [if_neg hname]
      cases hm : Model.find? models name with
      | none =>
        rw [Visit.written_of_find?_eq_none hm]
        exact ⟨.nil, rfl⟩
      | some m =>
        rw [Visit.written_of_find? (hinside _) hname hm]
        exact makes_fields m.fields (fun f _ => (hinside (.model name)).cons hname hm f.2) _
  | record name doc fields =>
    rw [Visit.written_record]
    exact makes_fields fields (fun f _ => hinside f.2) _

theorem Makes.rel_at? (path : List Nat) : ∀ {o : Occurrence} {n : Node}, o.Makes models n →
    Option.Rel (Makes models) (o.at? models path) (n.at? path) := by
  induction path with
  | nil => exact fun h => .some h
  | cons i path ih =>
    intro o n h
    have hstep := rel_getElem?_of_forall₂ h.parts.1 i
    rw [at?, Node.at?]
    generalize (o.parts models)[i]? = x at hstep
    generalize n.children[i]? = y at hstep
    cases hstep with
    | none => exact .none
    | some hpart => exact ih hpart

end Occurrence

/-! ## Descriptions of schemas -/

namespace Schema

theorem description_ofNode {n : Node} {s : Schema} (hs : ofNode n = .ok s) :
    s.facets.description = nonEmpty n.head.description := by
  cases n with
  | string h => obtain ⟨-, rfl⟩ := ofString_ok.1 hs; rfl
  | number h => obtain ⟨-, lo, hi, -, -, rfl⟩ := ofNumber_ok.1 hs; rfl
  | boolean h => obtain ⟨-, rfl⟩ := ofNode_boolean.1 hs; rfl
  | null h => obtain ⟨-, rfl⟩ := ofNode_null.1 hs; rfl
  | enumeration h values => obtain ⟨-, -, texts, -, rfl⟩ := ofEnumeration_ok.1 hs; rfl
  | literal h values => obtain ⟨-, texts, -, rfl⟩ := ofLiteral_ok.1 hs; rfl
  | array h items =>
    cases items with
    | none => exact absurd hs ofNode_bareArray
    | some item => obtain ⟨-, i, lo, hi, -, -, -, rfl⟩ := ofNode_array.1 hs; rfl
  | object h fields => obtain ⟨-, ps, -, rfl⟩ := ofNode_object.1 hs; rfl
  | union h variants discriminator => obtain ⟨-, ms, -, rfl⟩ := ofNode_union.1 hs; rfl
  | lazy h name => cases hs
  | other h name => cases hs

/-- Each part of a schema is described as what occurs there in the type. -/
inductive DescribedAs (models : List Model) : Occurrence → Schema → Prop
  | mk {o : Occurrence} {s : Schema} {ps : List Schema} :
      s.facets.description = nonEmpty (o.description models) →
      List.Forall₂ (DescribedAs models) (o.parts models) ps → s.HasParts (o.names models) ps →
      DescribedAs models o s

theorem describedAs_of_makes {models : List Model} (n : Node) : ∀ {o : Occurrence} {s : Schema},
    o.Makes models n → ofNode n = .ok s → DescribedAs models o s := by
  induction n using Node.induction with
  | step n ih =>
    intro o s hn hs
    obtain ⟨hparts, hnames⟩ := hn.parts
    obtain ⟨ps, hps, hown⟩ := exists_hasParts hs
    have hdescribed : List.Forall₂ (DescribedAs models) (o.parts models) ps := by
      refine (forall₂_join hparts.flip hps).imp ?_
      rintro o' p ⟨c, hc, hmakes, hp⟩
      exact ih c hc hmakes hp
    rw [hnames] at hown
    refine .mk ?_ hdescribed hown
    rw [description_ofNode hs, hn.description_eq]

/-- Of the descriptions that are given to a node the outermost counts that is not empty, and none of them
goes further down. The schemas have the same descriptions, empty ones apart. -/
theorem described_at (models : List Model) (root : TypeExpr) :
    (∀ path, ((Node.ofTypeIn models root).at? path).map (fun n => n.head.description) =
      (Occurrence.at? models { active := [], type := root } path).map
        (Occurrence.description models)) ∧
    ∀ s, ofType models root = .ok s → DescribedAs models { active := [], type := root } s := by
  have hroot : Occurrence.Makes models { active := [], type := root } (Node.ofTypeIn models root) :=
    Occurrence.makes_inside ⟨List.nodup_nil, List.forall_mem_nil _⟩
  refine ⟨fun path => ?_, fun s hs => describedAs_of_makes _ hroot hs⟩
  have hrel := hroot.rel_at? path
  generalize Occurrence.at? models { active := [], type := root } path = o at hrel ⊢
  generalize (Node.ofTypeIn models root).at? path = n at hrel ⊢
  cases hrel with
  | none => rfl
  | some hmakes => exact congrArg some hmakes.description_eq

end Schema

def legModels : List Model :=
  [⟨"Stop", some "\n    A place to stop at.\n    ", [({ name := "street" }, .scalar .str)]⟩,
    ⟨"Leg", some "One leg of a trip.",
      [({ name := "from_", dataName := some "from", description := some "" },
          .union [.annotated (.model "Stop")
            [.field { description := some (some "Where it starts.") }], .null]),
        ({ name := "to" }, .model "Stop"),
        ({ name := "via", description := some "On the way." },
          .list .builtin (.annotated (.scalar .str) [.field { description := some (some "A name.") },
            .field { description := some (some "") }]))]⟩]

/-- A leg or null, with descriptions inside null, in a group and after it. -/
def leg : TypeExpr :=
  .annotated
    (.union [.annotated (.model "Leg") [.field { description := some (some "Inner.") }], .null])
    [.group [.field { description := some (some "First.") },
      .field { description := some (some "Last.") }], .field { description := some (some "") }]

theorem Schema.leg_described :
    [[], [0], [1], [2], [2, 0], [1, 0]].map (fun path =>
        ((Node.ofTypeIn legModels leg).at? path).map fun n => n.head.description) =
      [some "Last.", some "Where it starts.", some "A place to stop at.", some "On the way.",
        some "A name.", none].map some ∧
      ∃ s, ofType legModels leg = .ok s ∧ s.facets.description = some "Last." := by
  obtain ⟨hnodes, hschema⟩ := described_at legModels leg
  obtain ⟨s, hs⟩ : ∃ s, ofType legModels leg = .ok s := ⟨_, rfl⟩
  refine ⟨?_, s, hs, ?_⟩
  · simp only [hnodes]
    decide +kernel
  · obtain ⟨hdescription, -, -⟩ := hschema s hs
    exact hdescription

end TypeWire
