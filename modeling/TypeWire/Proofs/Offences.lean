import TypeWire.Proofs.NodeSchema
import TypeWire.Proofs.Subnodes

/-!
# What nodes offend against

`Node.offences` lists what a node has that schemas cannot express, from the node alone. Writing a node
as a schema meets the offences of all nodes in it in depth-first order, so its result is known
(`Schema.ofNode_heeds`): a schema if there is no offence, else the first offence; a bound that
schemas cannot hold, or a list without items, is the only other way to fail.

`Heeds` is that statement for any part of the conversion. It is closed under putting parts one after
the other (`Heeds.bind`), and each converter is such a sequence.
-/

namespace TypeWire

namespace Node

/-- The checks that a node of the kind can have. -/
def allowedChecks : Node → List String
  | string _ => Check.ofString
  | number _ => Check.ofNumber
  | array _ _ => Check.ofArray
  | _ => []

/-- The word for the kind in messages about checks. A discriminator makes no difference. -/
def label : Node → String
  | union _ _ _ => "union"
  | n => n.kindName

/-- What a node offends against by its kind. -/
def kindOffences : Node → List Unsupported
  | lazy _ name => [.recursive name]
  | other _ name => [.type name]
  | _ => []

/-- What a node offends against by its checks. -/
def checkOffences (n : Node) : List Unsupported :=
  (n.head.checks.filter fun c => !n.allowedChecks.contains c.kind).map fun c => .check n.label c.kind

/-- What a node offends against by the values in it. -/
def valueOffences : Node → List Unsupported
  | enumeration _ [] => [.emptyEnumeration]
  | enumeration _ values =>
    (values.filter fun v => !v.isText).map fun v => .enumerationValue v.className
  | literal _ values =>
    (values.filter fun v => !v.isText).map fun v => .literalValue (Schema.literalTypeName v)
  | _ => []

/-- What a node itself, without its children, has that schemas cannot express, in order. -/
def offences (n : Node) : List Unsupported := n.kindOffences ++ n.checkOffences ++ n.valueOffences

end Node

/-- A check whose value, if it is a bound, is one that schemas hold: a number, or null. -/
structure Check.Fits (c : Check) : Prop where
  number : c.kind = "min" ∨ c.kind = "max" →
    ∃ x, Schema.optional (Schema.scalar Coercion.float) c.value = .ok x
  length : c.kind = "min_length" ∨ c.kind = "max_length" →
    ∃ x, Schema.optional (Schema.scalar Coercion.int) c.value = .ok x

/-- Why a node may fail to be written although it offends against nothing. -/
inductive Node.Misfit (n : Node) : NodeError → Prop
  | items {h : Head} : n = .array h none → Misfit n .undescribedItems
  | bound {c : Check} {issues : List Issue} : c ∈ n.head.checks → ¬ c.Fits →
      Misfit n (.invalid issues)

/-! ## Heeding offences -/

/-- What a part of the conversion comes to that has to heed these offences, where `may` says what else
can go wrong. -/
inductive Heeds {α : Type} (may : NodeError → Prop) (us : List Unsupported) :
    Except NodeError α → Prop
  | ok (a : α) : us = [] → Heeds may us (.ok a)
  | unsupported {u : Unsupported} : us.head? = some u → Heeds may us (.error (.unsupported u))
  | misfit {e : NodeError} : may e → Heeds may us (.error e)

namespace Heeds

variable {α β : Type} {may may' : NodeError → Prop} {us vs : List Unsupported}
  {r : Except NodeError α}

theorem mono (h : Heeds may us r) (hmay : ∀ e, may e → may' e) : Heeds may' us r := by
  cases h with
  | ok a hus => exact .ok a hus
  | unsupported hu => exact .unsupported hu
  | misfit he => exact .misfit (hmay _ he)

/-- Of two parts the second is reached only if the first has no offence. -/
theorem bind {f : α → Except NodeError β} (h : Heeds may us r)
    (hf : ∀ a, Heeds may vs (f a)) : Heeds may (us ++ vs) (r >>= f) := by
  cases h with
  | ok a hus =>
    subst hus
    exact hf a
  | unsupported hu => exact .unsupported (by rw [List.head?_append, hu]; rfl)
  | misfit he => exact .misfit he

theorem bind_nil {f : α → Except NodeError β} (h : Heeds may us r)
    (hf : ∀ a, Heeds may [] (f a)) : Heeds may us (r >>= f) := by
  rw [← List.append_nil us]
  exact h.bind hf

theorem eq_nil {a : α} (h : Heeds may us (.ok a : Except NodeError α)) : us = [] := by
  cases h with
  | ok _ hus => exact hus

theorem exists_ok (h : Heeds may us r) (hmay : ∀ e, ¬ may e) (hus : us = []) : ∃ a, r = .ok a := by
  cases h with
  | ok a _ => exact ⟨a, rfl⟩
  | unsupported hu => rw [hus] at hu; cases hu
  | misfit he => exact absurd he (hmay _)

theorem eq_error (h : Heeds may us r) (hmay : ∀ e, ¬ may e) {u : Unsupported}
    (hu : us.head? = some u) : r = .error (.unsupported u) := by
  cases h with
  | ok a hus => rw [hus] at hu; cases hu
  | unsupported hu' => rw [hu', Option.some.injEq] at hu; rw [hu]
  | misfit he => exact absurd he (hmay _)

end Heeds

namespace Schema

variable {may : NodeError → Prop}

/-! ## The converters -/

theorem heeds_reject (allowed : List String) (label : String) (checks : List Check) :
    Heeds may ((checks.filter fun c => !allowed.contains c.kind).map fun c => .check label c.kind)
      (Check.reject allowed label checks) := by
  unfold Check.reject
  cases h : checks.find? fun c => !allowed.contains c.kind with
  | none =>
    refine .ok () ?_
    rw [List.map_eq_nil_iff, List.filter_eq_nil_iff]
    exact List.find?_eq_none.1 h
  | some c =>
    refine .unsupported ?_
    rw [List.head?_map, List.head?_filter, h]
    rfl

/-- The first value that is no text is the one that is refused. -/
theorem textsOf_eq (values : List Value) :
    match (values.filter fun v => !v.isText).head? with
    | some v => textsOf values = .error v
    | none => ∃ texts, textsOf values = .ok texts := by
  induction values with
  | nil => exact ⟨[], rfl⟩
  | cons v vs ih =>
    rw [textsOf]
    cases hv : v.text? with
    | none => simp [Value.isText, hv]
    | some s =>
      rw [List.filter_cons_of_neg (by simp [Value.isText, hv])]
      cases hvs : (vs.filter fun v => !v.isText).head? with
      | none =>
        rw [hvs] at ih
        obtain ⟨texts, ih⟩ := ih
        exact ⟨s :: texts, by rw [ih]; rfl⟩
      | some w =>
        rw [hvs] at ih
        rw [ih]
        rfl

theorem heeds_textsOf (offence : Value → Unsupported) (values : List Value) {α : Type}
    (f : List String → α) :
    Heeds may ((values.filter fun v => !v.isText).map offence)
      (match textsOf values with
        | .ok texts => .ok (f texts)
        | .error v => .error (.unsupported (offence v))) := by
  have h := textsOf_eq values
  cases hv : (values.filter fun v => !v.isText).head? with
  | none =>
    rw [hv] at h
    obtain ⟨texts, h⟩ := h
    rw [h, List.head?_eq_none_iff.1 hv]
    exact .ok _ rfl
  | some v =>
    rw [hv] at h
    rw [h]
    refine .unsupported ?_
    rw [List.head?_map, hv]
    rfl

theorem bound_last? {α : Type} {read : Value → Except Fault (α × Match)} {name kind : String}
    {checks : List Check}
    (h : ∀ c ∈ checks, c.kind = kind → ∃ x, optional (scalar read) c.value = .ok x) :
    ∃ x, bound read name (Check.last? kind checks) = .ok x := by
  unfold bound
  cases hlast : Check.last? kind checks with
  | none => exact ⟨none, rfl⟩
  | some v =>
    obtain ⟨x, hx⟩ := h ⟨kind, v⟩ (Check.mem_of_last? hlast) rfl
    exact ⟨x, by rw [Option.getD_some, hx]⟩

theorem heeds_bounds {α : Type} {a b : Except (List Issue) α} {checks : List Check}
    (ha : (∀ c ∈ checks, c.Fits) → ∃ x, a = .ok x) (hb : (∀ c ∈ checks, c.Fits) → ∃ y, b = .ok y)
    (hmay : ∀ c ∈ checks, ¬ c.Fits → ∀ issues, may (.invalid issues)) :
    Heeds may [] (bounds a b) := by
  by_cases hfits : ∀ c ∈ checks, c.Fits
  · obtain ⟨x, rfl⟩ := ha hfits
    obtain ⟨y, rfl⟩ := hb hfits
    exact .ok (x, y) rfl
  · push Not at hfits
    obtain ⟨c, hc, hcfits⟩ := hfits
    unfold bounds
    cases a with
    | ok x =>
      cases b with
      | ok y => exact .ok (x, y) rfl
      | error e => exact .misfit (hmay c hc hcfits _)
    | error e => exact .misfit (hmay c hc hcfits _)

theorem heeds_ofVariants {variants : List Node}
    (h : ∀ n ∈ variants, Heeds may (n.subnodes.flatMap Node.offences) (ofNode n)) :
    Heeds may ((variants.flatMap Node.subnodes).flatMap Node.offences) (ofVariants variants) := by
  induction variants with
  | nil => exact .ok [] rfl
  | cons n variants ih =>
    obtain ⟨hn, hrest⟩ := List.forall_mem_cons.1 h
    rw [ofVariants, List.flatMap_cons, List.flatMap_append]
    exact hn.bind fun s => (ih hrest).bind_nil fun ss => .ok (s :: ss) rfl

theorem heeds_ofFields {fields : List (String × Node)}
    (h : ∀ n ∈ fields.map (·.2), Heeds may (n.subnodes.flatMap Node.offences) (ofNode n)) :
    Heeds may (((fields.map (·.2)).flatMap Node.subnodes).flatMap Node.offences)
      (ofFields fields) := by
  induction fields with
  | nil => exact .ok [] rfl
  | cons f fields ih =>
    obtain ⟨hn, hrest⟩ := List.forall_mem_cons.1 h
    rw [ofFields, List.map_cons, List.flatMap_cons, List.flatMap_append]
    exact hn.bind fun s => (ih hrest).bind_nil fun ss => .ok ((f.1, s) :: ss) rfl

/-- A node heeds its own offences first and then those of its children. -/
theorem heeds_step (n : Node) (hself : ∀ e, n.Misfit e → may e)
    (hchild : ∀ c ∈ n.children, Heeds may (c.subnodes.flatMap Node.offences) (ofNode c)) :
    Heeds may (n.offences ++ (n.children.flatMap Node.subnodes).flatMap Node.offences)
      (ofNode n) := by
  have hchecks : Heeds may n.checkOffences (Check.reject n.allowedChecks n.label n.head.checks) :=
    heeds_reject n.allowedChecks n.label n.head.checks
  have hmay : ∀ c ∈ n.head.checks, ¬ c.Fits → ∀ issues, may (.invalid issues) :=
    fun c hc hfits issues => hself _ (.bound hc hfits)
  simp only [Node.offences, List.append_assoc]
  cases n with
  | string h =>
    rw [ofNode, ofString]
    exact hchecks.bind fun _ => .ok _ rfl
  | boolean h =>
    rw [ofNode]
    exact hchecks.bind fun _ => .ok _ rfl
  | null h =>
    rw [ofNode]
    exact hchecks.bind fun _ => .ok _ rfl
  | number h =>
    rw [ofNode, ofNumber]
    refine hchecks.bind fun _ => Heeds.bind (heeds_bounds ?_ ?_ hmay) fun _ => .ok _ rfl
    · exact fun hfits => bound_last? fun c hc hkind => (hfits c hc).number (.inl hkind)
    · exact fun hfits => bound_last? fun c hc hkind => (hfits c hc).number (.inr hkind)
  | enumeration h values =>
    rw [ofNode, ofEnumeration]
    refine hchecks.bind fun _ => ?_
    rw [Node.children, List.flatMap_nil, List.flatMap_nil, List.append_nil]
    cases values with
    | nil => exact .unsupported rfl
    | cons v vs => exact heeds_textsOf _ (v :: vs) _
  | literal h values =>
    rw [ofNode, ofLiteral]
    refine hchecks.bind fun _ => ?_
    rw [Node.children, List.flatMap_nil, List.flatMap_nil, List.append_nil]
    exact heeds_textsOf _ values _
  | array h items =>
    cases items with
    | none =>
      rw [ofNode]
      exact hchecks.bind fun _ => .misfit (hself _ (.items rfl))
    | some item =>
      rw [ofNode]
      -- the items are written before the bounds are read, so their offences come first
      have hitem := hchild item (List.mem_singleton_self item)
      refine hchecks.bind fun _ => ?_
      show Heeds may (([item].flatMap Node.subnodes).flatMap Node.offences) _
      rw [List.flatMap_singleton]
      refine hitem.bind_nil fun s => Heeds.bind (heeds_bounds ?_ ?_ hmay) fun _ => .ok _ rfl
      · exact fun hfits => bound_last? fun c hc hkind => (hfits c hc).length (.inl hkind)
      · exact fun hfits => bound_last? fun c hc hkind => (hfits c hc).length (.inr hkind)
  | object h fields =>
    rw [ofNode]
    exact hchecks.bind fun _ => (heeds_ofFields hchild).bind_nil fun ps => .ok _ rfl
  | union h variants discriminator =>
    rw [ofNode]
    exact hchecks.bind fun _ => (heeds_ofVariants hchild).bind_nil fun ss => .ok _ rfl
  | lazy h name => exact .unsupported rfl
  | other h name => exact .unsupported rfl

/-- The result of writing a node as a schema, from the nodes in it. -/
theorem ofNode_heeds (n : Node) :
    Heeds (fun e => ∃ m ∈ n.subnodes, m.Misfit e) (n.subnodes.flatMap Node.offences) (ofNode n) := by
  induction n using Node.induction with
  | step n ih =>
    -- the list of offences is taken apart, the list of nodes that may misfit is not
    rw [Node.subnodes_eq n, List.flatMap_cons, ← Node.subnodes_eq n]
    refine heeds_step n (fun e he => ⟨n, n.self_mem_subnodes, he⟩) fun c hc => (ih c hc).mono ?_
    rintro e ⟨m, hm, he⟩
    exact ⟨m, Node.mem_subnodes_of_child hc hm, he⟩

theorem offences_eq_nil {n : Node} {s : Schema} (h : ofNode n = .ok s) :
    ∀ m ∈ n.subnodes, m.offences = [] := by
  have hheeds := ofNode_heeds n
  rw [h] at hheeds
  exact List.flatMap_eq_nil_iff.1 hheeds.eq_nil

/-- A node whose lists have items and whose bounds fit is refused exactly if some node in it offends,
and then for the first offence of the first such node. -/
theorem ofNode_unsupported_iff (n : Node) (hitems : ∀ m ∈ n.subnodes, ∀ h, m ≠ .array h none)
    (hfits : ∀ m ∈ n.subnodes, ∀ c ∈ m.head.checks, c.Fits) :
    ((∃ u, ofNode n = .error (.unsupported u)) ↔ ∃ m ∈ n.subnodes, m.offences ≠ []) ∧
      ((∀ m ∈ n.subnodes, m.offences = []) → ∃ s, ofNode n = .ok s) ∧
      ∀ before m after u, n.subnodes = before ++ m :: after → (∀ k ∈ before, k.offences = []) →
        m.offences.head? = some u → ofNode n = .error (.unsupported u) ∧
          (ofNode n).mapError NodeError.message = .error u.message := by
  have hheeds := ofNode_heeds n
  have hmay : ∀ e, ¬ ∃ m ∈ n.subnodes, m.Misfit e := by
    rintro e ⟨m, hm, he⟩
    cases he with
    | items heq => exact hitems m hm _ heq
    | bound hc hcfits => exact hcfits (hfits m hm _ hc)
  have hok : (∀ m ∈ n.subnodes, m.offences = []) → ∃ s, ofNode n = .ok s := fun h =>
    hheeds.exists_ok hmay (List.flatMap_eq_nil_iff.2 h)
  refine ⟨⟨?_, ?_⟩, hok, ?_⟩
  · rintro ⟨u, hu⟩
    by_contra! h
    obtain ⟨s, hs⟩ := hok h
    rw [hs] at hu
    cases hu
  · rintro ⟨m, hm, hne⟩
    have hall : n.subnodes.flatMap Node.offences ≠ [] := fun h =>
      hne (List.flatMap_eq_nil_iff.1 h m hm)
    obtain ⟨u, us, hus⟩ := List.exists_cons_of_ne_nil hall
    exact ⟨u, hheeds.eq_error hmay (by rw [hus]; rfl)⟩
  · intro before m after u hsub hbefore hu
    have hfirst : (n.subnodes.flatMap Node.offences).head? = some u := by
      rw [hsub, List.flatMap_append, List.flatMap_eq_nil_iff.2 hbefore, List.nil_append,
        List.flatMap_cons, List.head?_append, hu]
      rfl
    have herror := hheeds.eq_error hmay hfirst
    exact ⟨herror, by rw [herror]; rfl⟩

end Schema

/-- A record in which a literal with a truth value stands before a type that schemas cannot
express. -/
def Node.survey : Node :=
  .object {} [("tags", .array { checks := [⟨"min_length", .int 1⟩] } (some (.string {}))),
    ("answer", .union {} [.literal {} [.str "none", .bool true], .null {}] none),
    ("rest", .other {} (some "Any"))]

theorem Schema.survey_unsupported :
    (∀ m ∈ Node.survey.subnodes, ∀ c ∈ m.head.checks, c.Fits) ∧
      ofNode Node.survey = .error (.unsupported (.literalValue "boolean")) := by
  have hitems : ∀ m ∈ Node.survey.subnodes, ∀ h, m ≠ .array h none := by
    simp [Node.survey, Node.subnodes, Node.subnodesOfFields, Node.subnodesOfVariants]
  have hfits : ∀ m ∈ Node.survey.subnodes, ∀ c ∈ m.head.checks, c.Fits := by
    simp only [Node.survey, Node.subnodes, Node.subnodesOfFields, Node.subnodesOfVariants,
      Node.head, List.append_nil, List.nil_append, List.cons_append, List.forall_mem_cons,
      List.not_mem_nil, false_imp_iff, implies_true, and_true, true_and]
    exact ⟨by simp, fun _ => ⟨some 1, rfl⟩⟩
  have hfirst := (ofNode_unsupported_iff Node.survey hitems hfits).2.2
  refine ⟨hfits, (hfirst (Node.survey.subnodes.take 4) _ _ _ rfl ?_ rfl).1⟩
  decide

end TypeWire
