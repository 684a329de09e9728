import TypeWire.Proofs.ReadBack
import TypeWire.Proofs.SourceType
import TypeWire.Proofs.WellFormed

/-!
# The order of layers

Metadata and null are put around a type in layers (`TypeExpr.wrap`), and the same layers in another
order are another type. Reading meets them in different ways: metadata directly around a core is read
with the core, while around a union with null it is read first, its checks being put in front of what
the member comes to.

`Node.Alike` is what two such ways have in common: the same node but for the order of its checks and
for a discriminator, neither of which a schema shows as long as no bound is given twice
(`Node.Alike.ofNode_ok`). The nodes of refused types discard checks, so nothing is said about those.

* `Node.read_alike`: a type is read alike under modifiers that say the same in another way.
* `Node.read_wrap`: layers are read as all their metadata in one layer, and null outside.
-/

namespace TypeWire

/-! ## Nodes that are alike -/

namespace Node

/-- The node without its modifiers and without a discriminator. -/
def bare : Node → Node
  | union _ variants _ => union {} variants none
  | n => n.withHead {}

/-- Whether null is a value that the schema of the node takes. -/
def takesNull : Node → Bool
  | null _ => true
  | n => n.head.nullable

@[simp] theorem bare_withHead (h : Head) (n : Node) : (n.withHead h).bare = n.bare := by
  cases n <;> rfl

@[simp] theorem kindOffences_bare (n : Node) : n.bare.kindOffences = n.kindOffences := by
  cases n <;> rfl

theorem takesNull_under (checks : List Check) (nullable : Bool) (n : Node) :
    (n.under checks nullable).takesNull = (n.takesNull || nullable) := by
  cases n <;> rfl

@[simp] theorem checks_under (checks : List Check) (nullable : Bool) (n : Node) :
    (n.under checks nullable).head.checks = checks ++ n.head.checks := by
  rw [under, head_withHead]

/-- The same node, but for a discriminator, with checks that are related. -/
structure Alike (R : List Check → List Check → Prop) (n m : Node) : Prop where
  bare : n.bare = m.bare
  description : n.head.description = m.head.description
  takesNull : n.takesNull = m.takesNull
  checks : n.kindOffences = [] → R n.head.checks m.head.checks

namespace Alike

variable {R : List Check → List Check → Prop} {n m k : Node}

theorem kindOffences (h : Alike R n m) : n.kindOffences = m.kindOffences := by
  rw [← kindOffences_bare n, h.bare, kindOffences_bare]

theorem orNull (h : Alike R n m) (nullable : Bool) :
    Alike R (n.under [] nullable) (m.under [] nullable) where
  bare := by rw [Node.under, Node.under, bare_withHead, bare_withHead, h.bare]
  description := by simpa [Node.under] using h.description
  takesNull := by rw [takesNull_under, takesNull_under, h.takesNull]
  checks hn := by
    have hn' : n.kindOffences = [] := by
      rwa [Node.under, ← kindOffences_bare, bare_withHead, kindOffences_bare] at hn
    rw [checks_under, checks_under]
    exact h.checks hn'

theorem refl (n : Node) : Alike List.Perm n n := ⟨rfl, rfl, rfl, fun _ => .refl _⟩

theorem symm (h : Alike List.Perm n m) : Alike List.Perm m n where
  bare := h.bare.symm
  description := h.description.symm
  takesNull := h.takesNull.symm
  checks hm := (h.checks (h.kindOffences.trans hm)).symm

theorem trans (h : Alike List.Perm n m) (h' : Alike List.Perm m k) : Alike List.Perm n k where
  bare := h.bare.trans h'.bare
  description := h.description.trans h'.description
  takesNull := h.takesNull.trans h'.takesNull
  checks hn := (h.checks hn).trans (h'.checks (h.kindOffences ▸ hn))

end Alike

end Node

/-! ## Nodes that are alike have the same schema -/

theorem Check.filter_perm_eq {kind : String} {cs ds : List Check} (h : cs.Perm ds)
    (hcs : (cs.map Check.kind).count kind ≤ 1) :
    cs.filter (fun c => c.kind == kind) = ds.filter fun c => c.kind == kind := by
  have hlen : (cs.filter fun c => c.kind == kind).length ≤ 1 := by
    rwa [List.count_eq_countP, List.countP_map, List.countP_eq_length_filter] at hcs
  have hperm := h.filter fun c => c.kind == kind
  cases hf : cs.filter fun c => c.kind == kind with
  | nil => rw [hf] at hperm; exact hperm.nil_eq
  | cons c rest =>
    rw [hf] at hperm hlen
    obtain rfl : rest = [] := by simpa using hlen
    exact hperm.singleton_eq

/-- The order of checks does not matter for a kind that occurs once. -/
theorem Check.last?_perm_of_count {kind : String} {cs ds : List Check} (h : cs.Perm ds)
    (hcs : (cs.map Check.kind).count kind ≤ 1) : last? kind cs = last? kind ds := by
  unfold last?
  rw [← List.head?_filter, ← List.head?_filter, List.filter_reverse, List.filter_reverse,
    filter_perm_eq h hcs]

/-- Each kind of bound is among these checks at most once. -/
def BoundsOnce (checks : List Check) : Prop :=
  ∀ kind ∈ restrictionKinds, (checks.map Check.kind).count kind ≤ 1

instance (checks : List Check) : Decidable (BoundsOnce checks) :=
  inferInstanceAs (Decidable (∀ kind ∈ restrictionKinds, (checks.map Check.kind).count kind ≤ 1))

namespace Schema

theorem modified_congr {h h' : Head} (hd : h.description = h'.description)
    (hn : h.nullable = h'.nullable) : modified h = modified h' := by
  funext f
  rw [modified, modified, hd, hn]

/-- A kind of node that can have no checks has a schema only without them. -/
theorem checks_eq_nil_of_ok {n : Node} (hn : n.allowedChecks = []) {s : Schema}
    (hs : ofNode n = .ok s) : n.head.checks = [] := by
  have hoffences := offences_eq_nil hs n n.self_mem_subnodes
  unfold Node.offences Node.checkOffences at hoffences
  rw [hn] at hoffences
  simpa using (List.append_eq_nil_iff.1 (List.append_eq_nil_iff.1 hoffences).1).2

/-- Modifiers that differ in whether a field can be left out make no difference, and null says
nothing that the null type does not say. -/
theorem ofNode_withHead_eq {n : Node} {h : Head} (hd : n.head.description = h.description)
    (hn : n.takesNull = (n.withHead h).takesNull)
    (hc : n.kindOffences = [] → n.head.checks = h.checks) : ofNode (n.withHead h) = ofNode n := by
  have hsame (hkind : n.kindOffences = []) (hnull : n.head.nullable = h.nullable) :
      ofNode (n.withHead h) = ofNode n := by
    have hh : h = { n.head with isOptional := h.isOptional } := by
      dsimp only
      rw [hc hkind, hnull, hd]
    rw [hh]
    exact ofNode_withHead_isOptional n h.isOptional
  cases n with
  | lazy | other => rfl
  | null h₀ =>
    have hchecks : h₀.checks = h.checks := hc rfl
    have hmodified : modified { h with nullable := true } = modified { h₀ with nullable := true } :=
      modified_congr hd.symm rfl
    rw [Node.withHead, ofNode, ofNode, hmodified, hchecks]
  | _ => exact hsame rfl hn

/-- Other modifiers that say the same do not change the schema. -/
theorem ofNode_withHead_perm {n : Node} {h : Head} (hd : n.head.description = h.description)
    (hn : n.takesNull = (n.withHead h).takesNull) (hc : n.head.checks.Perm h.checks)
    (honce : BoundsOnce n.head.checks) {s : Schema} (hs : ofNode n = .ok s) :
    ofNode (n.withHead h) = .ok s := by
  have hlast {kind : String} (hkind : kind ∈ restrictionKinds) :
      Check.last? kind n.head.checks = Check.last? kind h.checks :=
    Check.last?_perm_of_count hc (honce kind hkind)
  have hhas (kind : String) : Check.has kind n.head.checks = Check.has kind h.checks := by
    rw [Bool.eq_iff_iff, Check.has_iff, Check.has_iff]
    simp only [hc.mem_iff]
  have hallowed {allowed : List String} (hall : ∀ c ∈ n.head.checks, c.kind ∈ allowed) :
      ∀ c ∈ h.checks, c.kind ∈ allowed := fun c hc' => hall c (hc.mem_iff.2 hc')
  -- without checks there is nothing to permute
  have hbare (hnil : n.allowedChecks = []) : ofNode (n.withHead h) = .ok s := by
    have hempty := checks_eq_nil_of_ok hnil hs
    rw [hempty] at hc
    rw [ofNode_withHead_eq hd hn fun _ => hempty.trans hc.nil_eq, hs]
  cases n with
  | string h₀ =>
    obtain ⟨hall, rfl⟩ := ofString_ok.1 hs
    have hmodified : modified h₀ = modified h := modified_congr hd hn
    refine ofString_ok.2 ⟨hallowed hall, ?_⟩
    simp only [Node.head] at hhas
    rw [hhas, hhas, hmodified]
  | number h₀ =>
    obtain ⟨hall, lo, hi, hlo, hhi, rfl⟩ := ofNumber_ok.1 hs
    have hmodified : modified h₀ = modified h := modified_congr hd hn
    simp only [Node.head] at hlast hhas
    refine ofNumber_ok.2 ⟨hallowed hall, lo, hi, ?_, ?_, ?_⟩
    · rwa [← hlast (by simp [restrictionKinds])]
    · rwa [← hlast (by simp [restrictionKinds])]
    · rw [hhas, hmodified]
  | array h₀ items =>
    cases items with
    | none => exact absurd hs ofNode_bareArray
    | some item =>
      obtain ⟨hall, i, lo, hi, hi', hlo, hhi, rfl⟩ := ofNode_array.1 hs
      have hmodified : modified h₀ = modified h := modified_congr hd hn
      simp only [Node.head] at hlast
      refine ofNode_array.2 ⟨hallowed hall, i, lo, hi, hi', ?_, ?_, ?_⟩
      · rwa [← hlast (by simp [restrictionKinds])]
      · rwa [← hlast (by simp [restrictionKinds])]
      · rw [hmodified]
  | _ => exact hbare rfl

end Schema

namespace Node

variable {n m : Node} {s : Schema}

theorem takesNull_withHead_bare (n : Node) : (n.bare.withHead n.head).takesNull = n.takesNull := by
  cases n <;> rfl

theorem ofNode_withHead_bare (n : Node) :
    Schema.ofNode (n.bare.withHead n.head) = Schema.ofNode n := by
  cases n with
  | array h items => cases items <;> rfl
  | _ => rfl

theorem kindOffences_eq_nil (hs : Schema.ofNode n = .ok s) : n.kindOffences = [] := by
  have hoffences := Schema.offences_eq_nil hs n n.self_mem_subnodes
  unfold offences at hoffences
  exact (List.append_eq_nil_iff.1 (List.append_eq_nil_iff.1 hoffences).1).1

theorem Alike.ofNode_eq (h : Alike Eq n m) : Schema.ofNode n = Schema.ofNode m := by
  have hm : (n.bare.withHead n.head).withHead m.head = m.bare.withHead m.head := by
    rw [withHead_withHead, h.bare]
  rw [← ofNode_withHead_bare m, ← hm, ← ofNode_withHead_bare n]
  refine (Schema.ofNode_withHead_eq ?_ ?_ ?_).symm
  · rw [head_withHead, h.description]
  · rw [hm, takesNull_withHead_bare, takesNull_withHead_bare, h.takesNull]
  · intro hn
    rw [head_withHead]
    refine h.checks ?_
    rwa [← kindOffences_bare, bare_withHead, kindOffences_bare, kindOffences_bare] at hn

theorem Alike.ofNode_ok (h : Alike List.Perm n m) (honce : BoundsOnce n.head.checks)
    (hs : Schema.ofNode n = .ok s) : Schema.ofNode m = .ok s := by
  have hm : (n.bare.withHead n.head).withHead m.head = m.bare.withHead m.head := by
    rw [withHead_withHead, h.bare]
  have hchecks := h.checks (kindOffences_eq_nil hs)
  rw [← ofNode_withHead_bare] at hs
  rw [← ofNode_withHead_bare, ← hm]
  refine Schema.ofNode_withHead_perm ?_ ?_ ?_ ?_ hs
  · rw [head_withHead, h.description]
  · rw [hm, takesNull_withHead_bare, takesNull_withHead_bare, h.takesNull]
  · rwa [head_withHead]
  · rwa [head_withHead]

/-- Nodes that are alike have the same schema or none. -/
theorem Alike.ofNode_ok_iff (h : Alike List.Perm n m) (honce : BoundsOnce m.head.checks) :
    Schema.ofNode n = .ok s ↔ Schema.ofNode m = .ok s := by
  refine ⟨fun hs => h.ofNode_ok (fun kind hkind => ?_) hs, h.symm.ofNode_ok honce⟩
  have hperm := (h.checks (kindOffences_eq_nil hs)).map Check.kind
  rw [hperm.count_eq]
  exact honce kind hkind

theorem under_null_eq_self (hn : n.head.nullable = true) : n.under [] true = n := by
  have hhead : { n.head with
      nullable := n.head.nullable || true, checks := [] ++ n.head.checks } = n.head := by
    rw [Bool.or_true, List.nil_append, ← hn]
  rw [under, hhead, withHead_head]

theorem nullable_of_takesNull (hn : n.takesNull = true) (hs : Schema.ofNode n = .ok s) :
    s.facets.nullable = some true := by
  have hunder : Schema.ofNode (n.under [] true) = Schema.ofNode n := by
    cases n with
    | null => rfl
    | _ => exact congrArg _ (under_null_eq_self hn)
  have hsame : s = s.withNull := by
    have h := ofNode_under_null hs
    rw [hunder, hs] at h
    exact Except.ok.inj h
  rw [hsame]
  cases s
  rfl

end Node

/-! ## Reading under other modifiers -/

namespace Reading

/-- The description that metadata says, if any. -/
def described (ms : List Meta) : Option String := ((Meta.flattenAll ms).foldl step {}).description

theorem description_step (r : Reading) (m : Meta) :
    (step r m).description = ((step {} m).description <|> r.description) := by
  cases m <;> simp [step]

theorem description_foldl_step (ms : List Meta) (r : Reading) :
    (ms.foldl step r).description = ((ms.foldl step {}).description <|> r.description) := by
  induction ms generalizing r with
  | nil => simp
  | cons m ms ih =>
    rw [List.foldl_cons, List.foldl_cons, ih, ih (step {} m), description_step]
    simp [Option.or_assoc]

theorem described_append (ms ns : List Meta) :
    described (ms ++ ns) = (described ns <|> described ms) := by
  rw [described, Validator.flattenAll_append, List.foldl_append, description_foldl_step]
  rfl

theorem description_ofMetadata (description discriminator : Option String) (ms : List Meta) :
    (ofMetadata description discriminator ms).description =
      (nonEmpty description <|> described ms) := by
  unfold ofMetadata
  dsimp only
  rw [description_foldl_step]
  simp [described]

theorem nonEmpty_or (c d : Option String) :
    nonEmpty (nonEmpty c <|> d) = (nonEmpty c <|> nonEmpty d) := by
  cases c with
  | none => rfl
  | some c => by_cases hc : c = "" <;> simp [nonEmpty, Option.filter_some, hc]

theorem nonEmpty_described (ms : List Meta) : nonEmpty (described ms) = described ms := by
  unfold described
  generalize Meta.flattenAll ms = items
  induction items with
  | nil => rfl
  | cons m items ih =>
    rw [List.foldl_cons, description_foldl_step, ← ih, nonEmpty_or]
    cases m with
    | field spec => simp [step, nonEmpty, Option.filter_filter]
    | _ => rfl

/-- No text that is read as a description is empty. -/
theorem nonEmpty_description (description discriminator : Option String) (ms : List Meta) :
    nonEmpty (ofMetadata description discriminator ms).description =
      (ofMetadata description discriminator ms).description := by
  rw [description_ofMetadata, nonEmpty_or, nonEmpty_described]

@[simp] theorem ofMetadata_nil (description discriminator : Option String) :
    ofMetadata description discriminator [] =
      { description := nonEmpty description, discriminator } := by
  simp [ofMetadata, Meta.flattenAll]

end Reading

namespace Node

theorem under_eq (checks : List Check) (nullable : Bool) (n : Node) :
    n.under checks nullable = (n.under checks false).under [] nullable := by
  rw [under_under, List.nil_append, Bool.false_or]

/-- A type is read alike under modifiers that say the same: checks may come with the metadata or be
put in front afterwards, and a core may have checks of its own between them. -/
theorem read_alike {R : List Check → List Check → Prop}
    (hR : ∀ {cs ds : List Check} (es : List Check), R cs ds → R (cs ++ es) (ds ++ es))
    (t : TypeExpr) : ∀ {description description' discriminator discriminator' : Option String}
    {ms ms' : List Meta} {pre pre' : List Check},
    (Reading.ofMetadata description discriminator ms).description =
      (Reading.ofMetadata description' discriminator' ms').description →
    (∀ own, R (pre ++ (own ++ (Reading.ofMetadata description discriminator ms).checks))
      (pre' ++ (own ++ (Reading.ofMetadata description' discriminator' ms').checks))) →
    Alike R ((read description ms discriminator t).under pre false)
      ((read description' ms' discriminator' t).under pre' false) := by
  induction t with
  | scalar s =>
    intro _ _ _ _ _ _ _ _ hd hc
    cases s with
    | str | float | bool => exact ⟨rfl, hd, rfl, fun _ => hc []⟩
    | int => exact ⟨rfl, hd, rfl, fun _ => hc [⟨"int", .null⟩]⟩
    | datetime => exact ⟨rfl, hd, rfl, fun _ => hc [⟨"date-time", .null⟩]⟩
    | date => exact ⟨rfl, hd, rfl, fun _ => hc [⟨"date", .null⟩]⟩
  | null | enumeration | bareList | list =>
    intro _ _ _ _ _ _ _ _ hd hc
    exact ⟨rfl, hd, rfl, fun _ => hc []⟩
  | other | generic | forward | model =>
    intro _ _ _ _ _ _ _ _ hd _
    exact ⟨rfl, hd, rfl, fun h => absurd h (List.cons_ne_nil _ _)⟩
  | literal values =>
    intro _ _ _ _ _ _ _ _ hd hc
    rw [read, read]
    rcases ofLiteral_cases values with h | ⟨nullable, members, -, h | h⟩ <;> rw [h, h]
    all_goals exact ⟨rfl, hd, rfl, fun _ => hc []⟩
  | annotated base inner ih =>
    intro _ _ _ _ _ _ _ _ hd hc
    rw [read, read]
    refine ih ?_ fun own => ?_
    · simp only [Reading.description_ofMetadata, Reading.described_append] at hd ⊢
      simp only [Option.orElse_eq_orElse, Option.orElse_eq_or, ← Option.or_assoc] at hd ⊢
      rw [hd]
    · have hc' := hc (own ++ (Reading.restrictions inner).flatMap Restriction.checks)
      simpa [Reading.checks_ofMetadata, Reading.restrictions_append] using hc'
  | union members ih =>
    intro _ _ _ _ ms ms' _ _ hd hc
    obtain ⟨m, hmem, hm⟩ | hlen := TypeExpr.sole_or_variants members
    · -- checks of the metadata go in front of those of the member, where no metadata is left
      rw [read_sole hm, read_sole hm, under_under, under_under, Bool.or_false]
      rw [under_eq, under_eq (_ ++ (Reading.ofMetadata _ _ ms').checks)]
      refine (ih m hmem ?_ fun own => ?_).orNull _
      · rw [Reading.ofMetadata_nil, Reading.ofMetadata_nil, hd]
      · simpa using hR own (hc [])
    · rw [read_variants hlen, read_variants hlen]
      exact ⟨rfl, hd, rfl, fun _ => hc []⟩
  | record name doc fields =>
    intro _ _ _ _ _ _ _ _ hd hc
    refine ⟨rfl, ?_, rfl, fun _ => hc []⟩
    exact congrArg (fun d => d <|> (nonEmpty doc).map Text.cleanDocstring) hd

/-- What is read under the same description and checks has the same schema, whatever the
discriminators. -/
theorem ofNode_read_congr (t : TypeExpr) {description description' discriminator discriminator' :
    Option String} {ms ms' : List Meta}
    (hd : (Reading.ofMetadata description discriminator ms).description =
      (Reading.ofMetadata description' discriminator' ms').description)
    (hc : Reading.restrictions ms = Reading.restrictions ms') :
    Schema.ofNode (read description ms discriminator t) =
      Schema.ofNode (read description' ms' discriminator' t) := by
  have h := @read_alike Eq (fun es h => by rw [h]) t description description' discriminator
    discriminator' ms ms' [] [] hd
    fun own => by rw [Reading.checks_ofMetadata, Reading.checks_ofMetadata, hc]
  rw [under_nil, under_nil] at h
  exact h.ofNode_eq

end Node

/-! ## Layers around a type -/

/-- What is put around a type: metadata, or null beside it. -/
inductive Layer where
  | metadata (items : List Meta)
  | optional
deriving Inhabited

namespace Layer

/-- The metadata of a layer. -/
def items : Layer → List Meta
  | metadata ms => ms
  | optional => []

def isOptional : Layer → Bool
  | metadata _ => false
  | optional => true

end Layer

namespace TypeExpr

/-- The type inside layers. The first layer is put around it first. -/
def wrap (t : TypeExpr) : List Layer → TypeExpr
  | [] => t
  | .metadata ms :: layers => (t.annotate ms).wrap layers
  | .optional :: layers => t.optionalOf.wrap layers

/-- A union as types are made has two members at least, and no two of them are equal. -/
def Made : TypeExpr → Prop
  | .union members => 2 ≤ members.length ∧ members.Pairwise fun a b => b.equals a = false
  | _ => True

theorem distinctFrom_append (earlier ts us : List TypeExpr) :
    distinctFrom earlier (ts ++ us) =
      distinctFrom earlier ts ++ distinctFrom (earlier ++ distinctFrom earlier ts) us := by
  induction ts generalizing earlier with
  | nil => simp [distinctFrom]
  | cons t ts ih =>
    rw [List.cons_append, distinctFrom, distinctFrom]
    split
    · exact ih earlier
    · rw [ih, List.cons_append, List.append_assoc]
      rfl

theorem Made.members_apart {t : TypeExpr} (ht : t.Made) :
    t.members.Pairwise fun a b => b.equals a = false := by
  cases t with
  | union => exact ht.2
  | _ => exact List.pairwise_singleton _ _

theorem null_equals (t : TypeExpr) : TypeExpr.null.equals t = t.isNull := by
  cases t <;> simp [equals, isNull]

/-- Null joins the members that are there, unless it is one of them. -/
theorem Made.distinct_null {t : TypeExpr} (ht : t.Made) :
    distinct ([t, .null].flatMap members) =
      if t.members.any isNull then t.members else t.members ++ [.null] := by
  have hself : distinctFrom [] t.members = t.members :=
    distinctFrom_eq_self (by simp) ht.members_apart
  have hmembers : [t, .null].flatMap members = t.members ++ [.null] := rfl
  rw [distinct, hmembers, distinctFrom_append, hself, List.nil_append, distinctFrom]
  simp only [null_equals]
  split <;> simp [distinctFrom]

/-- Null added to a type: null has it already, a union keeps its other members, and any other type
becomes the one member beside null. -/
theorem Made.optionalOf_cases {t : TypeExpr} (ht : t.Made) :
    t = .null ∧ t.optionalOf = .null ∨ t.isNull = false ∧ t.optionalOf = .union [t, .null] ∨
      ∃ ms members, t = .union ms ∧ t.optionalOf = .union members ∧ (TypeExpr.union members).Made ∧
        members.any isNull = true ∧
        members.filter (fun m => !m.isNull) = ms.filter fun m => !m.isNull := by
  cases t with
  | null => exact .inl ⟨rfl, rfl⟩
  | union ms =>
    have hdistinct := ht.distinct_null
    have hms : 2 ≤ ms.length := ht.1
    have hlen : 2 ≤ (distinct ([.union ms, .null].flatMap members)).length := by
      rw [hdistinct]
      split
      · exact hms
      · exact le_trans hms (by simp [members])
    refine .inr (.inr ⟨ms, _, rfl, ?_, ⟨hlen, (distinctFrom_apart [] _).2⟩, ?_⟩)
    · rcases unionOf_cases [.union ms, .null] with ⟨u, hu, -⟩ | hu
      · rw [hu] at hlen
        exact absurd hlen (by simp)
      · exact hu
    · rw [hdistinct]
      split
      · rename_i hany
        exact ⟨hany, rfl⟩
      · simp [members, isNull]
  | _ => exact .inr (.inl ⟨rfl, rfl⟩)

theorem Made.annotate {t : TypeExpr} (ht : t.Made) (ms : List Meta) : (t.annotate ms).Made := by
  unfold TypeExpr.annotate
  split
  · exact ht
  · trivial
  · trivial

theorem Made.optionalOf {t : TypeExpr} (ht : t.Made) : t.optionalOf.Made := by
  rcases ht.optionalOf_cases with ⟨-, h⟩ | ⟨hnull, h⟩ | ⟨-, members, -, h, hmade, -⟩
  · rw [h]
    trivial
  · rw [h]
    exact ⟨le_refl 2, List.pairwise_pair.2 (by rw [null_equals, hnull])⟩
  · rw [h]
    exact hmade

end TypeExpr

/-! ## Reading layers -/

namespace Node

open Visit (written)

variable {models : List Model} {a : List String} {t : TypeExpr}

theorem read_written_annotate (t : TypeExpr) (inner : List Meta) (description : Option String)
    (ms : List Meta) (discriminator : Option String) :
    read description ms discriminator (written models ⟨a, t.annotate inner⟩) =
      read description (inner ++ ms) discriminator (written models ⟨a, t⟩) := by
  unfold TypeExpr.annotate
  split
  · rfl
  · show read description ((_ ++ inner) ++ ms) discriminator _ = _
    rw [List.append_assoc]
    rfl
  · rfl

/-- Null added to a type is null put around its node. -/
theorem read_written_optionalOf (ht : t.Made) (description : Option String) (ms : List Meta)
    (discriminator : Option String) :
    Alike List.Perm (read description ms discriminator (written models ⟨a, t.optionalOf⟩))
      ((read description ms discriminator (written models ⟨a, t⟩)).under [] true) := by
  rcases ht.optionalOf_cases with ⟨rfl, h⟩ | ⟨hnull, h⟩ | ⟨ms', members, rfl, h, -, hnull, hfilter⟩
  · rw [h]
    exact ⟨rfl, rfl, rfl, fun _ => .refl _⟩
  · -- the type becomes the one member, and what is around it is read before it
    have hm : [t, TypeExpr.null].filter (fun m => !m.isNull) = [t] := by
      rw [List.filter_cons_of_pos (by simp [hnull])]
      rfl
    have hany : [t, TypeExpr.null].any TypeExpr.isNull = true := by simp [TypeExpr.isNull]
    rw [h, Visit.read_written_sole hm, hany, under_eq]
    refine Alike.orNull ?_ true
    rw [← under_nil (read description ms discriminator _)]
    refine read_alike (fun es h => h.append_right es) _ ?_ fun own => ?_
    · rw [Reading.ofMetadata_nil, Reading.nonEmpty_description]
    · simpa using List.perm_append_comm
  · rw [h]
    obtain ⟨m, -, hm⟩ | hlen := TypeExpr.sole_or_variants ms'
    · rw [Visit.read_written_sole hm, Visit.read_written_sole (hfilter.trans hm), hnull,
        under_under, List.nil_append, Bool.or_true]
      exact .refl _
    · rw [Visit.read_written_variants hlen, Visit.read_written_variants (by rwa [hfilter]), hfilter,
        hnull]
      exact ⟨rfl, rfl, (Bool.or_true _).symm, fun _ => .refl _⟩

/-- Layers are read as all their metadata in one layer, and null outside if one of them has it. -/
theorem read_wrap (layers : List Layer) : ∀ {t : TypeExpr}, t.Made → ∀ (description : Option String)
    (ms : List Meta) (discriminator : Option String),
    Alike List.Perm (read description ms discriminator (written models ⟨a, t.wrap layers⟩))
      ((read description (layers.flatMap Layer.items ++ ms) discriminator
        (written models ⟨a, t⟩)).under [] (layers.any Layer.isOptional)) := by
  induction layers with
  | nil =>
    intro t _ description ms discriminator
    rw [List.any_nil, under_nil]
    exact .refl _
  | cons layer layers ih =>
    intro t ht description ms discriminator
    cases layer with
    | metadata inner =>
      rw [List.flatMap_cons, List.append_assoc, Layer.items, ← read_written_annotate]
      exact ih (ht.annotate inner) description ms discriminator
    | optional =>
      refine (ih ht.optionalOf description ms discriminator).trans ?_
      have h := (@read_written_optionalOf models a t ht description
        (layers.flatMap Layer.items ++ ms) discriminator).orNull (layers.any Layer.isOptional)
      rwa [under_under, List.append_nil] at h

theorem boundsOnce_cons {kind : String} (hkind : kind ∉ restrictionKinds) {value : Value}
    {checks : List Check} (h : BoundsOnce checks) : BoundsOnce (⟨kind, value⟩ :: checks) := by
  intro k hk
  have hne : kind ≠ k := fun heq => hkind (heq ▸ hk)
  rw [List.map_cons, List.count_cons_of_ne hne]
  exact h k hk

/-- A core has no bounds but those of its metadata. -/
theorem boundsOnce_read (hann : t.isAnnotated = false)
    (hsole : ∀ members, t = .union members → (members.filter fun m => !m.isNull).length ≠ 1)
    {ms : List Meta} (honce : BoundsOnce ((Reading.restrictions ms).flatMap Restriction.checks))
    (description discriminator : Option String) :
    BoundsOnce (read description ms discriminator (written models ⟨a, t⟩)).head.checks := by
  rw [← Reading.checks_ofMetadata description discriminator] at honce
  have hnil : BoundsOnce [] := by decide
  cases t with
  | scalar s =>
    cases s with
    | int | datetime | date => exact boundsOnce_cons (by decide) honce
    | _ => exact honce
  | null | enumeration | bareList | list | record => exact honce
  | other | generic | forward => exact hnil
  | literal values =>
    show BoundsOnce (ofLiteral _ values).head.checks
    rcases ofLiteral_cases values with h | ⟨nullable, members, -, h | h⟩ <;> rw [h] <;> exact honce
  | annotated => cases hann
  | union members =>
    rw [Visit.read_written_variants (hsole members rfl)]
    exact honce
  | model name =>
    rcases Visit.written_model models a name with h | ⟨m, fields, h⟩ <;> rw [h]
    · exact hnil
    · exact honce

end Node

/-- The order in which metadata and null are put around a core does not matter, as long as no kind of
bound is given twice: the types have the same schema, which is nullable, or both have none. -/
theorem Schema.ofType_wrap {models : List Model} {t : TypeExpr} (ht : t.Made)
    (hann : t.isAnnotated = false)
    (hsole : ∀ members, t = .union members → (members.filter fun m => !m.isNull).length ≠ 1)
    {layers layers' : List Layer}
    (hitems : layers.flatMap Layer.items = layers'.flatMap Layer.items)
    (hnull : .optional ∈ layers) (hnull' : .optional ∈ layers')
    (honce : BoundsOnce
      ((Reading.restrictions (layers.flatMap Layer.items)).flatMap Restriction.checks)) :
    (∃ s, ofType models (t.wrap layers) = .ok s ∧ ofType models (t.wrap layers') = .ok s ∧
        s.facets.nullable = some true) ∨
      ∃ e e', ofType models (t.wrap layers) = .error e ∧
        ofType models (t.wrap layers') = .error e' := by
  have hany {ls : List Layer} (h : .optional ∈ ls) : ls.any Layer.isOptional = true :=
    List.any_eq_true.2 ⟨_, h, rfl⟩
  -- both are read as one layer with all metadata, and null outside
  let n := (Node.read none (layers.flatMap Layer.items) none (Visit.written models ⟨[], t⟩)).under []
    true
  have hn : BoundsOnce n.head.checks := by
    show BoundsOnce (Node.under [] true _).head.checks
    rw [Node.checks_under]
    exact Node.boundsOnce_read hann hsole honce none none
  have hok {ls : List Layer} (hls : layers.flatMap Layer.items = ls.flatMap Layer.items)
      (h : .optional ∈ ls) (s : Schema) : ofType models (t.wrap ls) = .ok s ↔ ofNode n = .ok s := by
    have hread := @Node.read_wrap models [] ls t ht none [] none
    rw [List.append_nil, hany h, ← hls] at hread
    exact hread.ofNode_ok_iff hn
  have hnone {ls : List Layer} (hls : layers.flatMap Layer.items = ls.flatMap Layer.items)
      (h : .optional ∈ ls) (hs : ∀ s, ofNode n ≠ .ok s) :
      ∃ e, ofType models (t.wrap ls) = .error e := by
    cases hresult : ofType models (t.wrap ls) with
    | ok s => exact absurd ((hok hls h s).1 hresult) (hs s)
    | error e => exact ⟨e, rfl⟩
  cases hresult : ofNode n with
  | ok s =>
    have hnullable : n.takesNull = true := by rw [Node.takesNull_under, Bool.or_true]
    exact .inl ⟨s, (hok rfl hnull s).2 hresult, (hok hitems hnull' s).2 hresult,
      Node.nullable_of_takesNull hnullable hresult⟩
  | error e =>
    have hs : ∀ s, ofNode n ≠ .ok s := by simp [hresult]
    obtain ⟨e, he⟩ := hnone rfl hnull hs
    obtain ⟨e', he'⟩ := hnone hitems hnull' hs
    exact .inr ⟨e, e', he, he'⟩

/-- A list of texts. -/
def topics : TypeExpr := .list .builtin (.scalar .str)

def fewTopics : Meta := .field { description := some (some "Some topics."), maxLength := some (.int 3) }

def someTopics : Meta := .restriction (.minLength (.int 1))

theorem Schema.topics_wrap : ∃ s,
    ofType [] (topics.wrap [.metadata [someTopics], .optional, .metadata [fewTopics]]) = .ok s ∧
      ofType [] (topics.wrap [.optional, .metadata [someTopics, fewTopics], .optional]) = .ok s ∧
      s.facets.nullable = some true := by
  have hok : ∃ s,
      ofType [] (topics.wrap [.metadata [someTopics], .optional, .metadata [fewTopics]]) = .ok s :=
    ⟨_, rfl⟩
  have honce : BoundsOnce
      ((Reading.restrictions [someTopics, fewTopics]).flatMap Restriction.checks) := by decide
  rcases @ofType_wrap [] topics trivial rfl (by simp [topics])
    [.metadata [someTopics], .optional, .metadata [fewTopics]]
    [.optional, .metadata [someTopics, fewTopics], .optional] rfl (by simp) (by simp) honce with
    h | ⟨e, -, he, -⟩
  · exact h
  · obtain ⟨s, hs⟩ := hok
    rw [hs] at he
    cases he

end TypeWire
