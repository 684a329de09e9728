import TypeWire.Proofs.Inspection

/-!
# Models inside themselves

If no node in the node of a type offends, then inspection comes to all that the type is made of
(`Visited.of_reaches`): what it leaves out stands below a node of a kind that schemas cannot express.
A model that is made of itself would then be visited while it is open. So a cycle of models leaves an
offence (`not_clean_of_cycle`), and the type has no schema.

`Node.ofTypeIn_exact` puts together what inspection does with models: it ends, it stops at a model
exactly if a record of the model stands around, and cycles are refused.
-/

namespace TypeWire

open Visit

variable {models : List Model} {root : TypeExpr}

theorem isNull_of_mem_parts_model {name : String} {u : TypeExpr}
    (hu : u ∈ (TypeExpr.model name).parts models) : u.isNull = false := by
  rw [TypeExpr.parts] at hu
  cases hm : Model.find? models name with
  | none =>
    rw [hm] at hu
    cases hu
  | some m =>
    rw [hm] at hu
    obtain ⟨f, -, rfl⟩ := List.mem_map.1 hu
    rfl

/-- A visit whose node does not offend goes on to all that its type is made of, null among the members
of a union apart. -/
theorem Visit.calls_of_part {v : Visit} {n : Node} (hn : v.Makes models n)
    (hclean : n.offences = []) {u : TypeExpr} (hu : u ∈ v.type.parts models) :
    u.isNull = true ∨ ∃ place a, v.Calls models place ⟨a, u⟩ := by
  obtain ⟨a, t⟩ := v
  cases t with
  | scalar | null | other | enumeration | bareList | literal | forward => cases hu
  | list form item =>
    obtain rfl := List.mem_singleton.1 hu
    exact .inr ⟨[0], a, .item⟩
  | annotated base metadata =>
    obtain rfl := List.mem_singleton.1 hu
    exact .inr ⟨[], a, .base⟩
  | union members =>
    by_cases hnull : u.isNull = true
    · exact .inl hnull
    · right
      have hmem : u ∈ members.filter fun m => !m.isNull := List.mem_filter.2 ⟨hu, by simpa using hnull⟩
      obtain ⟨m, -, hm⟩ | hlen := TypeExpr.sole_or_variants members
      · rw [hm] at hmem
        obtain rfl := List.mem_singleton.1 hmem
        exact ⟨[], a, .sole hm⟩
      · obtain ⟨i, hi⟩ := List.mem_iff_getElem?.1 hmem
        exact ⟨[i], a, .variant hlen hi⟩
  | generic written shown args =>
    -- the arguments are not inspected, but the type is refused
    obtain ⟨description, metadata, discriminator, h, rfl, -⟩ := hn
    cases hclean
  | model name =>
    right
    by_cases hname : name ∈ a
    · obtain ⟨h, rfl⟩ := hn.lazy_of_mem hname
      cases hclean
    · rw [TypeExpr.parts] at hu
      cases hm : Model.find? models name with
      | none =>
        rw [hm] at hu
        cases hu
      | some m =>
        rw [hm] at hu
        obtain ⟨f, hf, rfl⟩ := List.mem_map.1 hu
        obtain ⟨i, hi⟩ := List.mem_iff_getElem?.1 hf
        exact ⟨[i], name :: a, .field hname hm hi⟩
  | record name doc fields =>
    obtain ⟨f, hf, rfl⟩ := List.mem_map.1 hu
    obtain ⟨i, hi⟩ := List.mem_iff_getElem?.1 hf
    exact .inr ⟨[i], a, .recordField hi⟩

/-- No node in the node of a type offends. -/
def Clean (models : List Model) (root : TypeExpr) : Prop :=
  ∀ n ∈ (Node.ofTypeIn models root).subnodes, n.offences = []

theorem clean_of_ok {s : Schema} (h : Schema.ofType models root = .ok s) : Clean models root :=
  Schema.offences_eq_nil h

namespace Visited

variable {path : List Nat} {v : Visit}

theorem exists_cleanNode (hclean : Clean models root) (hv : Visited models root path v) :
    ∃ n, v.Makes models n ∧ n.offences = [] ∧ (Node.ofTypeIn models root).at? path = some n := by
  obtain ⟨n, hn, hmakes⟩ := hv.exists_node
  exact ⟨n, hmakes, hclean n (Node.mem_subnodes_of_at? hn), hn⟩

/-- Without an offence, inspection comes to all that a visited type is made of. -/
theorem of_reaches (hclean : Clean models root) (hv : Visited models root path v) {u : TypeExpr}
    (h : v.type.Reaches models u) (hu : u.isNull = false) :
    ∃ path' a, Visited models root path' ⟨a, u⟩ ∧ v.active ⊆ a := by
  induction h with
  | refl => exact ⟨path, v.active, hv, List.Subset.refl _⟩
  | @tail b u _ hpart ih =>
    have hb : b.isNull = false := by
      cases b with
      | null => cases hpart
      | _ => rfl
    obtain ⟨path', a, hvisited, hsub⟩ := ih hb
    obtain ⟨n, hmakes, hoffences, -⟩ := hvisited.exists_cleanNode hclean
    rcases calls_of_part hmakes hoffences hpart with hnull | ⟨place, a', hcall⟩
    · rw [hu] at hnull
      cases hnull
    · exact ⟨path' ++ place, a', hvisited.next hcall,
        List.Subset.trans hsub hcall.active_subset⟩

end Visited

/-- A model that is made of itself is not visited without an offence. -/
theorem not_clean_of_cycle {name : String} (hreach : root.Reaches models (.model name))
    (hcycle : Relation.TransGen (fun t u => u ∈ t.parts models) (.model name)
      (TypeExpr.model name)) : ¬ Clean models root := by
  intro hclean
  obtain ⟨path, a, hvisited, -⟩ := Visited.of_reaches hclean .here hreach rfl
  obtain ⟨field, hpart, hback⟩ := Relation.TransGen.head'_iff.1 hcycle
  obtain ⟨n, hmakes, hoffences, -⟩ := hvisited.exists_cleanNode hclean
  rcases calls_of_part hmakes hoffences hpart with hnull | ⟨place, a', hcall⟩
  · rw [isNull_of_mem_parts_model hpart] at hnull
    cases hnull
  have hopen : name ∈ a' := by
    cases hcall with
    | field => exact List.mem_cons_self
  -- the way round the cycle comes back to the model while it is still open
  obtain ⟨path', a'', hvisited', hsub⟩ :=
    Visited.of_reaches hclean (hvisited.next hcall) hback rfl
  obtain ⟨n', hmakes', hoffences', -⟩ := hvisited'.exists_cleanNode hclean
  obtain ⟨h, rfl⟩ := hmakes'.lazy_of_mem (hsub hopen)
  cases hoffences'

/-! ## Lists have items -/

namespace Node

/-- Each list in the node says what its items are. -/
def Itemized (n : Node) : Prop := ∀ m ∈ n.subnodes, ∀ h, m ≠ .array h none

theorem itemized_iff {n : Node} :
    n.Itemized ↔ (∀ h, n ≠ .array h none) ∧ ∀ c ∈ n.children, c.Itemized := by
  unfold Itemized
  rw [subnodes_eq, List.forall_mem_cons, List.forall_mem_flatMap]

theorem Itemized.withHead {n : Node} (hn : n.Itemized) (h : Head) : (n.withHead h).Itemized := by
  rw [itemized_iff] at hn ⊢
  rw [children_withHead]
  refine ⟨?_, hn.2⟩
  cases n with
  | array h' items =>
    intro h'' heq
    injection heq with _ hitems
    exact hn.1 h' (by rw [hitems])
  | _ => intro h'' heq; cases heq

theorem itemized_leaf {n : Node} (hn : n.children = []) (harray : ∀ h, n ≠ .array h none) :
    n.Itemized := by
  rw [itemized_iff, hn]
  exact ⟨harray, List.forall_mem_nil _⟩

theorem itemized_read (t : TypeExpr) : ∀ description metadata discriminator,
    (read description metadata discriminator t).Itemized := by
  induction t with
  | scalar s =>
    intro description metadata discriminator
    cases s <;> exact itemized_leaf rfl (by simp [read, ofScalar])
  | null | other | generic | forward | model | enumeration =>
    intro description metadata discriminator
    exact itemized_leaf rfl (by simp [read])
  | bareList form =>
    intro description metadata discriminator
    rw [read, itemized_iff]
    exact ⟨by simp, by simpa [children] using itemized_leaf rfl (by simp)⟩
  | literal values =>
    intro description metadata discriminator
    rw [read]
    rcases ofLiteral_cases values with h | ⟨nullable, members, -, h | h⟩ <;> rw [h]
    all_goals exact itemized_leaf rfl (by simp)
  | list form item ih =>
    intro description metadata discriminator
    rw [read, itemized_iff]
    exact ⟨by simp, by simpa [children] using ih none [] none⟩
  | annotated base inner ih =>
    intro description metadata discriminator
    exact ih description (inner ++ metadata) discriminator
  | union members ih =>
    intro description metadata discriminator
    obtain ⟨m, hmem, hm⟩ | hlen := TypeExpr.sole_or_variants members
    · rw [read_sole hm]
      exact (ih m hmem _ _ _).withHead _
    · rw [read_variants hlen, itemized_iff]
      refine ⟨by simp, ?_⟩
      simp only [children, List.forall_mem_map]
      intro m hm
      exact ih m (List.mem_filter.1 hm).1 _ _ _
  | record name doc fields ih =>
    intro description metadata discriminator
    rw [read, itemized_iff, readFields_eq]
    refine ⟨by simp, ?_⟩
    simp only [children, List.map_map, List.forall_mem_map]
    intro f hf
    exact (ih f hf _ _ _).withHead _

end Node

/-- A type whose node has an offence has no schema: the conversion ends at something that schemas
cannot express, unless at a bound that they cannot hold. -/
theorem Schema.exists_error (h : ¬ Clean models root) :
    ∃ e, ofType models root = .error e ∧ ((∃ u, e = .unsupported u) ∨ (∃ issues, e = .invalid issues) ∧
      ∃ n ∈ (Node.ofTypeIn models root).subnodes, ∃ c ∈ n.head.checks, ¬ c.Fits) := by
  cases hresult : ofType models root with
  | ok s => exact absurd (clean_of_ok hresult) h
  | error e =>
    refine ⟨e, rfl, ?_⟩
    have hheeds := ofNode_heeds (Node.ofTypeIn models root)
    rw [ofType] at hresult
    rw [hresult] at hheeds
    cases hheeds with
    | unsupported _ => exact .inl ⟨_, rfl⟩
    | misfit he =>
      obtain ⟨n, hn, he⟩ := he
      cases he with
      | items heq => exact absurd heq (Node.itemized_read _ _ _ _ n hn _)
      | bound hc hfits => exact .inr ⟨⟨_, rfl⟩, n, hn, _, hc, hfits⟩

/-- Inspection ends. A reference to a declared model stays lazy exactly where a record of the model
stands around it, and is otherwise a record with an entry for each field. A type that is made of a
model inside itself has no schema. -/
theorem Node.ofTypeIn_exact (models : List Model) (t : TypeExpr) :
    (WellFounded fun w v : Visit => ∃ place, v.Calls models place w) ∧
    (∀ path active name m, Visited models t path ⟨active, .model name⟩ →
      Model.find? models name = some m →
      ∃ n, (ofTypeIn models t).at? path = some n ∧
        ((∃ h shown, n = .lazy h shown) ↔
          Visited.Encloses models t name path ⟨active, .model name⟩) ∧
        (¬ Visited.Encloses models t name path ⟨active, .model name⟩ →
          ∃ h fields, n = .object h fields ∧
            fields.map (·.1) = m.fields.map fun f => f.1.wireName)) ∧
    ∀ name, t.Reaches models (.model name) →
      Relation.TransGen (fun t u => u ∈ t.parts models) (.model name) (TypeExpr.model name) →
      ∃ e, Schema.ofType models t = .error e ∧
        ((∃ u, e = .unsupported u) ∨ (∃ issues, e = .invalid issues) ∧
          ∃ n ∈ (ofTypeIn models t).subnodes, ∃ c ∈ n.head.checks, ¬ c.Fits) := by
  refine ⟨calls_wellFounded models, ?_, ?_⟩
  · intro path active name m hvisited hm
    obtain ⟨n, hn, hmakes⟩ := hvisited.exists_node
    rw [← hvisited.mem_active_iff]
    refine ⟨n, hn, ⟨?_, fun hname => ?_⟩, fun hname => ?_⟩
    · rintro ⟨h, shown, rfl⟩
      by_contra hname
      obtain ⟨h', fields, heq, -⟩ := hmakes.object_of_find? hvisited.sound hname hm
      cases heq
    · obtain ⟨h, heq⟩ := hmakes.lazy_of_mem hname
      exact ⟨h, _, heq⟩
    · exact hmakes.object_of_find? hvisited.sound hname hm
  · intro name hreach hcycle
    exact Schema.exists_error (not_clean_of_cycle hreach hcycle)

/-- Members of teams, which are led by members. Both have a place. -/
def clubModels : List Model :=
  [⟨"Member", none, [({ name := "team" }, .union [.model "Team", .null]),
      ({ name := "home" }, .model "Place")]⟩,
    ⟨"Team", none, [({ name := "lead" }, .model "Member"), ({ name := "home" }, .model "Place")]⟩,
    ⟨"Place", none, [({ name := "street" }, .scalar .str)]⟩]

/-- Of the fields of a member's team, the one for a member is lazy and the one for a place is not. -/
theorem Node.club_exact :
    (∃ h shown, (ofTypeIn clubModels (.model "Member")).at? [0, 0] = some (.lazy h shown)) ∧
      (∃ h fields, (ofTypeIn clubModels (.model "Member")).at? [0, 1] = some (.object h fields) ∧
        fields.map (·.1) = ["street"]) ∧
      ∃ e, Schema.ofType clubModels (.model "Member") = .error e := by
  obtain ⟨-, hexact, hcycle⟩ := ofTypeIn_exact clubModels (.model "Member")
  have hteam : Visited clubModels (.model "Member") [0] ⟨["Member"], .model "Team"⟩ :=
    ((Leads.here.next (.field (by decide) rfl rfl)).next .base).next (.sole rfl)
  have hlead : Visited clubModels (.model "Member") [0, 0] ⟨["Team", "Member"], .model "Member"⟩ :=
    (hteam.next (.field (by decide) rfl rfl)).next .base
  have hplace : Visited clubModels (.model "Member") [0, 1] ⟨["Team", "Member"], .model "Place"⟩ :=
    (hteam.next (.field (by decide) rfl rfl)).next .base
  obtain ⟨n, hn, hlazy, -⟩ := hexact _ _ _ _ hlead rfl
  obtain ⟨h, shown, rfl⟩ := hlazy.2 (hlead.mem_active_iff.1 (by decide))
  obtain ⟨n', hn', -, hobject⟩ := hexact _ _ _ _ hplace rfl
  obtain ⟨h', fields, rfl, hfields⟩ := hobject (hplace.mem_active_iff.not.1 (by decide))
  refine ⟨⟨h, shown, hn⟩, ⟨h', fields, hn', hfields⟩, ?_⟩
  obtain ⟨e, he, -⟩ := hcycle "Member" .refl
    (.tail (.tail (.tail (.tail (.single (List.mem_cons_self)) List.mem_cons_self)
      List.mem_cons_self) List.mem_cons_self) List.mem_cons_self)
  exact ⟨e, he⟩

end TypeWire
