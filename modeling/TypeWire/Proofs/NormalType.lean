import TypeWire.Proofs.Canonical
import TypeWire.Proofs.FieldNames
import TypeWire.Proofs.WireForm

/-!
# Normal types

What a schema is rebuilt into is normal (`TypeExpr.normal_ofSchema`): literals have each text once,
unions have two or more members, no two of them equal, none of them null and none a union itself, and
null stands at the end only. So flattening a union, dropping its repetitions and taking the one member
that is left are all done with after one pass.

This needs the schema to be steady (`Schema.Steady`): a member that is nullable would bring its null
into the midst of a union, and a description that is not clean would change when it is the docstring
of a record.
-/

namespace TypeWire

namespace Schema

/-- No member of a union is nullable, and descriptions are written as docstrings are. -/
inductive Steady : Schema → Prop
  | node {f : Facets} {items : Option Schema} {properties : Option (List (String × Schema))}
      {anyOf : Option (List Schema)} : (∀ d ∈ f.description, Text.cleanDocstring d = d) →
      (∀ m ∈ anyOf.getD [], m.facets.nullable ≠ some true) → (∀ s ∈ items, Steady s) →
      (∀ p ∈ properties.getD [], Steady p.2) → (∀ m ∈ anyOf.getD [], Steady m) →
      Steady (node f items properties anyOf)

end Schema

namespace TypeExpr

/-- The types that schemas are rebuilt into, if `clear` says that the name so far holds no null
character. Descriptions and null are added to types in which unions find no null. -/
inductive Normal : Prop → TypeExpr → Prop
  | text {clear : Prop} : Normal clear (.scalar .str)
  | datetime {clear : Prop} : Normal clear (.scalar .datetime)
  | bool {clear : Prop} : Normal clear (.scalar .bool)
  | literal {clear : Prop} {texts : List String} : texts ≠ [] → texts.Nodup →
      Normal clear (.literal (texts.map .str))
  | bounded {clear : Prop} {s : Scalar} (lo hi : Option Float) : s = .int ∨ s = .float →
      Normal clear ((scalar s).annotate (bounds lo hi))
  | sized {clear : Prop} {item : TypeExpr} (lo hi : Option Int) : Normal clear item →
      Normal clear ((list .builtin item).annotate (lengths lo hi))
  | record {clear : Prop} {name : String} {doc : Option String} {required : List String}
      {types : List (String × TypeExpr)} : clear → (types.map (·.1)).Nodup →
      (∀ q ∈ types, q.2.HasValidator) → (∀ d ∈ doc, d ≠ "" ∧ Text.cleanDocstring d = d) →
      (∀ q ∈ types, Normal (clear ∧ Clear q.1) q.2) →
      Normal clear (.record name doc (fieldsOf required types))
  | described {clear : Prop} {t : TypeExpr} {d : String} : Normal clear t → t.IsProper → d ≠ "" →
      Text.cleanDocstring d = d →
      Normal clear (t.annotate [.field { description := some (some d) }])
  | union {clear : Prop} {ts : List TypeExpr} : 2 ≤ ts.length →
      ts.Pairwise (fun a b => b.equals a = false) → (∀ t ∈ ts, t.IsAtom) →
      (∀ t ∈ ts, Normal clear t) → Normal clear (.union ts)
  | optional {clear : Prop} {t : TypeExpr} : Normal clear t → t.IsProper →
      Normal clear t.optionalOf

theorem Normal.regular {clear : Prop} {t : TypeExpr} (h : Normal clear t) : Regular t := by
  induction h with
  | text | datetime | bool => exact .scalar _
  | literal => exact .literal _
  | bounded lo hi hs => exact regular_ofNumberSchema hs { minimum := lo, maximum := hi }
  | sized lo hi _ ih => exact regular_ofArraySchema ih { minItems := lo, maxItems := hi }
  | record _ _ _ _ _ ih => exact regular_record _ _ _ ih
  | described _ _ hd _ ih => exact ih.describe hd
  | union _ hapart _ _ ih => exact .union hapart ih
  | optional _ _ ih => exact ih.optionalOf

theorem not_isProper_optionalOf {t : TypeExpr} (ht : Regular t) (hproper : t.IsProper) :
    ¬ t.optionalOf.IsProper := by
  rw [optionalOf_eq ht hproper.1 hproper.2]
  intro hopt
  have hnull := hopt.2 .null (List.mem_append_right _ (List.mem_singleton_self _))
  cases hnull

/-- What a union takes in of a normal type without null is normal, and taken in as it is. -/
theorem Normal.of_mem_members {clear : Prop} {t : TypeExpr} (h : Normal clear t) (ht : t.IsProper) :
    ∀ m ∈ t.members, Normal clear m ∧ m.IsAtom := by
  have hatom (hatom : t.IsAtom) : ∀ m ∈ t.members, Normal clear m ∧ m.IsAtom := by
    rw [hatom.1, List.forall_mem_singleton]
    exact ⟨h, hatom⟩
  cases h with
  | text | datetime | bool | literal | record => exact hatom ⟨rfl, rfl⟩
  | bounded | sized => exact hatom (isAtom_annotate ⟨rfl, rfl⟩ _)
  | described =>
    rw [annotate_cons] at hatom ⊢
    exact hatom ⟨rfl, rfl⟩
  | union _ _ hatoms hms => exact fun m hm => ⟨hms m hm, hatoms m hm⟩
  | optional h ht' => exact absurd ht (not_isProper_optionalOf h.regular ht')

/-- A union of normal types without null is normal, and has no null. -/
theorem normal_unionOf {clear : Prop} {ts : List TypeExpr} (hne : ts ≠ [])
    (hts : ∀ t ∈ ts, Normal clear t ∧ t.IsProper) :
    Normal clear (unionOf ts) ∧ (unionOf ts).IsProper := by
  have hkept : ∀ m ∈ distinct (ts.flatMap members), Normal clear m ∧ m.IsAtom := by
    intro m hm
    obtain ⟨t, ht, hmt⟩ := List.mem_flatMap.1 (mem_of_mem_distinctFrom hm)
    obtain ⟨hnormal, hproper⟩ := hts t ht
    exact hnormal.of_mem_members hproper m hmt
  have hsome : distinct (ts.flatMap members) ≠ [] := by
    obtain ⟨t, ht⟩ := List.exists_mem_of_ne_nil ts hne
    obtain ⟨m, hm⟩ := List.exists_mem_of_ne_nil _ (hts t ht).2.1
    obtain ⟨e, he, -⟩ := exists_kept [] (List.mem_flatMap.2 ⟨t, ht, hm⟩)
    exact List.ne_nil_of_mem he
  have hapart : (distinct (ts.flatMap members)).Pairwise (fun a b => b.equals a = false) :=
    (distinctFrom_apart [] _).2
  unfold unionOf
  generalize distinct (ts.flatMap members) = kept at hkept hsome hapart
  match kept with
  | [] => exact absurd rfl hsome
  | [t] =>
    obtain ⟨hnormal, hatom⟩ := hkept t List.mem_cons_self
    exact ⟨hnormal, hatom.isProper⟩
  | t :: u :: rest =>
    refine ⟨.union (by simp) hapart (fun m hm => (hkept m hm).2) fun m hm => (hkept m hm).1, ?_⟩
    exact ⟨List.cons_ne_nil _ _, fun m hm => (hkept m hm).2.2⟩

theorem Normal.describe {clear : Prop} {t : TypeExpr} (h : Normal clear t) (ht : t.IsProper)
    {description : Option String} (hclean : ∀ d ∈ description, Text.cleanDocstring d = d) :
    Normal clear (t.described description []) ∧ (t.described description []).IsProper := by
  refine ⟨?_, ht.described description⟩
  rcases described_cases t description [] with heq | ⟨d, hd, rfl, heq⟩
  · rw [heq]
    exact h
  · rw [heq]
    exact .described h ht hd (hclean d rfl)

theorem normal_ofStringSchema {clear : Prop} {f : Facets}
    (hclean : ∀ d ∈ f.description, Text.cleanDocstring d = d) :
    Normal clear (ofStringSchema f) ∧ (ofStringSchema f).IsProper := by
  by_cases henum : f.enum.getD [] = []
  · rw [ofStringSchema_plain henum]
    by_cases hformat : f.format = some "date-time"
    · rw [if_pos hformat]
      exact Normal.datetime.describe (IsAtom.isProper ⟨rfl, rfl⟩) hclean
    · rw [if_neg hformat]
      exact Normal.text.describe (IsAtom.isProper ⟨rfl, rfl⟩) hclean
  · obtain ⟨kept, heq, hnodup, hmem, -⟩ := literalOf_str (f.enum.getD [])
    have hne : kept ≠ [] := by
      obtain ⟨text, htext⟩ := List.exists_mem_of_ne_nil _ henum
      exact List.ne_nil_of_mem ((hmem text).2 htext)
    rw [ofStringSchema_enum henum, heq]
    exact (Normal.literal hne hnodup).describe (IsAtom.isProper ⟨rfl, rfl⟩) hclean

theorem normal_ofNumberSchema {clear : Prop} {s : Scalar} (hs : s = .int ∨ s = .float) {f : Facets}
    (hclean : ∀ d ∈ f.description, Text.cleanDocstring d = d) :
    Normal clear (ofNumberSchema s f) ∧ (ofNumberSchema s f).IsProper := by
  rw [ofNumberSchema, described_annotate rfl]
  exact (Normal.bounded f.minimum f.maximum hs).describe
    (isAtom_annotate ⟨rfl, rfl⟩ _).isProper hclean

theorem normal_ofArraySchema {clear : Prop} {item : TypeExpr} (hitem : Normal clear item) {f : Facets}
    (hclean : ∀ d ∈ f.description, Text.cleanDocstring d = d) :
    Normal clear (ofArraySchema item f) ∧ (ofArraySchema item f).IsProper := by
  rw [ofArraySchema, described_annotate rfl]
  exact (Normal.sized f.minItems f.maxItems hitem).describe
    (isAtom_annotate ⟨rfl, rfl⟩ _).isProper hclean

/-- The shapes of schemas are rebuilt into normal types without null, if their parts are. -/
theorem Rebuilt.normal {name : String} {f : Facets} {items : Option Schema}
    {properties : Option (List (String × Schema))} {anyOf : Option (List Schema)} {t : TypeExpr}
    (h : Rebuilt name f items properties anyOf t)
    (hclean : ∀ d ∈ f.description, Text.cleanDocstring d = d)
    (hkeys : ((properties.getD []).map (·.1)).Nodup)
    (hitems : ∀ s ∈ items, ∀ {n u}, ofSchema n s = .ok u → Normal (Clear n) u)
    (hproperties : ∀ p ∈ properties.getD [], ∀ {n u}, ofSchema n p.2 = .ok u → Normal (Clear n) u)
    (hanyOf : ∀ m ∈ anyOf.getD [], ∀ {n u}, ofSchema n m = .ok u → Normal (Clear n) u ∧ u.IsProper) :
    Normal (Clear name) t ∧ t.IsProper := by
  cases h with
  | @union _ _ m ms ts hts =>
    have hall : ∀ t ∈ ts, Normal (Clear name) t ∧ t.IsProper := by
      intro t ht
      obtain ⟨m', hm', n, hn, hmt⟩ := exists_of_forall₂ hts t ht
      rw [← propext hn]
      exact hanyOf m' hm' hmt
    have hne : ts ≠ [] := by
      rintro rfl
      cases hts
    obtain ⟨hnormal, hproper⟩ := normal_unionOf hne hall
    exact hnormal.describe hproper hclean
  | text => exact normal_ofStringSchema hclean
  | number => exact normal_ofNumberSchema (.inr rfl) hclean
  | integer => exact normal_ofNumberSchema (.inl rfl) hclean
  | boolean => exact Normal.bool.describe (IsAtom.isProper ⟨rfl, rfl⟩) hclean
  | array _ _ hitem =>
    obtain ⟨n, hn, hitem⟩ := hitem
    have hnormal := hitems _ rfl hitem
    rw [propext hn] at hnormal
    exact normal_ofArraySchema hnormal hclean
  | @object _ _ _ types _ _ _ htypes hrec =>
    have hvalidators := hasValidator_of_recordOf (regular_properties htypes) hrec
    obtain ⟨hclear, -, rfl⟩ := recordOf_ok.1 hrec
    have hsame : (properties.getD []).map (·.1) = types.map (·.1) :=
      map_eq_of_forall₂ htypes fun _ _ h => h.1
    refine ⟨.record hclear (hsame ▸ hkeys) hvalidators ?_ ?_, IsAtom.isProper ⟨rfl, rfl⟩⟩
    · intro d hd
      obtain ⟨hdesc, hne⟩ := Option.filter_eq_some_iff.1 hd
      exact ⟨by simpa using hne, hclean d hdesc⟩
    · intro q hq
      obtain ⟨p, hp, hkey, n, hn, hpq⟩ := exists_of_forall₂ htypes q hq
      rw [clear_append, hkey] at hn
      rw [← propext hn]
      exact hproperties p hp hpq

/-- A steady schema is rebuilt into a normal type, which has null only if the schema says so. -/
theorem normal_ofSchema {s : Schema} : ∀ {name : String} {t : TypeExpr}, s.Steady → s.Keyed →
    ofSchema name s = .ok t →
      Normal (Clear name) t ∧ (s.facets.nullable ≠ some true → t.IsProper) := by
  induction s with
  | node f items properties anyOf ihItems ihProperties ihAnyOf =>
    intro name t hs hk h
    obtain ⟨hclean, hnotNull, hsItems, hsProperties, hsAnyOf⟩ := hs
    obtain ⟨hkeys, hkItems, hkProperties, hkAnyOf⟩ := hk
    obtain ⟨base, hbase, rfl⟩ := ofSchema_cases h
    have hnormal : Normal (Clear name) base ∧ base.IsProper := by
      refine hbase.normal hclean hkeys (fun s hs n u hu => ?_) (fun p hp n u hu => ?_)
        fun m hm n u hu => ?_
      · exact (ihItems s hs (hsItems s hs) (hkItems s hs) hu).1
      · cases properties with
        | none => cases hp
        | some ps => exact (ihProperties ps rfl p hp (hsProperties p hp) (hkProperties p hp) hu).1
      · cases anyOf with
        | none => cases hm
        | some ms =>
          obtain ⟨hn, hp⟩ := ihAnyOf ms rfl m hm (hsAnyOf m hm) (hkAnyOf m hm) hu
          exact ⟨hn, hp (hnotNull m hm)⟩
    unfold orNull
    by_cases hnull : f.nullable = some true
    · rw [if_pos hnull]
      exact ⟨.optional hnormal.1 hnormal.2, fun hnot => absurd hnull hnot⟩
    · rw [if_neg hnull]
      exact ⟨hnormal.1, fun _ => hnormal.2⟩

end TypeExpr

end TypeWire
