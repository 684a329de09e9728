import Mathlib.Control.Monad.Writer
import TypeWire.Proofs.Admission

/-!
# Types that are remembered

A run remembers what it puts together (`TypeCache`), so the type of a schema depends on the types that
were rebuilt before. It does so in the order of values and members only. `Answers` says when what is
remembered may stand for what is asked for, and that it may is kept by every construction
(`Answers.make`). There are two such notions:

* what is remembered takes the same data: with memory a schema is rebuilt, or is not, as it is without
  it, and the types take the same data (`TypeExpr.rebuild_alike`);
* what is remembered is the same: this is kept only as long as no two constructions are equal and have
  different results (`Construction.Unambiguous`), and then memory changes nothing
  (`TypeExpr.rebuild_eq_ofSchema`).
-/

namespace TypeWire

/-! ## What is remembered -/

/-- The constructions that are looked up for a construction. -/
def Construction.keys : Construction → List Construction
  | c@(.optional t) => [c, .union [t, .null]]
  | c => [c]

theorem Construction.mem_keys (c : Construction) : c ∈ c.keys := by
  cases c <;> exact List.mem_cons_self

/-- A type `t` with `answer c t` may be given for a construction that is asked for. -/
structure Answers (asked : Construction → Prop) (answer : Construction → TypeExpr → Prop) :
    Prop where
  result {c : Construction} : asked c → answer c c.result
  again {c d : Construction} {t : TypeExpr} : asked c → asked d → c.equals d = true → answer d t →
    answer c t
  inner {t : TypeExpr} : asked (.optional t) → asked (.union [t, .null])
  optional {t u : TypeExpr} : answer (.union [t, .null]) u → answer (.optional t) u

/-- What is remembered was asked for and answered. -/
def Remembered.Answered (asked : Construction → Prop) (answer : Construction → TypeExpr → Prop)
    (known : Remembered) : Prop :=
  ∀ e ∈ known, asked e.1 ∧ answer e.1 e.2

/-- What is remembered of either kind was asked for and answered. -/
structure TypeCache.Answered (asked : Construction → Prop) (answer : Construction → TypeExpr → Prop)
    (cache : TypeCache) : Prop where
  unions : cache.unions.Answered asked answer
  annotated : cache.annotated.Answered asked answer

theorem TypeCache.answered_empty (asked : Construction → Prop)
    (answer : Construction → TypeExpr → Prop) : TypeCache.Answered asked answer {} :=
  ⟨List.forall_mem_nil _, List.forall_mem_nil _⟩

section answers

variable {asked : Construction → Prop} {answer : Construction → TypeExpr → Prop}

/-- A construction gives an answer if what it builds is one, and so does what is remembered. -/
theorem Answers.lookUp (h : Answers asked answer) {c : Construction} (hc : asked c)
    {known : Remembered} (hknown : known.Answered asked answer)
    {build : Remembered → TypeExpr × Remembered} (hbuild : answer c (build known).1)
    (hrest : (build known).2.Answered asked answer) :
    answer c (Remembered.lookUp c build known).1 ∧
      (Remembered.lookUp c build known).2.Answered asked answer := by
  unfold Remembered.lookUp
  split
  · rename_i e he
    have hmem := List.mem_of_find?_eq_some he
    have hequal : c.equals e.1 = true := by simpa using List.find?_some he
    refine ⟨h.again hc (hknown e hmem).1 hequal (hknown e hmem).2, ?_⟩
    exact List.forall_mem_cons.2 ⟨hknown e hmem, fun d hd => hknown d (List.mem_of_mem_eraseP hd)⟩
  · refine ⟨hbuild, fun d hd => ?_⟩
    exact List.forall_mem_cons.2 ⟨⟨hc, hbuild⟩, hrest⟩ d (List.mem_of_mem_take hd)

theorem Answers.lookUpOrMake (h : Answers asked answer) {c : Construction} (hc : asked c)
    {known : Remembered} (hknown : known.Answered asked answer) :
    answer c (Remembered.lookUpOrMake c known).1 ∧
      (Remembered.lookUpOrMake c known).2.Answered asked answer :=
  h.lookUp hc hknown (h.result hc) hknown

/-- What is remembered of answered constructions answers the next one. -/
theorem Answers.make (h : Answers asked answer) {c : Construction} (hc : asked c) {cache : TypeCache}
    (hcache : cache.Answered asked answer) :
    answer c (cache.make c).1 ∧ (cache.make c).2.Answered asked answer := by
  cases c with
  | union ts =>
    obtain ⟨ht, hunions⟩ := h.lookUpOrMake hc hcache.unions
    exact ⟨ht, hunions, hcache.annotated⟩
  | annotated t ms =>
    obtain ⟨ht, hannotated⟩ := h.lookUpOrMake hc hcache.annotated
    exact ⟨ht, hcache.unions, hannotated⟩
  | optional t =>
    obtain ⟨hinner, hrest⟩ := h.lookUpOrMake (h.inner hc) hcache.unions
    obtain ⟨ht, hunions⟩ := h.lookUp hc hcache.unions (h.optional hinner) hrest
    exact ⟨ht, hunions, hcache.annotated⟩

end answers

/-! ## Constructions of types that take the same data -/

namespace Construction

open TypeExpr (Regular Alike)

/-- A construction that leads from a regular type to a regular one. Metadata is put around other
metadata only with a field specification in it. -/
inductive IsRegular : Construction → Prop
  | union {ts : List TypeExpr} : (∀ t ∈ ts, Regular t) → IsRegular (.union ts)
  | optional {t : TypeExpr} : Regular t → IsRegular (.optional t)
  | annotated {t : TypeExpr} {ms : List Meta} : Regular t → Regular (t.annotate ms) →
      (t.isAnnotated = true → ∃ spec, .field spec ∈ ms) → IsRegular (.annotated t ms)

theorem IsRegular.result {c : Construction} (h : c.IsRegular) : Regular c.result := by
  cases h with
  | union hts => exact .unionOf hts
  | optional ht => exact ht.optionalOf
  | annotated _ h => exact h

theorem allEqual_forall₂ {ts us : List TypeExpr} (h : TypeExpr.allEqual ts us = true) :
    List.Forall₂ (fun t u => t.equals u = true) ts us := by
  induction ts generalizing us with
  | nil =>
    cases us with
    | nil => exact .nil
    | cons u us => simp [TypeExpr.allEqual] at h
  | cons t ts ih =>
    cases us with
    | nil => simp [TypeExpr.allEqual] at h
    | cons u us =>
      rw [TypeExpr.allEqual, Bool.and_eq_true] at h
      exact .cons h.1 (ih h.2)

theorem alike_unionOf_of_forall₂ {ts us : List TypeExpr} (hts : ∀ t ∈ ts, Regular t)
    (hus : ∀ u ∈ us, Regular u) (h : List.Forall₂ Alike ts us) :
    Alike (.unionOf ts) (.unionOf us) := by
  have hunion : Alike (.union ts) (.union us) :=
    TypeExpr.alike_union (exists_of_forall₂ h.flip) (exists_of_forall₂ h)
  exact ((TypeExpr.alike_unionOf hts).trans hunion).trans (TypeExpr.alike_unionOf hus).symm

theorem alike_optionalOf {t u : TypeExpr} (ht : Regular t) (hu : Regular u) (h : Alike t u) :
    Alike t.optionalOf u.optionalOf := by
  refine alike_unionOf_of_forall₂ ?_ ?_ (.cons h (.cons (.refl _) .nil))
  · exact List.forall_mem_cons.2 ⟨ht, List.forall_mem_singleton.2 .null⟩
  · exact List.forall_mem_cons.2 ⟨hu, List.forall_mem_singleton.2 .null⟩

/-- Metadata that equals other metadata stands around types without metadata. -/
theorem IsRegular.equals_annotate {t u : TypeExpr} {ms ns : List Meta}
    (h : IsRegular (.annotated t ms)) (h' : IsRegular (.annotated u ns))
    (hequal : t.equals u = true) (hmeta : Meta.allEqual ms ns = true) :
    (t.annotate ms).equals (u.annotate ns) = true := by
  have hnone {t : TypeExpr} {ms : List Meta} (h : IsRegular (.annotated t ms))
      (hms : ∀ spec, .field spec ∉ ms) : t.isAnnotated = false := by
    cases h with
    | annotated _ _ hfield =>
      rw [Bool.eq_false_iff]
      intro ht
      obtain ⟨spec, hspec⟩ := hfield ht
      exact hms spec hspec
  have ht := hnone h fun spec => (TypeExpr.not_field_of_allEqual hmeta spec).1
  have hu := hnone h' fun spec => (TypeExpr.not_field_of_allEqual hmeta spec).2
  cases ms with
  | nil =>
    cases ns with
    | nil => exact hequal
    | cons n ns => simp [Meta.allEqual] at hmeta
  | cons m ms =>
    cases ns with
    | nil => simp [Meta.allEqual] at hmeta
    | cons n ns =>
      rw [TypeExpr.annotate_plain ht, TypeExpr.annotate_plain hu, TypeExpr.equals, hequal, hmeta]
      rfl

/-- Equal constructions have results that take the same data. -/
theorem IsRegular.alike {c d : Construction} (hc : c.IsRegular) (hd : d.IsRegular)
    (h : c.equals d = true) : Alike c.result d.result := by
  cases hc with
  | @union ts hts =>
    cases hd with
    | @union us hus =>
      have hparts := (List.forall₂_and_left _ _).2 ⟨hts, allEqual_forall₂ h⟩
      have hparts' := (List.forall₂_and_left _ _).2 ⟨hus, hparts.flip⟩
      refine alike_unionOf_of_forall₂ hts hus (hparts'.flip.imp ?_)
      rintro t u ⟨hu, ht, htu⟩
      exact ht.alike_of_equals u hu htu
    | _ => cases h
  | @optional t ht =>
    cases hd with
    | @optional u hu => exact alike_optionalOf ht hu (ht.alike_of_equals u hu h)
    | _ => cases h
  | @annotated t ms ht hresult hfield =>
    cases hd with
    | @annotated u ns hu hresult' hfield' =>
      rw [equals, Bool.and_eq_true] at h
      have hequal := IsRegular.equals_annotate (.annotated ht hresult hfield)
        (.annotated hu hresult' hfield') h.1 h.2
      exact hresult.alike_of_equals _ hresult' hequal
    | _ => cases h

end Construction

namespace TypeExpr

/-! ## Conversions with memory -/

/-- Conversions that make everything anew and write down what they put together. -/
abbrev Recording := ExceptT SchemaError (Writer (List Construction))

/-- A construction that is made anew and written down. -/
def recorded (c : Construction) : Recording TypeExpr := ExceptT.mk (WriterT.mk (.ok c.result, [c]))

theorem run_bind_ok {α β : Type} {x : ExceptT SchemaError (StateM TypeCache) α}
    {f : α → ExceptT SchemaError (StateM TypeCache) β} {cache cache' : TypeCache} {a : α}
    (h : x.run.run cache = (.ok a, cache')) : (x >>= f).run.run cache = (f a).run.run cache' := by
  have h' : x cache = (.ok a, cache') := h
  simp [bind, ExceptT.bind, ExceptT.mk, ExceptT.run, StateT.run, StateT.bind, h', ExceptT.bindCont]

theorem run_bind_error {α β : Type} {x : ExceptT SchemaError (StateM TypeCache) α}
    {f : α → ExceptT SchemaError (StateM TypeCache) β} {cache cache' : TypeCache} {e : SchemaError}
    (h : x.run.run cache = (.error e, cache')) : (x >>= f).run.run cache = (.error e, cache') := by
  have h' : x cache = (.error e, cache') := h
  simp [bind, ExceptT.bind, ExceptT.mk, ExceptT.run, StateT.run, StateT.bind, h', ExceptT.bindCont]
  rfl

theorem recording_bind_ok {α β : Type} {y : Recording α} {g : α → Recording β} {a : α}
    {made : List Construction} (h : y.run.run = (.ok a, made)) :
    (y >>= g).run.run = ((g a).run.run.1, made ++ (g a).run.run.2) := by
  have h' : y = (.ok a, made) := h
  subst h'
  rfl

theorem recording_bind_error {α β : Type} {y : Recording α} {g : α → Recording β} {e : SchemaError}
    {made : List Construction} (h : y.run.run = (.error e, made)) :
    (y >>= g).run.run = (.error e, made) := by
  have h' : y = (.error e, made) := h
  subst h'
  show (_, made ++ []) = _
  rw [List.append_nil]

/-- What is put together for the type of a schema if everything is made anew. -/
def constructions (name : String) (s : Schema) : List Construction :=
  (convert recorded name s).run.run.2

section remembering

variable (needs asked : Construction → Prop) (answer : Construction → TypeExpr → Prop)
  (E : SchemaError → SchemaError → Prop) (refl : ∀ e, E e e)

/-- A conversion with memory beside one that makes everything anew: if what the latter puts together is
as needed, what is remembered stays asked for and answered. -/
def remembering : Simulation (ExceptT SchemaError (StateM TypeCache)) Recording where
  Rel V x y := (∀ c ∈ y.run.run.2, needs c) → ∀ cache, cache.Answered asked answer →
    SameResult E V (x.run.run cache).1 y.run.run.1 ∧ (x.run.run cache).2.Answered asked answer
  SameError := E
  pure h _ _ hcache := ⟨.ok h, hcache⟩
  bind {_ _ _ _ _ _ x y f g} hx hfg hneeds cache hcache := by
    rcases hrun : x.run.run cache with ⟨r, cache'⟩
    rcases hmade : y.run.run with ⟨r', made⟩
    have hmem : ∀ c ∈ made, needs c := by
      intro c hc
      cases r' with
      | ok b =>
        rw [recording_bind_ok hmade] at hneeds
        exact hneeds c (List.mem_append_left _ hc)
      | error e =>
        rw [recording_bind_error hmade] at hneeds
        exact hneeds c hc
    obtain ⟨hresult, hcache'⟩ := hx (by rw [hmade]; exact hmem) cache hcache
    rw [hrun, hmade] at hresult
    rw [hrun] at hcache'
    cases hresult with
    | error he =>
      rw [run_bind_error hrun, recording_bind_error hmade]
      exact ⟨.error he, hcache'⟩
    | @ok a b hab =>
      rw [recording_bind_ok hmade] at hneeds
      rw [run_bind_ok hrun, recording_bind_ok hmade]
      exact hfg a b hab (fun c hc => hneeds c (List.mem_append_right _ hc)) cache' hcache'
  throw h _ _ hcache := ⟨.error h, hcache⟩
  refl := refl

variable {needs asked answer E} {refl}

/-- A construction with memory gives an answer, beside one that is made anew. -/
theorem rel_recalled (h : Answers asked answer) {V : TypeExpr → TypeExpr → Prop}
    {c d : Construction} (hc : needs d → asked c) (hV : ∀ t, answer c t → V t d.result) :
    (remembering needs asked answer E refl).Rel V (recalled c) (recorded d) := by
  intro hneeds cache hcache
  obtain ⟨ht, hcache'⟩ := h.make (hc (hneeds d (List.mem_singleton_self d))) hcache
  exact ⟨.ok (hV _ ht), hcache'⟩

end remembering

/-- A conversion and one that writes down what it puts together. -/
def recording : Simulation Recording (Except SchemaError) where
  Rel V x y := SameResult Eq V x.run.run.1 y
  SameError := Eq
  pure := .ok
  bind {_ _ _ _ _ _ x y f g} hx hfg := by
    rcases hmade : x.run.run with ⟨r, made⟩
    rw [hmade] at hx
    cases hx with
    | error he =>
      rw [recording_bind_error hmade]
      exact .error he
    | @ok a b hab =>
      rw [recording_bind_ok hmade]
      exact hfg a b hab
  throw := .error
  refl _ := rfl

theorem recorded_eq_ofSchema (name : String) (s : Schema) :
    (convert recorded name s).run.run.1 = ofSchema name s := by
  have h : recording.Preserves Eq recorded anew := recording.preserves_eq fun c => .ok rfl
  exact (h.rel_convert s name).eq

/-! ## Records without null -/

section object

variable {name : String} {f : Facets} {items : Option Schema}
  {properties : Option (List (String × Schema))} {anyOf : Option (List Schema)}
  (hnil : anyOf.getD [] = []) (htype : f.type = some .object) (hnull : f.nullable ≠ some true)
include hnil htype hnull

theorem constructions_object :
    constructions name (.node f items properties anyOf) =
      (convertProperties recorded name (properties.getD [])).run.run.2 := by
  have hrest (types : List (String × TypeExpr)) :
      (MonadExcept.ofExcept (recordOf name f types) >>= allowNull recorded f.nullable).run.run.2 =
        [] := by
    unfold allowNull
    cases recordOf name f types with
    | error e => rfl
    | ok t => simp only [if_neg hnull]; rfl
  rw [constructions, convert_object hnil htype]
  rcases hmade : (convertProperties recorded name (properties.getD [])).run.run with ⟨r, made⟩
  cases r with
  | error e => rw [recording_bind_error hmade]
  | ok types => rw [recording_bind_ok hmade, hrest, List.append_nil]

theorem rebuild_object {cache cache' : TypeCache} {types : List (String × TypeExpr)}
    (h : (convertProperties recalled name (properties.getD [])).run.run cache = (.ok types, cache')) :
    (rebuild name (.node f items properties anyOf) cache).1 = recordOf name f types := by
  rw [rebuild, convert_object hnil htype, run_bind_ok h]
  unfold allowNull
  cases recordOf name f types with
  | error e => rfl
  | ok t => simp only [if_neg hnull]; rfl

end object

/-! ## The same data -/

/-- Errors that are the same, or both about a validator. -/
def SameError (e e' : SchemaError) : Prop :=
  e = e' ∨ (∃ u, e = .unbuildable u) ∧ ∃ u, e' = .unbuildable u

/-- Regular types that take the same data. -/
def RegularAlike (t u : TypeExpr) : Prop := Regular t ∧ Regular u ∧ Alike t u

theorem RegularAlike.refl {t : TypeExpr} (ht : Regular t) : RegularAlike t t := ⟨ht, ht, .refl t⟩

theorem answers_alike :
    Answers Construction.IsRegular fun c t => Regular t ∧ Alike t c.result where
  result hc := ⟨hc.result, .refl _⟩
  again hc hd hequal := fun ⟨ht, halike⟩ => ⟨ht, halike.trans (hc.alike hd hequal).symm⟩
  inner hc := by
    cases hc with
    | optional ht => exact .union (List.forall_mem_cons.2 ⟨ht, List.forall_mem_singleton.2 .null⟩)
  optional h := h

theorem exists_regularAlike_record {name : String} {f : Facets}
    {types types' : List (String × TypeExpr)} (hname : Clear name)
    (h : List.Forall₂ (fun p q => p.1 = q.1 ∧ RegularAlike p.2 q.2) types types')
    (hv : ∀ p ∈ types, p.2.HasValidator) (hv' : ∀ q ∈ types', q.2.HasValidator) :
    ∃ t u, recordOf name f types = .ok t ∧ recordOf name f types' = .ok u ∧ RegularAlike t u := by
  have hregular : ∀ p ∈ types, Regular p.2 := forall_of_forall₂ h.flip fun _ _ hpq => hpq.2.1
  have hregular' : ∀ q ∈ types', Regular q.2 := forall_of_forall₂ h fun _ _ hpq => hpq.2.2.1
  obtain ⟨t, ht⟩ := exists_recordOf hname f hregular hv
  obtain ⟨u, hu⟩ := exists_recordOf hname f hregular' hv'
  have htakes (x : Value) : t.Takes x ↔ u.Takes x := by
    rw [takes_record hregular ht, takes_record hregular' hu]
    refine exists_congr fun entries => and_congr_right fun _ => forall_congr_of_forall₂ (h.imp ?_)
    rintro p q ⟨hkey, -, -, hpq⟩
    simp only [hkey, hpq.2]
  obtain ⟨-, ⟨vs, hvs⟩, rfl⟩ := recordOf_ok.1 ht
  obtain ⟨-, ⟨vs', hvs'⟩, rfl⟩ := recordOf_ok.1 hu
  refine ⟨_, _, ht, hu, regular_record _ _ _ hregular, regular_record _ _ _ hregular', ?_, htakes⟩
  simp [HasValidator, Validator.ofType, hvs, hvs', bind, Except.bind, pure, Except.pure]

/-- Records with like properties are made, or are not, for the same reason. -/
theorem sameResult_recordOf (name : String) (f : Facets) {types types' : List (String × TypeExpr)}
    (h : List.Forall₂ (fun p q => p.1 = q.1 ∧ RegularAlike p.2 q.2) types types') :
    SameResult SameError RegularAlike (recordOf name f types) (recordOf name f types') := by
  by_cases hname : Clear name
  · have hvalidators : (∀ p ∈ types, p.2.HasValidator) ↔ ∀ q ∈ types', q.2.HasValidator :=
      forall_congr_of_forall₂ (h.imp fun p q hpq => hpq.2.2.2.1)
    by_cases hv : ∀ p ∈ types, p.2.HasValidator
    · obtain ⟨t, u, ht, hu, htu⟩ := exists_regularAlike_record hname h hv (hvalidators.1 hv)
      rw [ht, hu]
      exact .ok htu
    · have hfails {types : List (String × TypeExpr)} (hregular : ∀ p ∈ types, Regular p.2)
          (hv : ¬ ∀ p ∈ types, p.2.HasValidator) :
          ∃ u, recordOf name f types = .error (.unbuildable u) :=
        (recordOf_clear hname f types).resolve_left fun ⟨t, ht⟩ =>
          hv (hasValidator_of_recordOf hregular ht)
      obtain ⟨u, hu⟩ := hfails (forall_of_forall₂ h.flip fun _ _ hpq => hpq.2.1) hv
      obtain ⟨u', hu'⟩ := hfails (forall_of_forall₂ h fun _ _ hpq => hpq.2.2.1) fun hv' =>
        hv (hvalidators.2 hv')
      rw [hu, hu']
      exact .error (.inr ⟨⟨u, rfl⟩, u', rfl⟩)
  · rw [recordOf_unusable hname, recordOf_unusable hname]
    exact .error (.inl rfl)

theorem Restricted.described {t u : TypeExpr} {ms : List Meta} (h : Restricted RegularAlike t u ms)
    (description : Option String) :
    RegularAlike (t.described description ms) (u.described description ms) := by
  cases h with
  | plain htu =>
    obtain ⟨ht, hu, halike⟩ := htu
    refine ⟨regular_described ht _, regular_described hu _, ?_⟩
    exact ((alike_described_nil t _).trans halike).trans (alike_described_nil u _).symm
  | bounded lo hi hs => exact .refl (regular_restricted (.bounded lo hi hs) description)
  | sized lo hi htu =>
    obtain ⟨ht, hu, halike⟩ := htu
    refine ⟨regular_restricted (.sized _ lo hi ht) _, regular_restricted (.sized _ lo hi hu) _, ?_⟩
    exact ((alike_described _ _ _).trans (halike.sized _ lo hi)).trans (alike_described _ _ _).symm

theorem Restricted.isRegular {t u : TypeExpr} {ms : List Meta} (h : Restricted RegularAlike t u ms)
    {description : Option String} (hne : withDescription ms description ≠ []) :
    (Construction.annotated t (withDescription ms description)).IsRegular := by
  have hdescribed := (h.described description).1
  cases h with
  | plain htu =>
    refine .annotated htu.1 hdescribed fun _ => ?_
    unfold withDescription at hne ⊢
    cases hd : nonEmpty description with
    | none => simp [hd] at hne
    | some d => exact ⟨_, List.mem_singleton_self _⟩
  | bounded => exact .annotated (.scalar _) hdescribed nofun
  | sized _ _ htu => exact .annotated (.list _ htu.1) hdescribed nofun

/-- What is put together from types that take the same data takes the same data. -/
theorem preserves_regularAlike : (remembering (fun _ => True) Construction.IsRegular
    (fun c t => Regular t ∧ Alike t c.result) SameError fun _ => .inl rfl).Preserves
      RegularAlike recalled recorded where
  scalar s := .refl (.scalar s)
  text f := .refl (regular_textBase f)
  list := fun ⟨ht, hu, h⟩ => ⟨.list _ ht, .list _ hu, alike_list.2 h⟩
  record := sameResult_recordOf
  union {ts us} h := by
    have hts : ∀ t ∈ ts, Regular t := forall_of_forall₂ h.flip fun _ _ htu => htu.1
    have hus : ∀ u ∈ us, Regular u := forall_of_forall₂ h fun _ _ htu => htu.2.1
    have hunion := Construction.alike_unionOf_of_forall₂ hts hus (h.imp fun _ _ h => h.2.2)
    exact rel_recalled answers_alike (fun _ => .union hts) fun v ⟨hv, halike⟩ =>
      ⟨hv, .unionOf hus, halike.trans hunion⟩
  optional := fun ⟨ht, hu, h⟩ =>
    rel_recalled answers_alike (fun _ => .optional ht) fun v ⟨hv, halike⟩ =>
      ⟨hv, hu.optionalOf, halike.trans (Construction.alike_optionalOf ht hu h)⟩
  annotated description hr hne := by
    obtain ⟨-, hu, h⟩ := hr.described description
    exact rel_recalled answers_alike (fun _ => hr.isRegular hne) fun v ⟨hv, halike⟩ =>
      ⟨hv, hu, halike.trans h⟩

end TypeExpr

/-- What is remembered takes the same data as what would be made anew. -/
def TypeCache.Faithful (cache : TypeCache) : Prop :=
  cache.Answered Construction.IsRegular fun c t => TypeExpr.Regular t ∧ TypeExpr.Alike t c.result

namespace TypeExpr

variable {cache : TypeCache} {name : String} {s : Schema}

/-- With memory a schema is rebuilt if it is without, and into a type that takes the same data. -/
theorem rebuild_alike (hcache : cache.Faithful) (name : String) (s : Schema) :
    SameResult SameError RegularAlike (rebuild name s cache).1 (ofSchema name s) ∧
      (rebuild name s cache).2.Faithful := by
  rw [← recorded_eq_ofSchema]
  exact preserves_regularAlike.rel_convert s name (fun _ _ => trivial) cache hcache

/-- A type that is rebuilt with memory means what its schema says. -/
theorem means_rebuild {t : TypeExpr} (hcache : cache.Faithful)
    (h : (rebuild name s cache).1 = .ok t) : Means t s := by
  have hsame := (rebuild_alike hcache name s).1
  rw [h] at hsame
  obtain ⟨u, hu, -, -, halike⟩ := hsame.exists_ok
  intro hv x
  rw [halike.2 x]
  exact means_ofSchema hu (halike.1.1 hv) x

end TypeExpr

/-! ## The same types -/

/-- Of the constructions that are looked up for some, no two are equal and have different results. -/
def Construction.Unambiguous (cs : List Construction) : Prop :=
  ∀ c ∈ cs.flatMap keys, ∀ d ∈ cs.flatMap keys, c.equals d = true → c.result = d.result

theorem Construction.unambiguous_of_pairwise {cs : List Construction}
    (h : (cs.flatMap keys).Pairwise fun c d => c.equals d = false ∧ d.equals c = false) :
    Unambiguous cs := by
  have hsymm : Std.Symm fun c d : Construction => c.equals d = false ∧ d.equals c = false :=
    ⟨fun _ _ h => h.symm⟩
  intro c hc d hd hequal
  by_cases hcd : c = d
  · rw [hcd]
  · rw [(h.forall hc hd hcd).1] at hequal
    cases hequal

/-- What is remembered are some of the constructions, with their results. -/
def TypeCache.Among (cs : List Construction) (cache : TypeCache) : Prop :=
  cache.Answered (fun c => c.keys ⊆ cs.flatMap Construction.keys) fun c t => t = c.result

theorem TypeCache.among_empty (cs : List Construction) : TypeCache.Among cs {} := answered_empty _ _

namespace TypeExpr

theorem answers_result {cs : List Construction} (hcs : Construction.Unambiguous cs) :
    Answers (fun c => c.keys ⊆ cs.flatMap Construction.keys) fun c t => t = c.result where
  result _ := rfl
  again {c d t} hc hd hequal ht := by
    rw [ht, hcs c (hc c.mem_keys) d (hd d.mem_keys) hequal]
  inner h _ hc := h (List.mem_cons_of_mem _ hc)
  optional h := h

/-- As long as no two constructions are equal and have different results, memory changes nothing. -/
theorem rebuild_eq_ofSchema {cs : List Construction} (hcs : Construction.Unambiguous cs)
    (hcache : cache.Among cs) (hs : constructions name s ⊆ cs) :
    (rebuild name s cache).1 = ofSchema name s ∧ (rebuild name s cache).2.Among cs := by
  have h : (remembering (· ∈ cs) (fun c => c.keys ⊆ cs.flatMap Construction.keys)
      (fun c t => t = c.result) Eq fun _ => rfl).Preserves Eq recalled recorded :=
    Simulation.preserves_eq _ fun c => rel_recalled (answers_result hcs)
      (fun hc _ hk => List.mem_flatMap.2 ⟨c, hc, hk⟩) fun _ ht => ht
  obtain ⟨hresult, hcache'⟩ := h.rel_convert s name hs cache hcache
  exact ⟨hresult.eq.trans (recorded_eq_ofSchema name s), hcache'⟩

end TypeExpr

end TypeWire
