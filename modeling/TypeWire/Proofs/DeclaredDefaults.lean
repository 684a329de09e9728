import TypeWire.Model.Scope
import TypeWire.Proofs.WithoutDefaults

/-!
# Declarations without their defaults

A default is declared with a field, in its specification or in one among the metadata of its type, and
it can be left to one of several specifications to say. `Scope.SameButDefaults` relates two runs of
declarations that differ in defaults and in nothing else, and `Scope.SameButDefaults.models` says that
the declared models then differ in defaults and in nothing else.

There is one default that decides more than whether its field can be left out: a constant that has one
is a field of its class and not of the records (`FieldDecl.isOfClass`). So constants stay out of it.
-/

namespace TypeWire

/-! ## Names within types -/

namespace TypeExpr

theorem forwardNamesAll_eq (ts : List TypeExpr) : forwardNamesAll ts = ts.flatMap forwardNames := by
  induction ts with
  | nil => rfl
  | cons t ts ih => rw [forwardNamesAll, ih, List.flatMap_cons]

theorem forwardNamesFields_eq (fields : List (Field × TypeExpr)) :
    forwardNamesFields fields = fields.flatMap fun f => forwardNames f.2 := by
  induction fields with
  | nil => rfl
  | cons f fields ih => rw [forwardNamesFields, ih, List.flatMap_cons]

theorem substituteAll_eq (find : String → Option TypeExpr) (ts : List TypeExpr) :
    substituteAll find ts = ts.map (substitute find) := by
  induction ts with
  | nil => rfl
  | cons t ts ih => rw [substituteAll, ih, List.map_cons]

theorem substituteFields_eq (find : String → Option TypeExpr) (fields : List (Field × TypeExpr)) :
    substituteFields find fields = fields.map fun f => (f.1, substitute find f.2) := by
  induction fields with
  | nil => rfl
  | cons f fields ih => rw [substituteFields, ih, List.map_cons]

/-- The same names are left to be resolved. -/
@[simp] theorem forwardNames_withoutDefaults (t : TypeExpr) :
    t.withoutDefaults.forwardNames = t.forwardNames := by
  induction t with
  | list form item ih => exact ih
  | annotated base metadata ih => exact ih
  | union ms ih =>
    simp only [withoutDefaults, forwardNames, forwardNamesAll_eq, withoutDefaultsAll_eq,
      List.flatMap_map]
    exact List.flatMap_congr ih
  | generic written shown args ih =>
    simp only [withoutDefaults, forwardNames, forwardNamesAll_eq, withoutDefaultsAll_eq,
      List.flatMap_map]
    exact List.flatMap_congr ih
  | record name doc fields ih =>
    simp only [withoutDefaults, forwardNames, forwardNamesFields_eq, withoutDefaultsFields_eq,
      List.flatMap_map]
    exact List.flatMap_congr ih
  | _ => rfl

/-- Names can be resolved before or after, if what they stand for loses its defaults too. -/
theorem substitute_withoutDefaults {find find' : String → Option TypeExpr}
    (h : ∀ name, find' name = (find name).map withoutDefaults) (t : TypeExpr) :
    t.withoutDefaults.substitute find' = (t.substitute find).withoutDefaults := by
  induction t with
  | forward name =>
    show (find' name).getD (forward name) = ((find name).getD (forward name)).withoutDefaults
    rw [h]
    cases find name <;> rfl
  | list form item ih => exact congrArg (list form) ih
  | annotated base metadata ih =>
    show (base.withoutDefaults.substitute find').annotate _ = _
    rw [ih]
    exact annotate_withoutDefaults _ metadata
  | union ms ih =>
    simp only [withoutDefaults, substitute, substituteAll_eq, withoutDefaultsAll_eq, List.map_map]
    rw [← unionOf_withoutDefaults, List.map_map]
    exact congrArg unionOf (List.map_congr_left ih)
  | generic written shown args ih =>
    simp only [withoutDefaults, substitute, substituteAll_eq, withoutDefaultsAll_eq, List.map_map]
    exact congrArg (generic written shown) (List.map_congr_left ih)
  | record name doc fields ih =>
    simp only [withoutDefaults, substitute, substituteFields_eq, withoutDefaultsFields_eq,
      List.map_map]
    refine congrArg (record name doc) (List.map_congr_left fun f hf => ?_)
    exact congrArg (f.1.withoutDefault, ·) (ih f hf)
  | _ => rfl

/-- A name stands for the same type, without its defaults. -/
theorem lookup_map_withoutDefaults (types : List (String × TypeExpr)) (name : String) :
    (types.map fun e => (e.1, e.2.withoutDefaults)).lookup name =
      (types.lookup name).map withoutDefaults := by
  induction types with
  | nil => rfl
  | cons e types ih =>
    obtain ⟨n, t⟩ := e
    rw [List.map_cons, List.lookup_cons, List.lookup_cons, ih]
    cases name == n <;> rfl

theorem named?_withoutDefaults (name : String) :
    (named? name).map withoutDefaults = named? name := by
  have htypes : namedTypes.map (fun e => (e.1, e.2.withoutDefaults)) = namedTypes := rfl
  have hlookup := lookup_map_withoutDefaults namedTypes name
  rw [htypes] at hlookup
  unfold named?
  cases h : namedTypes.lookup name with
  | some t => rw [h] at hlookup; exact hlookup.symm
  | none =>
    show Option.map _ (if _ then _ else _) = if _ then _ else _
    split <;> rfl

/-- The types that are known everywhere have no defaults. -/
theorem builtin?_withoutDefaults (name : String) :
    (builtin? name).map withoutDefaults = builtin? name := by
  unfold builtin?
  split_ifs
  · exact named?_withoutDefaults name
  · rfl
  · rfl

end TypeExpr

/-! ## Fields -/

namespace FieldSpec

theorem overriddenBy_withoutDefault (earlier later : FieldSpec) :
    earlier.withoutDefault.overriddenBy later.withoutDefault =
      (earlier.overriddenBy later).withoutDefault := rfl

/-- Later specifications override earlier ones as before. -/
theorem foldl_withoutDefault (specs : List FieldSpec) (s : FieldSpec) :
    (specs.map withoutDefault).foldl overriddenBy s.withoutDefault =
      (specs.foldl overriddenBy s).withoutDefault := by
  induction specs generalizing s with
  | nil => rfl
  | cons spec specs ih => exact ih (s.overriddenBy spec)

end FieldSpec

namespace FieldDecl

/-- The declaration without a default. A specification that says nothing else is as good as none, so
the declaration has one in any case. -/
def withoutDefault (d : FieldDecl) : FieldDecl :=
  { d with
    type := d.type.withoutDefaults
    spec := some (d.spec.getD {}).withoutDefault
    default := none }

/-- Whether the field is declared as a constant. -/
def isConstant (d : FieldDecl) : Bool :=
  match d.type with
  | .generic "Final" _ _ => true
  | _ => false

/-- The layers around the type of a field are taken off as before. -/
theorem split_withoutDefaults (t : TypeExpr) :
    split t.withoutDefaults =
      ((split t).1.withoutDefaults, Meta.withoutDefaultsAll (split t).2) := by
  fun_induction split t with
  | case1 base metadata inner more h ih =>
    rw [h] at ih
    simp only [TypeExpr.withoutDefaults, split, ih, Meta.withoutDefaultsAll_append]
  | case2 shown t ih => exact ih
  | case3 t hlayer hconstant =>
    refine split.eq_3 _ ?_ ?_
    · intro base metadata h
      cases t with
      | annotated => exact hlayer _ _ rfl
      | _ => cases h
    · intro shown u h
      cases t with
      | generic written shown' args =>
        cases args with
        | nil => cases h
        | cons a args =>
          cases args with
          | nil => cases h; exact hconstant _ _ rfl
          | cons b args => cases h
      | _ => cases h

/-- The specifications that stand in metadata lose their defaults, and nothing else is one. -/
theorem filterMap_spec?_withoutDefaults (ms : List Meta) :
    (Meta.withoutDefaultsAll ms).filterMap Meta.spec? =
      (ms.filterMap Meta.spec?).map FieldSpec.withoutDefault := by
  rw [Meta.withoutDefaultsAll_eq, List.filterMap_map, List.map_filterMap]
  congr 1
  funext m
  cases m <;> rfl

theorem flatMap_ofField_withoutDefaults (ms : List Meta) :
    (Meta.withoutDefaultsAll ms).flatMap Meta.ofField =
      Meta.withoutDefaultsAll (ms.flatMap Meta.ofField) := by
  simp only [Meta.withoutDefaultsAll_eq, List.flatMap_map, List.map_flatMap]
  refine List.flatMap_congr fun m _ => ?_
  cases m with
  | field spec => exact (Meta.withoutDefaultsAll_eq _ ▸ Meta.withoutDefaultsAll_restriction _).symm
  | _ => rfl

/-- What is said of a field in several places is merged as before. -/
theorem merged_withoutDefault (d : FieldDecl) :
    d.withoutDefault.merged = d.merged.withoutDefault := by
  have hinner := FieldSpec.foldl_withoutDefault ((split d.type).2.filterMap Meta.spec?) {}
  rw [← filterMap_spec?_withoutDefaults] at hinner
  unfold merged
  rw [← FieldSpec.overriddenBy_withoutDefault, ← hinner, withoutDefault]
  rw [split_withoutDefaults]
  rfl

/-- A declared field becomes the field it became before, without its default. -/
theorem resolve_withoutDefault (d : FieldDecl) :
    d.withoutDefault.resolve = (d.resolve.1.withoutDefault, d.resolve.2.withoutDefaults) := by
  have hown : (d.withoutDefault.spec.map FieldSpec.restrictions).getD [] =
      (d.spec.map FieldSpec.restrictions).getD [] := by
    rw [withoutDefault]
    cases d.spec <;> rfl
  have hsplit : split d.withoutDefault.type =
      ((split d.type).1.withoutDefaults, Meta.withoutDefaultsAll (split d.type).2) :=
    split_withoutDefaults d.type
  simp only [resolve, hsplit, hown, merged_withoutDefault, flatMap_ofField_withoutDefaults,
    Field.withoutDefault, Meta.withoutDefaultsAll_append, Meta.withoutDefaultsAll_restriction]
  rfl

/-- A type other than `Final` belongs to the class only if it says so itself, so the default has no
part in it. -/
theorem isOfClass_generic {d : FieldDecl} {written shown : String} {args : List TypeExpr}
    (htype : d.type = .generic written shown args) (hfinal : written ≠ "Final") :
    d.isOfClass = (written == "ClassVar") := by
  unfold isOfClass
  rw [htype]
  split
  · rename_i h
    cases h
    rfl
  · rename_i h
    cases h
    exact absurd rfl hfinal
  · rename_i h _
    exact (beq_eq_false_iff_ne.2 fun hclass => h shown args (by rw [hclass])).symm

/-- Only of a constant it depends on the default whether it is a field of the records. -/
theorem isOfClass_withoutDefault {d : FieldDecl} (h : d.isConstant = false) :
    d.withoutDefault.isOfClass = d.isOfClass := by
  obtain ⟨name, type, spec, default, styles⟩ := d
  cases type with
  | generic written shown args =>
    have hfinal : written ≠ "Final" := by
      rintro rfl
      cases h
    rw [isOfClass_generic rfl hfinal, isOfClass_generic rfl hfinal]
  | _ => rfl

/-- A constant is a field of its class only if it has its value. -/
example : let limit : FieldDecl :=
      { name := "limit", type := .generic "Final" "Final" [.scalar .int], default := some (.int 3) }
    limit.isOfClass = true ∧ limit.withoutDefault.isOfClass = false := ⟨rfl, rfl⟩

/-- Fields are found by their names. -/
theorem find?_withoutDefault (fields : List FieldDecl) (name : String) :
    (fields.map withoutDefault).find? (fun f => f.name == name) =
      (fields.find? fun f => f.name == name).map withoutDefault :=
  List.find?_map

theorem all_isSome_withoutDefault {find find' : String → Option TypeExpr}
    (h : ∀ name, find' name = (find name).map TypeExpr.withoutDefaults) (d : FieldDecl) :
    (d.withoutDefault.type.forwardNames.all fun name => (find' name).isSome) =
      d.type.forwardNames.all fun name => (find name).isSome := by
  simp [withoutDefault, h]

theorem substitute_withoutDefault {find find' : String → Option TypeExpr}
    (h : ∀ name, find' name = (find name).map TypeExpr.withoutDefaults) (d : FieldDecl) :
    { d.withoutDefault with type := d.withoutDefault.type.substitute find' } =
      ({ d with type := d.type.substitute find } : FieldDecl).withoutDefault := by
  simp [withoutDefault, TypeExpr.substitute_withoutDefaults h]

/-- A field whose names can be resolved is resolved as before. -/
theorem answered_withoutDefault {find find' : String → Option TypeExpr}
    (h : ∀ name, find' name = (find name).map TypeExpr.withoutDefaults) (d : FieldDecl) :
    d.withoutDefault.answered find' = (d.answered find).withoutDefault := by
  rw [answered, answered, all_isSome_withoutDefault h, substitute_withoutDefault h]
  split <;> rfl

end FieldDecl

/-! ## Models and scopes -/

/-- The declaration whose fields have no defaults. -/
def ModelDecl.withoutDefaults (d : ModelDecl) : ModelDecl :=
  { d with fields := d.fields.map FieldDecl.withoutDefault }

/-- The same declarations are fields, if none of them is a constant with a value. -/
theorem ModelDecl.ownFields_withoutDefaults {d : ModelDecl}
    (hd : ∀ f ∈ d.fields, f.isConstant = false) :
    d.withoutDefaults.ownFields = d.ownFields.map FieldDecl.withoutDefault := by
  rw [ownFields, ownFields, withoutDefaults, List.filter_map]
  congr 1
  refine List.filter_congr fun f hf => ?_
  rw [Function.comp_apply, FieldDecl.isOfClass_withoutDefault (hd f hf)]

theorem ModelDecl.known_withoutDefaults (d : ModelDecl) (name : String) :
    d.withoutDefaults.known name = (d.known name).map TypeExpr.withoutDefaults := by
  show (if name = d.name then _ else _) = Option.map _ (if name = d.name then _ else _)
  split
  · rfl
  · exact (TypeExpr.builtin?_withoutDefaults name).symm

/-- The entry whose fields have no defaults. -/
def ModelEntry.withoutDefaults (e : ModelEntry) : ModelEntry :=
  { e with fields := e.fields.map FieldDecl.withoutDefault }

namespace Scope

variable (s : Scope)

/-- The scope whose models and types have no defaults. -/
def withoutDefaults : Scope where
  types := s.types.map fun e => (e.1, e.2.withoutDefaults)
  entries := s.entries.map ModelEntry.withoutDefaults

theorem entry?_withoutDefaults (name : String) :
    s.withoutDefaults.entry? name = (s.entry? name).map ModelEntry.withoutDefaults :=
  List.find?_map

theorem type?_withoutDefaults (name : String) :
    s.withoutDefaults.type? name = (s.type? name).map TypeExpr.withoutDefaults :=
  TypeExpr.lookup_map_withoutDefaults s.types name

/-- The fields of ancestors come in the same order. -/
theorem fieldNames_withoutDefaults (ancestors own : List String) :
    s.withoutDefaults.fieldNames ancestors own = s.fieldNames ancestors own := by
  have hown (a : String) : ((s.withoutDefaults.entry? a).map (·.own)).getD [] =
      ((s.entry? a).map (·.own)).getD [] := by
    rw [entry?_withoutDefaults, Option.map_map]
    rfl
  simp only [fieldNames, hown]

theorem declareType_withoutDefaults (name : String) (t : TypeExpr) :
    (s.declareType name t).withoutDefaults =
      s.withoutDefaults.declareType name t.withoutDefaults := rfl

/-! ### What a declared model takes from where -/

/-- The same models are bases, and in the same order. -/
theorem bases_withoutDefaults (d : ModelDecl) :
    s.withoutDefaults.bases d.withoutDefaults = (s.bases d).map ModelEntry.withoutDefaults := by
  rw [bases, bases, List.map_filterMap]
  exact congrArg (List.filterMap · d.bases) (funext s.entry?_withoutDefaults)

/-- Names are styled as before. -/
theorem style_withoutDefaults (d : ModelDecl) :
    s.withoutDefaults.style d.withoutDefaults = s.style d := by
  rw [style, bases_withoutDefaults, ← List.map_reverse, List.filterMap_map]
  rfl

variable {d : ModelDecl} (hd : ∀ f ∈ d.fields, f.isConstant = false)
include hd

/-- A field is declared in the same place as before. -/
theorem declaration?_withoutDefaults (name : String) :
    s.withoutDefaults.declaration? d.withoutDefaults name =
      (s.declaration? d name).map FieldDecl.withoutDefault := by
  have hinherited : ((s.withoutDefaults.bases d.withoutDefaults).findSome? fun b =>
      b.fields.find? fun f => f.name == name) =
      ((s.bases d).findSome? fun b => b.fields.find? fun f => f.name == name).map
        FieldDecl.withoutDefault := by
    rw [bases_withoutDefaults, List.findSome?_map, List.map_findSome?]
    congr 1
    funext b
    exact FieldDecl.find?_withoutDefault b.fields name
  rw [declaration?, declaration?, hinherited, ModelDecl.ownFields_withoutDefaults hd,
    FieldDecl.find?_withoutDefault]
  cases d.ownFields.find? fun f => f.name == name <;> rfl

theorem field?_withoutDefaults (name : String) :
    s.withoutDefaults.field? d.withoutDefaults name =
      (s.field? d name).map FieldDecl.withoutDefault := by
  rw [field?, field?, declaration?_withoutDefaults s hd, style_withoutDefaults, Option.map_map,
    Option.map_map]
  congr 1
  funext f
  exact FieldDecl.answered_withoutDefault d.known_withoutDefaults
    { f with styles := f.styles ++ (s.style d).toList }

/-- What is entered for a declaration is what was entered for it before, without defaults. -/
theorem declaredEntry_withoutDefaults :
    s.withoutDefaults.declaredEntry d.withoutDefaults = (s.declaredEntry d).withoutDefaults := by
  have hancestors : (s.withoutDefaults.bases d.withoutDefaults).map (·.ancestors) =
      (s.bases d).map (·.ancestors) := by
    rw [bases_withoutDefaults, List.map_map]
    rfl
  have hown : d.withoutDefaults.ownFields.map (·.name) = d.ownFields.map (·.name) := by
    rw [ModelDecl.ownFields_withoutDefaults hd, List.map_map]
    rfl
  have hfield : s.withoutDefaults.field? d.withoutDefaults =
      fun name => (s.field? d name).map FieldDecl.withoutDefault :=
    funext (field?_withoutDefaults s hd)
  unfold declaredEntry ModelEntry.withoutDefaults
  dsimp only
  rw [hancestors, hown, hfield, fieldNames_withoutDefaults, style_withoutDefaults,
    List.map_filterMap]
  rfl

/-- Declaring a model commutes with taking defaults off. -/
theorem declareModel_withoutDefaults :
    (s.declareModel d).withoutDefaults = s.withoutDefaults.declareModel d.withoutDefaults := by
  rw [declareModel, declareModel, declaredEntry_withoutDefaults s hd, withoutDefaults,
    List.map_append]
  rfl

omit hd

theorem resolveFields_withoutDefaults (fields : List FieldDecl) :
    s.withoutDefaults.resolveFields (fields.map FieldDecl.withoutDefault) =
      (s.resolveFields fields).map FieldDecl.withoutDefault := by
  have hfind (name : String) : (s.withoutDefaults.type? name <|> TypeExpr.builtin? name) =
      (s.type? name <|> TypeExpr.builtin? name).map TypeExpr.withoutDefaults := by
    rw [type?_withoutDefaults]
    cases s.type? name with
    | some t => rfl
    | none => exact (TypeExpr.builtin?_withoutDefaults name).symm
  unfold resolveFields
  simp only [List.all_map, Function.comp_def, FieldDecl.all_isSome_withoutDefault hfind,
    List.map_map, FieldDecl.substitute_withoutDefault hfind]
  split
  · rw [List.map_map]
    rfl
  · rfl

/-- The models of the scope are those it had, without defaults. -/
theorem models_withoutDefaults :
    s.withoutDefaults.models = s.models.map Model.withoutDefaults := by
  have hentry (e : ModelEntry) : (s.withoutDefaults.resolveFields e.withoutDefaults.fields).map
      FieldDecl.resolve = TypeExpr.withoutDefaultsFields
        ((s.resolveFields e.fields).map FieldDecl.resolve) := by
    rw [ModelEntry.withoutDefaults, resolveFields_withoutDefaults, List.map_map,
      TypeExpr.withoutDefaultsFields_eq, List.map_map]
    exact List.map_congr_left fun f _ => f.resolve_withoutDefault
  show (s.entries.map ModelEntry.withoutDefaults).map _ = _
  rw [models, List.map_map, List.map_map]
  refine List.map_congr_left fun e _ => ?_
  exact congrArg (Model.mk e.name e.doc) (hentry e)

/-! ### Runs of declarations -/

/-- Scopes of the same declarations but for defaults, with no constant among the fields. -/
inductive SameButDefaults : Scope → Scope → Prop
  | empty : SameButDefaults {} {}
  | declareType {s s' : Scope} (name : String) {t t' : TypeExpr} : SameButDefaults s s' →
      t.withoutDefaults = t'.withoutDefaults →
      SameButDefaults (s.declareType name t) (s'.declareType name t')
  | declareModel {s s' : Scope} {d d' : ModelDecl} : SameButDefaults s s' →
      d.withoutDefaults = d'.withoutDefaults → (∀ f ∈ d.fields, f.isConstant = false) →
      (∀ f ∈ d'.fields, f.isConstant = false) →
      SameButDefaults (s.declareModel d) (s'.declareModel d')

/-- Scopes that differ in defaults alone are the same without them. -/
theorem SameButDefaults.withoutDefaults {s s' : Scope} (h : SameButDefaults s s') :
    s.withoutDefaults = s'.withoutDefaults := by
  induction h with
  | empty => rfl
  | declareType name _ ht ih =>
    rw [declareType_withoutDefaults, declareType_withoutDefaults, ih, ht]
  | declareModel _ hd hfields hfields' ih =>
    rw [declareModel_withoutDefaults _ hfields, declareModel_withoutDefaults _ hfields', ih, hd]

/-- Declarations that differ in defaults only make models that differ in defaults only. -/
theorem SameButDefaults.models {s s' : Scope} (h : SameButDefaults s s') :
    s.models.map Model.withoutDefaults = s'.models.map Model.withoutDefaults := by
  rw [← models_withoutDefaults, ← models_withoutDefaults, h.withoutDefaults]

end Scope

end TypeWire
