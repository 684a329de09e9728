import TypeWire.Proofs.Inspection
import TypeWire.Proofs.Restriction

/-!
# Types without their defaults

`TypeExpr.withoutDefaults` takes the defaults off the fields of a type and off the specifications among
its metadata. Two types differ in defaults only if they come to the same type without them.

Whatever makes types does not look at defaults, so it commutes with taking them off: equality
(`TypeExpr.equals_withoutDefaults`), and with it unions; layers of metadata; and writing models out
(`TypeExpr.expand_withoutDefaults`).
-/

namespace TypeWire

/-! ## Metadata -/

/-- A property of metadata holds of every item if it holds of a group whose items have it. -/
@[induction_eliminator]
theorem Meta.induction {motive : Meta → Prop}
    (restriction : ∀ r, motive (.restriction r))
    (field : ∀ spec, motive (.field spec))
    (discriminator : ∀ name, motive (.discriminator name))
    (interval : ∀ gt ge lt le, motive (.interval gt ge lt le))
    (length : ∀ min max, motive (.length min max))
    (stringRestrictions : ∀ a b c d e f, motive (.stringRestrictions a b c d e f))
    (group : ∀ items, (∀ m ∈ items, motive m) → motive (.group items))
    (m : Meta) : motive m := by
  refine @Meta.rec motive (fun ms => ∀ m ∈ ms, motive m)
    restriction field discriminator interval length stringRestrictions group ?nil ?cons m
  case nil => exact List.forall_mem_nil _
  case cons => intro m ms hm hms; exact List.forall_mem_cons.2 ⟨hm, hms⟩

/-- The specification without its default. -/
def FieldSpec.withoutDefault (s : FieldSpec) : FieldSpec := { s with default := none }

namespace Meta

mutual

/-- The metadata without the defaults that field specifications in it state. -/
def withoutDefaults : Meta → Meta
  | .field s => .field s.withoutDefault
  | .group items => .group (withoutDefaultsAll items)
  | m => m

def withoutDefaultsAll : List Meta → List Meta
  | [] => []
  | m :: ms => withoutDefaults m :: withoutDefaultsAll ms

end

theorem withoutDefaultsAll_eq (ms : List Meta) : withoutDefaultsAll ms = ms.map withoutDefaults := by
  induction ms with
  | nil => rfl
  | cons m ms ih => rw [withoutDefaultsAll, ih, List.map_cons]

/-- Layers can be changed one by one. -/
@[simp] theorem withoutDefaultsAll_append (ms ns : List Meta) :
    withoutDefaultsAll (ms ++ ns) = withoutDefaultsAll ms ++ withoutDefaultsAll ns := by
  simp only [withoutDefaultsAll_eq, List.map_append]

/-- Items of restrictions have no default. -/
theorem withoutDefaultsAll_restriction (rs : List Restriction) :
    withoutDefaultsAll (rs.map .restriction) = rs.map .restriction := by
  rw [withoutDefaultsAll_eq, List.map_map]
  rfl

/-- Lists are compared as before if their items are. -/
theorem allEqual_withoutDefaultsAll {ms : List Meta}
    (h : ∀ m ∈ ms, ∀ n, m.withoutDefaults.equals n.withoutDefaults = m.equals n) (ns : List Meta) :
    allEqual (withoutDefaultsAll ms) (withoutDefaultsAll ns) = allEqual ms ns := by
  induction ms generalizing ns with
  | nil => cases ns <;> rfl
  | cons m ms ih =>
    obtain ⟨hm, hms⟩ := List.forall_mem_cons.1 h
    cases ns with
    | nil => rfl
    | cons n ns =>
      rw [withoutDefaultsAll, withoutDefaultsAll, allEqual, allEqual, hm, ih hms]

/-- A specification equals no other item anyway, so its default does not count. -/
@[simp] theorem equals_withoutDefaults (m : Meta) :
    ∀ n, m.withoutDefaults.equals n.withoutDefaults = m.equals n := by
  induction m with
  | group items ih =>
    intro n
    cases n with
    | group items' => exact allEqual_withoutDefaultsAll ih items'
    | _ => rfl
  | _ =>
    intro n
    cases n <;> rfl

theorem flattenAll_eq (ms : List Meta) : flattenAll ms = ms.flatMap flatten := by
  induction ms with
  | nil => rfl
  | cons m ms ih => rw [flattenAll, ih, List.flatMap_cons]

/-- Groups are written out as before. -/
theorem flatten_withoutDefaults (m : Meta) :
    m.withoutDefaults.flatten = withoutDefaultsAll m.flatten := by
  induction m with
  | restriction | field | discriminator => rfl
  | interval gt ge lt le => exact (withoutDefaultsAll_restriction _).symm
  | stringRestrictions a b c d e f => exact (withoutDefaultsAll_restriction _).symm
  | length min max =>
    show ofLength min max = withoutDefaultsAll (ofLength min max)
    unfold ofLength
    split <;> split <;> rfl
  | group items ih =>
    show flattenAll (withoutDefaultsAll items) = withoutDefaultsAll (flattenAll items)
    rw [flattenAll_eq, flattenAll_eq, withoutDefaultsAll_eq, withoutDefaultsAll_eq,
      List.flatMap_map, List.map_flatMap]
    refine List.flatMap_congr fun m hm => ?_
    rw [ih m hm, withoutDefaultsAll_eq]

theorem flattenAll_withoutDefaultsAll (ms : List Meta) :
    flattenAll (withoutDefaultsAll ms) = withoutDefaultsAll (flattenAll ms) :=
  flatten_withoutDefaults (.group ms)

end Meta

/-! ## Types -/

/-- The field without its default. -/
def Field.withoutDefault (f : Field) : Field :=
  { f with metadata := Meta.withoutDefaultsAll f.metadata, default := none }

namespace TypeExpr

mutual

/-- The type with no default in it. -/
def withoutDefaults : TypeExpr → TypeExpr
  | .list form item => .list form (withoutDefaults item)
  | .union ms => .union (withoutDefaultsAll ms)
  | .annotated base metadata => .annotated (withoutDefaults base) (Meta.withoutDefaultsAll metadata)
  | .generic written shown args => .generic written shown (withoutDefaultsAll args)
  | .record name doc fields => .record name doc (withoutDefaultsFields fields)
  | t => t

def withoutDefaultsAll : List TypeExpr → List TypeExpr
  | [] => []
  | t :: ts => withoutDefaults t :: withoutDefaultsAll ts

def withoutDefaultsFields : List (Field × TypeExpr) → List (Field × TypeExpr)
  | [] => []
  | (f, t) :: rest => (f.withoutDefault, withoutDefaults t) :: withoutDefaultsFields rest

end

theorem withoutDefaultsAll_eq (ts : List TypeExpr) :
    withoutDefaultsAll ts = ts.map withoutDefaults := by
  induction ts with
  | nil => rfl
  | cons t ts ih => rw [withoutDefaultsAll, ih, List.map_cons]

/-- Each field loses its own default and those within its type. -/
theorem withoutDefaultsFields_eq (fields : List (Field × TypeExpr)) :
    withoutDefaultsFields fields =
      fields.map fun f => (f.1.withoutDefault, f.2.withoutDefaults) := by
  induction fields with
  | nil => rfl
  | cons f fields ih => rw [withoutDefaultsFields, ih, List.map_cons]

/-- Null stays null, so unions are divided as before. -/
@[simp] theorem isNull_withoutDefaults (t : TypeExpr) : t.withoutDefaults.isNull = t.isNull := by
  cases t <;> rfl

/-- What is not null stays so. -/
theorem filter_isNull_withoutDefaults (ts : List TypeExpr) :
    ((ts.map withoutDefaults).filter fun t => !t.isNull) =
      (ts.filter fun t => !t.isNull).map withoutDefaults := by
  rw [List.filter_map]
  congr 1
  refine List.filter_congr fun t _ => ?_
  rw [Function.comp_apply, isNull_withoutDefaults]

/-! ### Normal forms -/

theorem allEqual_withoutDefaultsAll {ts : List TypeExpr}
    (h : ∀ t ∈ ts, ∀ u, t.withoutDefaults.equals u.withoutDefaults = t.equals u)
    (us : List TypeExpr) :
    allEqual (withoutDefaultsAll ts) (withoutDefaultsAll us) = allEqual ts us := by
  induction ts generalizing us with
  | nil => cases us <;> rfl
  | cons t ts ih =>
    obtain ⟨ht, hts⟩ := List.forall_mem_cons.1 h
    cases us with
    | nil => rfl
    | cons u us =>
      rw [withoutDefaultsAll, withoutDefaultsAll, allEqual, allEqual, ht, ih hts]

/-- Members are found among others as before. -/
theorem membersWithin_withoutDefaultsAll {ts : List TypeExpr}
    (h : ∀ t ∈ ts, ∀ u, t.withoutDefaults.equals u.withoutDefaults = t.equals u)
    (us : List TypeExpr) :
    membersWithin (withoutDefaultsAll ts) (withoutDefaultsAll us) = membersWithin ts us := by
  induction ts with
  | nil => rfl
  | cons t ts ih =>
    obtain ⟨ht, hts⟩ := List.forall_mem_cons.1 h
    rw [withoutDefaultsAll, membersWithin, membersWithin, ih hts, withoutDefaultsAll_eq,
      List.any_map]
    congr 2
    funext u
    exact ht u

@[simp] theorem equals_withoutDefaults (t : TypeExpr) :
    ∀ u, t.withoutDefaults.equals u.withoutDefaults = t.equals u := by
  induction t with
  | list form item ih =>
    intro u
    cases u with
    | list form' item' => exact congrArg (form == form' && ·) (ih item')
    | _ => rfl
  | union ms ih =>
    intro u
    cases u with
    | union ms' =>
      show ((withoutDefaultsAll ms).length == (withoutDefaultsAll ms').length && _) = _
      rw [membersWithin_withoutDefaultsAll ih, withoutDefaultsAll_eq, withoutDefaultsAll_eq,
        List.length_map, List.length_map]
      rfl
    | _ => rfl
  | annotated base metadata ih =>
    intro u
    cases u with
    | annotated base' metadata' =>
      have hmetadata := Meta.allEqual_withoutDefaultsAll
        (fun m (_ : m ∈ metadata) => m.equals_withoutDefaults) metadata'
      show (equals _ _ && Meta.allEqual _ _) = _
      rw [ih, hmetadata]
      rfl
    | _ => rfl
  | generic written shown args ih =>
    intro u
    cases u with
    | generic written' shown' args' =>
      exact congrArg (written == written' && ·) (allEqual_withoutDefaultsAll ih args')
    | _ => rfl
  | _ =>
    intro u
    cases u <;> rfl

/-- A union brings the same members into another one. -/
theorem members_withoutDefaults (t : TypeExpr) :
    t.withoutDefaults.members = t.members.map withoutDefaults := by
  cases t with
  | union ms => exact withoutDefaultsAll_eq ms
  | _ => rfl

/-- The same members are dropped from a union, since types equal each other as before. -/
theorem distinctFrom_withoutDefaults (earlier ts : List TypeExpr) :
    distinctFrom (earlier.map withoutDefaults) (ts.map withoutDefaults) =
      (distinctFrom earlier ts).map withoutDefaults := by
  induction ts generalizing earlier with
  | nil => rfl
  | cons t ts ih =>
    have hany : ((earlier.map withoutDefaults).any fun e => t.withoutDefaults.equals e) =
        earlier.any fun e => t.equals e := by
      simp [List.any_map, Function.comp_def]
    have hearlier : earlier.map withoutDefaults ++ [t.withoutDefaults] =
        (earlier ++ [t]).map withoutDefaults := by
      rw [List.map_append, List.map_singleton]
    rw [List.map_cons, distinctFrom, distinctFrom, hany, hearlier, ih, ih]
    split <;> rfl

/-- A union can be put together before or after its members lose their defaults. -/
theorem unionOf_withoutDefaults (ts : List TypeExpr) :
    unionOf (ts.map withoutDefaults) = (unionOf ts).withoutDefaults := by
  have hmembers : (ts.map withoutDefaults).flatMap members =
      (ts.flatMap members).map withoutDefaults := by
    rw [List.flatMap_map, List.map_flatMap]
    exact List.flatMap_congr fun t _ => members_withoutDefaults t
  have hdistinct : distinct ((ts.map withoutDefaults).flatMap members) =
      (distinct (ts.flatMap members)).map withoutDefaults := by
    rw [hmembers]
    exact distinctFrom_withoutDefaults [] _
  unfold unionOf
  rw [hdistinct]
  rcases distinct (ts.flatMap members) with _ | ⟨t, _ | ⟨u, us⟩⟩
  · rfl
  · rfl
  · exact congrArg union (withoutDefaultsAll_eq (t :: u :: us)).symm

/-- Metadata can be put around a type before or after both lose their defaults. -/
theorem annotate_withoutDefaults (t : TypeExpr) (metadata : List Meta) :
    t.withoutDefaults.annotate (Meta.withoutDefaultsAll metadata) =
      (t.annotate metadata).withoutDefaults := by
  cases metadata with
  | nil => cases t <;> rfl
  | cons m ms =>
    cases t with
    | annotated base inner =>
      exact congrArg (annotated base.withoutDefaults)
        (Meta.withoutDefaultsAll_append inner (m :: ms)).symm
    | _ => rfl

/-! ### Writing models out -/

/-- Models can be replaced before or after, if what replaces them loses its defaults too. -/
theorem mapModels_withoutDefaults {f g : String → TypeExpr}
    (h : ∀ name, g name = (f name).withoutDefaults) (t : TypeExpr) :
    t.withoutDefaults.mapModels g = (t.mapModels f).withoutDefaults := by
  induction t with
  | scalar | null | other | enumeration | bareList | literal | forward => rfl
  | model name => exact h name
  | list form item ih => exact congrArg (list form) ih
  | annotated base metadata ih =>
    exact congrArg (annotated · (Meta.withoutDefaultsAll metadata)) ih
  | union ms ih =>
    simp only [withoutDefaults, mapModels, mapModelsAll_eq, withoutDefaultsAll_eq, List.map_map]
    congr 1
    exact List.map_congr_left ih
  | generic written shown args ih =>
    simp only [withoutDefaults, mapModels, mapModelsAll_eq, withoutDefaultsAll_eq, List.map_map]
    congr 1
    exact List.map_congr_left ih
  | record name doc fields ih =>
    simp only [withoutDefaults, mapModels, mapModelsFields_eq, withoutDefaultsFields_eq,
      List.map_map]
    congr 1
    refine List.map_congr_left fun f hf => ?_
    exact congrArg (f.1.withoutDefault, ·) (ih f hf)

end TypeExpr

/-- The model whose fields have no defaults. -/
def Model.withoutDefaults (m : Model) : Model :=
  { m with fields := TypeExpr.withoutDefaultsFields m.fields }

namespace TypeExpr

variable (models : List Model)

/-- A model is written out to the same depth, and stays a name at the same places. -/
theorem expandModel_withoutDefaults (depth : Nat) : ∀ (active : List String) (name : String),
    expandModel (models.map Model.withoutDefaults) depth active name =
      (expandModel models depth active name).withoutDefaults := by
  induction depth with
  | zero => exact fun _ _ => rfl
  | succ depth ih =>
    intro active name
    have hfind : (models.map Model.withoutDefaults).find? (fun m => m.name == name) =
        (models.find? fun m => m.name == name).map Model.withoutDefaults := List.find?_map
    rw [expandModel, expandModel, hfind]
    split
    · rfl
    · cases models.find? fun m => m.name == name with
      | none => rfl
      | some m => exact mapModels_withoutDefaults (ih (name :: active)) (.record m.name m.doc m.fields)

/-- Writing out the models of a type commutes with taking away defaults. -/
theorem expand_withoutDefaults (t : TypeExpr) :
    t.withoutDefaults.expand (models.map Model.withoutDefaults) =
      (t.expand models).withoutDefaults := by
  rw [expand, List.length_map]
  exact mapModels_withoutDefaults (expandModel_withoutDefaults models models.length []) t

end TypeExpr

end TypeWire
