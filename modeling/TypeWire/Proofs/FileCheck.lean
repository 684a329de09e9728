import TypeWire.Command.Run
import TypeWire.Proofs.Malformation
import TypeWire.Proofs.Remembered

/-!
# Checking files

A check goes through four stages: the document is read as a schema, a type is rebuilt from it, the
validator of the type is built, and it takes the data. `Command.Checked` says how far a check gets, and
`Command.exists_checked` that every check whose files are read goes in one of these ways.

A run that fails prints its error and ends with status 2, with one exception: a validator that cannot be
built breaks it off (`Command.exit_checkFiles`). That a validator can be built is a matter of bounds
only. A type that is rebuilt has a validator if and only if all bounds that are reached are in range
(`Schema.buildable_of_reached`, `TypeExpr.boundedIn_of_ofSchema`).
-/

namespace TypeWire

/-! ## Bounds of schemas with validators -/

namespace Schema

theorem Buildable.boundedIn {s : Schema} (h : s.Buildable) : s.BoundedIn wholeRange := by
  obtain ⟨-, -, hwhole, hlengths⟩ := h
  simp only [exists_option_rel, exists_wholeBound, exists_lengthBound] at hwhole hlengths
  refine ⟨fun hnil htype x hx => ?_, fun hnil htype n hn => ?_⟩
  · exact hx.elim ((hwhole hnil htype).1 x) ((hwhole hnil htype).2 x)
  · exact hn.elim ((hlengths hnil htype).1 n) ((hlengths hnil htype).2 n)

end Schema

namespace TypeExpr

/-- The parts that count in a schema whose type has a validator have types with validators. -/
theorem exists_ofSchema_part {name : String} {s : Schema} {t : TypeExpr} (h : ofSchema name s = .ok t)
    (ht : t.HasValidator) : ∀ p ∈ s.readParts, ∃ n u, ofSchema n p = .ok u ∧ u.HasValidator := by
  obtain ⟨hmembers, hitems, -, -⟩ := (hasValidator_iff_buildable h).1 ht
  rename_i f items properties anyOf
  obtain ⟨base, hbase, -⟩ := ofSchema_cases h
  intro p hp
  cases hbase with
  | @union _ _ m ms ts hts =>
    obtain ⟨u, -, n, -, hu⟩ := exists_of_forall₂ hts.flip p hp
    exact ⟨n, u, hu, (hasValidator_iff_buildable hu).2 (hmembers p hp)⟩
  | @array i _ _ item hnil htype hitem =>
    obtain rfl : p = i := by simpa [Schema.readParts, hnil, htype] using hp
    obtain ⟨n, -, hitem⟩ := hitem
    exact ⟨n, item, hitem, (hasValidator_iff_buildable hitem).2 (hitems hnil htype p rfl)⟩
  | object hnil htype htypes hrec =>
    -- An object is buildable whatever its properties are, but its record was made from validators.
    obtain ⟨q, hq, rfl⟩ : ∃ q ∈ properties.getD [], q.2 = p := by
      simpa [Schema.readParts, hnil, htype] using hp
    obtain ⟨⟨key, u⟩, hmem, -, n, -, hu⟩ := exists_of_forall₂ htypes.flip q hq
    exact ⟨n, u, hu, hasValidator_of_recordOf (regular_properties htypes) hrec _ hmem⟩
  | _ hnil htype => simp [Schema.readParts, hnil, htype] at hp

/-- A validator that is built speaks for the bounds of all that is reached. -/
theorem boundedIn_of_ofSchema {s : Schema} : ∀ {name : String} {t : TypeExpr},
    ofSchema name s = .ok t → t.HasValidator → ∀ r ∈ s.reached, r.BoundedIn Schema.wholeRange := by
  induction s using Schema.readParts_induction with
  | step s ih =>
    intro name t h ht r hr
    rw [Schema.reached_eq] at hr
    rcases List.mem_cons.1 hr with rfl | hr
    · exact ((hasValidator_iff_buildable h).1 ht).boundedIn
    · obtain ⟨p, hp, hr⟩ := List.mem_flatMap.1 hr
      obtain ⟨n, u, hu, hv⟩ := exists_ofSchema_part h ht p hp
      exact ih p hp hu hv r hr

end TypeExpr

namespace Command

/-! ## Stages -/

open Schema (wholeRange)

/-- Every stage of a check goes well: the document is read as a schema, that is rebuilt as a type, the
type has a validator, and the validator takes the data, if there is any. -/
def Passes (document : Value) (data : Option Value) : Prop :=
  ∃ s t v, Schema.decode document = .ok s ∧ TypeExpr.ofSchema "VertexModel" s = .ok t ∧
    Validator.ofType t = .ok v ∧ ∀ x ∈ data, v.accepts x = true

/-- A validator cannot be built, be it that of a record in the schema or that of the whole. -/
def LacksValidator (document : Value) : Prop :=
  ∃ s u, Schema.decode document = .ok s ∧
    (TypeExpr.ofSchema "VertexModel" s = .error (.unbuildable u) ∨
      ∃ t, TypeExpr.ofSchema "VertexModel" s = .ok t ∧ Validator.ofType t = .error u)

/-- The type that a check rebuilds from a schema. It has nothing to remember at first. -/
def rebuilt (s : Schema) : Except SchemaError TypeExpr := (TypeExpr.rebuild "VertexModel" s {}).1

theorem rebuilt_alike (s : Schema) : TypeExpr.SameResult TypeExpr.SameError TypeExpr.RegularAlike
    (rebuilt s) (TypeExpr.ofSchema "VertexModel" s) :=
  (TypeExpr.rebuild_alike (TypeCache.answered_empty _ _) "VertexModel" s).1

/-- The stages go well with the type that is rebuilt in the check if they do with the one that is made
anew. -/
theorem passes_iff_rebuilt {document : Value} {data : Option Value} : Passes document data ↔
    ∃ s t v, Schema.decode document = .ok s ∧ rebuilt s = .ok t ∧ Validator.ofType t = .ok v ∧
      ∀ x ∈ data, v.accepts x = true := by
  have htakes (t : TypeExpr) : (∃ v, Validator.ofType t = .ok v ∧ ∀ x ∈ data, v.accepts x = true) ↔
      t.HasValidator ∧ ∀ x ∈ data, t.Takes x := by
    constructor
    · rintro ⟨v, hv, hdata⟩
      exact ⟨⟨v, hv⟩, fun x hx => ⟨v, hv, hdata x hx⟩⟩
    · rintro ⟨⟨v, hv⟩, hdata⟩
      exact ⟨v, hv, fun x hx => (TypeExpr.takes_iff hv).1 (hdata x hx)⟩
  simp only [Passes, exists_and_left, htakes]
  refine exists_congr fun s => and_congr_right fun _ => ?_
  have hsame := rebuilt_alike s
  generalize rebuilt s = made at hsame
  generalize TypeExpr.ofSchema "VertexModel" s = made' at hsame
  cases hsame with
  | error => simp
  | ok htu =>
    obtain ⟨-, -, hv, htakes⟩ := htu
    simp [hv, htakes]

theorem lacksValidator_iff_rebuilt {document : Value} : LacksValidator document ↔
    ∃ s u, Schema.decode document = .ok s ∧ (rebuilt s = .error (.unbuildable u) ∨
      ∃ t, rebuilt s = .ok t ∧ Validator.ofType t = .error u) := by
  have hlacks (t : TypeExpr) : (∃ u, Validator.ofType t = .error u) ↔ ¬ t.HasValidator := by
    unfold TypeExpr.HasValidator
    cases Validator.ofType t <;> simp
  simp only [LacksValidator, exists_and_left]
  refine exists_congr fun s => and_congr_right fun _ => ?_
  have hsame := rebuilt_alike s
  generalize rebuilt s = made at hsame
  generalize TypeExpr.ofSchema "VertexModel" s = made' at hsame
  cases hsame with
  | error he =>
    rcases he with rfl | ⟨⟨u, rfl⟩, u', rfl⟩
    · rfl
    · simp
  | ok htu =>
    obtain ⟨-, -, hv, -⟩ := htu
    simp [hlacks, hv]

/-- How a check goes: it passes, or it fails in one of its stages. -/
inductive Checked (document : Value) (data : Option Value) : Option CommandError → Prop
  | passed {s : Schema} {t : TypeExpr} {v : Validator} : Schema.decode document = .ok s →
      rebuilt s = .ok t → Validator.ofType t = .ok v →
      (∀ x ∈ data, v.accepts x = true) → Checked document data none
  | unread {issues : List Issue} : Schema.decode document = .error issues →
      Checked document data (some (.malformed issues))
  | malformed {s : Schema} {e : SchemaError} : Schema.decode document = .ok s →
      rebuilt s = .error e → Checked document data (some (.schema e))
  | unbuildable {s : Schema} {t : TypeExpr} {u : Unbuildable} : Schema.decode document = .ok s →
      rebuilt s = .ok t → Validator.ofType t = .error u →
      Checked document data (some (.schema (.unbuildable u)))
  | refused {s : Schema} {t : TypeExpr} {v : Validator} {x : Value} {issues : List Issue} :
      Schema.decode document = .ok s → rebuilt s = .ok t →
      Validator.ofType t = .ok v → x ∈ data → v.run x = .error issues →
      Checked document data (some (.invalidData issues))

theorem Checked.passes_iff {document : Value} {data : Option Value} {failure : Option CommandError}
    (h : Checked document data failure) : Passes document data ↔ failure = none := by
  rw [passes_iff_rebuilt]
  cases h with
  | passed hs ht hv hdata => exact iff_of_true ⟨_, _, _, hs, ht, hv, hdata⟩ rfl
  | unread hs => simp [hs]
  | malformed hs ht => simp [hs, ht]
  | unbuildable hs ht hv => simp [hs, ht, hv]
  | refused hs ht hv hx hissues =>
    rw [Option.mem_def] at hx
    simp [hs, ht, hv, hx, Validator.accepts_eq_true, hissues]

theorem Checked.lacksValidator_iff {document : Value} {data : Option Value}
    {failure : Option CommandError} (h : Checked document data failure) :
    LacksValidator document ↔ ∃ u, failure = some (.schema (.unbuildable u)) := by
  rw [lacksValidator_iff_rebuilt]
  cases h with
  | passed hs ht hv => simp [hs, ht, hv]
  | unread hs => simp [hs]
  | malformed hs ht => simp [hs, ht]
  | unbuildable hs ht hv => simp [hs, ht, hv]
  | refused hs ht hv => simp [hs, ht, hv]

/-- What a check that went so leaves of a run: a line that begins with `[OK]`, or the error. -/
def Ran (failure : Option CommandError) (result : Except CommandError Report) : Prop :=
  match failure with
  | none => ∃ text, result = .ok { output := "[OK] " ++ text ++ "\n" }
  | some e => result = .error e

section run
variable {r : Registry} {read : Reader} {schema : String} {data : Option String} {document : Value}
  {value : Option Value}

theorem execute_of_error {e : CommandError} (h : loadValidator read schema = .error e) :
    execute r read (.checkFiles schema data) = .error e := by
  simp only [execute, h]
  rfl

theorem execute_of_ok {v : Validator} (h : loadValidator read schema = .ok v) :
    execute r read (.checkFiles schema none) =
      .ok { output := "[OK] " ++ ("Schema valid: " ++ schema) ++ "\n" } := by
  simp only [execute, h, ← String.append_assoc]
  rfl

theorem execute_with_data {v : Validator} {path : String} {x : Value}
    (h : loadValidator read schema = .ok v) (hx : load read path = .ok x) :
    execute r read (.checkFiles schema (some path)) =
      match v.run x with
      | .ok _ => .ok { output := "[OK] " ++ ("Data valid: " ++ path) ++ "\n" }
      | .error issues => .error (.invalidData issues) := by
  simp only [execute, h, hx, ← String.append_assoc]
  rfl

/-- What the schema in a file comes to. -/
theorem loadValidator_eq (hschema : load read schema = .ok document) : loadValidator read schema =
    match Schema.decode document with
    | .error issues => .error (.malformed issues)
    | .ok s =>
      match rebuilt s with
      | .error e => .error (.schema e)
      | .ok t =>
        match Validator.ofType t with
        | .error u => .error (.schema (.unbuildable u))
        | .ok v => .ok v := by
  unfold loadValidator
  rw [hschema]
  rfl

/-- Every check whose files are read goes in one way, and the run is left so. -/
theorem exists_checked (hschema : load read schema = .ok document)
    (hdata : Option.Rel (fun path x => load read path = .ok x) data value) :
    ∃ failure, Checked document value failure ∧
      Ran failure (execute r read (.checkFiles schema data)) := by
  have hvalidator := loadValidator_eq hschema
  -- One case for each stage, in their order.
  cases hs : Schema.decode document with
  | error issues =>
    simp only [hs] at hvalidator
    exact ⟨_, .unread hs, execute_of_error hvalidator⟩
  | ok s =>
    simp only [hs] at hvalidator
    cases ht : rebuilt s with
    | error e =>
      simp only [ht] at hvalidator
      exact ⟨_, .malformed hs ht, execute_of_error hvalidator⟩
    | ok t =>
      simp only [ht] at hvalidator
      cases hv : Validator.ofType t with
      | error u =>
        simp only [hv] at hvalidator
        exact ⟨_, .unbuildable hs ht hv, execute_of_error hvalidator⟩
      | ok v =>
        simp only [hv] at hvalidator
        cases hdata with
        | none => exact ⟨none, .passed hs ht hv nofun, _, execute_of_ok hvalidator⟩
        | @some path x hload =>
          have hrun := execute_with_data (r := r) hvalidator hload
          cases hx : v.run x with
          | error issues =>
            rw [hx] at hrun
            exact ⟨_, .refused hs ht hv rfl hx, hrun⟩
          | ok a =>
            rw [hx] at hrun
            refine ⟨none, .passed hs ht hv fun y hy => ?_, _, hrun⟩
            obtain rfl := Option.some.inj hy
            exact Validator.accepts_eq_true.2 ⟨a, hx⟩

end run

/-! ## Bounds -/

theorem not_lacksValidator {document : Value} {s : Schema} (hs : Schema.decode document = .ok s)
    (hbounds : ∀ p, s.Reaches p → p.BoundedIn wholeRange) : ¬ LacksValidator document := by
  simp only [← Schema.mem_reached_iff] at hbounds
  rintro ⟨s', u, hs', h⟩
  obtain rfl := Except.ok.inj (hs.symm.trans hs')
  rcases h with herror | ⟨t, ht, hv⟩
  · have hends := TypeExpr.ends_ofSchema s "VertexModel"
    rw [herror] at hends
    cases hends with
    | unbuildable h => exact h hbounds
    | malformed h =>
      obtain ⟨p, -, hp⟩ := List.exists_of_findSome?_eq_some h
      rcases Schema.isMalformation_of_malformation? hp with h | h <;> cases h
  · obtain ⟨v, hv'⟩ := (TypeExpr.hasValidator_iff_buildable ht).2 (Schema.buildable_of_reached hbounds)
    rw [hv'] at hv
    cases hv

/-- A schema without other faults lacks a validator exactly if a bound in it is out of range. -/
theorem lacksValidator_iff {document : Value} {s : Schema} (hs : Schema.decode document = .ok s)
    (hwell : ∀ p, s.Reaches p → ¬ p.Malformed ∧ p.ClearKeys) :
    LacksValidator document ↔ ∃ p, s.Reaches p ∧ ¬ p.BoundedIn wholeRange := by
  constructor
  · intro h
    by_contra hall
    push Not at hall
    exact not_lacksValidator hs hall h
  · rintro ⟨p, hp, hout⟩
    simp only [← Schema.mem_reached_iff] at hp hwell
    have hunbounded : ¬ ∀ p ∈ s.reached, p.BoundedIn wholeRange := fun h => hout (h p hp)
    have hends := TypeExpr.ends_ofSchema s "VertexModel"
    -- The bound may stop the type already, if it is in a record, or else its validator.
    cases ht : TypeExpr.ofSchema "VertexModel" s with
    | ok t =>
      cases hv : Validator.ofType t with
      | ok v => exact absurd (TypeExpr.boundedIn_of_ofSchema ht ⟨v, hv⟩) hunbounded
      | error u => exact ⟨s, u, hs, .inr ⟨t, ht, hv⟩⟩
    | error e =>
      rw [ht] at hends
      cases hends with
      | malformed h =>
        obtain ⟨q, hq, hbad⟩ := List.exists_of_findSome?_eq_some h
        rw [Schema.malformation?_eq_none.2 (hwell q hq).1] at hbad
        cases hbad
      | unusable h => exact absurd ⟨by decide, fun q hq => (hwell q hq).2⟩ h
      | unbuildable => exact ⟨s, _, hs, .inl ht⟩

/-! ## A length that no list has -/

/-- A list with a negative number of items at least, as it is written. -/
def shortText : String :=
  "\x7b\"type\": \"ARRAY\", \"items\": \x7b\"type\": \"STRING\"\x7d, \"minItems\": -1\x7d"

def shortList : Value :=
  .dict [(.str "type", .str "ARRAY"), (.str "items", .dict [(.str "type", .str "STRING")]),
    (.str "minItems", .int (-1))]

/-- A directory with the schema in its only file. -/
def shortDirectory : Directory := ⟨[(["s"], shortText)]⟩

section shortList
open Yaml

def shortTokens : List Token :=
  [.openBrace, .key, .scalar "type" false, .value, .scalar "ARRAY" false, .comma,
    .key, .scalar "items" false, .value,
      .openBrace, .key, .scalar "type" false, .value, .scalar "STRING" false, .closeBrace, .comma,
    .key, .scalar "minItems" false, .value, .scalar "-1" true, .closeBrace]

def shortTree : Tree :=
  .mapping {} [(.scalar {} "type" false, .scalar {} "ARRAY" false),
    (.scalar {} "items" false, .mapping {} [(.scalar {} "type" false, .scalar {} "STRING" false)]),
    (.scalar {} "minItems" false, .scalar {} "-1" true)]

def shortNode : Yaml.Node :=
  .mapping .mapping [(.scalar .text "type", .scalar .text "ARRAY"),
    (.scalar .text "items", .mapping .mapping [(.scalar .text "type", .scalar .text "STRING")]),
    (.scalar .text "minItems", .scalar .int "-1")]

theorem eq_ok_of_toOption {ε α : Type} {x : Except ε α} {a : α} (h : x.toOption = some a) :
    x = .ok a := by
  cases x with
  | ok b => exact congrArg Except.ok (Option.some.inj h)
  | error e => cases h

theorem ofTokens_shortTokens : Document.ofTokens shortTokens = .ok (some { root := shortTree }) := by
  simp [shortTokens, shortTree, Document.ofTokens, Document.ofTokens.finish, Yaml.Tree.node,
    Tree.content, Tree.flowPairs, Tree.flowPairsAfter, Tree.nodeOrEmpty, Tree.valueOrEmpty,
    Tree.endsFlowKey, Tree.endsFlowValue, bind, Except.bind, pure, Except.pure]

theorem node_shortTree : Document.node { root := shortTree } = .ok shortNode := by
  have hint : Tag.ofPlain "-1" = .int := by decide +kernel
  simp [shortTree, shortNode, Document.node, Yaml.Node.ofTree, Yaml.Node.ofPairs, Anchors.begin,
    Anchors.complete, Properties.tag?, Properties.scalarTag, hint, bind, Except.bind, pure, Except.pure]

theorem valueAt_shortNode : shortNode.valueAt 0 = .ok shortList := by
  have hint : intOfScalar "-1" = .ok (-1) := eq_ok_of_toOption (by decide +kernel)
  simp [shortNode, shortList, Yaml.Node.valueAt, Yaml.Node.entriesAt, Yaml.Node.keyAt, Yaml.Node.tag,
    scalarValue, hint, Except.map, Except.mapError, nearest, checkedPair, canBeKey, flatten,
    dictOfPairs, putPair, sameKey, Value.equals, Value.number?, Value.text?]

theorem read_shortText : Yaml.read shortText = .ok shortList := by
  have htokens : Token.ofText (lineFeeds shortText.toList) = .ok shortTokens :=
    eq_ok_of_toOption (by decide +kernel)
  simp [Yaml.read, htokens, ofTokens_shortTokens, node_shortTree, valueAt_shortNode, bind, Except.bind,
    Except.mapError]

theorem names_s : Directory.names "s" = ["s"] := by
  have hstart : String.Pos.Raw.atEnd "s" 0 = false := by decide +kernel
  have hslash : String.Pos.Raw.get "s" 0 ≠ String.Pos.Raw.get "/" 0 := by decide +kernel
  have hend : String.Pos.Raw.atEnd "s" (String.Pos.Raw.next "s" 0) = true := by decide +kernel
  rw [Directory.names, String.splitOn]
  simp only [String.reduceBEq]
  rw [String.splitOnAux, String.splitOnAux]
  simp [hstart, hslash, hend]
  decide +kernel

theorem load_shortList : load shortDirectory.read "s" = .ok shortList := by
  have hstart : "s".startsWith "/" = false := by decide +kernel
  have hend : "s".endsWith "/" = false := by decide +kernel
  have hread : shortDirectory.read "s" = .ok shortText := by
    simp [Directory.read, names_s, shortDirectory, Directory.hasDirectory, hstart, hend]
  simp [load, hread, read_shortText]

end shortList

theorem ofArguments_validate : ofArguments ["validate", "s"] = .ok (.checkFiles "s" none) :=
  eq_ok_of_toOption (by decide +kernel)

def shortSchema : Schema :=
  .node { type := some .array, minItems := some (-1) } (some (.leaf { type := some .string })) none none

/-- The schema is read, and nothing in it is out of place but its length. -/
theorem shortSchema_reached : Schema.decode shortList = .ok shortSchema ∧
    (∀ p, shortSchema.Reaches p → ¬ p.Malformed ∧ p.ClearKeys) ∧ ¬ shortSchema.BoundedIn wholeRange := by
  refine ⟨rfl, fun p hp => ?_, fun h => ?_⟩
  · have hp' : p = shortSchema ∨ p = .leaf { type := some .string } := by
      rw [← Schema.mem_reached_iff] at hp
      simpa [shortSchema, Schema.leaf, Schema.reached] using hp
    rcases hp' with rfl | rfl
    · exact ⟨by simp [shortSchema, Schema.Malformed, Schema.facets, Schema.items], fun _ h => by cases h⟩
    · exact ⟨by simp [Schema.leaf, Schema.Malformed, Schema.facets], fun _ h => by cases h⟩
  · have hlength := h.lengths rfl rfl (-1) (.inl rfl)
    exact absurd hlength.1 (by decide)

/-! ## Exits -/

theorem exit_of_passed {r : Registry} {d : Directory} {c : Command}
    (h : Ran none (execute r d.read c)) : (c.run r d).exit = .status 0 := by
  obtain ⟨text, htext⟩ := h
  simp only [run, htext]

theorem outcome_of_failed {r : Registry} {d : Directory} {c : Command} {e : CommandError}
    (h : Ran (some e) (execute r d.read c)) : c.run r d = ⟨e.exit.1, e.exit.2, d⟩ := by
  have herror : execute r d.read c = .error e := h
  simp only [run, herror]

theorem Checked.isReported {document : Value} {data : Option Value} {e : CommandError}
    (h : Checked document data (some e)) (hbuilt : ¬ LacksValidator document) :
    e.isReported = true := by
  rw [h.lacksValidator_iff] at hbuilt
  cases h with
  | @malformed s e =>
    cases e with
    | unbuildable u => exact absurd ⟨u, rfl⟩ hbuilt
    | _ => rfl
  | unbuildable => exact absurd ⟨_, rfl⟩ hbuilt
  | _ => rfl

theorem exit_ne_zero (e : CommandError) : e.exit.1 ≠ .status 0 := by
  unfold CommandError.exit
  split <;> simp

theorem exit_eq_broken {e : CommandError} {u : Unbuildable} :
    e.exit.1 = .broken (.schema (.unbuildable u)) ↔ e = .schema (.unbuildable u) := by
  unfold CommandError.exit
  split
  · rename_i hreported
    refine iff_of_false (by simp) ?_
    rintro rfl
    cases hreported
  · simp

/-- A check ends with status 0 if all of its stages go well, and otherwise with status 2 and a line that
begins with `[ERROR]`, as long as validators can be built. Where one cannot be, the check breaks off
without a word: in a schema without other faults, that is if and only if a bound is out of range. -/
theorem exit_checkFiles {r : Registry} {d : Directory} {arguments : List String} {schema : String}
    {data : Option String} {document : Value} {value : Option Value}
    (hcommand : ofArguments arguments = .ok (.checkFiles schema data))
    (hschema : load d.read schema = .ok document)
    (hdata : Option.Rel (fun path x => load d.read path = .ok x) data value) :
    ((runArguments r d arguments).exit = .status 0 ↔ Passes document value) ∧
    (¬ Passes document value → ¬ LacksValidator document →
      (runArguments r d arguments).exit = .status 2 ∧
        ∃ message, (runArguments r d arguments).output = "[ERROR] " ++ message ++ "\n") ∧
    (LacksValidator document ↔
      ∃ u, (runArguments r d arguments).exit = .broken (.schema (.unbuildable u))) ∧
    ∀ s, Schema.decode document = .ok s →
      ((∀ p, s.Reaches p → p.BoundedIn wholeRange) → ¬ LacksValidator document) ∧
      ((∀ p, s.Reaches p → ¬ p.Malformed ∧ p.ClearKeys) →
        (LacksValidator document ↔ ∃ p, s.Reaches p ∧ ¬ p.BoundedIn wholeRange)) := by
  obtain ⟨failure, hchecked, hran⟩ := exists_checked (r := r) hschema hdata
  have hrun : runArguments r d arguments = run r d (.checkFiles schema data) := by
    unfold runArguments
    rw [hcommand]
  rw [hrun, hchecked.passes_iff]
  have hlacks := hchecked.lacksValidator_iff
  refine ⟨?_, fun hfails hbuilt => ?_, ?_, fun s hs => ⟨not_lacksValidator hs, lacksValidator_iff hs⟩⟩
  · cases failure with
    | none => simp [exit_of_passed hran]
    | some e => simp [outcome_of_failed hran, exit_ne_zero]
  · cases failure with
    | none => exact absurd rfl hfails
    | some e =>
      have hreported : e.exit = (.status 2, "[ERROR] " ++ e.message ++ "\n") :=
        if_pos (hchecked.isReported hbuilt)
      rw [outcome_of_failed hran, hreported]
      exact ⟨rfl, e.message, rfl⟩
  · rw [hlacks]
    cases failure with
    | none => simp [exit_of_passed hran]
    | some e => simp [outcome_of_failed hran, exit_eq_broken]

theorem exit_shortList : ofArguments ["validate", "s"] = .ok (.checkFiles "s" none) ∧
    load shortDirectory.read "s" = .ok shortList ∧ ∃ u,
      (runArguments {} shortDirectory ["validate", "s"]).exit = .broken (.schema (.unbuildable u)) := by
  obtain ⟨hs, hwell, hout⟩ := shortSchema_reached
  obtain ⟨-, -, hbroken, hlacks⟩ :=
    exit_checkFiles (r := {}) ofArguments_validate load_shortList .none
  refine ⟨ofArguments_validate, load_shortList, hbroken.1 ?_⟩
  exact ((hlacks shortSchema hs).2 hwell).2 ⟨shortSchema, .refl, hout⟩

/-- A check that does not pass, and that ends neither with status 0 nor with status 2. -/
theorem shortList_breaks_off : ofArguments ["validate", "s"] = .ok (.checkFiles "s" none) ∧
    load shortDirectory.read "s" = .ok shortList ∧ ¬ Passes shortList none ∧
    (runArguments {} shortDirectory ["validate", "s"]).exit =
      .broken (.schema (.unbuildable .invalidBound)) ∧
    (runArguments {} shortDirectory ["validate", "s"]).output = "" := by
  have hchecked : Checked shortList none (some (.schema (.unbuildable .invalidBound))) :=
    .unbuildable (s := shortSchema) rfl rfl rfl
  have herror : loadValidator shortDirectory.read "s" =
      .error (.schema (.unbuildable .invalidBound)) := by
    rw [loadValidator_eq load_shortList]
    rfl
  have hrun : runArguments {} shortDirectory ["validate", "s"] =
      ⟨.broken (.schema (.unbuildable .invalidBound)), "", shortDirectory⟩ := by
    unfold runArguments
    rw [ofArguments_validate]
    exact outcome_of_failed (execute_of_error herror)
  refine ⟨ofArguments_validate, load_shortList, ?_, ?_, ?_⟩
  · simp [hchecked.passes_iff]
  · rw [hrun]
  · rw [hrun]

end Command

end TypeWire
