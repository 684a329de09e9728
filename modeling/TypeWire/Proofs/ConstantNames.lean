import TypeWire.Proofs.ReadBack
import TypeWire.TypeExpr.TextEnumeration

/-!
# Enumerations of texts and literals

An enumeration that is made from texts takes each text for the name of a constant as well as for its
value, and some names do not become constants: the text is then lost without an error. So the
enumeration has the texts that are names of constants, in their order (`Enumeration.ofTexts_ok`), and
it has the schema of the literal of the same texts exactly if all of them are
(`Schema.ofTexts_agrees_iff`).
-/

namespace TypeWire

theorem isOk_iff {ε α : Type} {x : Except ε α} : x.isOk = true ↔ ∃ a, x = .ok a := by
  cases x <;> simp [Except.isOk, Except.toBool]

namespace Enumeration

variable {name : String}

theorem constantNames_cons (earlier : List String) (s : String) (vs : List Value) :
    constantNames name earlier (.str s :: vs) =
      if EnumName.isRefused name s then .error (.reserved s)
      else if !EnumName.isConstantName name s then constantNames name earlier vs
      else if earlier.contains s then .error (.repeated s)
      else (constantNames name (s :: earlier) vs).map (s :: ·) := rfl

/-- Of texts that make an enumeration, those become constants that are names of constants. -/
theorem constantNames_ok {texts names : List String} : ∀ {earlier : List String},
    constantNames name earlier (texts.map .str) = .ok names →
      names = texts.filter (EnumName.isConstantName name) := by
  induction texts generalizing names with
  | nil =>
    intro earlier h
    exact (Except.ok.inj h).symm
  | cons s texts ih =>
    intro earlier h
    rw [List.map_cons, constantNames_cons] at h
    split at h
    · cases h
    · cases hname : EnumName.isConstantName name s with
      | false =>
        rw [hname] at h
        rw [List.filter_cons_of_neg (Bool.eq_false_iff.1 hname)]
        exact ih h
      | true =>
        rw [hname] at h
        simp only [Bool.not_true, Bool.false_eq_true, ↓reduceIte] at h
        split at h
        · cases h
        · obtain ⟨rest, hrest, rfl⟩ := isOk_map.1 h
          rw [List.filter_cons_of_pos hname, ih hrest]

theorem ofTexts_ok {texts : List String} {e : Enumeration}
    (h : ofTexts name (texts.map .str) = .ok e) : texts ≠ [] ∧
      e.members.map (·.2) = (texts.filter (EnumName.isConstantName name)).map .str := by
  have hne : texts ≠ [] := by
    rintro rfl
    cases h
  have hempty : (texts.map Value.str).isEmpty = false := by simpa using hne
  unfold ofTexts at h
  rw [hempty] at h
  obtain ⟨names, hnames, h⟩ := isOk_bind.1 h
  -- each of the checks behind the names can only refuse
  cases hinvalid : (["mro", ""].filter names.contains).isEmpty <;>
    cases hlate : (lateErrors (texts.map .str) names).head? <;>
    cases horder : statedOrder? (texts.map .str) <;>
    simp only [hinvalid, hlate, horder, Bool.not_true, Bool.not_false, Bool.false_eq_true,
      ↓reduceIte] at h
  case true.none.none =>
    obtain rfl := Except.ok.inj h
    refine ⟨hne, ?_⟩
    rw [List.map_map, constantNames_ok hnames]
    rfl
  all_goals cases h

end Enumeration

namespace Schema

theorem ofType_literalOf (models : List Model) {texts : List String} (hne : texts ≠ [])
    (hdistinct : texts.Nodup) : ofType models (TypeExpr.literalOf (texts.map .str)) =
      .ok (leaf { type := some .string, enum := some texts }) := by
  obtain ⟨kept, hkept, -, -, hself⟩ := TypeExpr.literalOf_str texts
  rw [hkept, hself hdistinct]
  exact TypeExpr.reads_literal hne

/-- An enumeration of texts has the schema of its values, if it has any. -/
theorem ofType_enumeration (models : List Model) {e : Enumeration} {texts : List String}
    (he : e.members.map (·.2) = texts.map .str) : ofType models (.enumeration e) =
      if texts = [] then .error (.unsupported .emptyEnumeration)
      else .ok (leaf { type := some .string, enum := some texts }) := by
  show ofEnumeration {} (e.members.map (·.2)) = _
  rw [he]
  by_cases hnil : texts = []
  · rw [if_pos hnil, hnil]
    rfl
  · rw [if_neg hnil]
    exact (ofEnumeration_str hnil).2 ⟨rfl, rfl⟩

/-- An enumeration made from distinct texts has those of them that are names of constants. It has all of
them exactly if it has the schema of the literal, which is that of a text with these values. -/
theorem ofTexts_agrees_iff {name : String} {texts : List String} {e : Enumeration}
    (hdistinct : texts.Nodup) (he : Enumeration.ofTexts name (texts.map .str) = .ok e)
    (models : List Model) :
    e.members.map (·.2) = (texts.filter (EnumName.isConstantName name)).map .str ∧
      ofType models (TypeExpr.literalOf (texts.map .str)) =
        .ok (leaf { type := some .string, enum := some texts }) ∧
      (e.members.map (·.2) = texts.map .str ↔
        ∀ s ∈ texts, EnumName.isConstantName name s = true) ∧
      (ofType models (.enumeration e) = ofType models (TypeExpr.literalOf (texts.map .str)) ↔
        ∀ s ∈ texts, EnumName.isConstantName name s = true) := by
  obtain ⟨hne, hvalues⟩ := Enumeration.ofTexts_ok he
  have hliteral := ofType_literalOf models hne hdistinct
  refine ⟨hvalues, hliteral, ?_, ?_⟩
  · rw [hvalues, List.map_inj_right fun _ _ => Value.str.inj, List.filter_eq_self]
  · rw [hliteral, ofType_enumeration models hvalues, ← List.filter_eq_self]
    constructor
    · intro h
      split at h
      · cases h
      · have hfacets := congrArg facets (Except.ok.inj h)
        exact Option.some.inj (congrArg Facets.enum hfacets)
    · intro h
      rw [h, if_neg hne]

/-- Underscores on one side of a text leave it the name of a constant. -/
theorem edges_agree : ["_lead", "trail_", "__both"].Nodup ∧
    ∃ e, Enumeration.ofTexts "DynamicEnum" (["_lead", "trail_", "__both"].map .str) = .ok e ∧
      e.members.map (·.2) = ["_lead", "trail_", "__both"].map .str ∧
      ofType [] (.enumeration e) =
        .ok (leaf { type := some .string, enum := some ["_lead", "trail_", "__both"] }) := by
  have hdistinct : ["_lead", "trail_", "__both"].Nodup := by decide
  have hnames : ∀ s ∈ ["_lead", "trail_", "__both"],
      EnumName.isConstantName "DynamicEnum" s = true := by decide +kernel
  obtain ⟨e, he⟩ := isOk_iff.1 (by decide +kernel : (Enumeration.ofTexts "DynamicEnum"
    (["_lead", "trail_", "__both"].map .str)).isOk = true)
  obtain ⟨-, hliteral, hvalues, hschema⟩ := ofTexts_agrees_iff hdistinct he []
  exact ⟨hdistinct, e, he, hvalues.2 hnames, (hschema.2 hnames).trans hliteral⟩

/-- Of these texts the second is lost. -/
theorem special_lost : ["open", "__all__"].Nodup ∧
    ∃ e, Enumeration.ofTexts "DynamicEnum" (["open", "__all__"].map .str) = .ok e ∧
      e.members.map (·.2) ≠ ["open", "__all__"].map .str ∧
      ofType [] (.enumeration e) = .ok (leaf { type := some .string, enum := some ["open"] }) ∧
      ofType [] (.enumeration e) ≠
        ofType [] (TypeExpr.literalOf (["open", "__all__"].map .str)) := by
  have hdistinct : ["open", "__all__"].Nodup := by decide
  have hkept : ["open", "__all__"].filter (EnumName.isConstantName "DynamicEnum") = ["open"] := by
    decide +kernel
  obtain ⟨e, he⟩ := isOk_iff.1 (by decide +kernel : (Enumeration.ofTexts "DynamicEnum"
    (["open", "__all__"].map .str)).isOk = true)
  obtain ⟨hne, hvalues⟩ := Enumeration.ofTexts_ok he
  rw [hkept] at hvalues
  have hschema := ofType_enumeration [] hvalues
  rw [if_neg (List.cons_ne_nil _ _)] at hschema
  refine ⟨hdistinct, e, he, ?_, hschema, ?_⟩
  · intro h
    rw [hvalues] at h
    cases h
  · intro h
    rw [hschema, ofType_literalOf [] hne hdistinct] at h
    cases h

end Schema

end TypeWire
