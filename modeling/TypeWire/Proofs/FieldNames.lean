import Mathlib.Data.List.Nodup
import Mathlib.Data.List.Perm.Subperm
import TypeWire.Proofs.Rebuilt

/-!
# The names of fields

The field of a property is named by the key of the property where that can name a field, and by a
made-up name otherwise. The made-up name is usable and in no other use (`FieldName.madeUp_spec`): of
one more candidates than there are names in use, one is free.

A made-up name stands in data only in place of an empty key, so the names in data are distinct where
the keys are (`TypeExpr.nodup_wireNames`).
-/

namespace TypeWire

namespace FieldName

open Text

/-- The characters of made-up names: the letters of one word, digits and underscores. -/
theorem isIdentifierPart_of_plain {c : Char}
    (h : c ∈ ['f', 'i', 'e', 'l', 'd'] ∨ c.isDigit = true ∨ c = '_') :
    isIdentifierPart c = true := by
  unfold isIdentifierPart inRanges
  rw [Bool.or_eq_true, List.any_eq_true, List.any_eq_true]
  rcases h with h | h | rfl
  · refine .inl ⟨(97, 122), .tail _ (.tail _ (.head _)), ?_⟩
    simp only [List.mem_cons, List.not_mem_nil, or_false] at h
    rcases h with rfl | rfl | rfl | rfl | rfl <;> decide
  · refine .inr ⟨(48, 57), .head _, ?_⟩
    simp only [Char.isDigit, Bool.and_eq_true, decide_eq_true_eq] at h
    simpa [UInt32.le_iff_toNat_le] using h
  · exact .inl ⟨(95, 95), .tail _ (.head _), by decide⟩

theorem toList_candidate (place n : Nat) : (candidate place n).toList =
    'f' :: 'i' :: 'e' :: 'l' :: 'd' :: '_' :: (Nat.toDigits 10 place ++ List.replicate n '_') := by
  have hplace : (toString place).toList = Nat.toDigits 10 place := Nat.toList_repr
  unfold candidate
  simp only [String.toList_append, String.toList_ofList, hplace]
  rfl

theorem candidate_injective (place : Nat) : Function.Injective (candidate place) := by
  intro m n h
  have hlen := congrArg (fun s => s.toList.length) h
  simpa [toList_candidate] using hlen

theorem isUsable_candidate (place n : Nat) : isUsable (candidate place n) = true := by
  have hlist := toList_candidate place n
  have hidentifier : isIdentifier (candidate place n) = true := by
    unfold isIdentifier
    rw [hlist]
    simp only [Bool.and_eq_true, List.all_eq_true]
    refine ⟨?_, fun c hc => isIdentifierPart_of_plain ?_⟩
    · exact List.any_eq_true.2 ⟨(97, 122), .tail _ (.tail _ (.head _)), by decide⟩
    · simp only [List.mem_cons, List.mem_append, List.mem_replicate] at hc
      rcases hc with rfl | rfl | rfl | rfl | rfl | hc | ⟨-, rfl⟩
      all_goals first | exact .inl (by decide) | exact .inr (.inr rfl) | skip
      exact .inr (.inl (Nat.isDigit_of_mem_toDigits (by decide) (by decide) hc))
  have hword : ∀ w ∈ keywords ++ taken, candidate place n ≠ w := by
    intro w hw heq
    have hprefix : ∀ w ∈ keywords ++ taken, w.toList.take 6 ≠ ['f', 'i', 'e', 'l', 'd', '_'] := by
      decide
    refine hprefix w hw ?_
    rw [← heq, hlist]
    rfl
  have hkeywords : keywords.contains (candidate place n) = false := by
    simpa using fun hmem => hword _ (List.mem_append_left _ hmem) rfl
  have htaken : taken.contains (candidate place n) = false := by
    simpa using fun hmem => hword _ (List.mem_append_right _ hmem) rfl
  have hprivate : (candidate place n).startsWith "_" = false := by
    rw [String.startsWith_string_eq_false_iff, hlist]
    simp
  have hmodel : (candidate place n).startsWith "model_" = false := by
    rw [String.startsWith_string_eq_false_iff, hlist]
    simp
  rw [isUsable, hidentifier, hkeywords, htaken, hprivate, hmodel]
  rfl

/-- A made-up name is not in use: one of the candidates is not, since there are more of them than
names in use. -/
theorem madeUp_spec (place : Nat) (inUse : List String) :
    isUsable (madeUp place inUse) = true ∧ madeUp place inUse ∉ inUse := by
  unfold madeUp
  dsimp only
  cases hfind : ((List.range (inUse.length + 1)).map (candidate place)).find?
    fun c => !inUse.contains c with
  | some c =>
    obtain ⟨n, -, rfl⟩ := List.mem_map.1 (List.mem_of_find?_eq_some hfind)
    exact ⟨isUsable_candidate place n, by simpa using List.find?_some hfind⟩
  | none =>
    have hall : ((List.range (inUse.length + 1)).map (candidate place)) ⊆ inUse := by
      intro c hc
      simpa using List.find?_eq_none.1 hfind c hc
    have hnodup : ((List.range (inUse.length + 1)).map (candidate place)).Nodup :=
      List.nodup_range.map (candidate_injective place)
    have hlen := (hnodup.subperm hall).length_le
    simp at hlen

/-- The names that are assigned to keys: a usable key is its own name, and any other key has a usable
name that was not in use. -/
theorem forall₂_assign (place : Nat) (inUse keys : List String) :
    List.Forall₂ (fun name key => if isUsable key then name = key else
      isUsable name = true ∧ name ∉ inUse) (assign place inUse keys) keys := by
  induction keys generalizing place inUse with
  | nil => exact .nil
  | cons key keys ih =>
    rw [assign]
    by_cases hkey : isUsable key = true
    · rw [if_pos hkey]
      exact .cons (by simp [hkey]) (ih (place + 1) inUse)
    · rw [if_neg hkey]
      refine .cons (by simpa [hkey] using madeUp_spec place inUse) ((ih (place + 1) _).imp ?_)
      intro name k h
      by_cases hk : isUsable k = true
      · simpa [hk] using h
      · simp only [hk, List.mem_cons, not_or] at h ⊢
        exact ⟨h.1, h.2.2⟩

/-- A key that can name no field has a usable name that is no key. -/
theorem forall₂_forKeys (keys : List String) :
    List.Forall₂ (fun name key => if isUsable key then name = key else
      isUsable name = true ∧ name ∉ keys) (forKeys keys) keys := by
  refine (forall₂_assign 0 (keys.filter isUsable) keys).imp fun name key h => ?_
  by_cases hkey : isUsable key = true
  · simpa [hkey] using h
  · simp only [hkey] at h ⊢
    exact ⟨h.1, fun hmem => h.2 (List.mem_filter.2 ⟨hmem, h.1⟩)⟩

theorem ne_empty_of_isUsable {name : String} (h : isUsable name = true) : name ≠ "" := by
  rintro rfl
  have hno : isUsable "" = false := by decide
  rw [hno] at h
  cases h

theorem clear_of_isUsable {name : String} (h : isUsable name = true) : TypeExpr.Clear name := by
  have hstart : isIdentifierStart '\x00' = false := by decide +kernel
  have hpart : isIdentifierPart '\x00' = false := by decide +kernel
  simp only [isUsable, Bool.and_eq_true] at h
  obtain ⟨⟨⟨⟨hident, -⟩, -⟩, -⟩, -⟩ := h
  unfold isIdentifier at hident
  unfold TypeExpr.Clear
  cases hlist : name.toList with
  | nil => exact List.not_mem_nil
  | cons c cs =>
    rw [hlist] at hident
    simp only [Bool.and_eq_true, List.all_eq_true] at hident
    rw [List.mem_cons, not_or]
    refine ⟨?_, fun hmem => ?_⟩
    · rintro rfl
      rw [hstart] at hident
      cases hident.1
    · have hnull := hident.2 _ hmem
      rw [hpart] at hnull
      cases hnull

end FieldName

namespace TypeExpr

theorem wireName_fieldOfProperty {t : TypeExpr} (ht : Regular t) (required : List String)
    (name key : String) : (fieldOfProperty required name key t).1.wireName =
      if key = "" then name else key := by
  rw [fieldOfProperty_eq ht, Field.wireName]
  by_cases hk : key = "" <;> by_cases hn : name = key <;> simp_all

theorem isOptional_fieldOfProperty {t : TypeExpr} (ht : Regular t) (required : List String)
    (name key : String) : (fieldOfProperty required name key t).1.isOptional =
      !required.contains key := by
  rw [fieldOfProperty_eq ht, Field.isOptional]
  cases required.contains key <;> rfl

/-- A name in data for a key: the key, or a new name in place of an empty one. -/
structure IsWireName (keys : List String) (key wire : String) : Prop where
  ne_empty : wire ≠ ""
  clear : Clear wire ↔ Clear key
  cases : wire = key ∨ key = "" ∧ wire ∉ keys

/-- The field of a property has the name of the key, or a new one if the key can name no field. -/
theorem forall₂_named (required : List String) (types : List (String × TypeExpr)) :
    List.Forall₂ (fun q f => ∃ name, f = fieldOfProperty required name q.1 q.2 ∧
      if FieldName.isUsable q.1 then name = q.1 else
        FieldName.isUsable name = true ∧ name ∉ types.map (·.1)) types (fieldsOf required types) := by
  have hnames := List.forall₂_map_right_iff.1 (FieldName.forall₂_forKeys (types.map (·.1)))
  unfold fieldsOf
  generalize FieldName.forKeys (types.map (·.1)) = names at hnames ⊢
  -- The names are new among all the keys, of which the induction takes one after the other.
  generalize types.map (·.1) = keys at hnames ⊢
  induction hnames with
  | nil => exact .nil
  | @cons name q names types hname _ ih => exact .cons ⟨name, rfl, hname⟩ ih

theorem isWireName_fieldsOf (required : List String) {types : List (String × TypeExpr)}
    (hregular : ∀ q ∈ types, Regular q.2) : List.Forall₂ (fun q f =>
      (∃ name, f = fieldOfProperty required name q.1 q.2) ∧
        IsWireName (types.map (·.1)) q.1 f.1.wireName) types (fieldsOf required types) := by
  refine ((List.forall₂_and_left _ _).2 ⟨hregular, forall₂_named required types⟩).imp ?_
  rintro q f ⟨hq, name, rfl, hname⟩
  refine ⟨⟨name, rfl⟩, ?_⟩
  rw [wireName_fieldOfProperty hq]
  by_cases hempty : q.1 = ""
  · have hno : FieldName.isUsable q.1 = false := by rw [hempty]; decide
    rw [hno, if_neg Bool.false_ne_true] at hname
    have hclear : Clear q.1 := by rw [hempty]; decide
    rw [if_pos hempty]
    exact ⟨FieldName.ne_empty_of_isUsable hname.1,
      iff_of_true (FieldName.clear_of_isUsable hname.1) hclear, .inr ⟨hempty, hname.2⟩⟩
  · rw [if_neg hempty]
    exact ⟨hempty, Iff.rfl, .inl rfl⟩

/-- Names in data are distinct if the keys are. -/
theorem nodup_wireNames {required : List String} {types : List (String × TypeExpr)}
    (hregular : ∀ q ∈ types, Regular q.2) (hkeys : (types.map (·.1)).Nodup) :
    ((fieldsOf required types).map fun f => f.1.wireName).Nodup := by
  have hnames := (List.forall₂_and_left _ _).2 ⟨fun q hq => List.mem_map_of_mem (f := (·.1)) hq,
    isWireName_fieldsOf required hregular⟩
  rw [List.Nodup, List.pairwise_map] at hkeys ⊢
  refine pairwise_of_forall₂ hnames hkeys ?_
  rintro q q' f f' hne ⟨hq, -, hf⟩ ⟨hq', -, hf'⟩ heq
  rcases hf.cases with hwire | ⟨hempty, hnew⟩
  · rcases hf'.cases with hwire' | ⟨-, hnew'⟩
    · exact hne (hwire.symm.trans (heq.trans hwire'))
    · exact hnew' (heq ▸ hwire ▸ hq)
  · rcases hf'.cases with hwire' | ⟨hempty', -⟩
    · exact hnew (heq ▸ hwire' ▸ hq')
    · exact hne (hempty.trans hempty'.symm)

end TypeExpr

end TypeWire
