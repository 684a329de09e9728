import Mathlib.Data.List.Forall2
import Mathlib.Data.List.Nodup
import TypeWire.Json

/-!
# Lists side by side, and dictionaries

A traversal that can fail is read as `List.Forall₂` between what goes in and what comes out, so two
traversals of one list are joined there. `dictOfList` puts one entry after the other: what comes out
has each key once (`nodup_dictOfList`), and a list that has is left as it is (`dictOfList_eq_self`).
-/

namespace TypeWire

/-! ## Lists side by side -/

/-- Each item on the right has one on the left. -/
theorem exists_of_forall₂ {α β : Type} {r : α → β → Prop} {as : List α} {bs : List β}
    (h : List.Forall₂ r as bs) : ∀ b ∈ bs, ∃ a ∈ as, r a b := by
  induction h with
  | nil => simp
  | @cons a b as bs hab _ ih =>
    refine List.forall_mem_cons.2 ⟨⟨a, List.mem_cons_self, hab⟩, fun b hb => ?_⟩
    obtain ⟨a', ha', hr⟩ := ih b hb
    exact ⟨a', List.mem_cons_of_mem _ ha', hr⟩

/-- What follows for each item on the right from one on the left holds of all. -/
theorem forall_of_forall₂ {α β : Type} {r : α → β → Prop} {p : β → Prop} {as : List α} {bs : List β}
    (h : List.Forall₂ r as bs) (hp : ∀ a b, r a b → p b) : ∀ b ∈ bs, p b := by
  intro b hb
  obtain ⟨a, -, hab⟩ := exists_of_forall₂ h b hb
  exact hp a b hab

theorem forall_congr_of_forall₂ {α β : Type} {p : α → Prop} {q : β → Prop} {as : List α}
    {bs : List β} (h : List.Forall₂ (fun a b => p a ↔ q b) as bs) :
    (∀ a ∈ as, p a) ↔ ∀ b ∈ bs, q b := by
  induction h with
  | nil => simp
  | cons hab _ ih => rw [List.forall_mem_cons, List.forall_mem_cons, hab, ih]

/-- Two traversals of one list stand side by side. -/
theorem forall₂_join {α β γ : Type} {p : α → β → Prop} {q : α → γ → Prop} {as : List α}
    {bs : List β} {cs : List γ} (hb : List.Forall₂ p as bs) (hc : List.Forall₂ q as cs) :
    List.Forall₂ (fun b c => ∃ a ∈ as, p a b ∧ q a c) bs cs := by
  induction hb generalizing cs with
  | nil => cases hc; exact .nil
  | @cons a b as bs hab _ ih =>
    cases hc with
    | cons hac hcs =>
      refine .cons ⟨a, List.mem_cons_self, hab, hac⟩ ((ih hcs).imp ?_)
      rintro b c ⟨a', ha', h⟩
      exact ⟨a', List.mem_cons_of_mem _ ha', h⟩

theorem exists_congr_of_forall₂ {α β : Type} {p : α → Prop} {q : β → Prop} {as : List α}
    {bs : List β} (h : List.Forall₂ (fun a b => p a ↔ q b) as bs) :
    (∃ a ∈ as, p a) ↔ ∃ b ∈ bs, q b := by
  induction h with
  | nil => simp
  | cons hab _ ih => rw [List.exists_mem_cons_iff, List.exists_mem_cons_iff, hab, ih]

/-- A list of what there is for each item. -/
theorem exists_forall₂ {α β : Type} {r : α → β → Prop} {as : List α} (h : ∀ a ∈ as, ∃ b, r a b) :
    ∃ bs, List.Forall₂ r as bs := by
  induction as with
  | nil => exact ⟨[], .nil⟩
  | cons a as ih =>
    obtain ⟨⟨b, hb⟩, has⟩ := List.forall_mem_cons.1 h
    obtain ⟨bs, hbs⟩ := ih has
    exact ⟨b :: bs, .cons hb hbs⟩

theorem pairwise_of_forall₂ {α β : Type} {r : α → β → Prop} {p : α → α → Prop} {q : β → β → Prop}
    {as : List α} {bs : List β} (h : List.Forall₂ r as bs) (has : as.Pairwise p)
    (hpq : ∀ {a a' b b'}, p a a' → r a b → r a' b' → q b b') : bs.Pairwise q := by
  induction h with
  | nil => exact .nil
  | @cons a b as bs hab hrest ih =>
    obtain ⟨ha, has⟩ := List.pairwise_cons.1 has
    refine List.pairwise_cons.2 ⟨fun b' hb' => ?_, ih has⟩
    obtain ⟨a', ha', hab'⟩ := exists_of_forall₂ hrest b' hb'
    exact hpq (ha a' ha') hab hab'

theorem getElem?_of_forall₂ {α β : Type} {r : α → β → Prop} {as : List α} {bs : List β}
    (h : List.Forall₂ r as bs) {i : Nat} {a : α} (ha : as[i]? = some a) :
    ∃ b, bs[i]? = some b ∧ r a b := by
  induction h generalizing i with
  | nil => simp at ha
  | @cons a' b as bs hab _ ih =>
    cases i with
    | zero =>
      obtain rfl : a' = a := by simpa using ha
      exact ⟨b, rfl, hab⟩
    | succ i => exact ih (by simpa using ha)

/-- At each place both lists have an item, or both have none. -/
theorem rel_getElem?_of_forall₂ {α β : Type} {r : α → β → Prop} {as : List α} {bs : List β}
    (h : List.Forall₂ r as bs) (i : Nat) : Option.Rel r as[i]? bs[i]? := by
  induction h generalizing i with
  | nil => exact .none
  | cons hab _ ih =>
    cases i with
    | zero => exact .some hab
    | succ i => exact ih i

theorem map_eq_of_forall₂ {α β γ : Type} {r : α → β → Prop} {f : α → γ} {g : β → γ} {as : List α}
    {bs : List β} (h : List.Forall₂ r as bs) (hfg : ∀ a b, r a b → f a = g b) :
    as.map f = bs.map g := by
  rw [← List.forall₂_eq_eq_eq, List.forall₂_map_left_iff, List.forall₂_map_right_iff]
  exact h.imp hfg

/-! ## Dictionaries -/

/-- A new key comes last, and a key that is there keeps its place. -/
theorem keys_putEntry {α : Type} (key : String) (value : α) (entries : List (String × α)) :
    (putEntry key value entries).map (·.1) =
      if key ∈ entries.map (·.1) then entries.map (·.1) else entries.map (·.1) ++ [key] := by
  induction entries with
  | nil => rfl
  | cons e entries ih =>
    obtain ⟨k, v⟩ := e
    rw [putEntry]
    by_cases hk : k = key
    · simp [hk]
    · rw [if_neg (by simpa using hk), List.map_cons, List.map_cons, ih]
      by_cases hmem : key ∈ entries.map (·.1)
      · rw [if_pos hmem, if_pos (List.mem_cons_of_mem _ hmem)]
      · have hnot : key ∉ k :: entries.map (·.1) := by
          rw [List.mem_cons, not_or]
          exact ⟨Ne.symm hk, hmem⟩
        rw [if_neg hmem, if_neg hnot]
        rfl

theorem putEntry_eq_append {α : Type} {key : String} (value : α) {entries : List (String × α)}
    (h : key ∉ entries.map (·.1)) : putEntry key value entries = entries ++ [(key, value)] := by
  induction entries with
  | nil => rfl
  | cons e entries ih =>
    obtain ⟨k, v⟩ := e
    simp only [List.map_cons, List.mem_cons, not_or] at h
    rw [putEntry, if_neg (by simpa using Ne.symm h.1), ih h.2]
    rfl

/-- A dictionary has each key once. -/
theorem nodup_dictOfList {α : Type} (entries : List (String × α)) :
    ((dictOfList entries).map (·.1)).Nodup := by
  unfold dictOfList
  have hfold : ∀ (es acc : List (String × α)), (acc.map (·.1)).Nodup →
      ((es.foldl (fun acc (k, v) => putEntry k v acc) acc).map (·.1)).Nodup := by
    intro es
    induction es with
    | nil => exact fun acc h => h
    | cons e es ih =>
      intro acc h
      refine ih _ ?_
      rw [keys_putEntry]
      split
      · exact h
      · rename_i hnot
        rw [List.nodup_append]
        exact ⟨h, List.nodup_singleton _, by rintro a ha _ (_ | ⟨_, ⟨⟩⟩) rfl; exact hnot ha⟩
  exact hfold entries [] List.nodup_nil

theorem mem_of_mem_putEntry {α : Type} {key : String} {value : α} {entries : List (String × α)}
    {e : String × α} (h : e ∈ putEntry key value entries) : e = (key, value) ∨ e ∈ entries := by
  induction entries with
  | nil => exact .inl (List.mem_singleton.1 h)
  | cons head entries ih =>
    obtain ⟨k, v⟩ := head
    rw [putEntry] at h
    by_cases hk : k = key
    · subst hk
      rw [if_pos (beq_self_eq_true k)] at h
      rcases List.mem_cons.1 h with rfl | h
      · exact .inl rfl
      · exact .inr (List.mem_cons_of_mem _ h)
    · rw [if_neg (by simpa using hk)] at h
      rcases List.mem_cons.1 h with rfl | h
      · exact .inr List.mem_cons_self
      · exact (ih h).imp_right (List.mem_cons_of_mem _)

/-- A dictionary has none but the entries that it is built from. -/
theorem mem_of_mem_dictOfList {α : Type} {entries : List (String × α)} {e : String × α}
    (h : e ∈ dictOfList entries) : e ∈ entries := by
  unfold dictOfList at h
  have hfold : ∀ (es acc : List (String × α)),
      e ∈ es.foldl (fun acc (k, v) => putEntry k v acc) acc → e ∈ acc ∨ e ∈ es := by
    intro es
    induction es with
    | nil => exact fun acc h => .inl h
    | cons head es ih =>
      intro acc h
      rcases ih _ h with hacc | hes
      · rcases mem_of_mem_putEntry hacc with rfl | hacc
        · exact .inr List.mem_cons_self
        · exact .inl hacc
      · exact .inr (List.mem_cons_of_mem _ hes)
  simpa using hfold entries [] h

/-- A list without repeated keys is a dictionary already. -/
theorem dictOfList_eq_self {α : Type} {entries : List (String × α)}
    (h : (entries.map (·.1)).Nodup) : dictOfList entries = entries := by
  unfold dictOfList
  have hfold : ∀ (es acc : List (String × α)), ((acc ++ es).map (·.1)).Nodup →
      es.foldl (fun acc (k, v) => putEntry k v acc) acc = acc ++ es := by
    intro es
    induction es with
    | nil => simp
    | cons e es ih =>
      obtain ⟨k, v⟩ := e
      intro acc h
      have hnot : k ∉ acc.map (·.1) := by
        rw [List.map_append, List.nodup_append] at h
        exact fun hmem => h.2.2 _ hmem k (by simp) rfl
      show es.foldl _ (putEntry k v acc) = acc ++ (k, v) :: es
      rw [putEntry_eq_append v hnot, ih _ (by simpa using h), List.append_assoc]
      rfl
  exact hfold entries [] h

theorem putEntry_map {α β : Type} (g : α → β) (key : String) (value : α)
    (entries : List (String × α)) :
    putEntry key (g value) (entries.map fun e => (e.1, g e.2)) =
      (putEntry key value entries).map fun e => (e.1, g e.2) := by
  induction entries with
  | nil => rfl
  | cons e entries ih =>
    obtain ⟨k, v⟩ := e
    rw [List.map_cons, putEntry, putEntry, ih]
    split <;> rfl

/-- Values that are changed one by one stay under their keys. -/
theorem dictOfList_map {α β : Type} (g : α → β) (entries : List (String × α)) :
    dictOfList (entries.map fun e => (e.1, g e.2)) =
      (dictOfList entries).map fun e => (e.1, g e.2) := by
  unfold dictOfList
  have hfold : ∀ (es acc : List (String × α)),
      (es.map fun e => (e.1, g e.2)).foldl (fun acc (k, v) => putEntry k v acc)
        (acc.map fun e => (e.1, g e.2)) =
      (es.foldl (fun acc (k, v) => putEntry k v acc) acc).map fun e => (e.1, g e.2) := by
    intro es
    induction es with
    | nil => exact fun acc => rfl
    | cons e es ih =>
      obtain ⟨k, v⟩ := e
      intro acc
      show List.foldl _ (putEntry k (g v) (acc.map fun e => (e.1, g e.2))) _ = _
      rw [putEntry_map]
      exact ih (putEntry k v acc)
  exact hfold entries []

/-- A list of keys picked from a list in its order is what is left of the list at these keys. -/
theorem filter_contains_of_sublist {keys required : List String} (h : required.Sublist keys)
    (hkeys : keys.Nodup) : keys.filter required.contains = required := by
  induction h with
  | slnil => rfl
  | @cons l₁ l₂ a h ih =>
    obtain ⟨ha, hkeys⟩ := List.nodup_cons.1 hkeys
    have hnot : a ∉ l₁ := fun hmem => ha (h.subset hmem)
    rw [List.filter_cons_of_neg (by simpa using hnot), ih hkeys]
  | @cons_cons l₁ l₂ a h ih =>
    obtain ⟨ha, hkeys⟩ := List.nodup_cons.1 hkeys
    rw [List.filter_cons_of_pos (by simp)]
    congr 1
    refine Eq.trans (List.filter_congr fun k hk => ?_) (ih hkeys)
    have hne : k ≠ a := fun he => ha (he ▸ hk)
    simp [hne]

end TypeWire
