import EventSaver.Library.Table

/-!
# Tables that only grow

A later state of a table has the rows of an earlier one at their places, each changed at most as a
relation on rows allows, and further rows after them.
-/

namespace TableData

variable {α : Type}

/-- The rows of `table` come first in `table'`, each in relation to what it was. -/
def GrowsBy (R : α → α → Prop) (table table' : List α) : Prop :=
  ∃ kept added, table' = kept ++ added ∧ List.Forall₂ R table kept

namespace GrowsBy

variable {R : α → α → Prop} {table table' table'' : List α} {p q : α → Bool} {f : α → α} {row : α}

lemma refl (hR : ∀ a, R a a) (table : List α) : GrowsBy R table table :=
  ⟨table, [], (List.append_nil table).symm, List.forall₂_same.mpr fun a _ => hR a⟩

lemma trans (hR : ∀ {a b c}, R a b → R b c → R a c) (h : GrowsBy R table table')
    (h' : GrowsBy R table' table'') : GrowsBy R table table'' := by
  obtain ⟨kept, added, rfl, hkept⟩ := h
  obtain ⟨kept', added', rfl, hkept'⟩ := h'
  induction hkept generalizing kept' with
  | nil => exact ⟨[], kept' ++ added', rfl, .nil⟩
  | cons hab _ ih =>
    cases hkept' with
    | @cons _ c _ rest hbc hrest =>
      obtain ⟨first, later, heq, hfirst⟩ := ih rest hrest
      exact ⟨c :: first, later, congrArg (c :: ·) heq, .cons (hR hab hbc) hfirst⟩

lemma append (hR : ∀ a, R a a) (added : List α) : GrowsBy R table (table ++ added) :=
  ⟨table, added, rfl, List.forall₂_same.mpr fun a _ => hR a⟩

lemma updateWhere (hR : ∀ a, R a a) (hf : ∀ a, p a = true → R a (f a)) :
    GrowsBy R table (updateWhere p f table) := by
  refine ⟨_, [], (List.append_nil _).symm, ?_⟩
  rw [TableData.updateWhere, List.forall₂_map_right_iff]
  refine List.forall₂_same.mpr fun a _ => ?_
  split
  next hp => exact hf a hp
  next => exact hR a

lemma insertUnless (hR : ∀ a, R a a) : GrowsBy R table (insertUnless p row table) := by
  unfold TableData.insertUnless
  split
  · exact refl hR table
  · exact append hR [row]

lemma upsertWhere (hR : ∀ a, R a a) (hf : ∀ a, p a = true → R a (f a)) :
    GrowsBy R table (upsertWhere p f row table) := by
  unfold TableData.upsertWhere
  split
  · exact updateWhere hR hf
  · exact append hR [row]

/-- A search that the changes of a row do not concern finds the same row later on. -/
lemma find? (h : GrowsBy R table table') (hq : ∀ a b, R a b → q b = q a)
    (hfind : table.find? q = some row) : ∃ row', table'.find? q = some row' ∧ R row row' := by
  obtain ⟨kept, added, rfl, hkept⟩ := h
  induction hkept with
  | nil => cases hfind
  | @cons a b rest kept hab _ ih =>
    rw [List.find?_cons] at hfind
    rw [List.cons_append, List.find?_cons, hq a b hab]
    split at hfind
    · cases hfind
      exact ⟨b, rfl, hab⟩
    · exact ih hfind

end GrowsBy

end TableData
