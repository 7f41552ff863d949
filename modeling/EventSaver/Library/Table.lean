import Mathlib.Data.List.Nodup
import Mathlib.Data.List.Sort
import Mathlib.Data.Set.Function

/-!
# Tables as lists of rows

Rows that refer to rows of another table, keyed updates, and the newest row by a time.
-/

namespace TableData

/-- A row with a reference to the row `ref` of another table. -/
structure Linked (α : Type) where
  ref : Nat
  row : α
  deriving DecidableEq

/-- The rows that refer to `ref`, in table order. -/
def rowsOf {α : Type} (ref : Nat) (table : List (Linked α)) : List α :=
  (table.filter fun l => l.ref = ref).map Linked.row

/-- Apply `f` to the rows that satisfy `p`. -/
def updateWhere {α : Type} (p : α → Bool) (f : α → α) (table : List α) : List α :=
  table.map fun a => if p a then f a else a

/-- `insert ... on conflict do nothing`, where `p` holds of the rows in conflict. -/
def insertUnless {α : Type} (p : α → Bool) (row : α) (table : List α) : List α :=
  if table.any p then table else table ++ [row]

/-- `insert ... on conflict do update`, where `p` holds of the rows in conflict. -/
def upsertWhere {α : Type} (p : α → Bool) (f : α → α) (row : α) (table : List α) : List α :=
  if table.any p then updateWhere p f table else table ++ [row]

/-- The last row in table order among those with the greatest value of `time`. -/
def newest {α : Type} (time : α → Int) : List α → Option α
  | [] => none
  | row :: rest =>
    match newest time rest with
    | some later => if time row ≤ time later then some later else some row
    | none => some row

section Lookup

variable {α : Type} {p q : α → Bool} {f : α → α} {row : α} {table : List α}

lemma find?_updateWhere (hf : ∀ a, q (f a) = q a) :
    (updateWhere p f table).find? q = (table.find? q).map fun a => if p a then f a else a := by
  rw [updateWhere, List.find?_map]
  congr 2
  funext a
  by_cases ha : p a = true
  · simp [ha, hf]
  · simp [ha]

/-- The row an upsert leaves under its own key. -/
lemma find?_upsertWhere_self (hf : ∀ a, q (f a) = q a) (hrow : q row = true) :
    (upsertWhere q f row table).find? q = some ((table.find? q).elim row f) := by
  unfold upsertWhere
  by_cases hany : table.any q = true
  · rw [if_pos hany, find?_updateWhere hf]
    rcases hfind : table.find? q with _ | a
    · simp only [List.any_eq_true] at hany
      obtain ⟨a, ha, hqa⟩ := hany
      exact absurd hqa (by simpa using List.find?_eq_none.mp hfind a ha)
    · simp [List.find?_some hfind]
  · have hnone : table.find? q = none := by
      rw [List.find?_eq_none]
      intro a ha hqa
      exact hany (List.any_eq_true.mpr ⟨a, ha, hqa⟩)
    rw [if_neg hany, List.find?_append, hnone]
    simp [hrow]

/-- An upsert leaves the rows of other keys as they are. -/
lemma find?_upsertWhere_other (hf : ∀ a, q (f a) = q a) (hpq : ∀ a, p a = true → q a = false)
    (hrow : q row = false) : (upsertWhere p f row table).find? q = table.find? q := by
  unfold upsertWhere
  by_cases hany : table.any p = true
  · rw [if_pos hany, find?_updateWhere hf]
    rcases hfind : table.find? q with _ | a
    · rfl
    · have hqa := List.find?_some hfind
      have hpa : ¬ p a = true := fun h => by simp [hpq a h] at hqa
      simp [hpa]
  · rw [if_neg hany, List.find?_append]
    simp [hrow]

/-- A search an inserted row would not answer finds the row it found before, updated. -/
lemma find?_upsertWhere_map (hf : ∀ a, q (f a) = q a) (hrow : q row = false) :
    (upsertWhere p f row table).find? q =
      (table.find? q).map fun a => if p a then f a else a := by
  unfold upsertWhere
  by_cases hany : table.any p = true
  · rw [if_pos hany, find?_updateWhere hf]
  · rw [if_neg hany, List.find?_append]
    rcases hfind : table.find? q with _ | a
    · simp [hrow]
    · have hpa : ¬ p a = true := fun hp =>
        hany (List.any_eq_true.mpr ⟨a, List.mem_of_find?_eq_some hfind, hp⟩)
      simp [hpa]

end Lookup

section Newest

variable {α : Type} {time : α → Int} {row : α} {table : List α}

lemma newest_eq_none : newest time table = none ↔ table = [] := by
  cases table with
  | nil => exact iff_of_true rfl rfl
  | cons a rest =>
    refine iff_of_false ?_ (List.cons_ne_nil a rest)
    rw [newest]
    split
    · split <;> exact Option.some_ne_none _
    · exact Option.some_ne_none _

/-- The newest row is a row of the table, and none is newer. -/
lemma newest_spec (h : newest time table = some row) :
    row ∈ table ∧ ∀ a ∈ table, time a ≤ time row := by
  induction table generalizing row with
  | nil => cases h
  | cons a rest ih =>
    rw [newest] at h
    cases hrest : newest time rest with
    | none =>
      rw [hrest] at h
      cases h
      rw [newest_eq_none.mp hrest]
      simp
    | some later =>
      obtain ⟨hmem, hle⟩ := ih hrest
      rw [hrest] at h
      dsimp only at h
      by_cases htime : time a ≤ time later
      · rw [if_pos htime] at h
        cases h
        exact ⟨List.mem_cons_of_mem a hmem, List.forall_mem_cons.mpr ⟨htime, hle⟩⟩
      · rw [if_neg htime] at h
        cases h
        refine ⟨List.mem_cons_self, List.forall_mem_cons.mpr ⟨le_rfl, fun b hb => ?_⟩⟩
        exact (hle b hb).trans (not_le.mp htime).le

/-- In a table in the order of time, the newest row is the last. -/
lemma newest_eq_getLast? (h : table.Pairwise fun a b => time a ≤ time b) :
    newest time table = table.getLast? := by
  induction table with
  | nil => rfl
  | cons a rest ih =>
    obtain ⟨ha, hrest⟩ := List.pairwise_cons.mp h
    rw [newest, ih hrest]
    cases rest with
    | nil => rfl
    | cons b rest =>
      rw [List.getLast?_cons_cons, List.getLast?_eq_some_getLast (List.cons_ne_nil b rest)]
      exact if_pos (ha _ (List.getLast_mem _))

end Newest

section Windows

variable {α : Type} {key : α → Nat} {a : α} {n : Nat} {table : List α}

/-- The first rows in the order of a key are those with few rows before them. -/
lemma mem_take_of_sorted (h : table.Pairwise fun a b => key a < key b) :
    a ∈ table.take n ↔ a ∈ table ∧ table.countP (fun b => decide (key b < key a)) < n := by
  induction table generalizing n with
  | nil => simp
  | cons b rest ih =>
    obtain ⟨hb, hrest⟩ := List.pairwise_cons.mp h
    cases n with
    | zero => simp
    | succ n =>
      rw [List.take_succ_cons, List.mem_cons, List.mem_cons, ih hrest]
      by_cases hab : a = b
      · subst hab
        have hzero : (a :: rest).countP (fun c => decide (key c < key a)) = 0 := by
          rw [List.countP_eq_zero]
          intro c hc
          rcases List.mem_cons.mp hc with rfl | hc
          · simp
          · simp [(hb c hc).le]
        simp [hzero]
      · have hiff : a ∈ rest ∧ rest.countP (fun c => decide (key c < key a)) < n ↔
            a ∈ rest ∧ (b :: rest).countP (fun c => decide (key c < key a)) < n + 1 := by
          refine and_congr_right fun ha => ?_
          rw [List.countP_cons_of_pos (by simpa using hb a ha)]
          omega
        rw [hiff]
        simp [hab]

/-- Rows sorted by a key that identifies them are strictly sorted. -/
lemma insertionSort_pairwise_lt (h : (table.map key).Nodup) :
    (table.insertionSort fun a b => key a ≤ key b).Pairwise fun a b => key a < key b := by
  have hperm := List.perm_insertionSort (fun a b => key a ≤ key b) table
  have hle : (table.insertionSort fun a b => key a ≤ key b).Pairwise fun a b => key a ≤ key b :=
    List.pairwise_insertionSort _ table
  have hne : (table.insertionSort fun a b => key a ≤ key b).Pairwise fun a b => key a ≠ key b :=
    List.pairwise_map.mp ((hperm.map key).nodup_iff.mpr h)
  exact (hle.and hne).imp fun hab => lt_of_le_of_ne hab.1 hab.2

/-- The first `n` rows in the order of a key that identifies a row. -/
lemma mem_take_insertionSort (h : (table.map key).Nodup) :
    a ∈ (table.insertionSort fun a b => key a ≤ key b).take n ↔
      a ∈ table ∧ table.countP (fun b => decide (key b < key a)) < n := by
  have hperm := List.perm_insertionSort (fun a b => key a ≤ key b) table
  rw [mem_take_of_sorted (insertionSort_pairwise_lt h), hperm.mem_iff, hperm.countP_eq]

end Windows

section Filters

variable {α : Type} {p q : α → Bool} {f : α → α} {row : α} {table : List α}

/-- Rows outside `q` stay outside, and the others are not updated. -/
lemma filter_updateWhere (hp : ∀ a ∈ table, p a = true → q a = false ∧ q (f a) = false) :
    (updateWhere p f table).filter q = table.filter q := by
  induction table with
  | nil => rfl
  | cons a rest ih =>
    have hrest := ih fun b hb => hp b (List.mem_cons_of_mem _ hb)
    rw [updateWhere] at hrest ⊢
    rw [List.map_cons, List.filter_cons, List.filter_cons, hrest]
    by_cases ha : p a = true
    · obtain ⟨hq, hqf⟩ := hp a List.mem_cons_self ha
      rw [if_pos ha, hq, hqf, if_neg Bool.false_ne_true, if_neg Bool.false_ne_true]
    · rw [if_neg ha]

lemma filter_append_row (hrow : q row = false) : (table ++ [row]).filter q = table.filter q := by
  rw [List.filter_append, List.filter_cons, hrow]
  exact List.append_nil _

lemma insertUnless_of_new (h : ∀ a ∈ table, p a = false) :
    insertUnless p row table = table ++ [row] := by
  rw [insertUnless, List.any_eq_false.mpr fun a ha => by simp [h a ha], if_neg Bool.false_ne_true]

lemma filter_insertUnless (hrow : q row = false) :
    (insertUnless p row table).filter q = table.filter q := by
  unfold insertUnless
  split
  · rfl
  · exact filter_append_row hrow

lemma filter_upsertWhere (hp : ∀ a ∈ table, p a = true → q a = false ∧ q (f a) = false)
    (hrow : q row = false) : (upsertWhere p f row table).filter q = table.filter q := by
  unfold upsertWhere
  split
  · exact filter_updateWhere hp
  · exact filter_append_row hrow

end Filters

section Keys

variable {α κ : Type} {p : α → Bool} {f : α → α} {row : α} {table : List α} {key : α → κ}

lemma map_updateWhere (hf : ∀ a, key (f a) = key a) :
    (updateWhere p f table).map key = table.map key := by
  rw [updateWhere, List.map_map]
  apply List.map_congr_left
  intro a _
  by_cases ha : p a = true
  · simp [ha, hf]
  · simp [ha]

variable (p f row table key) in
/-- The keys after an upsert: the old ones, and the one of the row if it was new. -/
lemma map_upsertWhere (hf : ∀ a, key (f a) = key a) :
    (upsertWhere p f row table).map key =
      table.map key ++ if table.any p then [] else [key row] := by
  unfold upsertWhere
  by_cases hany : table.any p = true
  · rw [if_pos hany, if_pos hany, map_updateWhere hf, List.append_nil]
  · rw [if_neg hany, if_neg hany, List.map_append]
    rfl

lemma mem_updateWhere {a : α} (h : a ∈ updateWhere p f table) :
    ∃ b ∈ table, a = if p b then f b else b := by
  rw [updateWhere, List.mem_map] at h
  obtain ⟨b, hb, rfl⟩ := h
  exact ⟨b, hb, rfl⟩

lemma mem_upsertWhere {a : α} (h : a ∈ upsertWhere p f row table) :
    a = row ∨ ∃ b ∈ table, a = if p b then f b else b := by
  unfold upsertWhere at h
  by_cases hany : table.any p = true
  · rw [if_pos hany] at h
    exact .inr (mem_updateWhere h)
  · rw [if_neg hany, List.mem_append, List.mem_singleton] at h
    rcases h with h | rfl
    · have hpa : ¬ p a = true := fun hp => hany (List.any_eq_true.mpr ⟨a, h, hp⟩)
      exact .inr ⟨a, h, by simp [hpa]⟩
    · exact .inl rfl

lemma mem_insertUnless {a : α} (h : a ∈ insertUnless p row table) : a = row ∨ a ∈ table := by
  unfold insertUnless at h
  by_cases hany : table.any p = true
  · rw [if_pos hany] at h
    exact .inr h
  · rw [if_neg hany, List.mem_append, List.mem_singleton] at h
    exact h.symm

/-- Keys stay distinct when the row in conflict is the one with the same key. -/
lemma nodup_upsertWhere (hf : ∀ a, key (f a) = key a) (hp : ∀ a, key a = key row → p a = true)
    (h : (table.map key).Nodup) : ((upsertWhere p f row table).map key).Nodup := by
  rw [map_upsertWhere p f row table key hf]
  by_cases hany : table.any p = true
  · rwa [if_pos hany, List.append_nil]
  · rw [if_neg hany, List.nodup_append]
    refine ⟨h, List.nodup_singleton _, ?_⟩
    rintro k hk k' hk' rfl
    obtain ⟨a, ha, rfl⟩ := List.mem_map.mp hk
    exact hany (List.any_eq_true.mpr ⟨a, ha, hp a (List.mem_singleton.mp hk')⟩)

/-- With distinct keys, a row is the one a search for its key finds. -/
lemma find?_eq_some_of_mem [DecidableEq κ] (h : (table.map key).Nodup) {a : α} (ha : a ∈ table) :
    table.find? (fun b => key b == key a) = some a := by
  induction table with
  | nil => simp at ha
  | cons b rest ih =>
    rw [List.map_cons, List.nodup_cons] at h
    rcases List.mem_cons.mp ha with rfl | ha
    · simp
    · have hne : key b ≠ key a := fun heq => h.1 (heq ▸ List.mem_map_of_mem ha)
      rw [List.find?_cons_of_neg (by simpa using hne)]
      exact ih h.2 ha

/-- With distinct keys, an entry is the one looked up by its key. -/
lemma lookup_of_mem [BEq κ] [LawfulBEq κ] {β : Type} {entries : List (κ × β)} {k : κ} {b : β}
    (h : (entries.map Prod.fst).Nodup) (hmem : (k, b) ∈ entries) : entries.lookup k = some b := by
  induction entries with
  | nil => cases hmem
  | cons entry rest ih =>
    rw [List.map_cons, List.nodup_cons] at h
    rcases List.mem_cons.mp hmem with rfl | hrest
    · exact List.lookup_cons_self
    · have hne : k ≠ entry.1 := by
        rintro rfl
        exact h.1 (List.mem_map.mpr ⟨_, hrest, rfl⟩)
      rw [List.lookup_cons, beq_eq_false_iff_ne.mpr hne]
      exact ih h.2 hrest

/-- A table with distinct keys is determined by its rows and the order of their keys. -/
lemma eq_of_perm_of_map_eq {table' : List α} (h : (table.map key).Nodup) (hperm : table.Perm table')
    (hkeys : table.map key = table'.map key) : table = table' := by
  refine List.ext_getElem hperm.length_eq fun i hi hi' => ?_
  refine List.inj_on_of_nodup_map h (List.getElem_mem hi)
    (hperm.mem_iff.mpr (List.getElem_mem hi')) ?_
  have hget : (table.map key)[i]? = (table'.map key)[i]? := by rw [hkeys]
  rw [List.getElem?_map, List.getElem?_map, List.getElem?_eq_getElem hi,
    List.getElem?_eq_getElem hi'] at hget
  exact Option.some.inj hget

end Keys

section Linked

variable {α : Type} {ref r : Nat} {a : α} {table : List (Linked α)}

@[simp] lemma rowsOf_nil : rowsOf ref ([] : List (Linked α)) = [] := rfl

lemma rowsOf_append (t u : List (Linked α)) : rowsOf ref (t ++ u) = rowsOf ref t ++ rowsOf ref u := by
  simp [rowsOf]

lemma rowsOf_cons_self (t : List (Linked α)) :
    rowsOf ref (⟨ref, a⟩ :: t) = a :: rowsOf ref t := by
  simp [rowsOf]

lemma rowsOf_cons_other (h : r ≠ ref) (t : List (Linked α)) :
    rowsOf ref (⟨r, a⟩ :: t) = rowsOf ref t := by
  simp [rowsOf, h]

lemma mem_rowsOf : a ∈ rowsOf ref table ↔ ⟨ref, a⟩ ∈ table := by
  rw [rowsOf, List.mem_map]
  constructor
  · rintro ⟨l, hl, rfl⟩
    rw [List.mem_filter, decide_eq_true_eq] at hl
    obtain ⟨hmem, rfl⟩ := hl
    exact hmem
  · intro h
    exact ⟨⟨ref, a⟩, List.mem_filter.mpr ⟨h, by simp⟩, rfl⟩

/-- No row refers to a fresh id. -/
lemma rowsOf_eq_nil (h : ∀ l ∈ table, l.ref ≠ ref) : rowsOf ref table = [] := by
  rw [rowsOf, List.map_eq_nil_iff, List.filter_eq_nil_iff]
  intro l hl
  simpa using h l hl

lemma rowsOf_append_self : rowsOf ref (table ++ [⟨ref, a⟩]) = rowsOf ref table ++ [a] := by
  rw [rowsOf_append, rowsOf_cons_self, rowsOf_nil]

lemma rowsOf_append_other (h : r ≠ ref) : rowsOf ref (table ++ [⟨r, a⟩]) = rowsOf ref table := by
  rw [rowsOf_append, rowsOf_cons_other h, rowsOf_nil, List.append_nil]

/-- An insertion whose only conflicts are rows of the same reference, seen from there. -/
lemma rowsOf_insertUnless_self {q : α → Bool} (h : ∀ l ∈ table, q l.row = true → l.ref = ref) :
    rowsOf ref (insertUnless (fun l => q l.row) ⟨ref, a⟩ table) =
      insertUnless q a (rowsOf ref table) := by
  unfold insertUnless
  have hany : table.any (fun l => q l.row) = (rowsOf ref table).any q := by
    rw [Bool.eq_iff_iff, List.any_eq_true, List.any_eq_true]
    constructor
    · rintro ⟨⟨r, b⟩, hl, hq⟩
      obtain rfl := h _ hl hq
      exact ⟨b, mem_rowsOf.mpr hl, hq⟩
    · rintro ⟨b, hb, hq⟩
      exact ⟨_, mem_rowsOf.mp hb, hq⟩
  rw [hany]
  split
  · rfl
  · exact rowsOf_append_self

lemma rowsOf_insertUnless_other {q : Linked α → Bool} (h : r ≠ ref) :
    rowsOf ref (insertUnless q ⟨r, a⟩ table) = rowsOf ref table := by
  unfold insertUnless
  split
  · rfl
  · exact rowsOf_append_other h

lemma rowsOf_updateWhere_self {q : α → Bool} {g : α → α} :
    rowsOf ref (updateWhere (fun l => l.ref == ref && q l.row)
      (fun l => { l with row := g l.row }) table) = updateWhere q g (rowsOf ref table) := by
  induction table with
  | nil => rfl
  | cons l rest ih =>
    obtain ⟨r, b⟩ := l
    rw [updateWhere, List.map_cons]
    by_cases hr : r = ref
    · subst hr
      rw [rowsOf_cons_self, updateWhere, List.map_cons]
      by_cases hq : q b = true
      · simp only [beq_self_eq_true, Bool.true_and, hq, if_true]
        rw [rowsOf_cons_self]
        exact congrArg _ ih
      · simp only [beq_self_eq_true, Bool.true_and, hq]
        exact (rowsOf_cons_self _).trans (congrArg _ ih)
    · have hneg : (r == ref && q b) = false := by simp [hr]
      simp only [hneg]
      rw [rowsOf_cons_other hr]
      exact (rowsOf_cons_other hr _).trans ih

lemma rowsOf_updateWhere_other {p : Linked α → Bool} {f : Linked α → Linked α}
    (hp : ∀ l, p l = true → l.ref ≠ ref) (hf : ∀ l, (f l).ref = l.ref) :
    rowsOf ref (updateWhere p f table) = rowsOf ref table := by
  induction table with
  | nil => rfl
  | cons l rest ih =>
    rw [updateWhere, List.map_cons]
    obtain ⟨r, b⟩ := l
    by_cases hl : p ⟨r, b⟩ = true
    · have hr : r ≠ ref := hp _ hl
      have hfr : (f ⟨r, b⟩).ref ≠ ref := by rw [hf]; exact hr
      rw [if_pos hl, rowsOf_cons_other hr]
      exact (rowsOf_cons_other (a := (f ⟨r, b⟩).row) hfr _).trans ih
    · rw [if_neg hl]
      by_cases hr : r = ref
      · subst hr
        rw [rowsOf_cons_self, rowsOf_cons_self]
        exact congrArg _ ih
      · rw [rowsOf_cons_other hr, rowsOf_cons_other hr]
        exact ih

lemma any_linked {q : α → Bool} :
    table.any (fun l => l.ref == ref && q l.row) = (rowsOf ref table).any q := by
  rw [Bool.eq_iff_iff, List.any_eq_true, List.any_eq_true]
  constructor
  · rintro ⟨⟨r, b⟩, hl, hq⟩
    simp only [Bool.and_eq_true, beq_iff_eq] at hq
    obtain ⟨rfl, hq⟩ := hq
    exact ⟨b, mem_rowsOf.mpr hl, hq⟩
  · rintro ⟨b, hb, hq⟩
    exact ⟨_, mem_rowsOf.mp hb, by simp [hq]⟩

lemma rowsOf_upsertWhere_self {q : α → Bool} {g : α → α} :
    rowsOf ref (upsertWhere (fun l => l.ref == ref && q l.row)
      (fun l => { l with row := g l.row }) ⟨ref, a⟩ table) = upsertWhere q g a (rowsOf ref table) := by
  unfold upsertWhere
  rw [any_linked]
  split
  · exact rowsOf_updateWhere_self
  · exact rowsOf_append_self

lemma rowsOf_upsertWhere_other {q : α → Bool} {g : α → α} (h : r ≠ ref) :
    rowsOf ref (upsertWhere (fun l => l.ref == r && q l.row)
      (fun l => { l with row := g l.row }) ⟨r, a⟩ table) = rowsOf ref table := by
  unfold upsertWhere
  split
  · refine rowsOf_updateWhere_other (fun l hl => ?_) (fun l => rfl)
    simp only [Bool.and_eq_true, beq_iff_eq] at hl
    exact hl.1 ▸ h
  · exact rowsOf_append_other h

lemma rowsOf_filter_self {q : α → Bool} :
    rowsOf ref (table.filter fun l => !(l.ref == ref && q l.row)) =
      (rowsOf ref table).filter fun a => !q a := by
  rw [rowsOf, rowsOf, List.filter_map, List.filter_filter, List.filter_filter]
  congr 1
  apply List.filter_congr
  intro l _
  by_cases hr : l.ref = ref <;> simp [hr]

lemma rowsOf_filter_other {q : α → Bool} (h : r ≠ ref) :
    rowsOf ref (table.filter fun l => !(l.ref == r && q l.row)) = rowsOf ref table := by
  rw [rowsOf, rowsOf, List.filter_filter]
  congr 1
  apply List.filter_congr
  intro l _
  by_cases hr : l.ref = ref
  · simp [hr, h.symm]
  · simp [hr]

end Linked

section Sources

variable {α : Type} {source : α → String} {key : String} {r : Nat} {a : α}
  {table : List (Linked α)}

/-- The references of the rows with a given source. -/
def refsFrom (source : α → String) (key : String) (table : List (Linked α)) : List Nat :=
  (table.filter fun l => source l.row == key).map Linked.ref

lemma refsFrom_eq_nil (h : ∀ l ∈ table, source l.row ≠ key) : refsFrom source key table = [] := by
  rw [refsFrom, List.map_eq_nil_iff, List.filter_eq_nil_iff]
  intro l hl
  simpa using h l hl

/-- A row with the source is inserted when there is none. -/
lemma refsFrom_insertUnless_self (ha : source a = key) :
    refsFrom source key (insertUnless (fun l => source l.row == source a) ⟨r, a⟩ table) =
      if refsFrom source key table = [] then [r] else refsFrom source key table := by
  subst ha
  have hany : table.any (fun l => source l.row == source a) = true ↔
      refsFrom source (source a) table ≠ [] := by
    rw [refsFrom, ne_eq, List.map_eq_nil_iff, List.filter_eq_nil_iff, List.any_eq_true]
    simp
  unfold insertUnless
  by_cases h : table.any (fun l => source l.row == source a) = true
  · rw [if_pos h, if_neg (hany.mp h)]
  · have hnil : refsFrom source (source a) table = [] := by
      by_contra hne
      exact h (hany.mpr hne)
    rw [if_neg h, if_pos hnil]
    unfold refsFrom at hnil ⊢
    rw [List.filter_append, List.map_append, hnil]
    simp

lemma refsFrom_insertUnless_other {p : Linked α → Bool} (ha : source a ≠ key) :
    refsFrom source key (insertUnless p ⟨r, a⟩ table) = refsFrom source key table := by
  rw [refsFrom, filter_insertUnless (by simpa using ha), refsFrom]

lemma refsFrom_updateWhere {p : Linked α → Bool} {f : Linked α → Linked α}
    (hf : ∀ l, source (f l).row = source l.row ∧ (f l).ref = l.ref) :
    refsFrom source key (updateWhere p f table) = refsFrom source key table := by
  induction table with
  | nil => rfl
  | cons l rest ih =>
    have hl : source (if p l then f l else l).row = source l.row ∧
        (if p l then f l else l).ref = l.ref := by
      split
      · exact hf l
      · exact ⟨rfl, rfl⟩
    unfold refsFrom updateWhere at ih ⊢
    rw [List.map_cons, List.filter_cons, List.filter_cons, hl.1]
    split
    · rw [List.map_cons, List.map_cons, ih, hl.2]
    · exact ih

end Sources

section Permutations

variable {α : Type} {ref : Nat} {table table' : List (Linked α)} {ids ids' : List Nat}
  {ρ : Nat → Nat}

/-- The same row under another reference. -/
def Linked.relabel (ρ : Nat → Nat) (l : Linked α) : Linked α := { l with ref := ρ l.ref }

open Classical in
lemma count_rowsOf (l : Linked α) : table.count l = (rowsOf l.ref table).count l.row := by
  rw [rowsOf, List.count_eq_countP, List.count_eq_countP, List.countP_map, List.countP_filter]
  apply List.countP_congr
  intro l' _
  rcases l with ⟨r, a⟩
  rcases l' with ⟨r', a'⟩
  simp [and_comm]

/-- A table is determined, up to the order of its rows, by the rows of each reference. -/
theorem perm_of_rowsOf_eq (h : ∀ r, rowsOf r table = rowsOf r table') : table.Perm table' := by
  classical
  rw [List.perm_iff_count]
  intro l
  rw [count_rowsOf, count_rowsOf, h]

lemma rowsOf_relabel (hρ : Set.InjOn ρ {id | id ∈ ids}) (href : ref ∈ ids)
    (htable : ∀ l ∈ table, l.ref ∈ ids) :
    rowsOf (ρ ref) (table.map (Linked.relabel ρ)) = rowsOf ref table := by
  rw [rowsOf, rowsOf, List.filter_map, List.map_map]
  have hfilter : table.filter ((fun l => decide (l.ref = ρ ref)) ∘ Linked.relabel ρ) =
      table.filter fun l => decide (l.ref = ref) := by
    apply List.filter_congr
    intro l hl
    have hiff : ρ l.ref = ρ ref ↔ l.ref = ref :=
      ⟨fun h => hρ (htable l hl) href h, congrArg ρ⟩
    simp [Linked.relabel, hiff]
  rw [hfilter]
  rfl

/-- Two tables agree up to a renaming of their references when each reference has the rows of
its image. -/
theorem perm_relabel (hρ : Set.InjOn ρ {id | id ∈ ids}) (hids : ids' ⊆ ids.map ρ)
    (hmaps : ∀ id ∈ ids, ρ id ∈ ids') (htable : ∀ l ∈ table, l.ref ∈ ids)
    (htable' : ∀ l ∈ table', l.ref ∈ ids')
    (hrows : ∀ id ∈ ids, rowsOf id table = rowsOf (ρ id) table') :
    (table.map (Linked.relabel ρ)).Perm table' := by
  apply perm_of_rowsOf_eq
  intro r
  by_cases hr : r ∈ ids'
  · obtain ⟨id, hid, rfl⟩ := List.mem_map.mp (hids hr)
    rw [rowsOf_relabel hρ hid htable, hrows id hid]
  · have hnone : rowsOf r table' = [] := rowsOf_eq_nil fun l hl hlr => hr (hlr ▸ htable' l hl)
    rw [hnone]
    apply rowsOf_eq_nil
    intro l hl hlr
    obtain ⟨l', hl', rfl⟩ := List.mem_map.mp hl
    exact hr (hlr ▸ hmaps _ (htable l' hl'))

end Permutations

section Pairs

variable {α β : Type} {R : α → β → Prop} {p : α → Bool} {q : β → Bool} {f : α → α} {g : β → β}
  {row : α} {row' : β} {table : List α} {table' : List β}

/-- Updates of two tables that are related row by row. -/
lemma forall₂_updateWhere (h : List.Forall₂ R table table')
    (hrows : ∀ a b, R a b → R (if p a then f a else a) (if q b then g b else b)) :
    List.Forall₂ R (updateWhere p f table) (updateWhere q g table') := by
  rw [updateWhere, updateWhere, List.forall₂_map_left_iff, List.forall₂_map_right_iff]
  exact h.imp hrows

lemma any_eq_of_forall₂ (h : List.Forall₂ R table table') (hpq : ∀ a b, R a b → p a = q b) :
    table.any p = table'.any q := by
  induction h with
  | nil => rfl
  | cons hab _ ih => rw [List.any_cons, List.any_cons, hpq _ _ hab, ih]

lemma exists_mem_of_forall₂ (h : List.Forall₂ R table table') {a : α} (ha : a ∈ table) :
    ∃ b ∈ table', R a b := by
  induction h with
  | nil => cases ha
  | @cons a' b _ _ hab _ ih =>
    rcases List.mem_cons.mp ha with rfl | hrest
    · exact ⟨b, List.mem_cons_self, hab⟩
    · obtain ⟨b', hb', hR⟩ := ih hrest
      exact ⟨b', List.mem_cons_of_mem b hb', hR⟩

lemma forall₂_upsertWhere (h : List.Forall₂ R table table') (hpq : ∀ a b, R a b → p a = q b)
    (hfg : ∀ a b, R a b → R (f a) (g b)) (hrow : R row row') :
    List.Forall₂ R (upsertWhere p f row table) (upsertWhere q g row' table') := by
  unfold upsertWhere
  rw [any_eq_of_forall₂ h hpq]
  split
  · refine forall₂_updateWhere h fun a b hab => ?_
    rw [hpq a b hab]
    split
    · exact hfg a b hab
    · exact hab
  · exact List.rel_append h (.cons hrow .nil)

lemma find?_map_eq_of_forall₂ {γ : Type} {key : α → γ} {key' : β → γ}
    (h : List.Forall₂ R table table') (hpq : ∀ a b, R a b → p a = q b)
    (hkey : ∀ a b, R a b → key a = key' b) :
    (table.find? p).map key = (table'.find? q).map key' := by
  induction h with
  | nil => rfl
  | @cons a b _ _ hab _ ih =>
    rw [List.find?_cons, List.find?_cons, hpq a b hab]
    split
    · exact congrArg some (hkey a b hab)
    · exact ih

end Pairs

end TableData
