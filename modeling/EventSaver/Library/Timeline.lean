import EventSaver.Library.Table
import Mathlib.Data.List.Induction

/-!
# Timelines

Rows with a time and a value, read as a step function of time: in force at a time is the newest row
that is not later. A table that records only changes has the same step function and no two
neighbours with one value.
-/

namespace TableData

variable {α β : Type} (time : α → Int) (value : α → β)

/-- The row in force at a time. -/
def inForce (t : Int) (table : List α) : Option α := newest time (table.filter fun a => time a ≤ t)

/-- The last row before a time. -/
def before (t : Int) (table : List α) : Option α := newest time (table.filter fun a => time a < t)

/-- Rows in the order of time. -/
def inOrder (table : List α) : List α := table.insertionSort fun a b => time a ≤ time b

/-- A table shows the timeline of another one: it has the same step function, and no two neighbours
in the order of time have one value. -/
def ShowsTimeline (sub table : List α) : Prop :=
  (inOrder time sub).IsChain (fun a b => value a ≠ value b) ∧
    ∀ t, (inForce time t sub).map value = (inForce time t table).map value

section Records

variable [DecidableEq β]

/-- Whether a row differs in value from the row before it. -/
def isChange (table : List α) (row : α) : Bool :=
  (before time (time row) table).map value != some (value row)

/-- A table after a row has arrived, which is added when it differs from the newest. -/
def recordChange (table : List α) (row : α) : List α :=
  if (newest time table).map value != some (value row) then table ++ [row] else table

/-- The table that rows leave which arrive one after the other. -/
def recordChanges (rows : List α) : List α := rows.foldl (recordChange time value) []

end Records

section Newest

variable {time} {table table' : List α} {row a b : α} {t : Int}

/-- Rows with different times. -/
def DistinctTimes (time : α → Int) (table : List α) : Prop :=
  ∀ a ∈ table, ∀ b ∈ table, time a = time b → a = b

lemma DistinctTimes.subset (h : DistinctTimes time table) (hsub : table' ⊆ table) :
    DistinctTimes time table' :=
  fun a ha b hb hab => h a (hsub ha) b (hsub hb) hab

lemma newest_eq_some (h : DistinctTimes time table) :
    newest time table = some row ↔ row ∈ table ∧ ∀ a ∈ table, time a ≤ time row := by
  refine ⟨newest_spec, fun ⟨hmem, hle⟩ => ?_⟩
  cases hnewest : newest time table with
  | none =>
    rw [newest_eq_none.mp hnewest] at hmem
    cases hmem
  | some a =>
    obtain ⟨ha, hmax⟩ := newest_spec hnewest
    exact congrArg some (h a ha row hmem (le_antisymm (hle a ha) (hmax row hmem)))

lemma distinctTimes_of_sorted (h : table.Pairwise fun a b => time a < time b) :
    DistinctTimes time table := by
  have hforall := List.Pairwise.forall_of_forall_of_flip (R := fun a b => time a = time b → a = b)
    (fun a _ _ => rfl) (h.imp fun hlt htime => absurd htime hlt.ne)
    (h.imp fun hlt htime => absurd htime hlt.ne')
  exact fun a ha b hb => hforall ha hb

/-- The newest of rows with different times depends only on which rows there are. -/
lemma newest_congr (h : DistinctTimes time table) (hmem : ∀ a, a ∈ table ↔ a ∈ table') :
    newest time table = newest time table' := by
  cases hnewest : newest time table' with
  | none =>
    rw [newest_eq_none] at hnewest ⊢
    exact List.eq_nil_iff_forall_not_mem.mpr fun a ha => by
      rw [hmem, hnewest] at ha
      cases ha
  | some row =>
    obtain ⟨hrow, hle⟩ := newest_spec hnewest
    exact (newest_eq_some h).mpr ⟨(hmem row).mpr hrow, fun a ha => hle a ((hmem a).mp ha)⟩

lemma DistinctTimes.filter (h : DistinctTimes time table) (p : α → Bool) :
    DistinctTimes time (table.filter p) :=
  h.subset fun _ ha => List.mem_of_mem_filter ha

lemma inForce_eq_some (h : DistinctTimes time table) :
    inForce time t table = some row ↔
      (row ∈ table ∧ time row ≤ t) ∧ ∀ a ∈ table, time a ≤ t → time a ≤ time row := by
  rw [inForce, newest_eq_some (h.filter _)]
  simp only [List.mem_filter, decide_eq_true_eq, and_imp]

lemma before_eq_some (h : DistinctTimes time table) :
    before time t table = some row ↔
      (row ∈ table ∧ time row < t) ∧ ∀ a ∈ table, time a < t → time a ≤ time row := by
  rw [before, newest_eq_some (h.filter _)]
  simp only [List.mem_filter, decide_eq_true_eq, and_imp]

lemma inForce_eq_none : inForce time t table = none ↔ ∀ a ∈ table, t < time a := by
  simp [inForce, newest_eq_none, List.filter_eq_nil_iff]

lemma before_eq_none : before time t table = none ↔ ∀ a ∈ table, t ≤ time a := by
  simp [before, newest_eq_none, List.filter_eq_nil_iff]

end Newest

section Changes

variable {time} {value} {table sub : List α} {row p : α} {t : Int}

/-- Between a row and the one before it there is no other. -/
lemma before_eq_inForce (h : DistinctTimes time table) (hsub : sub ⊆ table)
    (hp : before time t table = some p) : before time t sub = inForce time (time p) sub := by
  obtain ⟨⟨_, hlt⟩, hmax⟩ := (before_eq_some h).mp hp
  have hsame : sub.filter (fun a => time a < t) = sub.filter fun a => time a ≤ time p := by
    refine List.filter_congr fun a ha => ?_
    rw [decide_eq_decide]
    exact ⟨hmax a (hsub ha), fun hle => hle.trans_lt hlt⟩
  rw [before, inForce, hsame]

/-- A row of the table that a part of it lacks is not in force there. -/
lemma inForce_eq_before (h : DistinctTimes time table) (hsub : sub ⊆ table) (hrow : row ∈ table)
    (hnot : row ∉ sub) : inForce time (time row) sub = before time (time row) sub := by
  have hsame : sub.filter (fun a => time a ≤ time row) = sub.filter fun a => time a < time row := by
    refine List.filter_congr fun a ha => ?_
    rw [decide_eq_decide]
    refine ⟨fun hle => lt_of_le_of_ne hle fun htime => hnot ?_, le_of_lt⟩
    exact h a (hsub ha) row hrow htime ▸ ha
  rw [inForce, before, hsame]

lemma inForce_self (h : DistinctTimes time table) (hrow : row ∈ table) :
    inForce time (time row) table = some row :=
  (inForce_eq_some h).mpr ⟨⟨hrow, le_rfl⟩, fun _ _ hle => hle⟩

/-- When a part of a table has its step function, both have the same value before a row. -/
lemma before_value_of_agrees (h : DistinctTimes time table) (hsub : sub ⊆ table)
    (hagrees : ∀ t, (inForce time t sub).map value = (inForce time t table).map value) :
    (before time t sub).map value = (before time t table).map value := by
  cases hp : before time t table with
  | none =>
    have hnone : before time t sub = none :=
      before_eq_none.mpr fun a ha => before_eq_none.mp hp a (hsub ha)
    rw [hnone]
  | some p =>
    have hmem := ((before_eq_some h).mp hp).1.1
    rw [before_eq_inForce h hsub hp, hagrees, inForce_self h hmem]

/-- The changes of a table have its step function. -/
lemma agrees_of_changes [DecidableEq β] (h : DistinctTimes time table) (hsub : sub ⊆ table)
    (hchanges : ∀ row ∈ table, row ∈ sub ↔ isChange time value table row = true) (t : Int) :
    (inForce time t sub).map value = (inForce time t table).map value := by
  have hsubDistinct := h.subset hsub
  generalize hn : (table.filter fun a => time a ≤ t).length = n
  induction n using Nat.strong_induction_on generalizing t with
  | _ n ih =>
    cases hrow : inForce time t table with
    | none =>
      have hnone : inForce time t sub = none :=
        inForce_eq_none.mpr fun a ha => inForce_eq_none.mp hrow a (hsub ha)
      rw [hnone]
    | some row =>
      obtain ⟨⟨hmem, hle⟩, hmax⟩ := (inForce_eq_some h).mp hrow
      by_cases hin : row ∈ sub
      · rw [(inForce_eq_some hsubDistinct).mpr ⟨⟨hin, hle⟩, fun a ha => hmax a (hsub ha)⟩]
      · have hsame : inForce time t sub = before time (time row) sub := by
          rw [← inForce_eq_before h hsub hmem hin, inForce, inForce]
          congr 1
          refine List.filter_congr fun a ha => ?_
          rw [decide_eq_decide]
          exact ⟨hmax a (hsub ha), fun hlea => hlea.trans hle⟩
        have hunchanged : (before time (time row) table).map value = some (value row) := by
          by_contra hchange
          exact hin ((hchanges row hmem).mpr (bne_iff_ne.mpr hchange))
        obtain ⟨p, hp, hvalue⟩ := Option.map_eq_some_iff.mp hunchanged
        obtain ⟨⟨hpmem, hplt⟩, hpmax⟩ := (before_eq_some h).mp hp
        have hshorter : (table.filter fun a => time a ≤ time p).length < n := by
          have hsub' : table.filter (fun a => time a ≤ time p) =
              (table.filter fun a => time a ≤ t).filter fun a => time a ≤ time p := by
            rw [List.filter_filter]
            refine List.filter_congr fun a _ => ?_
            rw [← Bool.decide_and, decide_eq_decide, iff_self_and]
            exact fun hlea => hlea.trans (hplt.le.trans hle)
          rw [hsub', ← hn, List.length_filter_lt_length_iff_exists]
          exact ⟨row, List.mem_filter.mpr ⟨hmem, decide_eq_true hle⟩, by simpa using hplt⟩
        rw [hsame, before_eq_inForce h hsub hp, ih _ hshorter (time p) rfl, inForce_self h hpmem]
        exact congrArg some hvalue

variable [DecidableEq β]

lemma isChange_head {a : α} (h : (a :: table).Pairwise fun a b => time a < time b) :
    isChange time value (a :: table) a = true := by
  have hnone : before time (time a) (a :: table) = none := by
    refine before_eq_none.mpr (List.forall_mem_cons.mpr ⟨le_rfl, fun b hb => ?_⟩)
    exact ((List.pairwise_cons.mp h).1 b hb).le
  rw [isChange, hnone]
  rfl

/-- In the order of time, no two neighbours have one value if every row is a change. -/
lemma isChain_iff (h : table.Pairwise fun a b => time a < time b) :
    table.IsChain (fun a b => value a ≠ value b) ↔
      ∀ row ∈ table, isChange time value table row = true := by
  induction table with
  | nil => simp
  | cons a rest ih =>
    obtain ⟨ha, hrest⟩ := List.pairwise_cons.mp h
    have hfirst : isChange time value (a :: rest) a = true := isChange_head h
    cases rest with
    | nil => simp [hfirst]
    | cons b rest =>
      have hb := ha b List.mem_cons_self
      have hdistinct := distinctTimes_of_sorted h
      have hsecond : isChange time value (a :: b :: rest) b = true ↔ value a ≠ value b := by
        have hbefore : before time (time b) (a :: b :: rest) = some a := by
          refine (before_eq_some hdistinct).mpr ⟨⟨List.mem_cons_self, hb⟩, fun c hc hlt => ?_⟩
          rcases List.mem_cons.mp hc with rfl | hc
          · exact le_rfl
          · rcases List.mem_cons.mp hc with rfl | hc
            · exact absurd hlt (lt_irrefl _)
            · exact absurd hlt ((List.pairwise_cons.mp hrest).1 c hc).asymm
        rw [isChange, hbefore, Option.map_some, bne_iff_ne, ne_eq, Option.some.injEq]
      have hlater : ∀ row ∈ rest, isChange time value (a :: b :: rest) row =
          isChange time value (b :: rest) row := by
        intro row hrow
        have hbrow := (List.pairwise_cons.mp hrest).1 row hrow
        have hdistinct' := distinctTimes_of_sorted hrest
        cases hp : before time (time row) (b :: rest) with
        | none =>
          exact absurd (before_eq_none.mp hp b List.mem_cons_self) (not_le.mpr hbrow)
        | some p =>
          obtain ⟨⟨hpmem, hplt⟩, hpmax⟩ := (before_eq_some hdistinct').mp hp
          have hbp := hpmax b List.mem_cons_self hbrow
          have hp' : before time (time row) (a :: b :: rest) = some p := by
            refine (before_eq_some hdistinct).mpr
              ⟨⟨List.mem_cons_of_mem a hpmem, hplt⟩, List.forall_mem_cons.mpr ⟨fun _ => ?_, hpmax⟩⟩
            exact (hb.trans_le hbp).le
          rw [isChange, isChange, hp, hp']
      have hbfirst : isChange time value (b :: rest) b = true := isChange_head hrest
      rw [List.isChain_cons_cons, ih hrest, List.forall_mem_cons, List.forall_mem_cons,
        List.forall_mem_cons, hsecond]
      constructor
      · rintro ⟨hne, _, hrows⟩
        exact ⟨hfirst, hne, fun row hrow => (hlater row hrow).trans (hrows row hrow)⟩
      · rintro ⟨_, hne, hrows⟩
        exact ⟨hne, hbfirst, fun row hrow => (hlater row hrow).symm.trans (hrows row hrow)⟩

lemma isChange_congr (h : DistinctTimes time table) (hmem : ∀ a, a ∈ table ↔ a ∈ sub) :
    isChange time value table row = isChange time value sub row := by
  have hbefore : before time (time row) table = before time (time row) sub :=
    newest_congr (h.filter _) fun a => by simp only [List.mem_filter, hmem]
  rw [isChange, isChange, hbefore]

/-- A part of a table shows its timeline if it holds the changes and nothing else. -/
theorem showsTimeline_iff (h : DistinctTimes time table) (hsub : sub ⊆ table) (hnodup : sub.Nodup) :
    ShowsTimeline time value sub table ↔
      ∀ row ∈ table, row ∈ sub ↔ isChange time value table row = true := by
  have hperm : (inOrder time sub).Perm sub := List.perm_insertionSort _ _
  have hmem (a : α) : a ∈ inOrder time sub ↔ a ∈ sub := hperm.mem_iff
  have hdistinct := h.subset hsub
  have hsorted : (inOrder time sub).Pairwise fun a b => time a < time b := by
    have hle : (inOrder time sub).Pairwise fun a b => time a ≤ time b :=
      List.pairwise_insertionSort _ _
    refine (hle.and (hperm.nodup_iff.mpr hnodup)).imp_of_mem fun {a b} ha hb hab => ?_
    refine lt_of_le_of_ne hab.1 fun htime => hab.2 ?_
    exact hdistinct a ((hmem a).mp ha) b ((hmem b).mp hb) htime
  have hchain : (inOrder time sub).IsChain (fun a b => value a ≠ value b) ↔
      ∀ row ∈ sub, isChange time value sub row = true := by
    rw [isChain_iff hsorted]
    refine ⟨fun hall row hrow => ?_, fun hall row hrow => ?_⟩
    · rw [isChange_congr hdistinct fun a => (hmem a).symm]
      exact hall row ((hmem row).mpr hrow)
    · rw [← isChange_congr hdistinct fun a => (hmem a).symm]
      exact hall row ((hmem row).mp hrow)
  have hsame (hagrees : ∀ t, (inForce time t sub).map value = (inForce time t table).map value)
      (row : α) : isChange time value sub row = isChange time value table row := by
    rw [isChange, isChange, before_value_of_agrees h hsub hagrees]
  rw [ShowsTimeline, hchain]
  constructor
  · rintro ⟨hall, hagrees⟩ row hrow
    refine ⟨fun hin => hsame hagrees row ▸ hall row hin, fun hchange => ?_⟩
    by_contra hnot
    have hvalue : (before time (time row) table).map value = some (value row) := by
      rw [← before_value_of_agrees h hsub hagrees, ← inForce_eq_before h hsub hrow hnot, hagrees,
        inForce_self h hrow]
      rfl
    rw [isChange, hvalue, bne_self_eq_false] at hchange
    cases hchange
  · intro hchanges
    have hagrees := agrees_of_changes h hsub hchanges
    exact ⟨fun row hrow => (hsame hagrees row).trans ((hchanges row (hsub hrow)).mp hrow), hagrees⟩

end Changes

section Arrivals

variable {time} {value} [DecidableEq β] {rows : List α}

lemma recordChanges_concat (l : List α) (row : α) :
    recordChanges time value (l ++ [row]) =
      recordChange time value (recordChanges time value l) row := by
  rw [recordChanges, List.foldl_append]
  rfl

variable (time value) in
/-- The rows that arrive later are added at the end, if at all. -/
lemma recordChanges_append (l r : List α) : ∃ added, added.Sublist r ∧
    recordChanges time value (l ++ r) = recordChanges time value l ++ added := by
  induction r using List.reverseRecOn with
  | nil => exact ⟨[], .slnil, by rw [List.append_nil, List.append_nil]⟩
  | append_singleton r row ih =>
    obtain ⟨added, hsublist, hrecord⟩ := ih
    rw [← List.append_assoc, recordChanges_concat, hrecord, recordChange]
    split
    · exact ⟨added ++ [row], hsublist.append_right [row], by rw [List.append_assoc]⟩
    · exact ⟨added, hsublist.trans (List.sublist_append_left r [row]), rfl⟩

variable (time value) in
lemma recordChanges_sublist (rows : List α) : (recordChanges time value rows).Sublist rows := by
  obtain ⟨added, hsublist, hrecord⟩ := recordChanges_append time value [] rows
  rw [List.nil_append] at hrecord
  rw [hrecord]
  exact hsublist

/-- A row that has arrived is recorded if it differed from the newest record. -/
lemma mem_recordChanges (hrows : rows.Nodup) {l r : List α} {row : α} (h : rows = l ++ row :: r) :
    (∀ a ∈ l, a ∈ recordChanges time value rows ↔ a ∈ recordChanges time value l) ∧
      (row ∈ recordChanges time value rows ↔
        (newest time (recordChanges time value l)).map value ≠ some (value row)) := by
  obtain ⟨added, hsublist, hrecord⟩ := recordChanges_append time value (l ++ [row]) r
  rw [List.append_assoc, List.singleton_append, ← h, recordChanges_concat] at hrecord
  rw [h, List.nodup_append'] at hrows
  obtain ⟨_, hright, hdisjoint⟩ := hrows
  have hl : recordChanges time value l ⊆ l := (recordChanges_sublist time value l).subset
  have hrowl : row ∉ recordChanges time value l := fun hin =>
    hdisjoint (hl hin) List.mem_cons_self
  have hrowAdded : row ∉ added := fun hin =>
    (List.nodup_cons.mp hright).1 (hsublist.subset hin)
  refine ⟨fun a ha => ?_, ?_⟩
  · have haAdded : a ∉ added := fun hin =>
      hdisjoint ha (List.mem_cons_of_mem row (hsublist.subset hin))
    have harow : a ≠ row := fun heq => hdisjoint ha (heq ▸ List.mem_cons_self)
    rw [hrecord, recordChange]
    split <;> simp [haAdded, harow]
  · rw [hrecord, recordChange]
    split
    · rename_i hdiffers
      simpa using bne_iff_ne.mp hdiffers
    · rename_i hsame
      simpa [hrowl, hrowAdded] using hsame

/-- A row that arrives is told from a repetition by the newest change that has arrived before it. -/
def InStep (time : α → Int) (value : α → β) (rows : List α) : Prop :=
  ∀ l row r, rows = l ++ row :: r → (isChange time value rows row = true ↔
    (newest time (l.filter (isChange time value rows))).map value ≠ some (value row))

/-- The table that arrivals leave shows the timeline of all of them if they arrive in step. -/
theorem recordChanges_showsTimeline_iff (h : DistinctTimes time rows) (hrows : rows.Nodup) :
    ShowsTimeline time value (recordChanges time value rows) rows ↔ InStep time value rows := by
  have hsublist := recordChanges_sublist time value rows
  rw [showsTimeline_iff h hsublist.subset (hsublist.nodup hrows)]
  constructor
  · rintro hchanges l row r hsplit
    obtain ⟨hl, hrow⟩ := @mem_recordChanges _ _ time value _ rows hrows l r row hsplit
    have hmem : row ∈ rows := hsplit ▸ List.mem_append_right l List.mem_cons_self
    have hrecords (a : α) : a ∈ recordChanges time value l ↔
        a ∈ l.filter (isChange time value rows) := by
      rw [List.mem_filter]
      refine ⟨fun hin => ?_, fun ⟨ha, hchange⟩ => ?_⟩
      · have ha := (recordChanges_sublist time value l).subset hin
        exact ⟨ha, (hchanges a (hsplit ▸ List.mem_append_left _ ha)).mp ((hl a ha).mpr hin)⟩
      · exact (hl a ha).mp ((hchanges a (hsplit ▸ List.mem_append_left _ ha)).mpr hchange)
    have hdistinct : DistinctTimes time (recordChanges time value l) := h.subset fun a hin =>
      hsplit ▸ List.mem_append_left _ ((recordChanges_sublist time value l).subset hin)
    rw [← hchanges row hmem, hrow, newest_congr hdistinct hrecords]
  · intro hsplits
    have hrecorded (l r : List α) (hsplit : rows = l ++ r) (a : α) :
        a ∈ recordChanges time value l ↔ a ∈ l ∧ isChange time value rows a = true := by
      induction l using List.reverseRecOn generalizing r a with
      | nil => simp [recordChanges]
      | append_singleton l row ih =>
        have hsplit' : rows = l ++ row :: r := by rw [hsplit, List.append_assoc]; rfl
        have hl := ih (row :: r) hsplit'
        have hdistinct : DistinctTimes time (recordChanges time value l) := h.subset fun a hin =>
          hsplit' ▸ List.mem_append_left _ ((recordChanges_sublist time value l).subset hin)
        have hnewest : newest time (recordChanges time value l) =
            newest time (l.filter (isChange time value rows)) :=
          newest_congr hdistinct fun a => by rw [hl, List.mem_filter]
        have hchange := hsplits l row r hsplit'
        rw [recordChanges_concat, recordChange, hnewest]
        split
        · rename_i hdiffers
          rw [List.mem_append, List.mem_append, hl, List.mem_singleton, or_and_right]
          refine or_congr_right ⟨fun ha => ⟨ha, ?_⟩, And.left⟩
          rw [ha]
          exact hchange.mpr (bne_iff_ne.mp hdiffers)
        · rename_i hsame
          rw [List.mem_append, hl, List.mem_singleton, or_and_right]
          refine ⟨.inl, fun hor => hor.resolve_right fun ⟨ha, hin⟩ => ?_⟩
          rw [ha] at hin
          exact hsame (bne_iff_ne.mpr (hchange.mp hin))
    intro row hrow
    rw [hrecorded rows [] (List.append_nil rows).symm row]
    exact ⟨And.right, fun hchange => ⟨hrow, hchange⟩⟩

/-- Rows that arrive in the order of time do so in step. -/
theorem inStep_of_sorted (h : rows.Pairwise fun a b => time a < time b) : InStep time value rows := by
  intro l row r hsplit
  have hrows := h
  rw [hsplit, List.pairwise_append, List.pairwise_cons] at hrows
  obtain ⟨hl, ⟨hr, _⟩, hlr⟩ := hrows
  have hrow (a : α) (ha : a ∈ l) : time a < time row := hlr a ha row List.mem_cons_self
  have hfilter (t : Int) (ht : t ≤ time row) :
      rows.filter (fun a => time a < t) = l.filter fun a => time a < t := by
    have hlater : (row :: r).filter (fun a => time a < t) = [] := by
      refine List.filter_eq_nil_iff.mpr (List.forall_mem_cons.mpr ⟨?_, fun b hb => ?_⟩)
      · simpa using ht
      · simpa using ht.trans (hr b hb).le
    rw [hsplit, List.filter_append, hlater, List.append_nil]
  have hchanges : l.filter (isChange time value rows) = l.filter (isChange time value l) := by
    refine List.filter_congr fun a ha => ?_
    rw [isChange, isChange, before, before, hfilter (time a) (hrow a ha).le]
  have hbefore : before time (time row) rows = newest time l := by
    rw [before, hfilter _ le_rfl, List.filter_eq_self.mpr fun a ha => decide_eq_true (hrow a ha)]
  have hagrees := @agrees_of_changes _ _ time value l (l.filter (isChange time value l)) _
    (distinctTimes_of_sorted hl) (List.filter_subset_self l)
    (fun a ha => by rw [List.mem_filter, and_iff_right ha]) (time row)
  have hall {table : List α} (hsub : table ⊆ l) : inForce time (time row) table = newest time table := by
    rw [inForce, List.filter_eq_self.mpr fun a ha => decide_eq_true (hrow a (hsub ha)).le]
  rw [hall (List.filter_subset_self l), hall fun a ha => ha] at hagrees
  rw [isChange, hbefore, hchanges, hagrees, bne_iff_ne]

/-- Where no value comes back, rows arrive in step if every repetition arrives after the change that
it repeats and before all later changes. -/
theorem inStep_iff_of_never_back (h : DistinctTimes time rows) (hrows : rows.Nodup)
    (hback : ∀ a ∈ rows, ∀ b ∈ rows, isChange time value rows a = true →
      isChange time value rows b = true → value a = value b → a = b) :
    InStep time value rows ↔
      ∀ l row r, rows = l ++ row :: r → isChange time value rows row = false →
        ∃ c ∈ l, isChange time value rows c = true ∧ value c = value row ∧
          ∀ a ∈ l, isChange time value rows a = true → time a ≤ time c := by
  refine forall₄_congr fun l row r hsplit => ?_
  have hl : l ⊆ rows := hsplit ▸ List.subset_append_left _ _
  have hmem : row ∈ rows := hsplit ▸ List.mem_append_right l List.mem_cons_self
  have hnewest (c : α) : newest time (l.filter (isChange time value rows)) = some c ↔
      (c ∈ l ∧ isChange time value rows c = true) ∧
        ∀ a ∈ l, isChange time value rows a = true → time a ≤ time c := by
    rw [newest_eq_some ((h.subset hl).filter _)]
    simp only [List.mem_filter, and_imp]
  cases hchange : isChange time value rows row with
  | false =>
    simp only [Bool.false_eq_true, false_iff, not_not, forall_const, Option.map_eq_some_iff, hnewest]
    exact exists_congr fun c => by tauto
  | true =>
    simp only [true_iff, Bool.true_eq_false, false_imp_iff, iff_true]
    intro hvalue
    obtain ⟨c, hc, hsame⟩ := Option.map_eq_some_iff.mp hvalue
    obtain ⟨⟨hcl, hcchange⟩, _⟩ := (hnewest c).mp hc
    obtain rfl := hback c (hl hcl) row hmem hcchange hchange hsame
    rw [hsplit, List.nodup_append'] at hrows
    exact hrows.2.2 hcl List.mem_cons_self

end Arrivals

end TableData
