import EventSaver.BackfillRunner

/-!
# What the backfill converges to

A row with an empty column for which no user is found stays in the windows of all cycles. A column
is filled in the end exactly if a user is found for it and fewer such rows lie before it than fit
into one window. Every state of a run lies between the state it starts from and this limit.
-/

namespace EventSaver
open JsonData TableData EffectProgram Descent

section Limit

variable (ext : Externals) (resolve : String → RecipientRole → Option Uuid) (batchSize : Nat)
  (db : Db)

/-- Whether no user is found for an empty column of a row. -/
def Db.unresolvable (b : BookingRow) : Bool :=
  [.organizer, .client].any fun role =>
    b.userId role == none && (foundUserId ext resolve db.tables.events b.bookingUid role).isNone

/-- The number of rows before a row that no cycle completes. -/
def Db.blockers (b : BookingRow) : Nat :=
  db.tables.bookings.countP fun c => db.unresolvable ext resolve c && decide (c.id < b.id)

/-- A row as the cycles leave it in the end. -/
def Db.limitRow (b : BookingRow) : BookingRow :=
  if db.blockers ext resolve b < batchSize then
    { b with
      organizerUserId :=
        b.organizerUserId.or (foundUserId ext resolve db.tables.events b.bookingUid .organizer)
      clientUserId :=
        b.clientUserId.or (foundUserId ext resolve db.tables.events b.bookingUid .client) }
  else b

def Db.limit : Db :=
  { db with tables.bookings := db.tables.bookings.map (db.limitRow ext resolve batchSize) }

/-- A state between a first one and its limit, with the rows that its rows have come from. -/
structure BetweenBy (f : BookingRow → BookingRow) (db' : Db) : Prop where
  state : db' = { db with tables.bookings := db.tables.bookings.map f }
  fills : ∀ b ∈ db.tables.bookings, (f b).FillsNulls b
  below : ∀ b ∈ db.tables.bookings, (db.limitRow ext resolve batchSize b).FillsNulls (f b)

def Between (db' : Db) : Prop := ∃ f, BetweenBy ext resolve batchSize db f db'

end Limit

/-- The number of NULL participant columns of a row. -/
def BookingRow.emptyColumns (b : BookingRow) : Nat :=
  (b.userId .organizer).isNone.toNat + (b.userId .client).isNone.toNat

def Db.emptyColumns (db : Db) : Nat := (db.tables.bookings.map BookingRow.emptyColumns).sum

namespace BookingRow.FillsNulls

variable {a b c : BookingRow}

lemma refl (b : BookingRow) : b.FillsNulls b := ⟨rfl, fun _ _ h => h⟩

lemma id_eq (h : a.FillsNulls b) : a.id = b.id := by rw [h.columns]

lemma bookingUid_eq (h : a.FillsNulls b) : a.bookingUid = b.bookingUid := by rw [h.columns]

/-- An empty column was empty before. -/
lemma empty_before (h : a.FillsNulls b) {role : RecipientRole} (hnull : a.userId role = none) :
    b.userId role = none := by
  cases hb : b.userId role with
  | none => rfl
  | some u =>
    rw [h.kept role u hb] at hnull
    cases hnull

lemma of_columns (ha : a.FillsNulls b) (hc : c.FillsNulls b)
    (hkept : ∀ role u, a.userId role = some u → c.userId role = some u) : c.FillsNulls a := by
  refine ⟨?_, hkept⟩
  rw [hc.columns, ha.columns]

lemma eq_of_columns (h : a.FillsNulls b) (heq : ∀ role, a.userId role = b.userId role) :
    a = b := by
  have horganizer : a.organizerUserId = b.organizerUserId := heq .organizer
  have hclient : a.clientUserId = b.clientUserId := heq .client
  rw [h.columns, horganizer, hclient]

lemma isNone_le (h : a.FillsNulls b) (role : RecipientRole) :
    (a.userId role).isNone.toNat ≤ (b.userId role).isNone.toNat := by
  cases hnull : a.userId role with
  | some u => exact Nat.zero_le _
  | none => rw [h.empty_before hnull]

lemma emptyColumns_le (h : a.FillsNulls b) : a.emptyColumns ≤ b.emptyColumns :=
  Nat.add_le_add (h.isNone_le .organizer) (h.isNone_le .client)

/-- A row with as many empty columns is the same. -/
lemma eq_of_emptyColumns (h : a.FillsNulls b) (hle : b.emptyColumns ≤ a.emptyColumns) :
    a = b := by
  have horganizer := h.isNone_le .organizer
  have hclient := h.isNone_le .client
  unfold emptyColumns at hle
  have hsame (role : RecipientRole) :
      (b.userId role).isNone.toNat ≤ (a.userId role).isNone.toNat := by
    cases role <;> omega
  refine h.eq_of_columns fun role => ?_
  cases hb : b.userId role with
  | some u => exact h.kept role u hb
  | none =>
    have hnone := hsame role
    rw [hb] at hnone
    cases ha : a.userId role with
    | none => rfl
    | some u =>
      rw [ha] at hnone
      exact absurd hnone (Nat.not_succ_le_zero 0)

end BookingRow.FillsNulls

section Bounds

variable {ext : Externals} {resolve : String → RecipientRole → Option Uuid} {batchSize : Nat}
  {db db' : Db} {f : BookingRow → BookingRow} {b : BookingRow}

lemma Db.limitRow_userId (role : RecipientRole) :
    (db.limitRow ext resolve batchSize b).userId role =
      (b.userId role).or
        (if db.blockers ext resolve b < batchSize then
          foundUserId ext resolve db.tables.events b.bookingUid role
        else none) := by
  unfold Db.limitRow
  split
  · cases role <;> rfl
  · rw [Option.or_none]

lemma Db.limitRow_fillsNulls : (db.limitRow ext resolve batchSize b).FillsNulls b := by
  refine ⟨?_, fun role u hu => ?_⟩
  · unfold Db.limitRow
    split <;> rfl
  · rw [Db.limitRow_userId, hu]
    rfl

lemma Between.refl (db : Db) : Between ext resolve batchSize db db :=
  ⟨id, by rw [List.map_id], fun b _ => .refl b, fun _ _ => Db.limitRow_fillsNulls⟩

/-- An empty column for which no user is found stays empty. -/
lemma empty_of_unresolvable (hlimit : (db.limitRow ext resolve batchSize b).FillsNulls (f b))
    {role : RecipientRole} (hnull : b.userId role = none)
    (hfound : foundUserId ext resolve db.tables.events b.bookingUid role = none) :
    (f b).userId role = none := by
  refine hlimit.empty_before ?_
  rw [Db.limitRow_userId, hnull, hfound]
  split <;> rfl

lemma Db.unresolvable_iff : db.unresolvable ext resolve b = true ↔
    ∃ role, b.userId role = none ∧
      foundUserId ext resolve db.tables.events b.bookingUid role = none := by
  rw [Db.unresolvable, List.any_eq_true]
  constructor
  · rintro ⟨role, _, hrole⟩
    rw [Bool.and_eq_true, beq_iff_eq, Option.isNone_iff_eq_none] at hrole
    exact ⟨role, hrole⟩
  · rintro ⟨role, hrole⟩
    refine ⟨role, by cases role <;> decide, ?_⟩
    rwa [Bool.and_eq_true, beq_iff_eq, Option.isNone_iff_eq_none]

lemma Booking.incomplete_iff {b : Booking} :
    b.incomplete = true ↔ ∃ role, b.userId role = none := by
  rw [Booking.incomplete, Bool.or_eq_true, beq_iff_eq, beq_iff_eq]
  constructor
  · rintro (h | h)
    · exact ⟨.organizer, h⟩
    · exact ⟨.client, h⟩
  · rintro ⟨role, h⟩
    cases role with
    | organizer => exact .inl h
    | client => exact .inr h

variable (batchSize) in
/-- The rows a window holds. -/
lemma countP_window (hids : (db.tables.bookings.map (·.id)).Nodup) :
    db.tables.bookings.countP (fun b => b.incomplete && decide
      (db.tables.bookings.countP (fun c => c.incomplete && decide (c.id < b.id)) < batchSize)) =
        min batchSize (db.tables.bookings.countP fun b => b.incomplete) := by
  have hnodup := hids.of_map
  have hwindow : (selectCandidates db.tables.bookings batchSize).Nodup := by
    refine List.Nodup.sublist (List.take_sublist _ _) ?_
    exact (List.perm_insertionSort _ _).nodup_iff.mpr (hnodup.filter _)
  rw [← length_selectCandidates, List.countP_eq_length_filter]
  refine List.Perm.length_eq ((List.perm_ext_iff_of_nodup (hnodup.filter _) hwindow).mpr ?_)
  intro b
  rw [mem_selectCandidates hids, List.mem_filter, Bool.and_eq_true, decide_eq_true_eq]

namespace BetweenBy

lemma bookings (h : BetweenBy ext resolve batchSize db f db') :
    db'.tables.bookings = db.tables.bookings.map f := by rw [h.state]

lemma events (h : BetweenBy ext resolve batchSize db f db') :
    db'.tables.events = db.tables.events := by rw [h.state]

lemma nodup_ids (h : BetweenBy ext resolve batchSize db f db')
    (hids : (db.tables.bookings.map (·.id)).Nodup) :
    (db'.tables.bookings.map (·.id)).Nodup := by
  have hsame : (db.tables.bookings.map f).map (·.id) = db.tables.bookings.map (·.id) := by
    rw [List.map_map]
    exact List.map_congr_left fun b hb => (h.fills b hb).id_eq
  rwa [h.bookings, hsame]

/-- The rows that no cycle completes are incomplete in every state on the way. -/
lemma blockers_le (h : BetweenBy ext resolve batchSize db f db') (hb : b ∈ db.tables.bookings) :
    db.blockers ext resolve b ≤ db'.tables.bookings.countP fun c =>
      c.incomplete && decide (c.id < (f b).id) := by
  rw [h.bookings, List.countP_map, Db.blockers]
  refine List.countP_mono_left fun c hc hblocks => ?_
  rw [Bool.and_eq_true, Db.unresolvable_iff, decide_eq_true_eq] at hblocks
  obtain ⟨⟨role, hnull, hfound⟩, hlt⟩ := hblocks
  rw [Function.comp_apply, Bool.and_eq_true, Booking.incomplete_iff, decide_eq_true_eq,
    (h.fills c hc).id_eq, (h.fills b hb).id_eq]
  exact ⟨⟨role, empty_of_unresolvable (h.below c hc) hnull hfound⟩, hlt⟩

/-- Slots of one window, completed in a state on the way, lead to a state on the way. -/
lemma visitAll {done : List (Candidate × RecipientRole)}
    (h : BetweenBy ext resolve batchSize db f db') (hids : (db.tables.bookings.map (·.id)).Nodup)
    (hdone : ∀ slot ∈ done, slot ∈ cycleSlots batchSize db') :
    BetweenBy ext resolve batchSize db
      (fun b => done.foldl (visitRow ext resolve db'.tables.events) (f b))
      (visitAll ext resolve done db') := by
  have hnext (b : BookingRow) := @foldl_visitRow_fillsNulls ext resolve db'.tables.events done b
  refine ⟨?_, fun b hb => (hnext (f b)).trans (h.fills b hb), fun b hb => ?_⟩
  · rw [EventSaver.visitAll, h.bookings, List.map_map, h.state]
    rfl
  · have hfills := h.fills b hb
    refine ((hnext (f b)).trans hfills).of_columns Db.limitRow_fillsNulls fun role u hu => ?_
    cases hf : (f b).userId role with
    | some v =>
      rw [(hnext (f b)).kept role v hf] at hu
      rw [← hu]
      exact (h.below b hb).kept role v hf
    | none =>
      -- The column is filled now: its row is in the window, so few rows block it.
      have hmem : f b ∈ db'.tables.bookings := by
        rw [h.bookings]
        exact List.mem_map_of_mem hb
      obtain ⟨hslot, hfound⟩ :=
        (foldl_visitRow_eq_some_iff hdone (h.nodup_ids hids) hmem hf).mp hu
      obtain ⟨c, hc, hcandidate, _, hrank⟩ :=
        (mem_cycleSlots_iff (h.nodup_ids hids)).mp (hdone _ hslot)
      have hid : c.id = (f b).id := congrArg Candidate.id hcandidate
      rw [hid] at hrank
      rw [h.events, hfills.bookingUid_eq] at hfound
      rw [Db.limitRow_userId, hfills.empty_before hf, Option.none_or,
        if_pos ((h.blockers_le hb).trans_lt hrank), hfound]

/-- Where a cycle changes nothing, an incomplete row outside the window is blocked. -/
lemma le_blockers_of_idle (h : BetweenBy ext resolve batchSize db f db')
    (hids : (db.tables.bookings.map (·.id)).Nodup)
    (hidle : ∀ c ∈ selectCandidates db'.tables.bookings batchSize, ¬db'.Fillable ext resolve c)
    (hb : b ∈ db.tables.bookings)
    (hrank : batchSize ≤ db'.tables.bookings.countP fun c =>
      c.incomplete && decide (c.id < (f b).id)) :
    batchSize ≤ db.blockers ext resolve b := by
  have hall : batchSize ≤ db'.tables.bookings.countP fun c => c.incomplete :=
    hrank.trans (List.countP_mono_left fun c _ hc => (Bool.and_eq_true_iff.mp hc).1)
  have hwindow := countP_window batchSize (h.nodup_ids hids)
  rw [Nat.min_eq_left hall] at hwindow
  rw [Db.blockers]
  refine hwindow.ge.trans ?_
  conv_lhs => rw [h.bookings, List.countP_map]
  refine List.countP_mono_left fun c hc hin => ?_
  rw [Function.comp_apply, Bool.and_eq_true, decide_eq_true_eq, ← h.bookings] at hin
  obtain ⟨hincomplete, hless⟩ := hin
  have hmem : f c ∈ db'.tables.bookings := by
    rw [h.bookings]
    exact List.mem_map_of_mem hc
  have hidlec := hidle (f c) ((mem_selectCandidates (h.nodup_ids hids)).mpr
    ⟨hmem, hincomplete, hless⟩)
  rw [Bool.and_eq_true, Db.unresolvable_iff, decide_eq_true_eq]
  constructor
  · obtain ⟨role, hnull⟩ := Booking.incomplete_iff.mp hincomplete
    refine ⟨role, (h.fills c hc).empty_before hnull, ?_⟩
    rw [Option.eq_none_iff_forall_ne_some]
    intro u hu
    obtain ⟨email, hemail, hresolve⟩ := foundUserId_eq_some.mp hu
    rw [← h.events, ← (h.fills c hc).bookingUid_eq] at hemail
    exact hidlec ⟨role, hnull, email, u, hemail, hresolve⟩
  · -- A row that is not before `b` has at least as many incomplete rows before it.
    by_contra hle
    have hmono : (db'.tables.bookings.countP fun d => d.incomplete && decide (d.id < (f b).id)) ≤
        db'.tables.bookings.countP fun d => d.incomplete && decide (d.id < (f c).id) := by
      refine List.countP_mono_left fun d _ hd => ?_
      rw [Bool.and_eq_true, decide_eq_true_eq] at hd ⊢
      rw [(h.fills b hb).id_eq] at hd
      rw [(h.fills c hc).id_eq]
      exact ⟨hd.1, by omega⟩
    omega

/-- A state on the way in which a cycle changes nothing is the limit. -/
lemma eq_limit_of_idle (h : BetweenBy ext resolve batchSize db f db')
    (hids : (db.tables.bookings.map (·.id)).Nodup)
    (hidle : ∀ c ∈ selectCandidates db'.tables.bookings batchSize, ¬db'.Fillable ext resolve c) :
    db' = db.limit ext resolve batchSize := by
  have hrows : db.tables.bookings.map f =
      db.tables.bookings.map (db.limitRow ext resolve batchSize) := by
    refine List.map_congr_left fun b hb => ((h.below b hb).eq_of_columns fun role => ?_).symm
    cases hf : (f b).userId role with
    | some u => exact (h.below b hb).kept role u hf
    | none =>
      have hnull := (h.fills b hb).empty_before hf
      rw [Db.limitRow_userId, hnull, Option.none_or]
      split
      · rename_i hfew
        rw [Option.eq_none_iff_forall_ne_some]
        intro u hu
        have hmem : f b ∈ db'.tables.bookings := by
          rw [h.bookings]
          exact List.mem_map_of_mem hb
        have hrank : (db'.tables.bookings.countP fun c =>
            c.incomplete && decide (c.id < (f b).id)) < batchSize := by
          by_contra hmany
          exact hfew.not_ge (h.le_blockers_of_idle hids hidle hb (not_lt.mp hmany))
        obtain ⟨email, hemail, hresolve⟩ := foundUserId_eq_some.mp hu
        rw [← h.events, ← (h.fills b hb).bookingUid_eq] at hemail
        have hfill : db'.Fillable ext resolve (f b) := ⟨role, hf, email, u, hemail, hresolve⟩
        exact hidle (f b) ((mem_selectCandidates (h.nodup_ids hids)).mpr
          ⟨hmem, hfill.incomplete, hrank⟩) hfill
      · rfl
  rw [h.state, hrows, Db.limit]

end BetweenBy

/-- Rows that fill others have as few empty columns, and are the same if they have as many. -/
lemma sum_emptyColumns {f g : BookingRow → BookingRow} {rows : List BookingRow}
    (h : ∀ b ∈ rows, (g b).FillsNulls (f b)) :
    ((rows.map g).map BookingRow.emptyColumns).sum ≤
        ((rows.map f).map BookingRow.emptyColumns).sum ∧
      (((rows.map f).map BookingRow.emptyColumns).sum ≤
          ((rows.map g).map BookingRow.emptyColumns).sum → rows.map g = rows.map f) := by
  induction rows with
  | nil => exact ⟨le_rfl, fun _ => rfl⟩
  | cons b rest ih =>
    rw [List.forall_mem_cons] at h
    obtain ⟨hle, heq⟩ := ih h.2
    have hb := h.1.emptyColumns_le
    simp only [List.map_cons, List.sum_cons]
    refine ⟨Nat.add_le_add hb hle, fun hge => ?_⟩
    rw [h.1.eq_of_emptyColumns (by omega), heq (by omega)]

variable (ext resolve batchSize) in
/-- Every cycle keeps a state between the first one and the limit, and an undisturbed one fills a
column if one is left. -/
lemma cycles_descend (hids : (db.tables.bookings.map (·.id)).Nodup) :
    Descends (UserIdBackfillRunner.runCycle ext batchSize) (Between ext resolve batchSize db)
      (fun db' => db'.emptyColumns - (db.limit ext resolve batchSize).emptyColumns)
      (fun c => c.Answers resolve) (fun c => c.Undisturbed resolve) 1 where
  inv db' c hanswers hdb' := by
    obtain ⟨f, h⟩ := hdb'
    obtain ⟨done, hdone, hcycle⟩ := runCycle_eq_visitAll ext batchSize hanswers db'
    rw [hcycle]
    exact ⟨_, h.visitAll hids fun slot hslot => hdone.subset hslot⟩
  le db' c hanswers hdb' := by
    obtain ⟨done, _, hcycle⟩ := runCycle_eq_visitAll ext batchSize hanswers db'
    have hle := (sum_emptyColumns (f := id) fun b (_ : b ∈ db'.tables.bookings) =>
      @foldl_visitRow_fillsNulls ext resolve db'.tables.events done b).1
    rw [List.map_id] at hle
    rw [hcycle]
    exact Nat.sub_le_sub_right hle _
  lowers db' c _ hundisturbed hdb' := by
    obtain ⟨f, h⟩ := hdb'
    rw [runCycle_undisturbed hundisturbed]
    by_cases hidle : (visitAll ext resolve (cycleSlots batchSize db') db').tables.bookings =
        db'.tables.bookings
    · have hlimit := h.eq_limit_of_idle hids (visitAll_idle.mp hidle)
      have hsame : (visitAll ext resolve (cycleSlots batchSize db') db').emptyColumns =
          db'.emptyColumns := by
        rw [Db.emptyColumns, hidle, Db.emptyColumns]
      rw [hsame, hlimit]
      omega
    · have hchanges := (sum_emptyColumns (f := id) fun b (_ : b ∈ db'.tables.bookings) =>
        @foldl_visitRow_fillsNulls ext resolve db'.tables.events (cycleSlots batchSize db') b).2
      rw [List.map_id] at hchanges
      have hlt : (visitAll ext resolve (cycleSlots batchSize db') db').emptyColumns <
          db'.emptyColumns := by
        by_contra hge
        exact hidle (hchanges (not_lt.mp hge))
      omega

/-- A state between the first one and the limit that is not the limit has more empty columns. -/
lemma Between.eq_limit (h : Between ext resolve batchSize db db')
    (hle : db'.emptyColumns ≤ (db.limit ext resolve batchSize).emptyColumns) :
    db' = db.limit ext resolve batchSize := by
  obtain ⟨f, h⟩ := h
  have heq := (sum_emptyColumns h.below).2
  rw [Db.emptyColumns, h.bookings] at hle
  rw [h.state, ← heq hle, Db.limit]

end Bounds

/-- Whatever the order of starts, stops, outages and failures, the bookings stay between the first
state and its limit, and they reach the limit by as many undisturbed cycles as columns are to be
filled. -/
theorem backfill_converges (ext : Externals) (resolve : String → RecipientRole → Option Uuid)
    (batchSize : Nat) (db : Db) (hids : (db.tables.bookings.map (·.id)).Nodup)
    (runner : UserIdBackfillRunner) (steps : List RunnerStep)
    (hanswers : ∀ c ∈ UserIdBackfillRunner.cycles steps runner, c.Answers resolve) :
    Between ext resolve batchSize db (UserIdBackfillRunner.run ext batchSize steps runner db).2 ∧
      ∀ undisturbed : List CycleAttempt,
        undisturbed.Sublist (UserIdBackfillRunner.cycles steps runner) →
        (∀ c ∈ undisturbed, c.Undisturbed resolve) →
        db.emptyColumns ≤
          (db.limit ext resolve batchSize).emptyColumns + undisturbed.length →
        (UserIdBackfillRunner.run ext batchSize steps runner db).2 =
          db.limit ext resolve batchSize := by
  have hdescends := cycles_descend ext resolve batchSize hids
  have hbetween := hdescends.foldl_inv hanswers (Between.refl db)
  rw [UserIdBackfillRunner.run_db]
  refine ⟨hbetween, fun undisturbed hsub hundisturbed henough => hbetween.eq_limit ?_⟩
  have hzero := hdescends.foldl_eq_zero hsub hanswers hundisturbed (Between.refl db) (by omega)
  omega

/-- A cycle whose resolver always gives one user. -/
def answeredCycle : CycleAttempt := ⟨answering fun _ _ => some ⟨10⟩, .none⟩

/-- A run with an outage and a cancellation before its last cycles. -/
def interruptedRun (n : Nat) : List RunnerStep :=
  [.start, .cycle { answeredCycle with resolver := fun _ _ _ => .ok .unavailable },
    .stop (some { answeredCycle with fault := .before 2 (.other "CancelledError") }), .start] ++
    List.replicate n (.cycle answeredCycle)

lemma cycles_interruptedRun (n : Nat) :
    UserIdBackfillRunner.cycles (interruptedRun n) ⟨true, false⟩ =
      [{ answeredCycle with resolver := fun _ _ _ => .ok .unavailable },
        { answeredCycle with fault := .before 2 (.other "CancelledError") }] ++
          List.replicate n answeredCycle := by
  have hcycles : UserIdBackfillRunner.cycles (List.replicate n (.cycle answeredCycle))
      ⟨true, true⟩ = List.replicate n answeredCycle := by
    induction n with
    | zero => rfl
    | succ n ih => exact congrArg (answeredCycle :: ·) ih
  rw [← hcycles]
  rfl

lemma interruptedRun_answers (n : Nat) :
    ∀ c ∈ UserIdBackfillRunner.cycles (interruptedRun n) ⟨true, false⟩,
      c.Answers fun _ _ => some ⟨10⟩ := by
  rw [cycles_interruptedRun]
  intro c hc i email role userId hanswer
  simp only [List.cons_append, List.nil_append, List.mem_cons, List.mem_replicate] at hc
  rcases hc with rfl | rfl | ⟨_, rfl⟩ <;> cases hanswer <;> rfl

lemma interruptedRun_undisturbed (n : Nat) :
    (List.replicate n answeredCycle).Sublist
        (UserIdBackfillRunner.cycles (interruptedRun n) ⟨true, false⟩) ∧
      ∀ c ∈ List.replicate n answeredCycle, c.Undisturbed fun _ _ => some ⟨10⟩ := by
  rw [cycles_interruptedRun]
  refine ⟨List.sublist_append_right _ _, fun c hc => ?_⟩
  rw [(List.mem_replicate.mp hc).2]
  exact ⟨rfl, rfl⟩

theorem backfill_converges_interruptedRun :
    (UserIdBackfillRunner.run .sample 2 (interruptedRun 1) ⟨true, false⟩ twoBookings).2 =
        twoBookings.limit .sample (fun _ _ => some ⟨10⟩) 2 ∧
      (twoBookings.limit .sample (fun _ _ => some ⟨10⟩) 2).emptyColumns = 3 := by
  obtain ⟨hsub, hundisturbed⟩ := interruptedRun_undisturbed 1
  refine ⟨(backfill_converges .sample (fun _ _ => some ⟨10⟩) 2 twoBookings (by decide)
    ⟨true, false⟩ (interruptedRun 1) (interruptedRun_answers 1)).2 _ hsub hundisturbed (by decide),
    by decide⟩

section Drain

variable {ext : Externals} {resolve : String → RecipientRole → Option Uuid} {batchSize : Nat}
  {db db' : Db}

/-- Where a user is found for every empty column, an undisturbed cycle completes the rows of its
window. -/
lemma countP_incomplete_visitAll (hids : (db.tables.bookings.map (·.id)).Nodup)
    (hresolvable : ∀ b ∈ db.tables.bookings, db.unresolvable ext resolve b = false) :
    (visitAll ext resolve (cycleSlots batchSize db) db).tables.bookings.countP
        (fun b => b.incomplete) ≤
      db.tables.bookings.countP (fun b => b.incomplete) - batchSize := by
  let rank (b : BookingRow) := db.tables.bookings.countP fun c =>
    c.incomplete && decide (c.id < b.id)
  have hafter : (visitAll ext resolve (cycleSlots batchSize db) db).tables.bookings.countP
      (fun b => b.incomplete) ≤
        (db.tables.bookings.filter fun b => !decide (rank b < batchSize)).countP
          fun b => b.incomplete := by
    rw [visitAll_bookings, List.countP_map, List.countP_filter]
    refine List.countP_mono_left fun b hb hincomplete => ?_
    obtain ⟨role, hnull⟩ := Booking.incomplete_iff.mp hincomplete
    have hbefore := (foldl_visitRow_fillsNulls (cycleSlots batchSize db) b).empty_before hnull
    rw [Bool.and_eq_true, Booking.incomplete_iff, Bool.not_eq_true', decide_eq_false_iff_not]
    refine ⟨⟨role, hbefore⟩, fun hrank => ?_⟩
    -- A row of the window would have been completed.
    have hslot : (b.candidate, role) ∈ cycleSlots batchSize db :=
      (mem_cycleSlots_iff hids).mpr ⟨b, hb, rfl, hbefore, hrank⟩
    cases hfound : foundUserId ext resolve db.tables.events b.bookingUid role with
    | none =>
      have hstuck := Db.unresolvable_iff.mpr ⟨role, hbefore, hfound⟩
      rw [hresolvable b hb] at hstuck
      cases hstuck
    | some u =>
      have hfilled := (foldl_visitRow_eq_some_iff (fun _ h => h) hids hb hbefore).mpr
        ⟨hslot, hfound⟩
      rw [hnull] at hfilled
      cases hfilled
  have hsplit := List.countP_eq_countP_filter_add db.tables.bookings (fun b => b.incomplete)
    fun b => decide (rank b < batchSize)
  have hwindow := countP_window batchSize hids
  rw [List.countP_filter, hwindow] at hsplit
  omega

variable (ext batchSize) in
/-- Where a user is found for every empty column, each undisturbed cycle completes the rows of a
window, or all that are left. -/
lemma cycles_drain (hids : (db.tables.bookings.map (·.id)).Nodup)
    (hresolvable : ∀ b ∈ db.tables.bookings, db.unresolvable ext resolve b = false) :
    Descends (UserIdBackfillRunner.runCycle ext batchSize) (Between ext resolve batchSize db)
      (fun db' => db'.tables.bookings.countP fun b => b.incomplete)
      (fun c => c.Answers resolve) (fun c => c.Undisturbed resolve) batchSize where
  inv := (cycles_descend ext resolve batchSize hids).inv
  le db' c hanswers _ := by
    obtain ⟨done, _, hcycle⟩ := runCycle_eq_visitAll ext batchSize hanswers db'
    rw [hcycle, visitAll_bookings, List.countP_map]
    refine List.countP_mono_left fun b _ hincomplete => ?_
    obtain ⟨role, hnull⟩ := Booking.incomplete_iff.mp hincomplete
    exact Booking.incomplete_iff.mpr
      ⟨role, (foldl_visitRow_fillsNulls done b).empty_before hnull⟩
  lowers db' c _ hundisturbed hdb' := by
    obtain ⟨f, h⟩ := hdb'
    rw [runCycle_undisturbed hundisturbed]
    refine countP_incomplete_visitAll (h.nodup_ids hids) fun b hb => ?_
    rw [h.bookings] at hb
    obtain ⟨b, hmem, rfl⟩ := List.mem_map.mp hb
    rw [← Bool.not_eq_true, Db.unresolvable_iff]
    rintro ⟨role, hnull, hfound⟩
    rw [h.events, (h.fills b hmem).bookingUid_eq] at hfound
    have hstuck := Db.unresolvable_iff.mpr ⟨role, (h.fills b hmem).empty_before hnull, hfound⟩
    rw [hresolvable b hmem] at hstuck
    cases hstuck

end Drain

/-- Where a user is found for every empty column, the backlog is worked off by as many undisturbed
cycles as windows are needed to hold it. -/
theorem backfill_drains (ext : Externals) (resolve : String → RecipientRole → Option Uuid)
    (batchSize : Nat) (db : Db) (hids : (db.tables.bookings.map (·.id)).Nodup)
    (hresolvable : ∀ b ∈ db.tables.bookings, db.unresolvable ext resolve b = false)
    (runner : UserIdBackfillRunner) (steps : List RunnerStep)
    (hanswers : ∀ c ∈ UserIdBackfillRunner.cycles steps runner, c.Answers resolve)
    (undisturbed : List CycleAttempt)
    (hsub : undisturbed.Sublist (UserIdBackfillRunner.cycles steps runner))
    (hundisturbed : ∀ c ∈ undisturbed, c.Undisturbed resolve)
    (henough : db.tables.bookings.countP (fun b => b.incomplete) ≤
      undisturbed.length * batchSize) :
    ∀ b ∈ (UserIdBackfillRunner.run ext batchSize steps runner db).2.tables.bookings,
      ∀ role, ∃ u, b.userId role = some u := by
  rw [UserIdBackfillRunner.run_db]
  have hzero := (cycles_drain ext batchSize hids hresolvable).foldl_eq_zero hsub hanswers
    hundisturbed (Between.refl db) henough
  intro b hb role
  cases hnull : b.userId role with
  | some u => exact ⟨u, rfl⟩
  | none =>
    exact absurd (Booking.incomplete_iff.mpr ⟨role, hnull⟩) (List.countP_eq_zero.mp hzero b hb)

/-- Two bookings whose events list both participants without ids. -/
def unresolvedBookings : Db :=
  let participants := [participant .organizer "a@example.org" .null,
    participant .client "b@example.org" .null]
  let created (uid : String) : Message :=
    .sample BOOKING_LIFECYCLE_SAVER_QUEUE uid uid .bookingCreated 1 (listing participants)
  (saveEvent .sample 0 (created "y") (saveEvent .sample 0 (created "x") .empty).2).2

/-- A window of one row needs two undisturbed cycles. -/
theorem backfill_drains_unresolvedBookings :
    (UserIdBackfillRunner.run .sample 1 (interruptedRun 2) ⟨true, false⟩
      unresolvedBookings).2.tables.bookings.countP (fun b => b.incomplete) = 0 := by
  obtain ⟨hsub, hundisturbed⟩ := interruptedRun_undisturbed 2
  have hfilled := backfill_drains .sample (fun _ _ => some ⟨10⟩) 1 unresolvedBookings (by decide)
    (by decide) ⟨true, false⟩ (interruptedRun 2) (interruptedRun_answers 2) _ hsub hundisturbed
    (by decide)
  refine List.countP_eq_zero.mpr fun b hb hincomplete => ?_
  obtain ⟨role, hnull⟩ := Booking.incomplete_iff.mp hincomplete
  obtain ⟨u, hu⟩ := hfilled b hb role
  rw [hnull] at hu
  cases hu

end EventSaver
