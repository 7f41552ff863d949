import EventSaver.BackfillPaths
import EventSaver.ConcurrentBackfills

/-!
# One cycle of the periodic backfill

The account of a cycle: which slots it looks up, which requests it makes, where it stops, what it
counts and what it commits.
-/

namespace EventSaver
open JsonData TableData EffectProgram

section Window

variable {db : Db} {batchSize : Nat}

/-- The order of the slots: by the id of the booking, its organizer before its client. -/
def SlotBefore (slot later : Candidate × RecipientRole) : Prop :=
  slot.1.id < later.1.id ∨ slot.1 = later.1 ∧ slot.2 = .organizer ∧ later.2 = .client

lemma cycleSlots_ordered (hids : (db.tables.bookings.map (·.id)).Nodup) :
    (cycleSlots batchSize db).Pairwise SlotBefore := by
  have hrows : (selectCandidates db.tables.bookings batchSize).Pairwise
      fun b b' => b.id < b'.id :=
    (insertionSort_pairwise_lt (nodup_incomplete hids)).sublist (List.take_sublist _ _)
  have hroles (row : Candidate) : (UserIdBackfillService.missingRoles row).Pairwise
      fun role role' => role = .organizer ∧ role' = .client := by
    have hpair : [RecipientRole.organizer, .client].Pairwise
        fun role role' => role = .organizer ∧ role' = .client := by simp
    exact hpair.sublist List.filter_sublist
  rw [cycleSlots, UserIdBackfillService.slots, List.pairwise_flatMap, List.pairwise_map]
  constructor
  · intro row hrow
    rw [List.pairwise_map]
    exact (hroles row).imp fun h => Or.inr ⟨rfl, h⟩
  · refine hrows.imp fun {b b'} hlt => ?_
    intro slot hslot slot' hslot'
    obtain ⟨role, _, rfl⟩ := List.mem_map.mp hslot
    obtain ⟨role', _, rfl⟩ := List.mem_map.mp hslot'
    exact Or.inl hlt

/-- The slots of a window are the NULL columns of the incomplete bookings with few incomplete
bookings before them. -/
lemma mem_cycleSlots_iff (hids : (db.tables.bookings.map (·.id)).Nodup)
    {slot : Candidate × RecipientRole} :
    slot ∈ cycleSlots batchSize db ↔
      ∃ b ∈ db.tables.bookings, b.candidate = slot.1 ∧ b.userId slot.2 = none ∧
        db.tables.bookings.countP (fun c => c.incomplete && decide (c.id < b.id)) < batchSize := by
  have hincomplete (b : BookingRow) (role : RecipientRole) (hnull : b.userId role = none) :
      b.incomplete = true := by
    rw [Booking.incomplete, Bool.or_eq_true, beq_iff_eq, beq_iff_eq]
    cases role with
    | organizer => exact Or.inl hnull
    | client => exact Or.inr hnull
  rw [mem_cycleSlots]
  constructor
  · rintro ⟨b, hb, hcandidate, hnull⟩
    obtain ⟨hmem, _, hcount⟩ := (mem_selectCandidates hids).mp hb
    exact ⟨b, hmem, hcandidate, hnull, hcount⟩
  · rintro ⟨b, hmem, hcandidate, hnull, hcount⟩
    have hb := (mem_selectCandidates hids).mpr ⟨hmem, hincomplete b _ hnull, hcount⟩
    exact ⟨b, hb, hcandidate, hnull⟩

lemma length_selectCandidates (bookings : List BookingRow) (batchSize : Nat) :
    (selectCandidates bookings batchSize).length =
      min batchSize (bookings.countP fun b => b.incomplete) := by
  rw [selectCandidates, List.length_take, List.length_insertionSort, ← List.countP_eq_length_filter]

end Window

section Columns

variable {ext : Externals} {resolve : String → RecipientRole → Option Uuid}
  {events : List EventRow}

/-- The participant columns in which two states of the bookings differ. -/
def changedColumns (before after : List BookingRow) : List (Nat × RecipientRole) :=
  (before.zip after).flatMap fun rows =>
    ([.organizer, .client].filter fun role => rows.2.userId role != rows.1.userId role).map
      fun role => (rows.1.id, role)

lemma BookingRow.candidate_userId (b : BookingRow) (role : RecipientRole) :
    b.candidate.userId role = b.userId role := by
  cases role <;> rfl

lemma foldl_visitRow_fillsNulls (slots : List (Candidate × RecipientRole)) (b : BookingRow) :
    (slots.foldl (visitRow ext resolve events) b).FillsNulls b := by
  have hvisit (b : BookingRow) (slot : Candidate × RecipientRole) :
      (visitRow ext resolve events b slot).FillsNulls b := by
    unfold visitRow
    split
    · split
      · rename_i hguard
        rw [Bool.and_eq_true, beq_iff_eq, beq_iff_eq] at hguard
        exact BookingRow.fillsNulls_setUserId hguard.2
      · exact ⟨rfl, fun _ _ h => h⟩
    · exact ⟨rfl, fun _ _ h => h⟩
  induction slots generalizing b with
  | nil => exact ⟨rfl, fun _ _ h => h⟩
  | cons slot rest ih => exact (ih _).trans (hvisit b slot)

variable {db : Db} {batchSize : Nat} {done : List (Candidate × RecipientRole)}

lemma changedColumns_visitAll : changedColumns db.tables.bookings
    (visitAll ext resolve done db).tables.bookings = db.tables.bookings.flatMap fun b =>
      ([.organizer, .client].filter fun role =>
        (done.foldl (visitRow ext resolve db.tables.events) b).userId role != b.userId role).map
          fun role => (b.id, role) := by
  rw [changedColumns, visitAll_bookings, ← List.map_prod_left_eq_zip, List.flatMap_map]

lemma nodup_changedColumns (hids : (db.tables.bookings.map (·.id)).Nodup) :
    (changedColumns db.tables.bookings (visitAll ext resolve done db).tables.bookings).Nodup := by
  rw [changedColumns_visitAll, List.nodup_flatMap]
  constructor
  · intro b hb
    have hroles : [RecipientRole.organizer, .client].Nodup := by decide
    exact (hroles.filter _).map fun role role' h => (Prod.mk.inj h).2
  · refine (List.pairwise_map.mp hids).imp fun {b b'} hne => ?_
    intro column hcolumn hcolumn'
    obtain ⟨role, _, rfl⟩ := List.mem_map.mp hcolumn
    obtain ⟨role', _, heq⟩ := List.mem_map.mp hcolumn'
    exact hne (Prod.mk.inj heq).1.symm

/-- No column is completed twice. -/
lemma nodup_columns (hordered : done.Pairwise SlotBefore) :
    (done.map fun slot => (slot.1.id, slot.2)).Nodup := by
  refine List.pairwise_map.mpr (hordered.imp ?_)
  intro slot later hbefore heq
  obtain ⟨hid, hrole⟩ := Prod.mk.inj heq
  rcases hbefore with hlt | ⟨_, horganizer, hclient⟩
  · omega
  · rw [horganizer, hclient] at hrole
    cases hrole

/-- A column of a row changes exactly if it is completed with an id. -/
lemma foldl_visitRow_ne_iff (hdone : ∀ slot ∈ done, slot ∈ cycleSlots batchSize db)
    (hids : (db.tables.bookings.map (·.id)).Nodup) {b : BookingRow} (hb : b ∈ db.tables.bookings)
    (role : RecipientRole) :
    (done.foldl (visitRow ext resolve db.tables.events) b).userId role ≠ b.userId role ↔
      (b.candidate, role) ∈ done ∧
        (foundUserId ext resolve db.tables.events b.bookingUid role).isSome := by
  cases hnull : b.userId role with
  | some userId =>
    refine iff_of_false ?_ ?_
    · rw [(foldl_visitRow_fillsNulls done b).kept role userId hnull]
      exact fun h => h rfl
    · rintro ⟨hslot, _⟩
      obtain ⟨c, _, hcandidate, hempty⟩ := mem_cycleSlots.mp (hdone _ hslot)
      have hsame : c.candidate = b.candidate := hcandidate
      rw [← b.candidate_userId, ← hsame, c.candidate_userId] at hnull
      exact Option.some_ne_none userId (hnull.symm.trans hempty)
  | none =>
    rw [Option.ne_none_iff_exists', Option.isSome_iff_exists, ← exists_and_left]
    exact exists_congr fun userId => foldl_visitRow_eq_some_iff hdone hids hb hnull

lemma mem_changedColumns (hdone : ∀ slot ∈ done, slot ∈ cycleSlots batchSize db)
    (hids : (db.tables.bookings.map (·.id)).Nodup) (column : Nat × RecipientRole) :
    column ∈ changedColumns db.tables.bookings (visitAll ext resolve done db).tables.bookings ↔
      column ∈ (done.filter fun slot =>
        (foundUserId ext resolve db.tables.events slot.1.bookingUid slot.2).isSome).map
          fun slot => (slot.1.id, slot.2) := by
  rw [changedColumns_visitAll, List.mem_flatMap, List.mem_map]
  constructor
  · rintro ⟨b, hb, hcolumn⟩
    obtain ⟨role, hrole, rfl⟩ := List.mem_map.mp hcolumn
    have hne := bne_iff_ne.mp (List.mem_filter.mp hrole).2
    have hslot := (foldl_visitRow_ne_iff hdone hids hb role).mp hne
    exact ⟨(b.candidate, role), List.mem_filter.mpr hslot, rfl⟩
  · rintro ⟨⟨row, role⟩, hslot, rfl⟩
    obtain ⟨hslot, hfound⟩ := List.mem_filter.mp hslot
    obtain ⟨b, hb, rfl, _⟩ := mem_cycleSlots.mp (hdone _ hslot)
    have hb := mem_of_mem_selectCandidates hb
    have hrole : role ∈ [RecipientRole.organizer, .client] := by cases role <;> decide
    have hne := (foldl_visitRow_ne_iff hdone hids hb role).mpr ⟨hslot, hfound⟩
    exact ⟨b, hb, List.mem_map.mpr
      ⟨role, List.mem_filter.mpr ⟨hrole, bne_iff_ne.mpr hne⟩, rfl⟩⟩

/-- Completed slots change as many columns as ids are found for them. -/
lemma length_changedColumns (hdone : ∀ slot ∈ done, slot ∈ cycleSlots batchSize db)
    (hordered : done.Pairwise SlotBefore) (hids : (db.tables.bookings.map (·.id)).Nodup) :
    (changedColumns db.tables.bookings
      (visitAll ext resolve done db).tables.bookings).length =
        done.countP fun slot =>
          (foundUserId ext resolve db.tables.events slot.1.bookingUid slot.2).isSome := by
  have hcompleted : ((done.filter fun slot =>
      (foundUserId ext resolve db.tables.events slot.1.bookingUid slot.2).isSome).map
        fun slot => (slot.1.id, slot.2)).Nodup :=
    (nodup_columns hordered).sublist (List.filter_sublist.map _)
  have hperm := (List.perm_ext_iff_of_nodup (nodup_changedColumns hids) hcompleted).mpr
    (mem_changedColumns hdone hids)
  rw [hperm.length_eq, List.length_map, ← List.countP_eq_length_filter]

end Columns

section Account

variable (ext : Externals) (answer : Nat → String → RecipientRole → Resolution) (batchSize : Nat)
  (db : Db) (done rest : List (Candidate × RecipientRole)) (calls : List AnsweredCall)

/-- A bookings row as a cycle commits it: NULL columns that are completed hold the id obtained for
their latest e-mail, if one was. -/
structure CommittedRow (before after : BookingRow) : Prop extends after.FillsNulls before where
  filled : ∀ role userId, before.userId role = none →
    (after.userId role = some userId ↔
      (before.candidate, role) ∈ done ∧ ∃ email,
        latestEmail ext db.tables.events before.bookingUid role = some email ∧
          ((email, role), .answered (some userId)) ∈ requests calls)

/-- The account of a cycle that has completed the slots `done`, has left the slots `rest` and has
made `calls`. -/
structure CycleAccount (summary : BackfillSummary) (db' : Db) : Prop
    extends Visited ext answer db done (requests calls) where
  window : ∀ slot, slot ∈ done ++ rest ↔
    ∃ b ∈ db.tables.bookings, b.candidate = slot.1 ∧ b.userId slot.2 = none ∧
      db.tables.bookings.countP (fun c => c.incomplete && decide (c.id < b.id)) < batchSize
  ordered : (done ++ rest).Pairwise SlotBefore
  looked : lookups calls = (done ++ rest.take summary.aborted.toNat).map fun slot =>
    (slot.1.bookingUid, slot.2)
  stopped : ∀ slot ∈ rest.head?, ∃ email,
    latestEmail ext db.tables.events slot.1.bookingUid slot.2 = some email ∧
      ((email, slot.2), .unavailable) ∈ requests calls
  aborted_iff : summary.aborted = true ↔ rest ≠ []
  scanned : summary.scannedBookings =
    min batchSize (db.tables.bookings.countP fun b => b.incomplete)
  resolved : summary.resolved = done.countP fun slot =>
    (foundUserId ext (obtained (requests calls)) db.tables.events slot.1.bookingUid slot.2).isSome
  unresolved : summary.unresolved = done.countP fun slot =>
    (latestEmail ext db.tables.events slot.1.bookingUid slot.2).isSome &&
      (foundUserId ext (obtained (requests calls)) db.tables.events slot.1.bookingUid slot.2).isNone
  missingEmail : summary.missingEmail = done.countP fun slot =>
    (latestEmail ext db.tables.events slot.1.bookingUid slot.2).isNone
  total : summary.resolved + summary.unresolved + summary.missingEmail = done.length
  complete : summary.resolved + summary.unresolved + summary.missingEmail = (done ++ rest).length ↔
    summary.aborted = false
  rows : List.Forall₂ (CommittedRow ext db done calls) db.tables.bookings db'.tables.bookings
  changed : (changedColumns db.tables.bookings db'.tables.bookings).length = summary.resolved
  frame : db' = { db with
    tables.bookings := db'.tables.bookings }

variable {ext answer batchSize db done rest calls}

lemma committedRow (hdone : ∀ slot ∈ done, slot ∈ cycleSlots batchSize db)
    (hids : (db.tables.bookings.map (·.id)).Nodup)
    (honce : ((requests calls).map Prod.fst).Nodup) {b : BookingRow} (hb : b ∈ db.tables.bookings) :
    CommittedRow ext db done calls b
      (done.foldl (visitRow ext (obtained (requests calls)) db.tables.events) b) where
  toFillsNulls := foldl_visitRow_fillsNulls done b
  filled role userId hnull := by
    rw [foldl_visitRow_eq_some_iff hdone hids hb hnull, foundUserId_eq_some]
    simp only [obtained_eq_some honce]

/-- One cycle, for every database, batch size and sequence of answers. -/
theorem runOnce_account (answer : Nat → String → RecipientRole → Resolution) (batchSize : Nat)
    (hids : (db.tables.bookings.map (·.id)).Nodup) :
    ∃ done rest summary db', runOnce ext (responding answer) batchSize db = (.ok summary, db') ∧
      CycleAccount ext answer batchSize db done rest
        ((UserIdBackfillService.runOnceProgram batchSize).trace
          (cycleExecute ext (responding answer)) (db, 0)) summary db' := by
  obtain ⟨calls, tally, aborted, db', done, rest, hrun, htrace, hslots, hlookups, hend⟩ :=
    runOnce_responding ext answer batchSize db
  have hordered : (cycleSlots batchSize db).Pairwise SlotBefore := cycleSlots_ordered hids
  have hdone : ∀ slot ∈ done, slot ∈ cycleSlots batchSize db := by
    intro slot hslot
    rw [hslots]
    exact List.mem_append_left rest hslot
  have htotal := hend.counts.total
  rw [hslots] at hordered
  rw [htrace]
  refine ⟨done, rest, _, db', hrun, { hend.toVisited with
    window := ?_
    ordered := hordered
    looked := hlookups
    stopped := hend.stopped
    aborted_iff := hend.aborted_iff
    scanned := length_selectCandidates _ _
    resolved := hend.counts.resolved
    unresolved := hend.counts.unresolved
    missingEmail := hend.counts.missingEmail
    total := htotal
    complete := ?_
    rows := ?_
    changed := ?_
    frame := ?_ }⟩
  · intro slot
    rw [← hslots]
    exact mem_cycleSlots_iff hids
  · have hiff := not_congr hend.aborted_iff
    rw [Bool.not_eq_true, not_ne_iff] at hiff
    rw [hiff, htotal, List.length_append, Nat.left_eq_add, List.length_eq_zero_iff]
  · rw [hend.committed, visitAll_bookings, List.forall₂_map_right_iff, List.forall₂_same]
    exact fun b hb => committedRow hdone hids hend.once hb
  · rw [hend.committed]
    exact (length_changedColumns hdone (hordered.sublist (List.sublist_append_left done rest))
      hids).trans hend.counts.resolved.symm
  · rw [hend.committed]
    rfl

end Account

/-- Two bookings of one organizer, of which the second lists a client too. -/
def sharedOrganizer : Db :=
  let created (uid : String) (participants : List Json) : Message :=
    .sample BOOKING_LIFECYCLE_SAVER_QUEUE uid uid .bookingCreated 1 (listing participants)
  let organizer := participant .organizer "a@example.org" .null
  let db := (saveEvent .sample 0 (created "x" [organizer]) .empty).2
  (saveEvent .sample 0
    (created "y" [organizer, participant .client "b@example.org" .null]) db).2

/-- A resolver that is unavailable from the second request on. -/
def answersOnce : Nat → String → RecipientRole → Resolution :=
  fun n _ _ => if n = 0 then .answered (some ⟨10⟩) else .unavailable

/-- One answer fills two columns, and the cycle ends at the last slot. -/
theorem runOnce_account_sharedOrganizer :
    (∃ done rest summary db',
      runOnce .sample (responding answersOnce) 5 sharedOrganizer = (.ok summary, db') ∧
        CycleAccount .sample answersOnce 5 sharedOrganizer done rest
          ((UserIdBackfillService.runOnceProgram 5).trace
            (cycleExecute .sample (responding answersOnce)) (sharedOrganizer, 0)) summary db') ∧
      (runOnce .sample (responding answersOnce) 5 sharedOrganizer).1 = .ok
        { scannedBookings := 2, resolved := 2, unresolved := 0, missingEmail := 1, aborted := true } := by
  have hids : (sharedOrganizer.tables.bookings.map (·.id)).Nodup := by decide
  exact ⟨runOnce_account answersOnce 5 hids, rfl⟩

end EventSaver
