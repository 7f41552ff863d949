import EventSaver.Library.Timeline
import EventSaver.Processing

/-!
# The organizer history of one booking

Lifecycle messages leave the history that `recordChanges` makes of the assignments in them, in
the order of arrival.
-/

namespace EventSaver
open JsonData TableData EffectProgram

/-- The booking_organizer_history rows of a booking, in the order of their ids. -/
def Db.organizerHistoryOf (db : Db) (uid : String) : List OrganizerAssignment :=
  match findBooking uid db.tables.bookings with
  | some b => rowsOf b.id db.tables.organizerHistory
  | none => []

/-- The assignment that a creation or a reassignment with a resolved organizer makes. -/
def Message.assignment (ext : Externals) (now : Timestamp) (m : Message) :
    Option OrganizerAssignment :=
  match EventParser.parse ext now m with
  | .ok event =>
    match ParticipantExtractor.extract ext event.payload with
    | .ok (organizer, _) => organizerAssignment event organizer
    | .error _ => none
  | .error _ => none

def assignments (ext : Externals) (ms : Journal) : List OrganizerAssignment :=
  ms.filterMap fun entry => entry.2.assignment ext entry.1

/-- The history shows who was the organizer when, and no change that is none. -/
def OrganizerHistoryCorrect (history rows : List OrganizerAssignment) : Prop :=
  ShowsTimeline OrganizerAssignment.effectiveFrom OrganizerAssignment.organizerUserId history rows

/-- Whether an assignment names another organizer than the last one before it. -/
def OrganizerAssignment.isChange (rows : List OrganizerAssignment) (row : OrganizerAssignment) :
    Bool :=
  TableData.isChange OrganizerAssignment.effectiveFrom OrganizerAssignment.organizerUserId rows row

/-- An assignment is a change exactly if it names another organizer than the newest of the changes
that have arrived before it. -/
def ArrivesInStep (rows : List OrganizerAssignment) : Prop :=
  ∀ i (h : i < rows.length), OrganizerAssignment.isChange rows rows[i] =
    rows[i].changes ((rows.take i).filter (OrganizerAssignment.isChange rows))

section Arrivals

variable {rows : List OrganizerAssignment}

lemma arrivesInStep_iff : ArrivesInStep rows ↔
    InStep OrganizerAssignment.effectiveFrom OrganizerAssignment.organizerUserId rows := by
  constructor
  · intro hstep earlier row later hsplit
    have hi : earlier.length < rows.length := by
      rw [hsplit, List.length_append, List.length_cons]
      omega
    have hchange := hstep earlier.length hi
    have hrow : rows[earlier.length] = row := by
      simp only [hsplit, List.getElem_append_right, le_refl, Nat.sub_self, List.getElem_cons_zero]
    have htake : rows.take earlier.length = earlier := by
      rw [hsplit, List.take_left]
    rw [hrow, htake, Bool.eq_iff_iff, OrganizerAssignment.changes, bne_iff_ne] at hchange
    exact hchange
  · intro hsplits i hi
    have hsplit : rows = rows.take i ++ rows[i] :: rows.drop (i + 1) := by
      rw [← List.drop_eq_getElem_cons hi, List.take_append_drop]
    rw [Bool.eq_iff_iff, OrganizerAssignment.changes, bne_iff_ne]
    exact hsplits _ _ _ hsplit

/-- Assignments that arrive in the order of time do so in step. -/
lemma arrivesInStep_of_sorted
    (h : rows.Pairwise fun a b => a.effectiveFrom < b.effectiveFrom) : ArrivesInStep rows :=
  arrivesInStep_iff.mpr (inStep_of_sorted h)

/-- Where no organizer comes back, assignments arrive in step exactly if every repetition arrives
after the change to its organizer and before all later changes. The changes may overtake one
another. -/
theorem arrivesInStep_iff_of_never_back
    (htimes : DistinctTimes OrganizerAssignment.effectiveFrom rows) (hrows : rows.Nodup)
    (hback : ∀ a ∈ rows, ∀ b ∈ rows, OrganizerAssignment.isChange rows a = true →
      OrganizerAssignment.isChange rows b = true → a.organizerUserId = b.organizerUserId → a = b) :
    ArrivesInStep rows ↔
      ∀ earlier row later, rows = earlier ++ row :: later →
        OrganizerAssignment.isChange rows row = false →
          ∃ c ∈ earlier, OrganizerAssignment.isChange rows c = true ∧
            c.organizerUserId = row.organizerUserId ∧
              ∀ a ∈ earlier, OrganizerAssignment.isChange rows a = true →
                a.effectiveFrom ≤ c.effectiveFrom :=
  arrivesInStep_iff.trans (inStep_iff_of_never_back htimes hrows hback)

end Arrivals

section Steps

variable {ext : Externals} {now : Timestamp} {m : Message} {uid : String} {db : Db}

lemma organizerHistoryOf_eq (db : Db) (uid : String) :
    db.organizerHistoryOf uid = (db.cellOf uid).elim [] (·.organizerHistory) := by
  have hcell : db.cellOf uid = (findBooking uid db.tables.bookings).map (cellOf db.tables) := rfl
  rw [Db.organizerHistoryOf, hcell]
  cases findBooking uid db.tables.bookings <;> rfl

lemma onBooking_organizerHistory {work : BookingWork} {row : Booking} (h : work.upsert = some row)
    (cell : Option BookingCell) :
    (work.onBooking cell).elim [] (·.organizerHistory) =
      work.organizer.toList.foldl
        (recordChange OrganizerAssignment.effectiveFrom OrganizerAssignment.organizerUserId)
        (cell.elim [] (·.organizerHistory)) := by
  have hwrites (ws : List ProjectionWrite) (cell : Option BookingCell) :
      (ws.foldl (fun cell w => cell.map (BookingCell.write w)) cell).elim [] (·.organizerHistory) =
        cell.elim [] (·.organizerHistory) := by
    induction ws generalizing cell with
    | nil => rfl
    | cons w rest ih =>
      rw [List.foldl_cons, ih]
      cases cell with
      | none => rfl
      | some cell => cases w <;> rfl
  have hclient (cell : Option BookingCell) :
      (work.clientCell cell).elim [] (·.organizerHistory) = cell.elim [] (·.organizerHistory) := by
    unfold BookingWork.clientCell
    cases work.newClient with
    | none => rfl
    | some u => cases cell <;> rfl
  rw [BookingWork.onBooking, hwrites, hclient, BookingWork.organizerCell, BookingWork.upsertCell, h]
  cases work.organizer with
  | none => cases cell <;> rfl
  | some row => cases cell <;> rfl

/-- A processed lifecycle message adds its assignment to the history if it differs from the newest
one. -/
lemma organizerHistoryOf_stored (h : db.WellFormed) (hm : m.LifecycleOf uid)
    (hstored : saveOutcome ext now m db = .stored) :
    (saveEvent ext now m db).2.organizerHistoryOf uid =
      (m.assignment ext now).toList.foldl
        (recordChange OrganizerAssignment.effectiveFrom OrganizerAssignment.organizerUserId)
        (db.organizerHistoryOf uid) := by
  obtain ⟨event, work, hparse, hplan, hcontent⟩ := content_of_stored h hm.toFiledUnder hstored
  have hunknown : bookingKnown m.queueName db uid = false := by
    rw [bookingKnown, hm.queueName]
    simp
  rw [hunknown] at hplan
  obtain ⟨organizer, client, hextract, ⟨hknown, _⟩ | ⟨_, ⟨data, _, hupsert⟩, horganizer, _⟩⟩ :=
    plan_eq_ok ext hplan
  · cases hknown
  · have hassignment : m.assignment ext now = work.organizer := by
      rw [Message.assignment, hparse]
      dsimp only
      rw [hextract, horganizer]
    have hcell : (saveEvent ext now m db).2.cellOf uid = work.onBooking (db.cellOf uid) := by
      rw [Db.cellOf, hcontent]
      exact Function.update_self _ _ _
    rw [organizerHistoryOf_eq, hcell, onBooking_organizerHistory hupsert, hassignment,
      organizerHistoryOf_eq]

/-- An assignment carries the id of its event. -/
lemma assignment_sourceEventId {row : OrganizerAssignment} (h : m.assignment ext now = some row) :
    row.sourceEventId = m.eventId := by
  unfold Message.assignment at h
  split at h
  next event hparse =>
    split at h
    · unfold organizerAssignment at h
      split at h
      · obtain ⟨_, _, rfl⟩ := Option.map_eq_some_iff.mp h
        exact (EventParser.parse_keys ext hparse).1
      · cases h
    · cases h
  next => cases h

end Steps

section Runs

variable {ext : Externals} {uid : String} {db : Db} {ms : Journal}

lemma organizerHistoryOf_saveAll (h : db.WellFormed) (hempty : db.organizerHistoryOf uid = [])
    (hms : ∀ entry ∈ ms, entry.2.LifecycleOf uid) (hp : Processed ext ms db) :
    (saveAll ext ms db).organizerHistoryOf uid =
      recordChanges OrganizerAssignment.effectiveFrom OrganizerAssignment.organizerUserId
        (assignments ext ms) := by
  have hfold := hp.fold (fun db => db.organizerHistoryOf uid)
    (fun entry history => (entry.2.assignment ext entry.1).toList.foldl
      (recordChange OrganizerAssignment.effectiveFrom OrganizerAssignment.organizerUserId) history)
    h hms fun db h entry hentry hstored => organizerHistoryOf_stored h hentry hstored
  rw [hfold, hempty, recordChanges, assignments, List.foldl_filterMap]
  congr 1
  funext history entry
  cases entry.2.assignment ext entry.1 <;> rfl

lemma nodup_assignments (h : db.WellFormed) (hp : Processed ext ms db) :
    (assignments ext ms).Nodup := by
  have hids := List.pairwise_map.mp (hp.nodup_eventIds h)
  rw [List.Nodup, assignments, List.pairwise_filterMap]
  refine hids.imp fun {entry entry'} hne row hrow row' hrow' heq => hne ?_
  rw [← assignment_sourceEventId hrow, ← assignment_sourceEventId hrow', heq]

/-- The organizer history is change-only and right about every time if and only if the changes
arrive in step: whatever arrives between two changes, the newest change that has arrived tells a
change from a repetition. -/
theorem organizerHistory_correct_iff (hdb : db.Reachable ext)
    (hempty : db.organizerHistoryOf uid = []) (hms : ∀ entry ∈ ms, entry.2.LifecycleOf uid)
    (hp : Processed ext ms db)
    (htimes : DistinctTimes OrganizerAssignment.effectiveFrom (assignments ext ms)) :
    OrganizerHistoryCorrect ((saveAll ext ms db).organizerHistoryOf uid) (assignments ext ms) ↔
      ArrivesInStep (assignments ext ms) := by
  rw [OrganizerHistoryCorrect, organizerHistoryOf_saveAll hdb.wellFormed hempty hms hp,
    recordChanges_showsTimeline_iff htimes (nodup_assignments hdb.wellFormed hp), arrivesInStep_iff]

end Runs

/-- A lifecycle message about booking `b` that lists an organizer. -/
def assigningMessage (eventId : String) (eventType : EventType) (time : Timestamp)
    (userId : String) : Timestamp × Message :=
  (0, .sample BOOKING_LIFECYCLE_SAVER_QUEUE eventId "b" eventType time
    (listing [participant .organizer "" (.str userId)]))

/-- A creation under one organizer, a change to another one and a change back. -/
def changedBack : Journal :=
  [ assigningMessage "1" .bookingCreated 1 "00000000-0000-0000-0000-00000000000a",
    assigningMessage "2" .bookingReassigned 2 "00000000-0000-0000-0000-00000000000b",
    assigningMessage "3" .bookingReassigned 3 "00000000-0000-0000-0000-00000000000a"]

lemma changedBack_lifecycleOf : ∀ entry ∈ changedBack, entry.2.LifecycleOf "b" := by
  simp only [changedBack, List.forall_mem_cons, List.not_mem_nil, false_imp_iff, implies_true,
    and_true]
  exact ⟨⟨⟨rfl, by decide, by decide⟩, rfl⟩, ⟨⟨rfl, by decide, by decide⟩, rfl⟩,
    ⟨⟨rfl, by decide, by decide⟩, rfl⟩⟩

theorem organizerHistory_correct_changedBack :
    OrganizerHistoryCorrect ((saveAll .sample changedBack .empty).organizerHistoryOf "b")
      (assignments .sample changedBack) := by
  have hp : Processed .sample changedBack .empty := ⟨rfl, rfl, rfl, trivial⟩
  have hsorted : (assignments .sample changedBack).Pairwise
      fun a b => a.effectiveFrom < b.effectiveFrom := by decide
  exact (organizerHistory_correct_iff .empty rfl changedBack_lifecycleOf hp
    (distinctTimes_of_sorted hsorted)).mpr (arrivesInStep_of_sorted hsorted)

/-- The same messages, with the change back before the change. -/
def changedBackEarly : Journal := [changedBack[0], changedBack[2], changedBack[1]]

/-- The change back is taken for a repetition: the history ends with the organizer who was
replaced. -/
theorem organizerHistory_incorrect_changedBackEarly :
    (∀ entry ∈ changedBackEarly, entry.2.LifecycleOf "b") ∧
      Processed .sample changedBackEarly .empty ∧
      DistinctTimes OrganizerAssignment.effectiveFrom (assignments .sample changedBackEarly) ∧
      ¬ OrganizerHistoryCorrect
        ((saveAll .sample changedBackEarly .empty).organizerHistoryOf "b")
        (assignments .sample changedBackEarly) := by
  refine ⟨?_, ⟨rfl, rfl, rfl, trivial⟩, ?_, fun hcorrect => absurd (hcorrect.2 3) (by decide)⟩
  · simp only [changedBackEarly, List.forall_mem_cons, List.not_mem_nil, false_imp_iff,
      implies_true, and_true]
    exact ⟨changedBack_lifecycleOf _ (by simp), changedBack_lifecycleOf _ (by simp),
      changedBack_lifecycleOf _ (by simp)⟩
  · unfold DistinctTimes
    decide

end EventSaver
