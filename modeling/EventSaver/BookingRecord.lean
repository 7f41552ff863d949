import EventSaver.Independence
import EventSaver.ExactlyOnce

/-!
# The bookings row of one booking

What saving a message does to the row of a booking, without its id: a lifecycle message merges
what it carries into the row.
-/

namespace EventSaver
open JsonData TableData EffectProgram

/-- The bookings row of a booking_uid, without its id. -/
def Db.bookingOf (db : Db) (uid : String) : Option Booking :=
  (findBooking uid db.tables.bookings).map (·.toBooking)

/-- The effect of the work for an event on the row of its booking. -/
def BookingWork.onRow (work : BookingWork) (row : Option Booking) : Option Booking :=
  let upserted := match work.upsert with
    | some excluded => some (row.elim excluded excluded.merge)
    | none => row
  match work.newClient with
  | some u => upserted.map (·.setUserId .client u)
  | none => upserted

lemma bookingOf_eq_content (db : Db) (uid : String) :
    db.bookingOf uid = ((content db.tables).booking uid).map (·.booking) := by
  rw [Db.bookingOf, content, Option.map_map]
  rfl

lemma onBooking_booking (work : BookingWork) (cell : Option BookingCell) :
    (work.onBooking cell).map (·.booking) = work.onRow (cell.map (·.booking)) := by
  have hwrites (ws : List ProjectionWrite) (cell : Option BookingCell) :
      (ws.foldl (fun cell w => cell.map (BookingCell.write w)) cell).map (·.booking) =
        cell.map (·.booking) := by
    induction ws generalizing cell with
    | nil => rfl
    | cons w rest ih =>
      rw [List.foldl_cons, ih, Option.map_map]
      congr 1
      funext cell
      exact cell.write_booking w
  have horganizer (cell : Option BookingCell) :
      (work.organizerCell cell).map (·.booking) = cell.map (·.booking) := by
    unfold BookingWork.organizerCell
    cases work.organizer with
    | none => rfl
    | some row => cases cell <;> rfl
  have hclient (cell : Option BookingCell) : (work.clientCell cell).map (·.booking) =
      match work.newClient with
      | some u => (cell.map (·.booking)).map (·.setUserId .client u)
      | none => cell.map (·.booking) := by
    unfold BookingWork.clientCell
    cases work.newClient with
    | none => rfl
    | some u => cases cell <;> rfl
  have hupsert : (work.upsertCell cell).map (·.booking) =
      match work.upsert with
      | some excluded => some ((cell.map (·.booking)).elim excluded excluded.merge)
      | none => cell.map (·.booking) := by
    unfold BookingWork.upsertCell
    cases work.upsert with
    | none => rfl
    | some row => cases cell <;> rfl
  rw [BookingWork.onBooking, hwrites, hclient, horganizer, hupsert]
  rfl

section Saves

variable {ext : Externals} {now : Timestamp} {m : Message} {uid : String} {db db' : Db}

/-- A message that is filed under a booking is a duplicate, or does its work on the row of its
booking and on no other. -/
theorem bookingOf_filed (h : db.WellFormed) (hm : m.FiledUnder uid)
    (he : saveEffect ext now m db = .ok db') :
    ∃ event, EventParser.parse ext now m = .ok event ∧
      if isDuplicate event db then db' = db
      else ∃ work, plan ext m.queueName event uid (bookingKnown m.queueName db uid) 0 = .ok work ∧
        db'.bookingOf uid = work.onRow (db.bookingOf uid) ∧
        ∀ uid' ≠ uid, db'.bookingOf uid' = db.bookingOf uid' := by
  have hrecord := @content_saveEffect ext db h now m
  rw [he, Ledger.record_eq hm] at hrecord
  obtain ⟨event, hparse, hingest⟩ := bind_eq_ok.mp he
  refine ⟨event, hparse, ?_⟩
  by_cases hd : isDuplicate event db = true
  · rw [if_pos hd]
    rw [ingestEffect, if_pos hd] at hingest
    exact (Except.ok.inj hingest).symm
  · rw [if_neg hd]
    have hnew : ¬ (content db.tables).Conflicts (EventRepository.row event) :=
      fun hc => hd ((content_conflicts h).mp hc)
    rcases hdecision : (content db.tables).decision ext now m uid with e | _ | ⟨event', work⟩
    · rw [hdecision] at hrecord
      cases hrecord
    · unfold Ledger.decision at hdecision
      rw [hparse, ok_bind, if_neg hnew] at hdecision
      obtain ⟨work, _, hwork⟩ := bind_eq_ok.mp hdecision
      cases hwork
    · obtain ⟨hparse', _, hplan⟩ := Ledger.decision_eq_some hdecision
      obtain rfl : event = event' := Except.ok.inj (hparse.symm.trans hparse')
      rw [hdecision] at hrecord
      have hbooking : (content db'.tables).booking =
          Function.update (content db.tables).booking uid
            (work.onBooking ((content db.tables).booking uid)) :=
        congrArg Ledger.booking (Except.ok.inj hrecord)
      rw [content_known] at hplan
      refine ⟨work, hplan, ?_, fun uid' hne => ?_⟩
      · rw [bookingOf_eq_content, bookingOf_eq_content, hbooking, Function.update_self,
          onBooking_booking]
      · rw [bookingOf_eq_content, bookingOf_eq_content, hbooking, Function.update_of_ne hne]

/-- The row of a booking after the backfill for a user. -/
def Booking.backfilled (ext : Externals) (events : List EventRow)
    (request : Option (RecipientRole × Option String × Uuid)) (b : Booking) : Booking :=
  match request with
  | some (role, some email, u) =>
    if b.userId role == none && participantListed ext events b.bookingUid role email then
      b.setUserId role u
    else b
  | _ => b

lemma bookingOf_applyBackfill (request : Option (RecipientRole × Option String × Uuid)) :
    (applyBackfill ext request db).bookingOf uid =
      (db.bookingOf uid).map (Booking.backfilled ext db.tables.events request) := by
  have hid (b : Option BookingRow) : b.map (·.toBooking) = (b.map (·.toBooking)).map id := by
    rw [Option.map_id, id]
  rcases request with _ | ⟨role, _ | email, u⟩
  · exact hid _
  · exact hid _
  · have hfind : findBooking uid (applyBackfill ext (some (role, some email, u)) db).tables.bookings =
        (findBooking uid db.tables.bookings).map fun b =>
          if b.userId role == none && participantListed ext db.tables.events b.bookingUid role email
          then b.update (·.setUserId role u) else b :=
      find?_updateWhere fun b => by simp
    rw [Db.bookingOf, hfind, Option.map_map, Db.bookingOf, Option.map_map]
    congr 1
    funext b
    simp only [Function.comp, Booking.backfilled]
    split <;> rfl

/-- A message that is filed under no booking is a duplicate, or leaves the rows to a backfill. -/
theorem bookingOf_unfiled (hm : ∀ uid, ¬ m.FiledUnder uid) (he : saveEffect ext now m db = .ok db') :
    ∃ event, EventParser.parse ext now m = .ok event ∧
      if isDuplicate event db then db' = db
      else if m.eventType = EventType.userSynced.value then
        ∃ request, backfillRequest ext event.payload = .ok request ∧
          ∀ uid, db'.bookingOf uid =
            (db.bookingOf uid).map (Booking.backfilled ext db'.tables.events request)
      else ∀ uid, db'.bookingOf uid = db.bookingOf uid := by
  obtain ⟨event, hparse, hingest⟩ := bind_eq_ok.mp he
  obtain ⟨hbooking, htype, _⟩ := EventParser.parse_filed ext hparse
  refine ⟨event, hparse, ?_⟩
  unfold ingestEffect at hingest
  by_cases hd : isDuplicate event db = true
  · rw [if_pos hd] at hingest ⊢
    exact (Except.ok.inj hingest).symm
  · rw [if_neg hd] at hingest ⊢
    have hevents := processEffect_events hingest
    unfold processEffect at hingest
    rw [← htype]
    by_cases hsynced : event.eventType = EventType.userSynced.value
    · rw [if_pos hsynced] at hingest ⊢
      obtain ⟨request, hrequest, hdb⟩ := bind_eq_ok.mp hingest
      refine ⟨request, hrequest, fun uid => ?_⟩
      rw [hevents, ← Except.ok.inj hdb, bookingOf_applyBackfill]
      rfl
    · rw [if_neg hsynced] at hingest ⊢
      intro uid
      cases hid : event.bookingId with
      | none =>
        rw [hid] at hingest
        rw [← Except.ok.inj hingest]
        rfl
      | some bookingId =>
        by_cases hempty : bookingId = ""
        · simp only [hid, hempty, if_true] at hingest
          rw [← Except.ok.inj hingest]
          rfl
        · exact absurd ⟨hbooking.symm.trans hid, hempty, htype ▸ hsynced⟩ (hm bookingId)

end Saves

/-- A message about a booking from the lifecycle queue. -/
structure Message.LifecycleOf (m : Message) (uid : String) : Prop extends m.FiledUnder uid where
  queueName : m.queueName = BOOKING_LIFECYCLE_SAVER_QUEUE

/-- A row merged into the one there is, if any. -/
def Booking.join (excluded : Booking) (row : Option Booking) : Booking :=
  row.elim excluded excluded.merge

/-- The stored event of a lifecycle message and the row of its booking that the message makes on its
own, unless its save raises. -/
def Message.recorded (ext : Externals) (now : Timestamp) (m : Message) (uid : String) :
    Option (EventRow × Booking) :=
  match EventParser.parse ext now m with
  | .error _ => none
  | .ok event =>
    match plan ext m.queueName event uid false 0 with
    | .error _ => none
    | .ok work => (work.onRow none).map fun carried => (EventRepository.row event, carried)

section Lifecycle

variable {ext : Externals} {now : Timestamp} {m : Message} {uid : String} {db : Db}

/-- The work for a lifecycle event is a merge of what the event carries. -/
lemma plan_onRow {queueName : String} {event : ParsedEvent} {ref : Nat} {work : BookingWork}
    (h : plan ext queueName event uid false ref = .ok work) :
    ∃ carried organizer client,
      ParticipantExtractor.extract ext event.payload = .ok (organizer, client) ∧
      work.onRow none = some carried ∧ (∀ row, work.onRow row = some (carried.join row)) ∧
      carried.bookingUid = uid ∧ carried.lastSeenAt = event.occurredAt ∧
      carried.organizerUserId = organizer := by
  obtain ⟨organizer, client, hx, ⟨hknown, _⟩ | ⟨_, ⟨data, hdata, hupsert⟩, _⟩⟩ := plan_eq_ok ext h
  · cases hknown
  · have huid := BookingDataExtractor.extract_bookingId ext hdata
    cases hclient : work.newClient with
    | none =>
      refine ⟨BookingRepository.row data event.occurredAt organizer client, organizer, client, hx,
        ?_, fun row => ?_, huid, rfl, rfl⟩
      · rw [BookingWork.onRow, hupsert, hclient]
        rfl
      · rw [BookingWork.onRow, hupsert, hclient]
        rfl
    | some u =>
      refine ⟨(BookingRepository.row data event.occurredAt organizer client).setUserId .client u,
        organizer, client, hx, ?_, fun row => ?_, huid, rfl, rfl⟩
      · rw [BookingWork.onRow, hupsert, hclient]
        rfl
      · rw [BookingWork.onRow, hupsert, hclient]
        cases row <;> rfl

lemma not_conflicts_of_not_stores (h : db.WellFormed) {event : ParsedEvent}
    (hparse : EventParser.parse ext now m = .ok event) (hnew : ¬ db.Stores m) :
    ¬ (content db.tables).Conflicts (EventRepository.row event) := by
  obtain ⟨hid, hkey⟩ := EventParser.parse_keys ext hparse
  intro hconflict
  obtain ⟨e, he, hshares⟩ := List.any_eq_true.mp ((content_conflicts h).mp hconflict)
  refine hnew ⟨e, he, ?_⟩
  simpa [EventRow.conflicts, EventRepository.row, hid, hkey] using hshares

/-- Saving a new lifecycle message stores its event and merges what it carries into the row of its
booking. -/
theorem saveEvent_lifecycle (h : db.WellFormed) (hm : m.LifecycleOf uid) (hnew : ¬ db.Stores m) :
    ((saveEvent ext now m db).2.tables.events, (saveEvent ext now m db).2.bookingOf uid) =
      match m.recorded ext now uid with
      | some (row, carried) =>
        (db.tables.events ++ [row], some (carried.join (db.bookingOf uid)))
      | none => (db.tables.events, db.bookingOf uid) := by
  have hunknown : bookingKnown m.queueName db uid = false := by
    rw [bookingKnown, hm.queueName]
    simp
  rw [Message.recorded]
  cases hparse : EventParser.parse ext now m with
  | error e =>
    have heffect : saveEffect ext now m db = .error e := by
      rw [saveEffect, hparse]
      rfl
    obtain ⟨reached, hsave, _⟩ := saveEvent_error ext heffect
    rw [hsave]
    rfl
  | ok event =>
    have hd : isDuplicate event db = false := Bool.eq_false_iff.mpr fun hd =>
      not_conflicts_of_not_stores h hparse hnew ((content_conflicts h).mpr hd)
    cases heffect : saveEffect ext now m db with
    | error e =>
      obtain ⟨reached, hsave, _⟩ := saveEvent_error ext heffect
      have houtcome := @saveOutcome_eq ext now m uid db h hm.toFiledUnder
      rw [saveOutcome, hsave, Ledger.decision, hparse, ok_bind,
        if_neg (not_conflicts_of_not_stores h hparse hnew), content_known, hunknown] at houtcome
      dsimp only
      cases hplan : plan ext m.queueName event uid false 0 with
      | error e' =>
        rw [hsave]
        rfl
      | ok work =>
        rw [hplan] at houtcome
        cases houtcome
    | ok db' =>
      obtain ⟨event', hparse', hwork⟩ := bookingOf_filed h hm.toFiledUnder heffect
      obtain rfl : event = event' := Except.ok.inj (hparse.symm.trans hparse')
      rw [if_neg (Bool.eq_false_iff.mp hd), hunknown] at hwork
      obtain ⟨work, hplan, hrow, _⟩ := hwork
      obtain ⟨carried, _, _, _, hnone, hjoin, _⟩ := plan_onRow hplan
      obtain ⟨_, hparse', hingest⟩ := bind_eq_ok.mp heffect
      obtain rfl := Except.ok.inj (hparse.symm.trans hparse')
      have hevents := ingestEffect_events ext hingest
      rw [hd, if_neg Bool.false_ne_true] at hevents
      simp only [hplan, hnone, Option.map_some, saveEvent_ok ext heffect, hevents, hrow, hjoin]

end Lifecycle

end EventSaver
