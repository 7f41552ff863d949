import Mathlib.Order.Bounds.Basic
import EventSaver.BookingRecord

/-!
# When a booking was first and last seen

The first event of a booking that is stored fixes `first_seen_at`. `last_seen_at` follows that
event and the events from the lifecycle queue, and no others.
-/

namespace EventSaver
open JsonData TableData EffectProgram

/-- A call of `save_event`, with its clock and its fault. -/
structure SaveCall where
  attempt : Attempt
  message : Message

namespace SaveCall

variable (ext : Externals)

def run (c : SaveCall) (db : Db) : Db :=
  (saveEventUnder ext c.attempt.fault c.attempt.now c.message db).2

/-- The rows of `events` a call adds, each with the queue it came from. -/
def newRows (c : SaveCall) (db : Db) : List (String × EventRow) :=
  ((c.run ext db).tables.events.drop db.tables.events.length).map fun e => (c.message.queueName, e)

def runAll (calls : List SaveCall) (db : Db) : Db := calls.foldl (fun db c => c.run ext db) db

/-- The rows of `events` that a series of calls adds. -/
def storedRows : List SaveCall → Db → List (String × EventRow)
  | [], _ => []
  | c :: rest, db => c.newRows ext db ++ storedRows rest (c.run ext db)

end SaveCall

/-- Whether an event is filed under a booking. -/
def EventRow.isOf (e : EventRow) (uid : String) : Bool :=
  e.bookingId == some uid && uid != "" && e.eventType != EventType.userSynced.value

/-- The stored events of a booking. -/
def ofBooking (uid : String) (rows : List (String × EventRow)) : List (String × EventRow) :=
  rows.filter fun e => e.2.isOf uid

/-- `first_seen_at` and `last_seen_at`. -/
def Booking.seen (b : Booking) : Timestamp × Timestamp := (b.firstSeenAt, b.lastSeenAt)

/-- The times of the events that move `last_seen_at`: the first one's, and those from the lifecycle
queue. -/
def sightings (first : String × EventRow) (rest : List (String × EventRow)) : Set Timestamp :=
  {t | t = first.2.occurredAt ∨
    ∃ e ∈ rest, e.1 = BOOKING_LIFECYCLE_SAVER_QUEUE ∧ t = e.2.occurredAt}

/-- A booking was seen as its stored events say. -/
def SeenBy : List (String × EventRow) → Option (Timestamp × Timestamp) → Prop
  | [], seen => seen = none
  | first :: rest, seen =>
    ∃ last, seen = some (first.2.occurredAt, last) ∧ IsGreatest (sightings first rest) last

/-- What a stored event of a booking does to the times. -/
def seeEvent (e : String × EventRow) : Option (Timestamp × Timestamp) → Timestamp × Timestamp
  | none => (e.2.occurredAt, e.2.occurredAt)
  | some (first, last) =>
    (first, if e.1 = BOOKING_LIFECYCLE_SAVER_QUEUE then max last e.2.occurredAt else last)

section Events

lemma SeenBy.concat {rows : List (String × EventRow)} {seen : Option (Timestamp × Timestamp)}
    (h : SeenBy rows seen) (e : String × EventRow) :
    SeenBy (rows ++ [e]) (some (seeEvent e seen)) := by
  cases rows with
  | nil =>
    obtain rfl : seen = none := h
    refine ⟨e.2.occurredAt, rfl, .inl rfl, ?_⟩
    rintro t (rfl | ⟨e', he', _⟩)
    · exact le_rfl
    · cases he'
  | cons first rest =>
    obtain ⟨last, rfl, hmem, hbound⟩ := h
    by_cases hqueue : e.1 = BOOKING_LIFECYCLE_SAVER_QUEUE
    · refine ⟨max last e.2.occurredAt, by rw [seeEvent, if_pos hqueue], ?_, ?_⟩
      · rcases le_total last e.2.occurredAt with hle | hle
        · rw [max_eq_right hle]
          exact .inr ⟨e, List.mem_append_right _ (List.mem_singleton_self e), hqueue, rfl⟩
        · rw [max_eq_left hle]
          refine hmem.imp id fun ⟨e', he', hq, ht⟩ => ?_
          exact ⟨e', List.mem_append_left _ he', hq, ht⟩
      · rintro t (ht | ⟨e', he', hq, ht⟩)
        · exact le_max_of_le_left (hbound (.inl ht))
        · rcases List.mem_append.mp he' with he' | he'
          · exact le_max_of_le_left (hbound (.inr ⟨e', he', hq, ht⟩))
          · rw [List.mem_singleton.mp he'] at ht
            exact le_max_of_le_right ht.le
    · refine ⟨last, by rw [seeEvent, if_neg hqueue], ?_, ?_⟩
      · refine hmem.imp id fun ⟨e', he', hq, ht⟩ => ?_
        exact ⟨e', List.mem_append_left _ he', hq, ht⟩
      · rintro t (ht | ⟨e', he', hq, ht⟩)
        · exact hbound (.inl ht)
        · rcases List.mem_append.mp he' with he' | he'
          · exact hbound (.inr ⟨e', he', hq, ht⟩)
          · rw [List.mem_singleton.mp he'] at hq
            exact absurd hq hqueue

end Events

section Steps

variable {ext : Externals} {c : SaveCall} {uid : String} {db : Db} {event : ParsedEvent}

lemma isOf_row (h : EventParser.parse ext c.attempt.now c.message = .ok event) :
    (EventRepository.row event).isOf uid = true ↔ c.message.FiledUnder uid := by
  obtain ⟨hbooking, htype, _⟩ := EventParser.parse_filed ext h
  simp only [EventRow.isOf, EventRepository.row, hbooking, htype, Bool.and_eq_true, beq_iff_eq,
    bne_iff_ne]
  constructor
  · rintro ⟨⟨hbooking, hne⟩, htype⟩
    exact ⟨hbooking, hne, htype⟩
  · rintro ⟨hbooking, hne, htype⟩
    exact ⟨⟨hbooking, hne⟩, htype⟩

lemma onRow_seen {queueName : String} {known : Bool} {work : BookingWork}
    (hplan : plan ext queueName event uid known 0 = .ok work) (row : Option Booking) :
    (work.onRow row).map Booking.seen =
      if known then row.map Booking.seen
      else some (row.elim (event.occurredAt, event.occurredAt) fun b =>
        (b.firstSeenAt, max b.lastSeenAt event.occurredAt)) := by
  obtain ⟨organizer, client, _, ⟨rfl, hupsert, _, hclient, _⟩ | ⟨rfl, ⟨data, _, hupsert⟩, _⟩⟩ :=
    plan_eq_ok ext hplan
  · rw [BookingWork.onRow, hupsert, hclient]
    rfl
  · rw [BookingWork.onRow, hupsert]
    cases work.newClient <;> cases row <;> rfl

/-- An event that is stored for a booking. -/
lemma seen_filed (h : db.WellFormed) (hm : c.message.FiledUnder uid)
    (hparse : EventParser.parse ext c.attempt.now c.message = .ok event)
    (hnew : isDuplicate event db = false) {db' : Db}
    (he : saveEffect ext c.attempt.now c.message db = .ok db') :
    (db'.bookingOf uid).map Booking.seen =
        some (seeEvent (c.message.queueName, EventRepository.row event)
          ((db.bookingOf uid).map Booking.seen)) ∧
      ∀ uid' ≠ uid, db'.bookingOf uid' = db.bookingOf uid' := by
  obtain ⟨event', hparse', hfiled⟩ := bookingOf_filed h hm he
  obtain rfl : event = event' := Except.ok.inj (hparse.symm.trans hparse')
  rw [hnew, if_neg Bool.false_ne_true] at hfiled
  obtain ⟨work, hplan, hrow, hothers⟩ := hfiled
  refine ⟨?_, hothers⟩
  have hsome : (findBooking uid db.tables.bookings).isSome = (db.bookingOf uid).isSome := by
    rw [Db.bookingOf, Option.isSome_map]
  rw [hrow, onRow_seen hplan, bookingKnown, hsome]
  cases hb : db.bookingOf uid with
  | none =>
    rw [Option.isSome_none, Bool.and_false]
    rfl
  | some b =>
    rw [Option.isSome_some, Bool.and_true]
    by_cases hqueue : c.message.queueName = BOOKING_LIFECYCLE_SAVER_QUEUE
    · simp [seeEvent, hqueue, Booking.seen, EventRepository.row]
    · simp [seeEvent, hqueue, Booking.seen]

/-- An event that is filed under no booking moves no time. -/
lemma seen_unfiled (hm : ∀ uid, ¬ c.message.FiledUnder uid) {db' : Db}
    (he : saveEffect ext c.attempt.now c.message db = .ok db') (uid : String) :
    (db'.bookingOf uid).map Booking.seen = (db.bookingOf uid).map Booking.seen := by
  obtain ⟨event, _, hunfiled⟩ := bookingOf_unfiled hm he
  split at hunfiled
  · rw [hunfiled]
  · split at hunfiled
    · obtain ⟨request, _, hrow⟩ := hunfiled
      rw [hrow, Option.map_map]
      congr 1
      funext b
      rcases request with _ | ⟨role, _ | email, u⟩
      · rfl
      · rfl
      · simp only [Function.comp, Booking.backfilled]
        split
        · cases role <;> rfl
        · rfl
    · rw [hunfiled]

variable (ext) in
/-- What one call does: it adds no event and moves no time, or it adds its event and moves the
times of the booking of that event. -/
lemma SaveCall.step (h : db.WellFormed) (c : SaveCall) :
    (c.newRows ext db = [] ∧ ∀ uid, ((c.run ext db).bookingOf uid).map Booking.seen =
      (db.bookingOf uid).map Booking.seen) ∨
    ∃ e, c.newRows ext db = [e] ∧ ∀ uid, ((c.run ext db).bookingOf uid).map Booking.seen =
      if e.2.isOf uid then some (seeEvent e ((db.bookingOf uid).map Booking.seen))
      else (db.bookingOf uid).map Booking.seen := by
  have hsame (htables : (c.run ext db).tables = db.tables) :
      c.newRows ext db = [] ∧ ∀ uid, ((c.run ext db).bookingOf uid).map Booking.seen =
        (db.bookingOf uid).map Booking.seen := by
    refine ⟨?_, fun uid => ?_⟩
    · rw [SaveCall.newRows, htables, List.drop_length]
      rfl
    · rw [Db.bookingOf, htables, Db.bookingOf]
  rcases saveEventUnder_cases ext c.attempt.fault c.attempt.now c.message db with heffect | htables
  · obtain ⟨event, hparse, hingest⟩ := bind_eq_ok.mp heffect
    have hevents := ingestEffect_events ext hingest
    cases hd : isDuplicate event db with
    | true =>
      rw [ingestEffect, if_pos hd] at hingest
      exact .inl (hsame (congrArg Db.tables (Except.ok.inj hingest)).symm)
    | false =>
      rw [hd, if_neg Bool.false_ne_true] at hevents
      refine .inr ⟨(c.message.queueName, EventRepository.row event), ?_, fun uid => ?_⟩
      · rw [SaveCall.newRows, SaveCall.run, hevents, List.drop_left]
        rfl
      · by_cases hfiled : c.message.FiledUnder uid
        · rw [if_pos ((isOf_row hparse).mpr hfiled)]
          exact (seen_filed h hfiled hparse hd heffect).1
        · rw [if_neg fun hof => hfiled ((isOf_row hparse).mp hof)]
          by_cases hother : ∃ uid', c.message.FiledUnder uid'
          · obtain ⟨uid', hfiled'⟩ := hother
            have hne : uid ≠ uid' := by
              rintro rfl
              exact hfiled hfiled'
            exact congrArg (Option.map Booking.seen)
              ((seen_filed h hfiled' hparse hd heffect).2 uid hne)
          · exact seen_unfiled (fun uid' hfiled' => hother ⟨uid', hfiled'⟩) heffect uid
  · exact .inl (hsame htables)

end Steps

section Runs

variable {ext : Externals} {db : Db}

lemma SaveCall.run_events (c : SaveCall) (db : Db) :
    (c.run ext db).tables.events = db.tables.events ++ (c.newRows ext db).map Prod.snd := by
  obtain ⟨rows, hrows⟩ : ∃ rows, (c.run ext db).tables.events = db.tables.events ++ rows := by
    rcases saveEventUnder_cases ext c.attempt.fault c.attempt.now c.message db with heffect | htables
    · obtain ⟨event, _, hingest⟩ := bind_eq_ok.mp heffect
      exact ⟨_, ingestEffect_events ext hingest⟩
    · exact ⟨[], (congrArg Tables.events htables).trans (List.append_nil _).symm⟩
  rw [SaveCall.newRows, hrows, List.drop_left, List.map_map]
  exact congrArg (db.tables.events ++ ·) (List.map_id rows).symm

/-- The rows of `events` are those the calls have added. -/
lemma storedRows_events (calls : List SaveCall) :
    (SaveCall.runAll ext calls db).tables.events =
      db.tables.events ++ (SaveCall.storedRows ext calls db).map Prod.snd := by
  induction calls generalizing db with
  | nil => exact (List.append_nil _).symm
  | cons c rest ih =>
    have hrest := @ih (c.run ext db)
    rw [c.run_events, List.append_assoc, ← List.map_append] at hrest
    exact hrest

lemma SeenBy.runAll (h : db.WellFormed) {rows : List (String × EventRow)} {uid : String}
    (hseen : SeenBy (ofBooking uid rows) ((db.bookingOf uid).map Booking.seen))
    (calls : List SaveCall) :
    SeenBy (ofBooking uid (rows ++ SaveCall.storedRows ext calls db))
      (((SaveCall.runAll ext calls db).bookingOf uid).map Booking.seen) := by
  induction calls generalizing db rows with
  | nil =>
    rw [SaveCall.storedRows, List.append_nil]
    exact hseen
  | cons c rest ih =>
    have hnext : SeenBy (ofBooking uid (rows ++ c.newRows ext db))
        (((c.run ext db).bookingOf uid).map Booking.seen) := by
      rcases SaveCall.step ext h c with ⟨hnone, htimes⟩ | ⟨e, hone, htimes⟩
      · rw [hnone, List.append_nil, htimes]
        exact hseen
      · rw [hone, htimes, ofBooking, List.filter_append, List.filter_singleton]
        by_cases hof : e.2.isOf uid = true
        · rw [if_pos hof, hof]
          exact hseen.concat e
        · rw [if_neg hof, Bool.eq_false_iff.mpr hof, Bool.cond_false, List.append_nil]
          exact hseen
    rw [SaveCall.storedRows, ← List.append_assoc]
    exact ih (h.saveEventUnder ext _ _ _) hnext

/-- After any calls of `save_event`, `first_seen_at` of a booking is the time of the first of its
events that was stored, and `last_seen_at` the greatest time of that event and of those that came
through the lifecycle queue. -/
theorem seen_times (ext : Externals) (calls : List SaveCall) (uid : String) :
    (SaveCall.runAll ext calls .empty).tables.events =
        (SaveCall.storedRows ext calls .empty).map Prod.snd ∧
      SeenBy (ofBooking uid (SaveCall.storedRows ext calls .empty))
        (((SaveCall.runAll ext calls .empty).bookingOf uid).map Booking.seen) := by
  refine ⟨storedRows_events calls, ?_⟩
  have hempty : SeenBy (ofBooking uid []) ((Db.empty.bookingOf uid).map Booking.seen) := rfl
  exact hempty.runAll .empty calls

end Runs

/-- The times of the stored events of a booking. -/
def eventTimes (uid : String) (events : List EventRow) : Set Timestamp :=
  {t | ∃ e ∈ events, e.isOf uid = true ∧ e.occurredAt = t}

/-- A creation, a later chat event and an earlier cancellation. -/
def aroundTheCreation : List SaveCall :=
  [ ⟨⟨0, .none⟩, .sample BOOKING_LIFECYCLE_SAVER_QUEUE "1" "b" .bookingCreated 2 (.obj [])⟩,
    ⟨⟨0, .none⟩, .sample "events.chat" "2" "b" .chatCreated 3 (.obj [])⟩,
    ⟨⟨0, .none⟩, .sample BOOKING_LIFECYCLE_SAVER_QUEUE "3" "b" .bookingCancelled 1 (.obj [])⟩]

/-- Neither the earlier nor the later event moves a bound of the booking. -/
theorem seen_times_not_extremes :
    let db := SaveCall.runAll .sample aroundTheCreation .empty
    ∃ b, db.bookingOf "b" = some b ∧
      ¬ IsLeast (eventTimes "b" db.tables.events) b.firstSeenAt ∧
      ¬ IsGreatest (eventTimes "b" db.tables.events) b.lastSeenAt := by
  refine ⟨_, rfl, fun hleast => ?_, fun hgreatest => ?_⟩
  · have hle := hleast.2 ⟨_, List.mem_of_getElem (i := 2) (h := by decide) rfl, rfl, rfl⟩
    exact absurd hle (by decide)
  · have hle := hgreatest.2 ⟨_, List.mem_of_getElem (i := 1) (h := by decide) rfl, rfl, rfl⟩
    exact absurd hle (by decide)

end EventSaver
