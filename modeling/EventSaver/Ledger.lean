import Mathlib.Logic.Function.Basic
import EventSaver.ProjectionWrites

/-!
# The ledger

What the store is for, without surrogate ids: the stored events, for each booking its record and
its timelines, and for each e-mail job its notification. Saving an event touches the event, the
cell of its booking and the cell of its job.
-/

namespace EventSaver
open JsonData TableData EffectProgram

/-- What is recorded about one booking. -/
structure BookingCell where
  booking : Booking
  organizerHistory : List OrganizerAssignment
  meetingLinks : List MeetingLink
  telegramNotifications : List TelegramNotification
  chatEvents : List ChatEvent
  videoEvents : List VideoEvent
  lifecycleEvents : List LifecycleEvent

/-- What is recorded about one e-mail job, and the booking it belongs to. -/
structure EmailCell where
  notification : EmailNotification
  bookingUid : Option String
  statusHistory : List EmailStatus

@[ext] structure Ledger where
  event : String → Option EventRow
  booking : String → Option BookingCell
  email : String → Option EmailCell

namespace BookingCell

def new (row : Booking) : BookingCell := ⟨row, [], [], [], [], [], []⟩

def upsert (row : Booking) : Option BookingCell → BookingCell
  | none => new row
  | some cell => { cell with booking := row.merge cell.booking }

def recordOrganizer (row : OrganizerAssignment) (cell : BookingCell) : BookingCell :=
  { cell with
    organizerHistory :=
      if row.changes cell.organizerHistory then cell.organizerHistory ++ [row]
      else cell.organizerHistory }

def setClient (u : Uuid) (cell : BookingCell) : BookingCell :=
  { cell with booking := cell.booking.setUserId .client u }

/-- The effect of a write on the cell of its booking. -/
def write (w : ProjectionWrite) (cell : BookingCell) : BookingCell :=
  match w with
  | .upsertMeetingLink _ row =>
    { cell with
      meetingLinks :=
        upsertWhere (fun l => l.userId == row.userId) (fun _ => row) row cell.meetingLinks }
  | .deleteMeetingLink _ userId =>
    { cell with meetingLinks := cell.meetingLinks.filter fun l => !(l.userId == userId) }
  | .insertTelegramNotification _ row =>
    { cell with
      telegramNotifications :=
        insertUnless (fun t => t.sourceEventId == row.sourceEventId) row
          cell.telegramNotifications }
  | .insertChatEvent _ row =>
    { cell with
      chatEvents :=
        insertUnless (fun c => c.rawEventId == row.rawEventId) row cell.chatEvents }
  | .updateChatRead _ reader messageId time =>
    { cell with
      chatEvents :=
        updateWhere (fun c => c.readBy reader messageId time)
          (fun c => { c with isRead := some true }) cell.chatEvents }
  | .insertVideoEvent _ row =>
    { cell with
      videoEvents :=
        insertUnless (fun v => v.rawEventId == row.rawEventId) row cell.videoEvents }
  | .insertLifecycleEvent _ row =>
    { cell with
      lifecycleEvents :=
        insertUnless (fun l => l.rawEventId == row.rawEventId) row cell.lifecycleEvents }
  | .upsertEmailSent _ _ => cell
  | .upsertEmailStatus _ _ => cell
  | .insertEmailStatusHistory _ _ => cell

@[simp] lemma write_booking (w : ProjectionWrite) (cell : BookingCell) :
    (cell.write w).booking = cell.booking := by
  cases w <;> rfl

end BookingCell

namespace EmailCell

def upsert (merge : EmailNotification → EmailNotification → EmailNotification)
    (bookingUid : String) (row : EmailNotification) : Option EmailCell → EmailCell
  | none => ⟨row, some bookingUid, []⟩
  | some cell => ⟨merge row cell.notification, some bookingUid, cell.statusHistory⟩

/-- The effect of a write for a booking on the cell of its job. -/
def write (bookingUid : String) (w : ProjectionWrite) (cell : Option EmailCell) :
    Option EmailCell :=
  match w with
  | .upsertEmailSent _ row => some (upsert .mergeSent bookingUid row cell)
  | .upsertEmailStatus _ row => some (upsert .mergeStatus bookingUid row cell)
  | .insertEmailStatusHistory _ row => cell.map fun cell =>
    { cell with
      statusHistory :=
        insertUnless (fun h => h.sourceEventId == row.sourceEventId) row cell.statusHistory }
  | _ => cell

end EmailCell

namespace BookingWork

/-- The effect of the upsert on the cell of the booking. -/
def upsertCell (work : BookingWork) (cell : Option BookingCell) : Option BookingCell :=
  match work.upsert with
  | some row => some (BookingCell.upsert row cell)
  | none => cell

def organizerCell (work : BookingWork) (cell : Option BookingCell) : Option BookingCell :=
  match work.organizer with
  | some row => cell.map (BookingCell.recordOrganizer row)
  | none => cell

def clientCell (work : BookingWork) (cell : Option BookingCell) : Option BookingCell :=
  match work.newClient with
  | some u => cell.map (BookingCell.setClient u)
  | none => cell

/-- The effect of the work on the cell of its booking. -/
def onBooking (work : BookingWork) (cell : Option BookingCell) : Option BookingCell :=
  work.writes.foldl (fun cell w => cell.map (BookingCell.write w))
    (work.clientCell (work.organizerCell (work.upsertCell cell)))

/-- The effect of the work on the cell of a job. -/
def onEmail (work : BookingWork) (bookingUid jobId : String) (cell : Option EmailCell) :
    Option EmailCell :=
  work.writes.foldl
    (fun cell w => if w.jobId? = some jobId then EmailCell.write bookingUid w cell else cell) cell

end BookingWork

namespace Ledger

/-- Whether the ledger holds an event with the id or the idempotency key of another. -/
def Conflicts (L : Ledger) (row : EventRow) : Prop :=
  ∃ id other, L.event id = some other ∧ row.conflicts other = true

def insertEvent (L : Ledger) (row : EventRow) : Ledger :=
  { L with event := Function.update L.event row.eventId (some row) }

def work (bookingUid : String) (w : BookingWork) (L : Ledger) : Ledger :=
  { L with
    booking := Function.update L.booking bookingUid (w.onBooking (L.booking bookingUid))
    email := fun jobId => w.onEmail bookingUid jobId (L.email jobId) }

/-- The ledger does not see the id a plan was made for. -/
lemma work_withRef (bookingUid : String) (w : BookingWork) (ref : Nat) (L : Ledger) :
    L.work bookingUid (w.withRef ref) = L.work bookingUid w := by
  have hbooking (p : ProjectionWrite) : BookingCell.write (p.withRef ref) = BookingCell.write p := by
    cases p <;> rfl
  have hjob (p : ProjectionWrite) : (p.withRef ref).jobId? = p.jobId? := by
    cases p <;> rfl
  have hemail (p : ProjectionWrite) :
      EmailCell.write bookingUid (p.withRef ref) = EmailCell.write bookingUid p := by
    cases p <;> rfl
  ext1
  · rfl
  · simp only [work, BookingWork.onBooking, BookingWork.withRef, List.foldl_map, hbooking]
    rfl
  · simp only [work, BookingWork.onEmail, BookingWork.withRef, List.foldl_map, hjob, hemail]

/-- A stored event of the booking lists a participant of the role with the e-mail. -/
def Lists (ext : Externals) (L : Ledger) (bookingUid : String) (role : RecipientRole)
    (email : String) : Prop :=
  ∃ id e, L.event id = some e ∧ participantListed ext [e] bookingUid role email = true

open Classical in
/-- Set the id of a user under a role wherever it is missing and the e-mail is listed. -/
noncomputable def backfill (ext : Externals)
    (request : Option (RecipientRole × Option String × Uuid)) (L : Ledger) : Ledger :=
  match request with
  | some (role, some email, userId) =>
    { L with
      booking := fun uid => (L.booking uid).map fun cell =>
        if cell.booking.userId role = none ∧ L.Lists ext uid role email then
          { cell with booking := cell.booking.setUserId role userId }
        else cell }
  | _ => L

variable (ext : Externals)

/-- Whether a message that is not a lifecycle message finds its booking. -/
def known (L : Ledger) (queueName bookingUid : String) : Bool :=
  queueName != BOOKING_LIFECYCLE_SAVER_QUEUE && (L.booking bookingUid).isSome

/-- What follows the insertion of an event. -/
noncomputable def process (queueName : String) (event : ParsedEvent) (L : Ledger) :
    Except Exc Ledger :=
  if event.eventType = EventType.userSynced.value then
    (backfillRequest ext event.payload).map fun request => L.backfill ext request
  else
    match event.bookingId with
    | none => .ok L
    | some uid =>
      if uid = "" then .ok L
      else (plan ext queueName event uid (L.known queueName uid) 0).map fun w => L.work uid w

open Classical in
/-- Saving an event that has been parsed. -/
noncomputable def ingest (queueName : String) (event : ParsedEvent) (L : Ledger) :
    Except Exc Ledger :=
  if L.Conflicts (EventRepository.row event) then .ok L
  else process ext queueName event (L.insertEvent (EventRepository.row event))

/-- Saving a message. -/
noncomputable def record (now : Timestamp) (m : Message) (L : Ledger) : Except Exc Ledger := do
  let event ← EventParser.parse ext now m
  L.ingest ext m.queueName event

end Ledger

end EventSaver
