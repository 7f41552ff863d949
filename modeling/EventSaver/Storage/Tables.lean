import EventSaver.Domain.Extractors
import EventSaver.Library.Table

/-!
# The database

The ten tables the service writes and the two id sequences other rows refer to.
-/

namespace EventSaver
open JsonData TableData

/-- An events row, with the payload as it was delivered: the column holds
`cast(ujson.dumps(payload) as jsonb)`, which may order the members and write the numbers another
way. -/
structure EventRow where
  eventId : String
  bookingId : Option String
  eventType : String
  source : String
  hash : String
  occurredAt : Timestamp
  payload : Json
  idempotencyKey : Option String
  traceId : Option String
  spanId : Option String
  dataschema : Option String

/-- A bookings row without its id. -/
structure Booking where
  bookingUid : String
  firstSeenAt : Timestamp
  lastSeenAt : Timestamp
  startTime : Option Timestamp
  endTime : Option Timestamp
  currentStatus : Option String
  organizerUserId : Option Uuid
  clientUserId : Option Uuid
  deriving DecidableEq

structure BookingRow extends Booking where
  id : Nat
  deriving DecidableEq

structure OrganizerAssignment where
  organizerUserId : Uuid
  sourceEventId : String
  effectiveFrom : Timestamp
  deriving DecidableEq

structure MeetingLink where
  userId : Uuid
  meetingUrl : String
  sourceEventId : String
  occurredAt : Timestamp
  deriving DecidableEq

/-- A booking_email_notifications row without its id and its booking. -/
structure EmailNotification where
  userId : Option Uuid
  triggerEvent : Option String
  jobId : String
  sentEventId : Option String
  sentAt : Option Timestamp
  lastStatus : Option String
  lastStatusEventTime : Option Timestamp
  lastStatusEventId : Option String
  lastClickedUrl : Option String
  recipientEmail : Option String
  deriving DecidableEq

structure EmailNotificationRow extends EmailNotification where
  id : Nat
  bookingRefId : Nat
  deriving DecidableEq

structure TelegramNotification where
  userId : Option Uuid
  triggerEvent : Option String
  sourceEventId : String
  sentAt : Timestamp
  recipientEmail : Option String
  deriving DecidableEq

structure EmailStatus where
  status : String
  statusEventTime : Option Timestamp
  clickedUrl : Option String
  sourceEventId : String
  deriving DecidableEq

structure ChatEvent where
  rawEventId : String
  provider : String
  chatEventType : String
  messageId : Option String
  userId : Option Uuid
  isRead : Option Bool
  textPreview : Option String
  occurredAt : Timestamp
  deriving DecidableEq

structure VideoEvent where
  rawEventId : String
  videoEventType : String
  participantRole : Option String
  userId : Option Uuid
  eventTime : Option Timestamp
  payload : Json

structure LifecycleEvent where
  rawEventId : String
  action : String
  organizerUserId : Option Uuid
  clientUserId : Option Uuid
  details : Option (List (String × Json))
  occurredAt : Timestamp

/-- The tables. A `Linked` row refers to a bookings row by its id, one of
`emailStatusHistory` to a notification. -/
structure Tables where
  events : List EventRow
  bookings : List BookingRow
  organizerHistory : List (Linked OrganizerAssignment)
  meetingLinks : List (Linked MeetingLink)
  emailNotifications : List EmailNotificationRow
  telegramNotifications : List (Linked TelegramNotification)
  emailStatusHistory : List (Linked EmailStatus)
  chatEvents : List (Linked ChatEvent)
  videoEvents : List (Linked VideoEvent)
  lifecycleEvents : List (Linked LifecycleEvent)

/-- The database. The sequences do not take part in a rollback. -/
structure Db where
  tables : Tables
  bookingsSeq : Nat
  notificationsSeq : Nat

namespace Tables

def empty : Tables := ⟨[], [], [], [], [], [], [], [], [], []⟩

end Tables

namespace Db

def empty : Db := ⟨.empty, 0, 0⟩

/-- The database after the rollback of a transaction that began at `start`. -/
def rollback (start reached : Db) : Db := { reached with tables := start.tables }

end Db

/-- The user-id column of a role. -/
def Booking.userId (b : Booking) : RecipientRole → Option Uuid
  | .organizer => b.organizerUserId
  | .client => b.clientUserId

def Booking.setUserId (b : Booking) (role : RecipientRole) (u : Uuid) : Booking :=
  match role with
  | .organizer => { b with organizerUserId := some u }
  | .client => { b with clientUserId := some u }

def BookingRow.update (b : BookingRow) (f : Booking → Booking) : BookingRow :=
  { f b.toBooking with id := b.id }

end EventSaver
