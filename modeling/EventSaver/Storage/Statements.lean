import EventSaver.Storage.Tables

/-!
# The statements of a save_event transaction

Every SQL statement the use case, the repositories and the projections execute, with its
effect on the tables, as the calls of an effect program.
-/

namespace EventSaver
open JsonData TableData EffectProgram

/-- A statement rejected by the database or its driver over the type of a parameter or a
`NOT NULL` column. -/
def Exc.dataError : Exc := .dbapiError false

/-- The statements the projection handlers build. A parameter that no handler checks is
carried as the JSON value it is. -/
inductive ProjectionStmt where
  | upsertMeetingLink (bookingRefId : Nat) (userId : Uuid) (meetingUrl : Json)
      (sourceEventId : String) (occurredAt : Timestamp)
  | deleteMeetingLink (bookingRefId : Nat) (userId : Uuid)
  | upsertEmailSent (bookingRefId : Nat) (row : EmailNotification)
  | upsertEmailStatus (bookingRefId : Nat) (row : EmailNotification)
  | insertTelegramNotification (bookingRefId : Nat) (row : TelegramNotification)
  | insertEmailStatusHistory (jobId : String) (row : EmailStatus)
  | insertChatEvent (bookingRefId : Nat) (rawEventId provider : String) (chatEventType : Json)
      (messageId : Option String) (userId : Option Uuid) (textPreview : Option String)
      (occurredAt : Timestamp)
  | updateChatRead (bookingRefId : Nat) (readerUserId : Uuid) (lastReadMessageId : Json)
      (readOccurredAt : Timestamp)
  | insertVideoEvent (bookingRefId : Nat) (rawEventId : String) (videoEventType : Json)
      (participantRole : Option String) (userId : Option Uuid) (eventTime : Option Timestamp)
      (payload : Json)
  | insertLifecycleEvent (bookingRefId : Nat) (row : LifecycleEvent)

/-- A projection statement whose parameters the database has accepted. -/
inductive ProjectionWrite where
  | upsertMeetingLink (bookingRefId : Nat) (row : MeetingLink)
  | deleteMeetingLink (bookingRefId : Nat) (userId : Uuid)
  | upsertEmailSent (bookingRefId : Nat) (row : EmailNotification)
  | upsertEmailStatus (bookingRefId : Nat) (row : EmailNotification)
  | insertTelegramNotification (bookingRefId : Nat) (row : TelegramNotification)
  | insertEmailStatusHistory (jobId : String) (row : EmailStatus)
  | insertChatEvent (bookingRefId : Nat) (row : ChatEvent)
  | updateChatRead (bookingRefId : Nat) (readerUserId : Uuid) (lastReadMessageId : Option String)
      (readOccurredAt : Timestamp)
  | insertVideoEvent (bookingRefId : Nat) (row : VideoEvent)
  | insertLifecycleEvent (bookingRefId : Nat) (row : LifecycleEvent)

/-- What a save_event transaction asks of its environment. -/
inductive Call where
  | insertEvent (row : EventRow)
  | incEventsTotal (eventType : String)
  | backfillUserIdByEmail (email : Json) (role : RecipientRole) (userId : Uuid)
  | findByBookingUid (bookingUid : String)
  | upsertBooking (row : Booking)
  | saveOrganizerHistory (bookingRefId : Nat) (row : OrganizerAssignment)
  | updateClient (bookingRefId : Nat) (clientUserId : Uuid)
  | incBookingLifecycleTotal (action : String)
  | project (stmt : ProjectionStmt)

/-- `insertEvent` answers whether a row was inserted, a lookup or an upsert the id of the
row. -/
@[reducible] def Call.Reply : Call → Type
  | .insertEvent _ => Bool
  | .findByBookingUid _ => Option Nat
  | .upsertBooking _ => Option Nat
  | _ => Unit

abbrev Calls : Signature := ⟨Call, Call.Reply⟩

abbrev Ingest (α : Type) := Program Calls Exc α

section Effects

/-- The unique constraints of `events`: the primary key, and the partial index on non-null
idempotency keys. -/
def EventRow.conflicts (row other : EventRow) : Bool :=
  other.eventId == row.eventId ||
    (row.idempotencyKey.isSome && other.idempotencyKey == row.idempotencyKey)

/-- The bookings row after `on conflict (booking_uid) do update`. -/
def Booking.merge (excluded existing : Booking) : Booking :=
  { existing with
    lastSeenAt := max existing.lastSeenAt excluded.lastSeenAt
    startTime := excluded.startTime.or existing.startTime
    endTime := excluded.endTime.or existing.endTime
    currentStatus := excluded.currentStatus.or existing.currentStatus
    organizerUserId := excluded.organizerUserId.or existing.organizerUserId
    clientUserId := excluded.clientUserId.or existing.clientUserId }

def findBooking (bookingUid : String) (bookings : List BookingRow) : Option BookingRow :=
  bookings.find? fun b => b.bookingUid == bookingUid

def upsertBookingRow (id : Nat) (row : Booking) : List BookingRow → List BookingRow :=
  upsertWhere (fun b => b.bookingUid == row.bookingUid) (fun b => b.update row.merge)
    { row with id := id }

@[simp] lemma BookingRow.update_id (b : BookingRow) (f : Booking → Booking) :
    (b.update f).id = b.id := rfl

@[simp] lemma BookingRow.update_toBooking (b : BookingRow) (f : Booking → Booking) :
    (b.update f).toBooking = f b.toBooking := rfl

@[simp] lemma Booking.merge_bookingUid (excluded existing : Booking) :
    (excluded.merge existing).bookingUid = existing.bookingUid := rfl

@[simp] lemma Booking.setUserId_bookingUid (b : Booking) (role : RecipientRole) (u : Uuid) :
    (b.setUserId role u).bookingUid = b.bookingUid := by
  cases role <;> rfl

/-- The row an upsert leaves under its booking_uid. -/
lemma findBooking_upsertBookingRow (id : Nat) (row : Booking) (bookings : List BookingRow) :
    findBooking row.bookingUid (upsertBookingRow id row bookings) =
      some ((findBooking row.bookingUid bookings).elim { row with id := id }
        fun b => b.update row.merge) :=
  find?_upsertWhere_self (fun b => by simp) (by simp)

/-- Whether an assignment names another organizer than the newest row of a history. -/
def OrganizerAssignment.changes (row : OrganizerAssignment) (history : List OrganizerAssignment) :
    Bool :=
  (newest OrganizerAssignment.effectiveFrom history).map (·.organizerUserId) !=
    some row.organizerUserId

def recordOrganizer (ref : Nat) (row : OrganizerAssignment)
    (history : List (Linked OrganizerAssignment)) : List (Linked OrganizerAssignment) :=
  if row.changes (rowsOf ref history) then history ++ [⟨ref, row⟩] else history

def upsertMeetingLink (ref : Nat) (link : MeetingLink) :
    List (Linked MeetingLink) → List (Linked MeetingLink) :=
  upsertWhere (fun l => l.ref == ref && l.row.userId == link.userId)
    (fun l => { l with row := link }) ⟨ref, link⟩

def deleteMeetingLink (ref : Nat) (userId : Uuid) (links : List (Linked MeetingLink)) :
    List (Linked MeetingLink) :=
  links.filter fun l => !(l.ref == ref && l.row.userId == userId)

/-- The notification after the conflict clause of the upsert for a sent e-mail. -/
def EmailNotification.mergeSent (excluded existing : EmailNotification) : EmailNotification :=
  { existing with
    userId := excluded.userId.or existing.userId
    triggerEvent := excluded.triggerEvent
    sentEventId := excluded.sentEventId
    sentAt := excluded.sentAt
    recipientEmail := excluded.recipientEmail.or existing.recipientEmail }

/-- The notification after the conflict clause of the upsert for a delivery status. -/
def EmailNotification.mergeStatus (excluded existing : EmailNotification) : EmailNotification :=
  { existing with
    lastStatus := excluded.lastStatus
    lastStatusEventTime := excluded.lastStatusEventTime
    lastStatusEventId := excluded.lastStatusEventId
    lastClickedUrl := excluded.lastClickedUrl.or existing.lastClickedUrl
    recipientEmail := excluded.recipientEmail.or existing.recipientEmail }

def upsertNotification (merge : EmailNotification → EmailNotification → EmailNotification)
    (id ref : Nat) (row : EmailNotification) :
    List EmailNotificationRow → List EmailNotificationRow :=
  upsertWhere (fun n => n.jobId == row.jobId)
    (fun n => { merge row n.toEmailNotification with id := n.id, bookingRefId := ref })
    { row with id := id, bookingRefId := ref }

def findNotification (jobId : String) (notifications : List EmailNotificationRow) :
    Option EmailNotificationRow :=
  notifications.find? fun n => n.jobId == jobId

def insertStatusHistory (notifications : List EmailNotificationRow) (jobId : String)
    (row : EmailStatus) (history : List (Linked EmailStatus)) : List (Linked EmailStatus) :=
  match findNotification jobId notifications with
  | some n => insertUnless (fun h => h.row.sourceEventId == row.sourceEventId) ⟨n.id, row⟩ history
  | none => history

/-- Whether the read update of a reader reaches a chat row. -/
def ChatEvent.readBy (readerUserId : Uuid) (lastReadMessageId : Option String)
    (readOccurredAt : Timestamp) (row : ChatEvent) : Bool :=
  row.chatEventType == "message.new" && row.userId != some readerUserId &&
    ((lastReadMessageId.isSome && row.messageId == lastReadMessageId) ||
      row.occurredAt < readOccurredAt)

def updateChatRead (ref : Nat) (readerUserId : Uuid) (lastReadMessageId : Option String)
    (readOccurredAt : Timestamp) : List (Linked ChatEvent) → List (Linked ChatEvent) :=
  updateWhere (fun c => c.ref == ref && c.row.readBy readerUserId lastReadMessageId readOccurredAt)
    fun c => { c with row := { c.row with isRead := some true } }

end Effects

section RowsOfABooking

variable {ref r : Nat}

lemma rowsOf_recordOrganizer_self (row : OrganizerAssignment)
    (history : List (Linked OrganizerAssignment)) :
    rowsOf ref (recordOrganizer ref row history) =
      if row.changes (rowsOf ref history) then rowsOf ref history ++ [row]
      else rowsOf ref history := by
  unfold recordOrganizer
  split
  · exact rowsOf_append_self
  · rfl

lemma rowsOf_recordOrganizer_other (h : r ≠ ref) (row : OrganizerAssignment)
    (history : List (Linked OrganizerAssignment)) :
    rowsOf ref (recordOrganizer r row history) = rowsOf ref history := by
  unfold recordOrganizer
  split
  · exact rowsOf_append_other h
  · rfl

lemma rowsOf_upsertMeetingLink_self (link : MeetingLink) (links : List (Linked MeetingLink)) :
    rowsOf ref (upsertMeetingLink ref link links) =
      upsertWhere (fun l => l.userId == link.userId) (fun _ => link) link (rowsOf ref links) :=
  rowsOf_upsertWhere_self (q := fun l : MeetingLink => l.userId == link.userId) (g := fun _ => link)

lemma rowsOf_upsertMeetingLink_other (h : r ≠ ref) (link : MeetingLink)
    (links : List (Linked MeetingLink)) :
    rowsOf ref (upsertMeetingLink r link links) = rowsOf ref links :=
  rowsOf_upsertWhere_other (q := fun l : MeetingLink => l.userId == link.userId)
    (g := fun _ => link) h

lemma rowsOf_deleteMeetingLink_self (userId : Uuid) (links : List (Linked MeetingLink)) :
    rowsOf ref (deleteMeetingLink ref userId links) =
      (rowsOf ref links).filter fun l => !(l.userId == userId) :=
  rowsOf_filter_self (q := fun l : MeetingLink => l.userId == userId)

lemma rowsOf_deleteMeetingLink_other (h : r ≠ ref) (userId : Uuid)
    (links : List (Linked MeetingLink)) :
    rowsOf ref (deleteMeetingLink r userId links) = rowsOf ref links :=
  rowsOf_filter_other (q := fun l : MeetingLink => l.userId == userId) h

lemma rowsOf_updateChatRead_self (reader : Uuid) (messageId : Option String) (time : Timestamp)
    (chats : List (Linked ChatEvent)) :
    rowsOf ref (updateChatRead ref reader messageId time chats) =
      updateWhere (fun c => c.readBy reader messageId time)
        (fun c => { c with isRead := some true }) (rowsOf ref chats) :=
  rowsOf_updateWhere_self (q := fun c : ChatEvent => c.readBy reader messageId time)
    (g := fun c => { c with isRead := some true })

lemma rowsOf_updateChatRead_other (h : r ≠ ref) (reader : Uuid) (messageId : Option String)
    (time : Timestamp) (chats : List (Linked ChatEvent)) :
    rowsOf ref (updateChatRead r reader messageId time chats) = rowsOf ref chats := by
  refine rowsOf_updateWhere_other (fun l hl => ?_) fun l => rfl
  rw [Bool.and_eq_true, beq_iff_eq] at hl
  exact hl.1 ▸ h

end RowsOfABooking

section Backfill

variable (ext : Externals)

/-- `p->>'key'`. -/
def textAt (p : Json) (key : String) : Option String :=
  match p.get? key with
  | none => none
  | some .null => none
  | some (.str s) => some s
  | some value => some (ext.jsonbText value)

/-- The elements of `payload->'normalized'->'participants'` when that is an array. -/
def storedParticipants (payload : Json) : List Json :=
  match payload.get? "normalized" with
  | some normalized =>
    match normalized.get? "participants" with
    | some (.arr participants) => participants
    | _ => []
  | none => []

/-- The participants of a role in a stored event of a booking. -/
def EventRow.listed (e : EventRow) (bookingUid : String) (role : RecipientRole) : List Json :=
  if e.bookingId = some bookingUid then
    (storedParticipants e.payload).filter fun p => textAt ext p "role" == some role.value
  else []

/-- The `EXISTS` clause of `_BACKFILL_BY_EMAIL`. -/
def participantListed (events : List EventRow) (bookingUid : String) (role : RecipientRole)
    (email : String) : Bool :=
  events.any fun e => (e.listed ext bookingUid role).any fun p =>
    ext.lower ((textAt ext p "email").getD "") == ext.lower email

/-- A stored event of a booking lists under a role a participant with the e-mail, up to letter
case. One without an e-mail counts as one with the empty text. -/
def EventRow.Mentions (e : EventRow) (bookingUid : String) (role : RecipientRole)
    (email : String) : Prop :=
  e.bookingId = some bookingUid ∧ ∃ p ∈ storedParticipants e.payload,
    textAt ext p "role" = some role.value ∧
      ext.lower ((textAt ext p "email").getD "") = ext.lower email

variable {ext} in
lemma EventRow.mem_listed {e : EventRow} {bookingUid : String} {role : RecipientRole} {p : Json} :
    p ∈ e.listed ext bookingUid role ↔ e.bookingId = some bookingUid ∧
      p ∈ storedParticipants e.payload ∧ textAt ext p "role" = some role.value := by
  rw [EventRow.listed]
  split
  · rename_i hbooking
    rw [List.mem_filter, beq_iff_eq]
    exact (and_iff_right hbooking).symm
  · rename_i hbooking
    exact iff_of_false List.not_mem_nil fun h => hbooking h.1

variable {ext} in
theorem participantListed_iff {events : List EventRow} {bookingUid email : String}
    {role : RecipientRole} :
    participantListed ext events bookingUid role email = true ↔
      ∃ e ∈ events, e.Mentions ext bookingUid role email := by
  simp only [participantListed, List.any_eq_true, EventRow.mem_listed, EventRow.Mentions,
    beq_iff_eq]
  constructor
  · rintro ⟨e, he, p, ⟨hbooking, hp, hrole⟩, hemail⟩
    exact ⟨e, he, hbooking, p, hp, hrole, hemail⟩
  · rintro ⟨e, he, hbooking, p, hp, hrole, hemail⟩
    exact ⟨e, he, p, ⟨hbooking, hp, hrole⟩, hemail⟩

def backfillBookings (events : List EventRow) (role : RecipientRole) (email : Option String)
    (userId : Uuid) (bookings : List BookingRow) : List BookingRow :=
  match email with
  | some email =>
    updateWhere
      (fun b => b.userId role == none && participantListed ext events b.bookingUid role email)
      (fun b => b.update (·.setUserId role userId)) bookings
  | none => bookings

end Backfill

section Execution

/-- A parameter of a `NOT NULL` text column. -/
def textParam : Json → Except Exc String
  | .str s => .ok s
  | _ => .error .dataError

/-- A parameter compared with or stored in a nullable text. -/
def nullableTextParam : Json → Except Exc (Option String)
  | .str s => .ok (some s)
  | .null => .ok none
  | _ => .error .dataError

namespace ProjectionStmt

def bind : ProjectionStmt → Except Exc ProjectionWrite
  | .upsertMeetingLink ref userId meetingUrl sourceEventId occurredAt => do
    let meetingUrl ← textParam meetingUrl
    return .upsertMeetingLink ref ⟨userId, meetingUrl, sourceEventId, occurredAt⟩
  | .deleteMeetingLink ref userId => return .deleteMeetingLink ref userId
  | .upsertEmailSent ref row => return .upsertEmailSent ref row
  | .upsertEmailStatus ref row => return .upsertEmailStatus ref row
  | .insertTelegramNotification ref row => return .insertTelegramNotification ref row
  | .insertEmailStatusHistory jobId row => return .insertEmailStatusHistory jobId row
  | .insertChatEvent ref rawEventId provider chatEventType messageId userId textPreview
      occurredAt => do
    let chatEventType ← textParam chatEventType
    return .insertChatEvent ref { rawEventId, provider, chatEventType, messageId, userId,
                                  isRead := none, textPreview, occurredAt }
  | .updateChatRead ref readerUserId lastReadMessageId readOccurredAt => do
    let lastReadMessageId ← nullableTextParam lastReadMessageId
    return .updateChatRead ref readerUserId lastReadMessageId readOccurredAt
  | .insertVideoEvent ref rawEventId videoEventType participantRole userId eventTime payload => do
    let videoEventType ← textParam videoEventType
    return .insertVideoEvent ref { rawEventId, videoEventType, participantRole, userId, eventTime,
                                   payload }
  | .insertLifecycleEvent ref row => return .insertLifecycleEvent ref row

end ProjectionStmt

namespace ProjectionWrite

def apply (db : Db) : ProjectionWrite → Db
  | .upsertMeetingLink ref row =>
    { db with
      tables.meetingLinks := EventSaver.upsertMeetingLink ref row db.tables.meetingLinks }
  | .deleteMeetingLink ref userId =>
    { db with
      tables.meetingLinks := EventSaver.deleteMeetingLink ref userId db.tables.meetingLinks }
  | .upsertEmailSent ref row =>
    { db with
      notificationsSeq := db.notificationsSeq + 1
      tables.emailNotifications :=
        upsertNotification .mergeSent db.notificationsSeq ref row db.tables.emailNotifications }
  | .upsertEmailStatus ref row =>
    { db with
      notificationsSeq := db.notificationsSeq + 1
      tables.emailNotifications :=
        upsertNotification .mergeStatus db.notificationsSeq ref row db.tables.emailNotifications }
  | .insertTelegramNotification ref row =>
    { db with
      tables.telegramNotifications :=
        insertUnless (fun t => t.row.sourceEventId == row.sourceEventId) ⟨ref, row⟩
          db.tables.telegramNotifications }
  | .insertEmailStatusHistory jobId row =>
    { db with
      tables.emailStatusHistory :=
        insertStatusHistory db.tables.emailNotifications jobId row db.tables.emailStatusHistory }
  | .insertChatEvent ref row =>
    { db with
      tables.chatEvents :=
        insertUnless (fun c => c.row.rawEventId == row.rawEventId) ⟨ref, row⟩
          db.tables.chatEvents }
  | .updateChatRead ref readerUserId lastReadMessageId readOccurredAt =>
    { db with
      tables.chatEvents :=
        EventSaver.updateChatRead ref readerUserId lastReadMessageId readOccurredAt
          db.tables.chatEvents }
  | .insertVideoEvent ref row =>
    { db with
      tables.videoEvents :=
        insertUnless (fun v => v.row.rawEventId == row.rawEventId) ⟨ref, row⟩
          db.tables.videoEvents }
  | .insertLifecycleEvent ref row =>
    { db with
      tables.lifecycleEvents :=
        insertUnless (fun l => l.row.rawEventId == row.rawEventId) ⟨ref, row⟩
          db.tables.lifecycleEvents }

@[simp] lemma apply_events (w : ProjectionWrite) (db : Db) :
    (w.apply db).tables.events = db.tables.events := by
  cases w <;> rfl

@[simp] lemma apply_bookings (w : ProjectionWrite) (db : Db) :
    (w.apply db).tables.bookings = db.tables.bookings := by
  cases w <;> rfl

@[simp] lemma apply_bookingsSeq (w : ProjectionWrite) (db : Db) :
    (w.apply db).bookingsSeq = db.bookingsSeq := by
  cases w <;> rfl

lemma apply_notificationsSeq_le (w : ProjectionWrite) (db : Db) :
    db.notificationsSeq ≤ (w.apply db).notificationsSeq := by
  cases w <;> first | exact le_rfl | exact Nat.le_succ _

end ProjectionWrite

variable (ext : Externals)

/-- The effect of one call on the database, which the counters are no part of. -/
def SqlExecutor.execute : Handler Calls Exc Db
  | .insertEvent row, db =>
    if db.tables.events.any row.conflicts then .ok (false, db)
    else .ok (true, { db with tables.events := db.tables.events ++ [row] })
  | .incEventsTotal _, db => .ok ((), db)
  | .backfillUserIdByEmail email role userId, db => do
    let email ← nullableTextParam email
    return ((), { db with
      tables.bookings :=
        backfillBookings ext db.tables.events role email userId db.tables.bookings })
  | .findByBookingUid bookingUid, db =>
    .ok ((findBooking bookingUid db.tables.bookings).map (·.id), db)
  | .upsertBooking row, db =>
    let bookings := upsertBookingRow db.bookingsSeq row db.tables.bookings
    .ok ((findBooking row.bookingUid bookings).map (·.id),
      { db with bookingsSeq := db.bookingsSeq + 1, tables.bookings := bookings })
  | .saveOrganizerHistory ref row, db =>
    .ok ((), { db with
      tables.organizerHistory :=
        recordOrganizer ref row db.tables.organizerHistory })
  | .updateClient ref clientUserId, db =>
    .ok ((), { db with
      tables.bookings :=
        updateWhere (fun b => b.id == ref) (fun b => b.update (·.setUserId .client clientUserId))
          db.tables.bookings })
  | .incBookingLifecycleTotal _, db => .ok ((), db)
  | .project stmt, db => do
    let write ← stmt.bind
    return ((), write.apply db)

end Execution

end EventSaver
