import EventSaver.Storage.Statements

/-!
# Projection handlers

The classifier of timeline actions and the eight handlers, in the order in which the container
registers them.
-/

namespace EventSaver
open JsonData EffectProgram

def JITSI_PREFIX : String := "jitsi."

/-- `text.removeprefix(prefix)`. -/
def removePrefix (text start : String) : String :=
  if start.toList <+: text.toList then String.ofList (text.toList.drop start.toList.length)
  else text

/-- The arguments of a handler: the event, its booking, the participants found in it and the
queue it came from. -/
structure HandleArgs where
  event : ParsedEvent
  bookingRefId : Nat
  organizerUserId : Option Uuid
  clientUserId : Option Uuid
  queueName : String

namespace HandleArgs

/-- `original = event.payload.get("original", event.payload)`. -/
def original (args : HandleArgs) : Except Exc Json := Payload.original args.event.payload

/-- The id of the participant with a given role, compared as a JSON value. -/
def userIdForRole (args : HandleArgs) (role : Json) : Option Uuid :=
  if role.isStr RecipientRole.organizer.value then args.organizerUserId
  else if role.isStr RecipientRole.client.value then args.clientUserId
  else none

/-- The id of the first participant of `normalized.participants`, by its role. -/
def firstParticipantUserId (args : HandleArgs) : Except Exc (Option Uuid) := do
  match ← Payload.get args.event.payload "normalized" with
  | .obj fields =>
    match ((Json.obj fields).get? "participants").getD (.arr []) with
    | .arr (.obj first :: _) =>
      return args.userIdForRole (((Json.obj first).get? "role").getD .null)
    | _ => return none
  | _ => return none

end HandleArgs

/-- A handler: its guard, and the statement it builds. -/
structure ProjectionHandler where
  canHandle : ParsedEvent → Bool
  handle : HandleArgs → Ingest (Option ProjectionStmt)

namespace BookingTimelineClassifier

variable (ext : Externals)

def extractActionBySource (source : String) (payload : Json) : Except Exc Json :=
  if source = SourceType.getstream.value then do
    let original ← Payload.original payload
    Payload.get original "type"
  else return .null

def extractActionByEventType (eventType : String) : Option String :=
  if eventType = EventType.unisenderStatusCreated.value then some "transactional.status"
  else none

def extractActionByQueueChat (payload : Json) : Except Exc Json := do
  let original ← Payload.original payload
  let streamType ← Payload.get original "type"
  return if streamType.truthy then streamType else .null

def extractActionByQueueJitsi (eventType : String) : Option String :=
  if eventType ∈ ext.jitsiEventTypes then some (removePrefix eventType JITSI_PREFIX) else none

/-- What the extractor of the queue gives, `null` when the queue has none. -/
def extractActionByQueue (queueName eventType : String) (payload : Json) : Except Exc Json :=
  if queueName = "events.chat" then extractActionByQueueChat payload
  else if queueName = "events.jitsi" then
    return ((extractActionByQueueJitsi ext eventType).map Json.str).getD .null
  else return .null

def extractAction (queueName eventType source : String) (payload : Json) : Except Exc Json := do
  let extracted ← extractActionByQueue ext queueName eventType payload
  if extracted.truthy then
    return extracted
  let extracted ← extractActionBySource source payload
  if extracted.truthy then
    return extracted
  return .str ((extractActionByEventType eventType).getD eventType)

end BookingTimelineClassifier

namespace MeetingLinkProjection

def canHandle (event : ParsedEvent) : Bool :=
  event.eventType == EventType.meetingUrlCreated.value ||
    event.eventType == EventType.meetingUrlDeleted.value

def handle (args : HandleArgs) : Except Exc (Option ProjectionStmt) :=
  match args.organizerUserId.or args.clientUserId with
  | none => return none
  | some userId =>
    if args.event.eventType = EventType.meetingUrlDeleted.value then
      return some (.deleteMeetingLink args.bookingRefId userId)
    else do
      let original ← args.original
      let meetingUrl ← Payload.get original "meeting_url"
      return some (.upsertMeetingLink args.bookingRefId userId meetingUrl args.event.eventId
        args.event.occurredAt)

end MeetingLinkProjection

namespace EmailNotificationProjection

variable (ext : Externals)

def canHandle (event : ParsedEvent) : Bool :=
  event.eventType == EventType.notificationEmailSent.value ||
    event.eventType == EventType.unisenderStatusCreated.value

def handleEmailSent (args : HandleArgs) : Except Exc (Option ProjectionStmt) := do
  let original ← args.original
  match ← Payload.get original "job_id" with
  | .str jobId =>
    let role ← Payload.get original "recipient_role"
    let triggerEvent ← Payload.get original "trigger_event"
    let email ← Payload.get original "email"
    return some (.upsertEmailSent args.bookingRefId {
      userId := args.userIdForRole role
      triggerEvent := triggerEvent.str?
      jobId := jobId
      sentEventId := some args.event.eventId
      sentAt := some args.event.occurredAt
      lastStatus := none
      lastStatusEventTime := none
      lastStatusEventId := none
      lastClickedUrl := none
      recipientEmail := email.str? })
  | _ => return none

def handleEmailStatus (args : HandleArgs) : Except Exc (Option ProjectionStmt) := do
  let original ← args.original
  let eventData ← Payload.get original "event_data"
  match eventData with
  | .obj _ =>
    let jobId ← Payload.get eventData "job_id"
    let status ← Payload.get eventData "status"
    let clickedUrl ← Payload.get eventData "url"
    let eventTime ← Payload.get eventData "event_time"
    let email ← Payload.get eventData "email"
    match jobId with
    | .str jobId =>
      return some (.upsertEmailStatus args.bookingRefId {
        userId := none
        triggerEvent := none
        jobId := jobId
        sentEventId := none
        sentAt := none
        lastStatus := status.str?
        lastStatusEventTime := parseIsoDatetime ext eventTime
        lastStatusEventId := some args.event.eventId
        lastClickedUrl := clickedUrl.str?
        recipientEmail := email.str? })
    | _ => return none
  | _ => return none

def handle (args : HandleArgs) : Except Exc (Option ProjectionStmt) :=
  if args.event.eventType = EventType.notificationEmailSent.value then handleEmailSent args
  else if args.event.eventType = EventType.unisenderStatusCreated.value then
    handleEmailStatus ext args
  else return none

end EmailNotificationProjection

namespace TelegramNotificationProjection

def canHandle (event : ParsedEvent) : Bool :=
  event.eventType == EventType.notificationTelegramSent.value

def handle (args : HandleArgs) : Except Exc (Option ProjectionStmt) := do
  let original ← args.original
  let role ← Payload.get original "recipient_role"
  let triggerEvent ← Payload.get original "trigger_event"
  let email ← Payload.get original "email"
  return some (.insertTelegramNotification args.bookingRefId {
    userId := args.userIdForRole role
    triggerEvent := triggerEvent.str?
    sourceEventId := args.event.eventId
    sentAt := args.event.occurredAt
    recipientEmail := email.str? })

end TelegramNotificationProjection

namespace EmailStatusHistoryProjection

variable (ext : Externals)

def canHandle (event : ParsedEvent) : Bool :=
  event.eventType == EventType.unisenderStatusCreated.value

def handle (args : HandleArgs) : Except Exc (Option ProjectionStmt) := do
  let original ← args.original
  let eventData ← Payload.get original "event_data"
  match eventData with
  | .obj _ =>
    let jobId ← Payload.get eventData "job_id"
    let status ← Payload.get eventData "status"
    let eventTime ← Payload.get eventData "event_time"
    match jobId, status with
    | .str jobId, .str status =>
      let clickedUrl ← Payload.get eventData "url"
      return some (.insertEmailStatusHistory jobId {
        status := status
        statusEventTime := parseIsoDatetime ext eventTime
        clickedUrl := clickedUrl.str?
        sourceEventId := args.event.eventId })
    | _, _ => return none
  | _ => return none

end EmailStatusHistoryProjection

namespace ChatEventProjection

variable (ext : Externals)

def canHandle (event : ParsedEvent) : Bool :=
  if event.source = SourceType.getstream.value then true
  else if event.source = SourceType.booking.value then
    event.eventType == EventType.chatCreated.value ||
      event.eventType == EventType.chatDeleted.value ||
      event.eventType == EventType.chatMessageSent.value
  else false

def extractMessageId (payload : Json) : Except Exc (Option String) := do
  let original ← Payload.original payload
  match ← Payload.get original "message_id" with
  | .str messageId => return some messageId
  | _ =>
    let message ← Payload.get original "message"
    return (message.get? "id").bind Json.str?

def extractTextPreview (payload : Json) : Except Exc (Option String) := do
  let original ← Payload.original payload
  let message ← Payload.get original "message"
  return ((message.get? "text").bind Json.str?).map fun text =>
    String.ofList (text.toList.take 512)

def handle (args : HandleArgs) : Except Exc (Option ProjectionStmt) := do
  let chatEventType ← BookingTimelineClassifier.extractAction ext args.queueName
    args.event.eventType args.event.source args.event.payload
  let messageId ← extractMessageId args.event.payload
  let userId ← args.firstParticipantUserId
  let textPreview ← extractTextPreview args.event.payload
  return some (.insertChatEvent args.bookingRefId args.event.eventId args.event.source
    chatEventType messageId userId textPreview args.event.occurredAt)

end ChatEventProjection

namespace ChatReadUpdateProjection

def canHandle (event : ParsedEvent) : Bool :=
  event.source == SourceType.getstream.value &&
    event.eventType == EventType.getstreamMessageRead.value

def handle (args : HandleArgs) : Except Exc (Option ProjectionStmt) := do
  match ← args.firstParticipantUserId with
  | none => return none
  | some readerUserId =>
    let original ← args.original
    let lastReadMessageId ← Payload.get original "last_read_message_id"
    return some (.updateChatRead args.bookingRefId readerUserId lastReadMessageId
      args.event.occurredAt)

end ChatReadUpdateProjection

namespace VideoEventProjection

variable (ext : Externals)

def muteActions : List String :=
  [removePrefix EventType.jitsiAudioMuteStatusChanged.value JITSI_PREFIX,
    removePrefix ext.jitsiVideoMuteStatusChanged JITSI_PREFIX]

def deviceAction : String := removePrefix ext.jitsiDeviceListChanged JITSI_PREFIX

def conferenceActions : List String :=
  [removePrefix EventType.jitsiConferenceJoined.value JITSI_PREFIX,
    removePrefix EventType.jitsiConferenceLeft.value JITSI_PREFIX]

def canHandle (event : ParsedEvent) : Bool := decide (event.eventType ∈ ext.jitsiEventTypes)

def extractParticipantRole (payload : Json) : Except Exc (Option String) := do
  let original ← Payload.original payload
  let context ← Payload.get original "context"
  return ((context.get? "user").bind (·.get? "role")).bind Json.str?

def extractEventTime (payload : Json) : Except Exc (Option Timestamp) := do
  let original ← Payload.original payload
  let time ← Payload.get original "time"
  return parseIsoDatetime ext time

/-- The minimised payload. Testing an array or an object for membership in a set of actions
raises. -/
def projectPayload (videoEventType payload : Json) : Except Exc Json := do
  let original ← Payload.original payload
  match videoEventType with
  | .arr _ => throw .typeError
  | .obj _ => throw .typeError
  | .str action =>
    if action ∈ muteActions ext then
      match ← Payload.get original "muted" with
      | .bool muted => return .obj [("muted", .bool muted)]
      | _ => return .obj []
    else if action = deviceAction ext then
      match ← Payload.get original "devices" with
      | .obj devices => return .obj [("devices", .obj devices)]
      | _ => return .obj []
    else if action ∈ conferenceActions then return .obj []
    else return original
  | _ => return original

def handle (args : HandleArgs) : Except Exc (Option ProjectionStmt) := do
  let videoEventType ← BookingTimelineClassifier.extractAction ext args.queueName
    args.event.eventType SourceType.jitsi.value args.event.payload
  let participantRole ← extractParticipantRole args.event.payload
  let userId := args.userIdForRole ((participantRole.map Json.str).getD .null)
  let eventTime ← extractEventTime ext args.event.payload
  let projectedPayload ← projectPayload ext videoEventType args.event.payload
  return some (.insertVideoEvent args.bookingRefId args.event.eventId videoEventType
    participantRole userId eventTime projectedPayload)

end VideoEventProjection

namespace LifecycleProjection

variable (ext : Externals)

def lifecycleTypes : List EventType :=
  [.bookingCreated, .bookingRescheduled, .bookingReassigned, .bookingCancelled, .bookingRejected,
    .bookingClientReassigned]

def actionOf (eventType : String) : Option String :=
  if eventType = EventType.bookingCreated.value then some "created"
  else if eventType = EventType.bookingRescheduled.value then some "rescheduled"
  else if eventType = EventType.bookingReassigned.value then some "reassigned"
  else if eventType = EventType.bookingCancelled.value then some "cancelled"
  else if eventType = EventType.bookingRejected.value then some "rejected"
  else if eventType = EventType.bookingClientReassigned.value then some "client_reassigned"
  else none

def canHandle (event : ParsedEvent) : Bool :=
  decide (event.eventType ∈ lifecycleTypes.map EventType.value)

/-- `_pick`: the keys present and not `null`. A text or a list is searched for the keys too, and
raises where one is found. -/
def pick (source : Json) (keys : List String) : Except Exc (Option (List (String × Json))) :=
  match source with
  | .obj _ =>
    let result := keys.filterMap fun key =>
      match source.get? key with
      | some .null => none
      | some value => some (key, value)
      | none => none
    return if result.isEmpty then none else some result
  | .str s =>
    if keys.any fun key => decide (key.toList <:+: s.toList) then throw .typeError else return none
  | .arr items =>
    if keys.any fun key => items.any (·.isStr key) then throw .typeError else return none
  | _ => throw .typeError

/-- The loop over the participants of a reassignment. -/
def previousOrganizer : List Json → Except Exc (Option (List (String × Json)))
  | [] => return none
  | p :: rest => do
    let role ← Payload.get p "role"
    if role.isStr "previous_organizer" then
      let userId ← Payload.get p "user_id"
      return some [("previous_organizer", userId)]
    else previousOrganizer rest

/-- The values `for p in participants` iterates over. -/
def iterate : Json → Except Exc (List Json)
  | .arr items => return items
  | .str s => return s.toList.map fun c => .str c.toString
  | .obj fields => return fields.map fun field => .str field.1
  | _ => throw .typeError

def extractDetails (event : ParsedEvent) : Except Exc (Option (List (String × Json))) :=
  let original := ext.unwrapPayload event.payload
  if event.eventType = EventType.bookingCreated.value then
    pick original ["start_time", "end_time"]
  else if event.eventType = EventType.bookingRescheduled.value then
    pick original ["start_time", "end_time", "previous_start_time", "previous_booking_uid",
      "rescheduled_by"]
  else if event.eventType = EventType.bookingReassigned.value then do
    let normalized ← Payload.getD event.payload "normalized" (.obj [])
    let participants ← Payload.getD normalized "participants" (.arr [])
    previousOrganizer (← iterate participants)
  else if event.eventType = EventType.bookingCancelled.value then
    pick original ["cancellation_reason", "cancelled_by"]
  else if event.eventType = EventType.bookingRejected.value then
    pick original ["rejection_type", "rejection_reasons", "available_from", "has_active_booking",
      "active_booking_start"]
  else if event.eventType = EventType.bookingClientReassigned.value then
    pick original ["new_client_user_id", "requested_by"]
  else return none

/-- The statement, with the action that is counted once the details are known. -/
def statement (args : HandleArgs) : Except Exc (Option (String × ProjectionStmt)) :=
  match actionOf args.event.eventType with
  | none => return none
  | some action => do
    let details ← extractDetails ext args.event
    return some (action, .insertLifecycleEvent args.bookingRefId {
      rawEventId := args.event.eventId
      action := action
      organizerUserId := args.organizerUserId
      clientUserId := args.clientUserId
      details := details
      occurredAt := args.event.occurredAt })

def handle (args : HandleArgs) : Ingest (Option ProjectionStmt) := do
  match ← Program.lift (statement ext args) with
  | none => return none
  | some (action, stmt) =>
    Program.perform (S := Calls) (.incBookingLifecycleTotal action)
    return some stmt

end LifecycleProjection

/-- The handlers in the order of the container. -/
def projectionHandlers (ext : Externals) : List ProjectionHandler :=
  [ ⟨MeetingLinkProjection.canHandle, fun args => Program.lift (MeetingLinkProjection.handle args)⟩,
    ⟨EmailNotificationProjection.canHandle,
      fun args => Program.lift (EmailNotificationProjection.handle ext args)⟩,
    ⟨TelegramNotificationProjection.canHandle,
      fun args => Program.lift (TelegramNotificationProjection.handle args)⟩,
    ⟨EmailStatusHistoryProjection.canHandle,
      fun args => Program.lift (EmailStatusHistoryProjection.handle ext args)⟩,
    ⟨ChatEventProjection.canHandle, fun args => Program.lift (ChatEventProjection.handle ext args)⟩,
    ⟨ChatReadUpdateProjection.canHandle,
      fun args => Program.lift (ChatReadUpdateProjection.handle args)⟩,
    ⟨VideoEventProjection.canHandle ext,
      fun args => Program.lift (VideoEventProjection.handle ext args)⟩,
    ⟨LifecycleProjection.canHandle, LifecycleProjection.handle ext⟩ ]

end EventSaver
