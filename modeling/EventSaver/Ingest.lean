import EventSaver.Projections

/-!
# Ingestion of one event

The repositories, the projection executor, the use case and the facade that runs it as one
transaction.
-/

namespace EventSaver
open JsonData TableData EffectProgram

namespace EventRepository

/-- The row `save` inserts. -/
def row (event : ParsedEvent) : EventRow where
  eventId := event.eventId
  bookingId := event.bookingId
  eventType := event.eventType
  source := event.source
  hash := event.payloadHash
  occurredAt := event.occurredAt
  payload := event.payload
  idempotencyKey := event.idempotencyKey
  traceId := event.traceId
  spanId := event.spanId
  dataschema := event.dataschema

def save (event : ParsedEvent) : Ingest Bool := Program.perform (S := Calls) (.insertEvent (row event))

end EventRepository

namespace BookingRepository

/-- The row `upsert` proposes. -/
def row (data : BookingData) (occurredAt : Timestamp)
    (organizerUserId clientUserId : Option Uuid) : Booking where
  bookingUid := data.bookingId
  firstSeenAt := occurredAt
  lastSeenAt := occurredAt
  startTime := data.startTime
  endTime := data.endTime
  currentStatus := data.status
  organizerUserId := organizerUserId
  clientUserId := clientUserId

@[simp] lemma row_bookingUid (data : BookingData) (occurredAt : Timestamp)
    (organizerUserId clientUserId : Option Uuid) :
    (row data occurredAt organizerUserId clientUserId).bookingUid = data.bookingId := rfl

def upsert (data : BookingData) (occurredAt : Timestamp)
    (organizerUserId clientUserId : Option Uuid) : Ingest Nat := do
  match ← Program.perform (S := Calls)
      (.upsertBooking (row data occurredAt organizerUserId clientUserId)) with
  | some id => return id
  | none => .throw .runtimeError

def getOrNone (bookingId queueName : String) : Ingest (Option Nat) :=
  if queueName = BOOKING_LIFECYCLE_SAVER_QUEUE then return none
  else Program.perform (S := Calls) (.findByBookingUid bookingId)

/-- `_ROLE_COLUMNS.get(role)`: an array or an object is not hashable. -/
def roleColumn : Json → Except Exc (Option RecipientRole)
  | .str s =>
    if s = RecipientRole.organizer.value then return some .organizer
    else if s = RecipientRole.client.value then return some .client
    else return none
  | .arr _ => throw .typeError
  | .obj _ => throw .typeError
  | _ => return none

lemma roleColumn_eq_some {role : Json} {column : RecipientRole}
    (h : roleColumn role = .ok (some column)) : role = .str column.value := by
  cases role with
  | str s =>
    simp only [roleColumn] at h
    split at h
    next heq =>
      cases h
      rw [heq]
    next =>
      split at h
      next heq =>
        cases h
        rw [heq]
      next => cases h
  | _ => cases h

def backfillUserIdByEmail (email role : Json) (userId : Uuid) : Ingest Unit := do
  match ← Program.lift (roleColumn role) with
  | none => return ()
  | some column => Program.perform (S := Calls) (.backfillUserIdByEmail email column userId)

end BookingRepository

namespace ProjectionExecutor

/-- One turn of the loop over the handlers. -/
def project (handler : ProjectionHandler) (args : HandleArgs) : Ingest Unit := do
  match ← handler.handle args with
  | some stmt => Program.perform (S := Calls) (.project stmt)
  | none => return ()

def executeProjections (args : HandleArgs) : List ProjectionHandler → Ingest Unit
  | [] => return ()
  | handler :: rest => do
    if handler.canHandle args.event then
      project handler args
    executeProjections args rest

end ProjectionExecutor

namespace IngestEvent

variable (ext : Externals)

/-- The user a `user.synced` event announces: its e-mail, role and id. -/
def syncedUser (payload : Json) : Except Exc (Json × Json × Uuid) := do
  let original ← Payload.getD payload "original" (.obj [])
  let email ← Payload.item original "email"
  let role ← Payload.item original "role"
  let userId ← pyUuid ext (← Payload.item original "user_id")
  return (email, role, userId)

/-- The original of a payload gives the e-mail, the role and the id of a user. -/
def Announces (payload email role : Json) (u : Uuid) : Prop :=
  ∃ original userId, payload.get? "original" = some original ∧
    original.get? "email" = some email ∧ original.get? "role" = some role ∧
      original.get? "user_id" = some (.str userId) ∧ ext.uuid userId = some u

lemma announces_of_syncedUser {payload email role : Json} {u : Uuid}
    (h : syncedUser ext payload = .ok (email, role, u)) : Announces ext payload email role u := by
  obtain ⟨original, horiginal, h⟩ := bind_eq_ok.mp h
  obtain ⟨_, hemail, h⟩ := bind_eq_ok.mp h
  obtain ⟨_, hrole, h⟩ := bind_eq_ok.mp h
  obtain ⟨userId, huserId, h⟩ := bind_eq_ok.mp h
  obtain ⟨_, hu, h⟩ := bind_eq_ok.mp h
  cases h
  rw [Payload.item_eq_ok] at hemail hrole huserId
  obtain ⟨s, rfl, hs⟩ := pyUuid_eq_ok.mp hu
  obtain ⟨_, horiginal⟩ := Payload.getD_eq_ok.mp horiginal
  cases hget : payload.get? "original" with
  | none =>
    rw [horiginal, hget] at hemail
    cases hemail
  | some value =>
    rw [hget, Option.getD_some] at horiginal
    exact ⟨value, s, hget, horiginal ▸ hemail, horiginal ▸ hrole, horiginal ▸ huserId, hs⟩

/-- The client a `booking.client_reassigned` event names. The errors `uuid.UUID` raises for a
bad text or for a value that is no text are caught. -/
def newClient (payload : Json) : Except Exc (Option Uuid) := do
  let original ← Payload.getD payload "original" (.obj [])
  let newClientId ← Payload.get original "new_client_user_id"
  if newClientId.truthy then
    match pyUuid ext newClientId with
    | .ok u => return some u
    | .error .valueError => return none
    | .error .attributeError => return none
    | .error e => throw e
  else return none

/-- The original of a payload names a user by the text of an id. -/
def NamesClient (payload : Json) (u : Uuid) : Prop :=
  ∃ original s, payload.get? "original" = some original ∧
    original.get? "new_client_user_id" = some (.str s) ∧ s ≠ "" ∧ ext.uuid s = some u

variable {ext} in
/-- The reassignment branch reads the user the payload names. -/
lemma newClient_eq_some_iff {payload : Json} {answer : Option Uuid}
    (h : newClient ext payload = .ok answer) (u : Uuid) :
    answer = some u ↔ NamesClient ext payload u := by
  unfold newClient at h
  simp only [bind_eq_ok, Payload.getD_eq_ok, Payload.get_eq_ok] at h
  obtain ⟨original, ⟨_, horiginal⟩, value, ⟨_, hvalue⟩, h⟩ := h
  have hnames : NamesClient ext payload u ↔ ∃ s, value = .str s ∧ s ≠ "" ∧ ext.uuid s = some u := by
    rw [hvalue, horiginal, NamesClient]
    cases hfound : payload.get? "original" with
    | none =>
      refine iff_of_false (fun ⟨_, _, hnone, _⟩ => nomatch hnone) ?_
      rintro ⟨s, hs, _⟩
      cases hs
    | some original =>
      simp only [Option.getD_some, Option.some.injEq, exists_and_left, exists_eq_left',
        Json.getD_null_eq_str]
  rw [hnames]
  by_cases htext : ∃ s, value = .str s
  · obtain ⟨s, rfl⟩ := htext
    simp only [Json.str.injEq, exists_eq_left']
    by_cases hempty : s = ""
    · subst hempty
      have hfalsy : (Json.str "").truthy = false := rfl
      simp only [hfalsy, Bool.false_eq_true, if_false] at h
      cases h
      exact iff_of_false (Option.some_ne_none u).symm fun hne => hne.1 rfl
    · have htruthy : (Json.str s).truthy = true := by simpa [Json.truthy] using hempty
      rw [and_iff_right hempty]
      simp only [htruthy, if_true, pyUuid] at h
      cases hs : ext.uuid s with
      | none =>
        rw [hs] at h
        cases h
        rfl
      | some v =>
        rw [hs] at h
        cases h
        rfl
  · have hnone : answer = none := by
      by_cases htruthy : value.truthy = true
      · have hnull : value ≠ .null := by
          intro heq
          rw [heq] at htruthy
          cases htruthy
        rw [if_pos htruthy, pyUuid_not_text hnull (not_exists.mp htext)] at h
        cases h
        rfl
      · rw [if_neg htruthy] at h
        cases h
        rfl
    rw [hnone]
    refine iff_of_false (Option.some_ne_none u).symm ?_
    rintro ⟨s, hs, _⟩
    exact htext ⟨s, hs⟩

/-- The client after the reassignment branch. -/
def reassignClient (event : ParsedEvent) (bookingRefId : Nat) (clientUserId : Option Uuid) :
    Ingest (Option Uuid) :=
  if event.eventType = EventType.bookingClientReassigned.value then do
    match ← Program.lift (newClient ext event.payload) with
    | some newClientUuid =>
      Program.perform (S := Calls) (.updateClient bookingRefId newClientUuid)
      return some newClientUuid
    | none => return clientUserId
  else return clientUserId

def saveOrganizerHistory (event : ParsedEvent) (bookingRefId : Nat)
    (organizerUserId : Option Uuid) : Ingest Unit :=
  if event.eventType = EventType.bookingCreated.value ∨
      event.eventType = EventType.bookingReassigned.value then
    match organizerUserId with
    | some organizer => Program.perform (S := Calls)
        (.saveOrganizerHistory bookingRefId ⟨organizer, event.eventId, event.occurredAt⟩)
    | none => return ()
  else return ()

/-- The branch that writes the bookings row: the id of the row, and the client to project. -/
def upsertBooking (event : ParsedEvent) (bookingId : String)
    (organizerUserId clientUserId : Option Uuid) : Ingest (Nat × Option Uuid) := do
  let bookingData ← Program.lift
    (BookingDataExtractor.extract ext bookingId event.eventType event.payload)
  let bookingRefId ← BookingRepository.upsert bookingData event.occurredAt organizerUserId
    clientUserId
  saveOrganizerHistory event bookingRefId organizerUserId
  let clientUserId ← reassignClient ext event bookingRefId clientUserId
  return (bookingRefId, clientUserId)

/-- What follows the insertion of an event that is filed under a booking. -/
def processBooking (queueName : String) (event : ParsedEvent) (bookingId : String) :
    Ingest Unit := do
  let (organizerUserId, clientUserId) ← Program.lift (ParticipantExtractor.extract ext event.payload)
  let known ← BookingRepository.getOrNone bookingId queueName
  let (bookingRefId, clientUserId) ←
    match known with
    | some id => pure (id, clientUserId)
    | none => upsertBooking ext event bookingId organizerUserId clientUserId
  ProjectionExecutor.executeProjections
    { event, bookingRefId, organizerUserId, clientUserId, queueName } (projectionHandlers ext)

/-- What follows the insertion of an event. -/
def process (queueName : String) (event : ParsedEvent) : Ingest Unit := do
  if event.eventType = EventType.userSynced.value then
    let (email, role, userId) ← Program.lift (syncedUser ext event.payload)
    BookingRepository.backfillUserIdByEmail email role userId
  else
    match event.bookingId with
    | none => return ()
    | some bookingId =>
      if bookingId = "" then return ()
      else processBooking ext queueName event bookingId

def ingest (queueName : String) (event : ParsedEvent) : Ingest Unit := do
  let isInserted ← EventRepository.save event
  if isInserted then
    Program.perform (S := Calls) (.incEventsTotal event.eventType)
    process ext queueName event
  else return ()

def execute (now : Timestamp) (m : Message) : Ingest Unit := do
  let event ← Program.lift (EventParser.parse ext now m)
  ingest ext m.queueName event

end IngestEvent

/-- `CleanArchitectureEventStore.save_event`: the use case as one transaction. -/
def saveEventUnder (ext : Externals) (fault : Fault Exc) (now : Timestamp) (m : Message)
    (db : Db) : Except Exc Unit × Db :=
  transact (SqlExecutor.execute ext) Db.rollback fault (IngestEvent.execute ext now m) db

/-- `save_event` when no fault strikes. -/
def saveEvent (ext : Externals) (now : Timestamp) (m : Message) (db : Db) :
    Except Exc Unit × Db :=
  saveEventUnder ext .none now m db

end EventSaver
