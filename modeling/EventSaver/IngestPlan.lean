import EventSaver.Ingest

/-!
# The plan of an ingestion

The calls of a `save_event` transaction do not depend on what the database answers, apart from
whether the booking is known and from its id. `processEffect` is the effect of everything that
follows the insertion of an event as one function, and `saveEvent` is characterised by it.
-/

namespace EventSaver
open JsonData TableData EffectProgram

/-- What the writes for one event do to the booking it is filed under. -/
structure BookingWork where
  upsert : Option Booking
  organizer : Option OrganizerAssignment
  newClient : Option Uuid
  writes : List ProjectionWrite

namespace BookingWork

def applyUpsert (w : BookingWork) (db : Db) : Db :=
  match w.upsert with
  | some row =>
    { db with
      bookingsSeq := db.bookingsSeq + 1
      tables.bookings := upsertBookingRow db.bookingsSeq row db.tables.bookings }
  | none => db

def applyOrganizer (ref : Nat) (w : BookingWork) (db : Db) : Db :=
  match w.organizer with
  | some row =>
    { db with tables.organizerHistory := recordOrganizer ref row db.tables.organizerHistory }
  | none => db

def applyClient (ref : Nat) (w : BookingWork) (db : Db) : Db :=
  match w.newClient with
  | some u =>
    { db with
      tables.bookings :=
        updateWhere (fun b => b.id == ref) (fun b => b.update (·.setUserId .client u))
          db.tables.bookings }
  | none => db

def apply (ref : Nat) (w : BookingWork) (db : Db) : Db :=
  w.writes.foldl ProjectionWrite.apply
    (w.applyClient ref (w.applyOrganizer ref (w.applyUpsert db)))

end BookingWork

/-- A handler without its counter: its guard, and the statement it builds. -/
structure StatementBuilder where
  canHandle : ParsedEvent → Bool
  statement : HandleArgs → Except Exc (Option ProjectionStmt)

def StatementBuilder.write (b : StatementBuilder) (args : HandleArgs) :
    Except Exc (Option ProjectionWrite) :=
  if b.canHandle args.event then do
    match ← b.statement args with
    | some stmt => return some (← stmt.bind)
    | none => return none
  else return none

lemma StatementBuilder.write_of_not {b : StatementBuilder} {args : HandleArgs}
    (hc : ¬ b.canHandle args.event = true) : b.write args = .ok none := by
  rw [StatementBuilder.write, if_neg hc]
  rfl

lemma StatementBuilder.write_of {b : StatementBuilder} {args : HandleArgs}
    (hc : b.canHandle args.event = true) :
    b.write args = b.statement args >>= fun
      | some stmt => stmt.bind.map some
      | none => .ok none := by
  rw [StatementBuilder.write, if_pos hc]
  rcases b.statement args with e | _ | stmt
  · rfl
  · rfl
  · cases stmt.bind <;> rfl

section Plan

variable (ext : Externals)

def statementBuilders : List StatementBuilder :=
  [ ⟨MeetingLinkProjection.canHandle, MeetingLinkProjection.handle⟩,
    ⟨EmailNotificationProjection.canHandle, EmailNotificationProjection.handle ext⟩,
    ⟨TelegramNotificationProjection.canHandle, TelegramNotificationProjection.handle⟩,
    ⟨EmailStatusHistoryProjection.canHandle, EmailStatusHistoryProjection.handle ext⟩,
    ⟨ChatEventProjection.canHandle, ChatEventProjection.handle ext⟩,
    ⟨ChatReadUpdateProjection.canHandle, ChatReadUpdateProjection.handle⟩,
    ⟨VideoEventProjection.canHandle ext, VideoEventProjection.handle ext⟩,
    ⟨LifecycleProjection.canHandle,
      fun args => (LifecycleProjection.statement ext args).map (Option.map Prod.snd)⟩ ]

/-- The writes of a list of handlers, in order. -/
def collectWrites (args : HandleArgs) : List StatementBuilder → Except Exc (List ProjectionWrite)
  | [] => return []
  | b :: rest => do
    let write ← b.write args
    let writes ← collectWrites args rest
    return write.toList ++ writes

def projectionWrites (args : HandleArgs) : Except Exc (List ProjectionWrite) :=
  collectWrites args (statementBuilders ext)

/-- The organizer a lifecycle event puts into the history. -/
def organizerAssignment (event : ParsedEvent) (organizerUserId : Option Uuid) :
    Option OrganizerAssignment :=
  if event.eventType = EventType.bookingCreated.value ∨
      event.eventType = EventType.bookingReassigned.value then
    organizerUserId.map fun u => ⟨u, event.eventId, event.occurredAt⟩
  else none

/-- The client a reassignment names, `none` for every other event. -/
def reassignedClient (event : ParsedEvent) : Except Exc (Option Uuid) :=
  if event.eventType = EventType.bookingClientReassigned.value then
    IngestEvent.newClient ext event.payload
  else return none

/-- The work for an event, given whether the booking was found and the id of its row. -/
def plan (queueName : String) (event : ParsedEvent) (bookingId : String) (known : Bool)
    (ref : Nat) : Except Exc BookingWork := do
  let (organizer, client) ← ParticipantExtractor.extract ext event.payload
  if known then
    let writes ← projectionWrites ext ⟨event, ref, organizer, client, queueName⟩
    return ⟨none, none, none, writes⟩
  else
    let data ← BookingDataExtractor.extract ext bookingId event.eventType event.payload
    let newClient ← reassignedClient ext event
    let writes ← projectionWrites ext ⟨event, ref, organizer, newClient.or client, queueName⟩
    return ⟨some (BookingRepository.row data event.occurredAt organizer client),
      organizerAssignment event organizer, newClient, writes⟩

/-- The id of the bookings row the writes for an event refer to. -/
def bookingRef (db : Db) (bookingId : String) : Nat :=
  ((findBooking bookingId db.tables.bookings).map (·.id)).getD db.bookingsSeq

/-- Whether `get_or_none` finds the booking. -/
def bookingKnown (queueName : String) (db : Db) (bookingId : String) : Bool :=
  queueName != BOOKING_LIFECYCLE_SAVER_QUEUE && (findBooking bookingId db.tables.bookings).isSome

def processBookingEffect (queueName : String) (event : ParsedEvent) (bookingId : String)
    (db : Db) : Except Exc Db :=
  (plan ext queueName event bookingId (bookingKnown queueName db bookingId)
    (bookingRef db bookingId)).map fun work => work.apply (bookingRef db bookingId) db

/-- The backfill a `user.synced` event asks for: a column, an e-mail and an id. -/
def backfillRequest (payload : Json) :
    Except Exc (Option (RecipientRole × Option String × Uuid)) := do
  let (email, role, userId) ← IngestEvent.syncedUser ext payload
  match ← BookingRepository.roleColumn role with
  | none => return none
  | some column => return some (column, ← nullableTextParam email, userId)

def applyBackfill (request : Option (RecipientRole × Option String × Uuid)) (db : Db) : Db :=
  match request with
  | some (role, email, userId) =>
    { db with
      tables.bookings :=
        backfillBookings ext db.tables.events role email userId db.tables.bookings }
  | none => db

/-- What follows the insertion of an event. -/
def processEffect (queueName : String) (event : ParsedEvent) (db : Db) : Except Exc Db :=
  if event.eventType = EventType.userSynced.value then do
    let request ← backfillRequest ext event.payload
    return applyBackfill ext request db
  else
    match event.bookingId with
    | none => return db
    | some bookingId =>
      if bookingId = "" then return db
      else processBookingEffect ext queueName event bookingId db

/-- Whether the insertion of an event finds a row in conflict. -/
def isDuplicate (event : ParsedEvent) (db : Db) : Bool :=
  db.tables.events.any (EventRepository.row event).conflicts

def insertRow (event : ParsedEvent) (db : Db) : Db :=
  { db with tables.events := db.tables.events ++ [EventRepository.row event] }

def ingestEffect (queueName : String) (event : ParsedEvent) (db : Db) : Except Exc Db :=
  if isDuplicate event db then .ok db
  else processEffect ext queueName event (insertRow event db)

/-- The effect of a `save_event` transaction that commits. -/
def saveEffect (now : Timestamp) (m : Message) (db : Db) : Except Exc Db := do
  let event ← EventParser.parse ext now m
  ingestEffect ext m.queueName event db

end Plan

namespace BookingWork

variable (w : BookingWork) (ref : Nat) (db : Db)

@[simp] lemma applyUpsert_events : (w.applyUpsert db).tables.events = db.tables.events := by
  unfold applyUpsert
  cases w.upsert <;> rfl

@[simp] lemma applyOrganizer_events :
    (w.applyOrganizer ref db).tables.events = db.tables.events := by
  unfold applyOrganizer
  cases w.organizer <;> rfl

@[simp] lemma applyOrganizer_bookings :
    (w.applyOrganizer ref db).tables.bookings = db.tables.bookings := by
  unfold applyOrganizer
  cases w.organizer <;> rfl

@[simp] lemma applyClient_events : (w.applyClient ref db).tables.events = db.tables.events := by
  unfold applyClient
  cases w.newClient <;> rfl

lemma applyClient_bookingIds :
    (w.applyClient ref db).tables.bookings.map (·.id) = db.tables.bookings.map (·.id) := by
  unfold applyClient
  cases w.newClient with
  | none => rfl
  | some u => exact map_updateWhere fun b => rfl

@[simp] lemma foldl_apply_events (ws : List ProjectionWrite) :
    (ws.foldl ProjectionWrite.apply db).tables.events = db.tables.events := by
  induction ws generalizing db with
  | nil => rfl
  | cons p rest ih => rw [List.foldl_cons, ih, p.apply_events]

@[simp] lemma apply_events : (w.apply ref db).tables.events = db.tables.events := by
  simp [apply]

end BookingWork

section Runs

variable (ext : Externals)

/-- The runs of `p` from `db` end as `r` says: in the given database, or in an exception. -/
def Realises (p : Ingest Unit) (db : Db) (r : Except Exc Db) : Prop :=
  match r with
  | .ok db' => p.run (SqlExecutor.execute ext) db = (.ok (), db')
  | .error e => ∃ db', p.run (SqlExecutor.execute ext) db = (.error e, db')

/-- The handler builds the statement of the builder and leaves the database alone. -/
def Builds (h : ProjectionHandler) (b : StatementBuilder) : Prop :=
  h.canHandle = b.canHandle ∧
    ∀ args db, (h.handle args).run (SqlExecutor.execute ext) db = (b.statement args, db)

lemma builds_lift (canHandle : ParsedEvent → Bool)
    (statement : HandleArgs → Except Exc (Option ProjectionStmt)) :
    Builds ext ⟨canHandle, fun args => Program.lift (statement args)⟩ ⟨canHandle, statement⟩ :=
  ⟨rfl, fun args db => Program.run_lift _ (statement args) db⟩

lemma builds_lifecycle :
    Builds ext ⟨LifecycleProjection.canHandle, LifecycleProjection.handle ext⟩
      ⟨LifecycleProjection.canHandle,
        fun args => (LifecycleProjection.statement ext args).map (Option.map Prod.snd)⟩ := by
  refine ⟨rfl, fun args db => ?_⟩
  dsimp only
  rw [LifecycleProjection.handle, Program.run_lift_bind]
  rcases LifecycleProjection.statement ext args with e | _ | ⟨action, stmt⟩ <;> rfl

lemma projectionHandlers_build :
    List.Forall₂ (Builds ext) (projectionHandlers ext) (statementBuilders ext) := by
  unfold projectionHandlers statementBuilders
  repeat' first
    | exact builds_lift ext _ _
    | exact builds_lifecycle ext
    | constructor

variable {ext}

lemma Realises.pure (db : Db) : Realises ext (.pure ()) db (.ok db) := rfl

lemma Realises.bind {p q : Ingest Unit} {db : Db} {r : Except Exc Db} {f : Db → Except Exc Db}
    (hp : Realises ext p db r) (hq : ∀ db', Realises ext q db' (f db')) :
    Realises ext (p >>= fun _ => q) db (r >>= f) := by
  cases r with
  | error e =>
    obtain ⟨db', hrun⟩ := hp
    exact ⟨db', Program.run_bind_error _ hrun⟩
  | ok db' =>
    have hrun : p.run (SqlExecutor.execute ext) db = (.ok (), db') := hp
    have hq' := hq db'
    unfold Realises at hq' ⊢
    simp only [Program.run_bind_ok _ hrun]
    exact hq'

lemma realises_project_stmt (stmt : ProjectionStmt) (db : Db) :
    Realises ext (Program.perform (S := Calls) (.project stmt)) db
      (stmt.bind.map fun write => write.apply db) := by
  have hexec : SqlExecutor.execute ext (.project stmt) db =
      stmt.bind >>= fun write => .ok ((), write.apply db) := rfl
  cases hbind : stmt.bind with
  | error e =>
    rw [hbind] at hexec
    exact ⟨db, Program.run_call_error _ hexec⟩
  | ok write =>
    rw [hbind] at hexec
    exact Program.run_call_ok _ hexec

lemma realises_project {h : ProjectionHandler} {b : StatementBuilder} (hb : Builds ext h b)
    (args : HandleArgs) (hc : h.canHandle args.event = true) (db : Db) :
    Realises ext (ProjectionExecutor.project h args) db
      ((b.write args).map fun write => write.toList.foldl ProjectionWrite.apply db) := by
  have hrun := hb.2 args db
  have hwrite := b.write_of (hb.1 ▸ hc)
  cases hs : b.statement args with
  | error e =>
    rw [hs] at hrun hwrite
    rw [hwrite]
    exact ⟨db, Program.run_bind_error _ hrun⟩
  | ok stmt =>
    rw [hs] at hrun hwrite
    cases stmt with
    | none =>
      rw [hwrite]
      exact Program.run_bind_ok _ hrun
    | some stmt =>
      have hwrite' : b.write args = stmt.bind.map some := hwrite
      have hproject : (ProjectionExecutor.project h args).run (SqlExecutor.execute ext) db =
          (Program.perform (S := Calls) (.project stmt)).run (SqlExecutor.execute ext) db :=
        Program.run_bind_ok _ hrun
      have hstmt := @realises_project_stmt ext stmt db
      unfold Realises at hstmt ⊢
      rw [hproject, hwrite']
      generalize stmt.bind = bound at hstmt ⊢
      cases bound with
      | error e => exact hstmt
      | ok write => exact hstmt

lemma realises_executeProjections {hs : List ProjectionHandler} {bs : List StatementBuilder}
    (hb : List.Forall₂ (Builds ext) hs bs) (args : HandleArgs) (db : Db) :
    Realises ext (ProjectionExecutor.executeProjections args hs) db
      ((collectWrites args bs).map fun writes => writes.foldl ProjectionWrite.apply db) := by
  induction hb generalizing db with
  | nil => exact Realises.pure db
  | @cons h b hs bs hhb _ ih =>
    have hfold : (collectWrites args (b :: bs)).map
          (fun writes => writes.foldl ProjectionWrite.apply db) =
        ((b.write args).map fun write => write.toList.foldl ProjectionWrite.apply db) >>=
          fun db' => (collectWrites args bs).map
            fun writes => writes.foldl ProjectionWrite.apply db' := by
      rw [collectWrites]
      rcases b.write args with e | write
      · rfl
      · rcases collectWrites args bs with e | writes
        · rfl
        · exact congrArg Except.ok List.foldl_append
    rw [hfold, ProjectionExecutor.executeProjections]
    by_cases hc : h.canHandle args.event = true
    · rw [if_pos hc]
      exact (realises_project hhb args hc db).bind fun db' => ih db'
    · rw [if_neg hc, b.write_of_not (hhb.1 ▸ hc)]
      exact ih db

variable (ext)

lemma realises_projectionWrites (args : HandleArgs) (db : Db) :
    Realises ext (ProjectionExecutor.executeProjections args (projectionHandlers ext)) db
      ((projectionWrites ext args).map fun writes => writes.foldl ProjectionWrite.apply db) :=
  realises_executeProjections (projectionHandlers_build ext) args db

lemma run_getOrNone (bookingId queueName : String) (db : Db) :
    (BookingRepository.getOrNone bookingId queueName).run (SqlExecutor.execute ext) db =
      (.ok (if bookingKnown queueName db bookingId then some (bookingRef db bookingId) else none),
        db) := by
  unfold BookingRepository.getOrNone bookingKnown bookingRef
  by_cases hq : queueName = BOOKING_LIFECYCLE_SAVER_QUEUE
  · rw [if_pos hq]
    simp [hq]
  · rw [if_neg hq]
    refine (Program.run_call_ok _ rfl).trans ?_
    cases findBooking bookingId db.tables.bookings <;> simp [hq]

/-- `upsert` returns the id the booking had, or else the next of the sequence. -/
lemma run_upsert (data : BookingData) (occurredAt : Timestamp) (organizer client : Option Uuid)
    (db : Db) :
    (BookingRepository.upsert data occurredAt organizer client).run (SqlExecutor.execute ext) db =
      (.ok (bookingRef db data.bookingId),
        { db with
          bookingsSeq := db.bookingsSeq + 1
          tables.bookings :=
            upsertBookingRow db.bookingsSeq
              (BookingRepository.row data occurredAt organizer client) db.tables.bookings }) := by
  have hfind := findBooking_upsertBookingRow db.bookingsSeq
    (BookingRepository.row data occurredAt organizer client) db.tables.bookings
  rw [BookingRepository.row_bookingUid] at hfind
  have hreply : (findBooking data.bookingId (upsertBookingRow db.bookingsSeq
      (BookingRepository.row data occurredAt organizer client) db.tables.bookings)).map (·.id) =
      some (bookingRef db data.bookingId) := by
    rw [hfind, bookingRef]
    cases findBooking data.bookingId db.tables.bookings with
    | none => rfl
    | some b => rfl
  refine (Program.run_call_ok _ rfl).trans ?_
  rw [BookingRepository.row_bookingUid, hreply]
  rfl

lemma run_saveOrganizerHistory (event : ParsedEvent) (ref : Nat) (organizer : Option Uuid)
    (w : BookingWork) (hw : w.organizer = organizerAssignment event organizer) (db : Db) :
    (IngestEvent.saveOrganizerHistory event ref organizer).run (SqlExecutor.execute ext) db =
      (.ok (), w.applyOrganizer ref db) := by
  unfold IngestEvent.saveOrganizerHistory BookingWork.applyOrganizer
  rw [hw, organizerAssignment]
  by_cases ht : event.eventType = EventType.bookingCreated.value ∨
      event.eventType = EventType.bookingReassigned.value
  · rw [if_pos ht, if_pos ht]
    cases organizer <;> rfl
  · rw [if_neg ht, if_neg ht]
    rfl

lemma run_reassignClient (event : ParsedEvent) (ref : Nat) (client : Option Uuid)
    (w : BookingWork) (hw : reassignedClient ext event = .ok w.newClient) (db : Db) :
    (IngestEvent.reassignClient ext event ref client).run (SqlExecutor.execute ext) db =
      (.ok (w.newClient.or client), w.applyClient ref db) := by
  unfold IngestEvent.reassignClient BookingWork.applyClient
  unfold reassignedClient at hw
  by_cases ht : event.eventType = EventType.bookingClientReassigned.value
  · rw [if_pos ht] at hw ⊢
    rw [hw]
    cases w.newClient <;> rfl
  · rw [if_neg ht] at hw ⊢
    rw [← Except.ok.inj hw]
    rfl

variable {ext} in
lemma Realises.of_run {p q : Ingest Unit} {db db' : Db} {r : Except Exc Db}
    (h : p.run (SqlExecutor.execute ext) db = q.run (SqlExecutor.execute ext) db')
    (hq : Realises ext q db' r) : Realises ext p db r := by
  unfold Realises at hq ⊢
  rwa [h]

/-- The branch that writes the bookings row runs through when its data can be extracted. -/
lemma run_upsertBooking (event : ParsedEvent) (bookingId : String) (data : BookingData)
    (organizer client newClient : Option Uuid) (w : BookingWork) (db : Db)
    (hdata : BookingDataExtractor.extract ext bookingId event.eventType event.payload = .ok data)
    (hclient : reassignedClient ext event = .ok newClient)
    (hw : w = ⟨some (BookingRepository.row data event.occurredAt organizer client),
      organizerAssignment event organizer, newClient, w.writes⟩) :
    (IngestEvent.upsertBooking ext event bookingId organizer client).run
        (SqlExecutor.execute ext) db =
      (.ok (bookingRef db bookingId, newClient.or client),
        w.applyClient (bookingRef db bookingId)
          (w.applyOrganizer (bookingRef db bookingId) (w.applyUpsert db))) := by
  have hid := BookingDataExtractor.extract_bookingId ext hdata
  unfold IngestEvent.upsertBooking
  rw [hdata]
  refine (Program.run_bind_ok _ (run_upsert ext data event.occurredAt organizer client db)).trans ?_
  refine (Program.run_bind_ok _
    (run_saveOrganizerHistory ext event _ organizer w (by rw [hw]) _)).trans ?_
  refine (Program.run_bind_ok _
    (run_reassignClient ext event _ client w (by rw [hclient, hw]) _)).trans ?_
  rw [hid, hw]
  rfl

lemma run_reassignClient_error {event : ParsedEvent} {e : Exc}
    (h : reassignedClient ext event = .error e) (ref : Nat) (client : Option Uuid) (db : Db) :
    (IngestEvent.reassignClient ext event ref client).run (SqlExecutor.execute ext) db =
      (.error e, db) := by
  unfold reassignedClient at h
  unfold IngestEvent.reassignClient
  by_cases ht : event.eventType = EventType.bookingClientReassigned.value
  · rw [if_pos ht] at h ⊢
    rw [h]
    rfl
  · rw [if_neg ht] at h
    cases h

/-- The branch that writes the bookings row fails with the reassignment it contains. -/
lemma run_upsertBooking_error (event : ParsedEvent) (bookingId : String) {data : BookingData}
    (organizer client : Option Uuid) {e : Exc}
    (hdata : BookingDataExtractor.extract ext bookingId event.eventType event.payload = .ok data)
    (hclient : reassignedClient ext event = .error e) (db : Db) :
    ∃ db', (IngestEvent.upsertBooking ext event bookingId organizer client).run
      (SqlExecutor.execute ext) db = (.error e, db') := by
  have hupsert := run_upsert ext data event.occurredAt organizer client db
  have hhistory := run_saveOrganizerHistory ext event (bookingRef db data.bookingId) organizer
    ⟨none, organizerAssignment event organizer, none, []⟩ rfl
  have hreassign := run_reassignClient_error ext hclient (bookingRef db data.bookingId) client
  rw [IngestEvent.upsertBooking, hdata]
  exact ⟨_, (Program.run_bind_ok _ hupsert).trans <|
    (Program.run_bind_ok _ (hhistory _)).trans (Program.run_bind_error _ (hreassign _))⟩

section PlanCases

variable {ext} {queueName : String} {event : ParsedEvent} {bookingId : String} {ref : Nat}
  {organizer client : Option Uuid}

lemma plan_known (hx : ParticipantExtractor.extract ext event.payload = .ok (organizer, client)) :
    plan ext queueName event bookingId true ref =
      (projectionWrites ext ⟨event, ref, organizer, client, queueName⟩).map
        fun writes => ⟨none, none, none, writes⟩ := by
  rw [plan, hx]
  rfl

lemma plan_unknown {data : BookingData} {newClient : Option Uuid}
    (hx : ParticipantExtractor.extract ext event.payload = .ok (organizer, client))
    (hdata : BookingDataExtractor.extract ext bookingId event.eventType event.payload = .ok data)
    (hclient : reassignedClient ext event = .ok newClient) :
    plan ext queueName event bookingId false ref =
      (projectionWrites ext ⟨event, ref, organizer, newClient.or client, queueName⟩).map
        fun writes => ⟨some (BookingRepository.row data event.occurredAt organizer client),
          organizerAssignment event organizer, newClient, writes⟩ := by
  rw [plan, hx, hdata, hclient]
  rfl

lemma plan_participants_error {known : Bool} {e : Exc}
    (hx : ParticipantExtractor.extract ext event.payload = .error e) :
    plan ext queueName event bookingId known ref = .error e := by
  rw [plan, hx]
  rfl

lemma plan_data_error {e : Exc}
    (hx : ParticipantExtractor.extract ext event.payload = .ok (organizer, client))
    (hdata : BookingDataExtractor.extract ext bookingId event.eventType event.payload =
      .error e) : plan ext queueName event bookingId false ref = .error e := by
  rw [plan, hx, hdata]
  rfl

lemma plan_client_error {data : BookingData} {e : Exc}
    (hx : ParticipantExtractor.extract ext event.payload = .ok (organizer, client))
    (hdata : BookingDataExtractor.extract ext bookingId event.eventType event.payload = .ok data)
    (hclient : reassignedClient ext event = .error e) :
    plan ext queueName event bookingId false ref = .error e := by
  rw [plan, hx, hdata, hclient]
  rfl

end PlanCases

theorem realises_processBooking (queueName : String) (event : ParsedEvent) (bookingId : String)
    (db : Db) :
    Realises ext (IngestEvent.processBooking ext queueName event bookingId) db
      (processBookingEffect ext queueName event bookingId db) := by
  unfold IngestEvent.processBooking processBookingEffect
  cases hx : ParticipantExtractor.extract ext event.payload with
  | error e =>
    rw [plan_participants_error hx]
    exact ⟨db, rfl⟩
  | ok ids =>
    obtain ⟨organizer, client⟩ := ids
    simp only [Program.lift_ok, Program.bind_pure']
    refine Realises.of_run (Program.run_bind_ok _ (run_getOrNone ext bookingId queueName db)) ?_
    cases hk : bookingKnown queueName db bookingId with
    | true =>
      have hwrites := realises_projectionWrites ext
        ⟨event, bookingRef db bookingId, organizer, client, queueName⟩ db
      rw [plan_known hx]
      generalize projectionWrites ext
        ⟨event, bookingRef db bookingId, organizer, client, queueName⟩ = writes at hwrites
      cases writes with
      | error e => exact hwrites
      | ok writes => exact hwrites
    | false =>
      cases hdata : BookingDataExtractor.extract ext bookingId event.eventType event.payload with
      | error e =>
        rw [plan_data_error hx hdata]
        refine ⟨db, Program.run_bind_error _ ?_⟩
        rw [IngestEvent.upsertBooking, hdata]
        rfl
      | ok data =>
        cases hclient : reassignedClient ext event with
        | error e =>
          obtain ⟨db', hrun⟩ :=
            run_upsertBooking_error ext event bookingId organizer client hdata hclient db
          rw [plan_client_error hx hdata hclient]
          exact ⟨db', Program.run_bind_error _ hrun⟩
        | ok newClient =>
          have hwrites := realises_projectionWrites ext
            ⟨event, bookingRef db bookingId, organizer, newClient.or client, queueName⟩
          rw [plan_unknown hx hdata hclient]
          refine Realises.of_run (Program.run_bind_ok _ (run_upsertBooking ext event bookingId data
            organizer client newClient ⟨_, _, newClient, []⟩ db hdata hclient rfl)) ?_
          generalize projectionWrites ext
            ⟨event, bookingRef db bookingId, organizer, newClient.or client, queueName⟩ =
              writes at hwrites
          cases writes with
          | error e => exact hwrites _
          | ok writes => exact hwrites _

lemma realises_backfill (payload : Json) (db : Db) :
    Realises ext
      (Program.lift (IngestEvent.syncedUser ext payload) >>= fun user =>
        BookingRepository.backfillUserIdByEmail user.1 user.2.1 user.2.2) db
      ((backfillRequest ext payload).map fun request => applyBackfill ext request db) := by
  unfold backfillRequest
  cases IngestEvent.syncedUser ext payload with
  | error e => exact ⟨db, rfl⟩
  | ok user =>
    obtain ⟨email, role, userId⟩ := user
    simp only [Program.lift_ok, Program.bind_pure', ok_bind]
    unfold BookingRepository.backfillUserIdByEmail
    cases BookingRepository.roleColumn role with
    | error e => exact ⟨db, rfl⟩
    | ok column =>
      cases column with
      | none => rfl
      | some column =>
        have hexec : SqlExecutor.execute ext (.backfillUserIdByEmail email column userId) db =
            nullableTextParam email >>= fun email =>
              .ok ((), applyBackfill ext (some (column, email, userId)) db) := rfl
        simp only [Program.lift_ok, Program.bind_pure', ok_bind]
        cases hemail : nullableTextParam email with
        | error e =>
          rw [hemail] at hexec
          exact ⟨db, Program.run_call_error _ hexec⟩
        | ok email =>
          rw [hemail] at hexec
          exact Program.run_call_ok _ hexec

theorem realises_process (queueName : String) (event : ParsedEvent) (db : Db) :
    Realises ext (IngestEvent.process ext queueName event) db
      (processEffect ext queueName event db) := by
  unfold IngestEvent.process processEffect
  by_cases ht : event.eventType = EventType.userSynced.value
  · rw [if_pos ht, if_pos ht]
    exact realises_backfill ext event.payload db
  · rw [if_neg ht, if_neg ht]
    cases event.bookingId with
    | none => rfl
    | some bookingId =>
      by_cases hb : bookingId = ""
      · simp only [hb, if_true]
        rfl
      · simp only [hb, if_false]
        exact realises_processBooking ext queueName event bookingId db

lemma run_save (event : ParsedEvent) (db : Db) :
    (EventRepository.save event).run (SqlExecutor.execute ext) db =
      if isDuplicate event db then (.ok false, db) else (.ok true, insertRow event db) := by
  have hexec : SqlExecutor.execute ext (.insertEvent (EventRepository.row event)) db =
      if isDuplicate event db then .ok (false, db) else .ok (true, insertRow event db) := rfl
  by_cases hd : isDuplicate event db = true
  · rw [if_pos hd] at hexec ⊢
    exact Program.run_call_ok _ hexec
  · rw [if_neg hd] at hexec ⊢
    exact Program.run_call_ok _ hexec

theorem realises_execute (now : Timestamp) (m : Message) (db : Db) :
    Realises ext (IngestEvent.execute ext now m) db (saveEffect ext now m db) := by
  unfold IngestEvent.execute saveEffect
  cases EventParser.parse ext now m with
  | error e => exact ⟨db, rfl⟩
  | ok event =>
    simp only [Program.lift_ok, Program.bind_pure', ok_bind]
    unfold IngestEvent.ingest ingestEffect
    by_cases hd : isDuplicate event db = true
    · have hsave := run_save ext event db
      rw [if_pos hd] at hsave ⊢
      exact Program.run_bind_ok _ hsave
    · have hsave := run_save ext event db
      rw [if_neg hd] at hsave ⊢
      exact Realises.of_run (Program.run_bind_ok _ hsave)
        (realises_process ext m.queueName event (insertRow event db))

variable {ext} in
lemma processEffect_events {queueName : String} {event : ParsedEvent} {db db' : Db}
    (h : processEffect ext queueName event db = .ok db') : db'.tables.events = db.tables.events := by
  unfold processEffect at h
  split at h
  · obtain ⟨request, _, h⟩ := bind_eq_ok.mp h
    cases h
    rcases request with _ | ⟨role, email, userId⟩ <;> rfl
  · split at h
    · cases h
      rfl
    · split at h
      · cases h
        rfl
      · obtain ⟨work, _, rfl⟩ := except_map_eq_ok.mp h
        exact work.apply_events _ _

/-- What is inserted into `events` by a message that is ingested. -/
theorem ingestEffect_events {queueName : String} {event : ParsedEvent} {db db' : Db}
    (h : ingestEffect ext queueName event db = .ok db') :
    db'.tables.events =
      db.tables.events ++ if isDuplicate event db then [] else [EventRepository.row event] := by
  unfold ingestEffect at h
  by_cases hd : isDuplicate event db = true
  · rw [if_pos hd] at h ⊢
    cases h
    exact (List.append_nil _).symm
  · rw [if_neg hd] at h ⊢
    exact processEffect_events h

/-- Whether an answer reports a new row of `events`. -/
def reportsNew : (Σ c : Call, c.Reply) → Bool
  | ⟨.insertEvent _, isInserted⟩ => isInserted
  | _ => false

/-- The insertion is the first call, and the only one of a duplicate. -/
lemma trace_execute {now : Timestamp} {m : Message} {event : ParsedEvent}
    (h : EventParser.parse ext now m = .ok event) (db : Db) :
    ((IngestEvent.execute ext now m).trace (SqlExecutor.execute ext) db).any reportsNew =
      !isDuplicate event db := by
  have hexec : SqlExecutor.execute ext (.insertEvent (EventRepository.row event)) db =
      if isDuplicate event db then .ok (false, db) else .ok (true, insertRow event db) := rfl
  have hcall : IngestEvent.execute ext now m =
      .call (S := Calls) (.insertEvent (EventRepository.row event)) fun isInserted =>
        if isInserted then do
          Program.perform (S := Calls) (.incEventsTotal event.eventType)
          IngestEvent.process ext m.queueName event
        else return () := by
    rw [IngestEvent.execute, h]
    rfl
  rw [hcall, Program.trace, hexec]
  by_cases hd : isDuplicate event db = true
  · rw [if_pos hd, hd]
    rfl
  · rw [if_neg hd, Bool.eq_false_iff.mpr hd]
    exact List.any_cons

lemma execute_seq_le (call : Call) (db : Db) (r : call.Reply) (db' : Db)
    (h : SqlExecutor.execute ext call db = .ok (r, db')) :
    db.bookingsSeq ≤ db'.bookingsSeq ∧ db.notificationsSeq ≤ db'.notificationsSeq := by
  cases call with
  | insertEvent row =>
    rw [SqlExecutor.execute] at h
    split at h <;> cases h <;> exact ⟨le_rfl, le_rfl⟩
  | upsertBooking row =>
    cases h
    exact ⟨Nat.le_succ _, le_rfl⟩
  | backfillUserIdByEmail email role userId =>
    obtain ⟨email, _, h⟩ := bind_eq_ok.mp h
    cases h
    exact ⟨le_rfl, le_rfl⟩
  | project stmt =>
    obtain ⟨write, _, h⟩ := bind_eq_ok.mp h
    cases h
    exact ⟨write.apply_bookingsSeq db ▸ le_rfl, write.apply_notificationsSeq_le db⟩
  | incEventsTotal _ => cases h; exact ⟨le_rfl, le_rfl⟩
  | findByBookingUid _ => cases h; exact ⟨le_rfl, le_rfl⟩
  | saveOrganizerHistory _ _ => cases h; exact ⟨le_rfl, le_rfl⟩
  | updateClient _ _ => cases h; exact ⟨le_rfl, le_rfl⟩
  | incBookingLifecycleTotal _ => cases h; exact ⟨le_rfl, le_rfl⟩

/-- `save_event` when its effect exists. -/
theorem saveEvent_ok {now : Timestamp} {m : Message} {db db' : Db}
    (h : saveEffect ext now m db = .ok db') : saveEvent ext now m db = (.ok (), db') := by
  have hrun := realises_execute ext now m db
  rw [h] at hrun
  rw [saveEvent, saveEventUnder, transact_none]
  have hrun' : (IngestEvent.execute ext now m).run (SqlExecutor.execute ext) db = (.ok (), db') :=
    hrun
  rw [hrun']

/-- The sequences have not moved back. -/
def SeqLe (db reached : Db) : Prop :=
  db.bookingsSeq ≤ reached.bookingsSeq ∧ db.notificationsSeq ≤ reached.notificationsSeq

lemma SeqLe.refl (db : Db) : SeqLe db db := ⟨le_rfl, le_rfl⟩

lemma SeqLe.trans {db₁ db₂ db₃ : Db} (h₁ : SeqLe db₁ db₂) (h₂ : SeqLe db₂ db₃) : SeqLe db₁ db₃ :=
  ⟨h₁.1.trans h₂.1, h₁.2.trans h₂.2⟩

/-- `save_event` when it raises: only the sequences have moved. -/
theorem saveEvent_error {now : Timestamp} {m : Message} {db : Db} {e : Exc}
    (h : saveEffect ext now m db = .error e) :
    ∃ reached : Db, saveEvent ext now m db = (.error e, db.rollback reached) ∧
      SeqLe db reached := by
  have hrun := realises_execute ext now m db
  rw [h] at hrun
  obtain ⟨reached, hrun⟩ := hrun
  have hseq := Program.run_rel (SqlExecutor.execute ext) SeqLe.refl SeqLe.trans
    (execute_seq_le ext) (IngestEvent.execute ext now m) db
  rw [hrun] at hseq
  rw [saveEvent, saveEventUnder, transact_none, hrun]
  exact ⟨reached, rfl, hseq⟩

/-- A `save_event` attempt that commits has the effect of the message. -/
theorem saveEventUnder_of_commits {fault : Fault Exc} {now : Timestamp} {m : Message} {db : Db}
    (h : commits (SqlExecutor.execute ext) fault (IngestEvent.execute ext now m) db = true) :
    saveEffect ext now m db = .ok (saveEventUnder ext fault now m db).2 := by
  obtain ⟨hdb, hok⟩ := transact_of_commits (SqlExecutor.execute ext) Db.rollback h
  have hok' : (saveEvent ext now m db).1.isOk = true := hok
  rw [saveEventUnder, hdb]
  change saveEffect ext now m db = .ok (saveEvent ext now m db).2
  cases heffect : saveEffect ext now m db with
  | ok db' => rw [saveEvent_ok ext heffect]
  | error e =>
    obtain ⟨reached, herr, _⟩ := saveEvent_error ext heffect
    rw [herr] at hok'
    cases hok'

/-- A `save_event` attempt that does not commit: only the sequences have moved. -/
theorem saveEventUnder_of_not_commits {fault : Fault Exc} {now : Timestamp} {m : Message}
    {db : Db}
    (h : commits (SqlExecutor.execute ext) fault (IngestEvent.execute ext now m) db = false) :
    ∃ e, ∃ reached : Db, saveEventUnder ext fault now m db = (.error e, db.rollback reached) ∧
      SeqLe db reached := by
  obtain ⟨e, he⟩ := transact_of_not_commits _ Db.rollback h
  exact ⟨e, _, he, runFaulty_rel _ SeqLe.refl SeqLe.trans (execute_seq_le ext) _ _ _⟩

/-- A `save_event` attempt under any fault has its effect or leaves every table as it was. -/
theorem saveEventUnder_cases (fault : Fault Exc) (now : Timestamp) (m : Message) (db : Db) :
    saveEffect ext now m db = .ok (saveEventUnder ext fault now m db).2 ∨
      (saveEventUnder ext fault now m db).2.tables = db.tables := by
  cases h : commits (SqlExecutor.execute ext) fault (IngestEvent.execute ext now m) db with
  | true => exact .inl (saveEventUnder_of_commits ext h)
  | false =>
    obtain ⟨e, reached, hsave, _⟩ := saveEventUnder_of_not_commits ext h
    rw [hsave]
    exact .inr rfl

end Runs

end EventSaver
