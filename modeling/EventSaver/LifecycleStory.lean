import EventSaver.Processing
import EventSaver.ProjectionRows

/-!
# Booking rows and lifecycle rows

A lifecycle event writes the ids of its participants twice, into the bookings row and into a row of
booking_lifecycle_events. The two rows agree.
-/

namespace EventSaver
open JsonData TableData EffectProgram

/-- The booking_lifecycle_events rows of a booking. -/
def Db.lifecycleEventsOf (db : Db) (uid : String) : List LifecycleEvent :=
  match findBooking uid db.tables.bookings with
  | some b => rowsOf b.id db.tables.lifecycleEvents
  | none => []

def LifecycleEvent.userId (row : LifecycleEvent) : RecipientRole → Option Uuid
  | .organizer => row.organizerUserId
  | .client => row.clientUserId

/-- The payload of a reassignment names a user as the new client. -/
def NamesNewClient (ext : Externals) (payload : Json) (u : Uuid) : Prop :=
  ∃ original s, payload.get? "original" = some original ∧
    original.get? "new_client_user_id" = some (.str s) ∧ ext.uuid s = some u

/-- A message has added one lifecycle row, and the bookings row holds the ids of that row and keeps
its own where that row has none. The client of a reassignment is the new one, if it is named. -/
structure SameStory (ext : Externals) (m : Message) (uid : String) (db db' : Db)
    (row : LifecycleEvent) (booking : Booking) : Prop where
  added : db'.lifecycleEventsOf uid = db.lifecycleEventsOf uid ++ [row]
  rawEventId : row.rawEventId = m.eventId
  bookingOf : db'.bookingOf uid = some booking
  given : ∀ role u, row.userId role = some u → booking.userId role = some u
  kept : ∀ role, row.userId role = none →
    booking.userId role = (db.bookingOf uid).bind fun b => b.userId role
  newClient : m.eventType = EventType.bookingClientReassigned.value →
    ∀ u, NamesNewClient ext (EventParser.orEmpty m.payload) u →
      row.clientUserId = some u ∧ booking.clientUserId = some u
  noNewClient : m.eventType = EventType.bookingClientReassigned.value →
    (∀ u, ¬NamesNewClient ext (EventParser.orEmpty m.payload) u) →
      ∃ organizer client, ParticipantExtractor.extract ext (EventParser.orEmpty m.payload) =
          .ok (organizer, client) ∧
        row.clientUserId = client ∧
        booking.clientUserId = client.or ((db.bookingOf uid).bind fun b => b.clientUserId)

section Rows

variable {ext : Externals} {args : HandleArgs} {writes : List ProjectionWrite}

/-- The writes to the lifecycle table. -/
def ofLifecycle : ProjectionWrite.Kind → Bool
  | .lifecycleEvent => true
  | _ => false

/-- The row a lifecycle event makes. -/
structure LifecycleEvent.MadeFor (row : LifecycleEvent) (args : HandleArgs) : Prop where
  rawEventId : row.rawEventId = args.event.eventId
  organizerUserId : row.organizerUserId = args.organizerUserId
  clientUserId : row.clientUserId = args.clientUserId

/-- A lifecycle event is written to the lifecycle table once. -/
lemma lifecycleWrites_eq (hcan : LifecycleProjection.canHandle args.event = true)
    (h : projectionWrites ext args = .ok writes) :
    ∃ row : LifecycleEvent, row.MadeFor args ∧
      writes.filter (fun w => ofLifecycle w.kind) =
        [.insertLifecycleEvent args.bookingRefId row] := by
  obtain ⟨ws, hws, hfilter⟩ := projectionWrites_filter h ofLifecycle
  cases hws with
  | @cons _ write _ ws hwrite hws =>
    cases hws
    rw [StatementBuilder.write_of hcan] at hwrite
    obtain ⟨stmt, hstmt, hwrite⟩ := bind_eq_ok.mp hwrite
    obtain ⟨built, hbuilt, rfl⟩ := except_map_eq_ok.mp hstmt
    obtain ⟨action, haction⟩ := Option.isSome_iff_exists.mp (actionOf_isSome hcan)
    rw [LifecycleProjection.statement, haction] at hbuilt
    obtain ⟨details, _, hbuilt⟩ := bind_eq_ok.mp hbuilt
    cases hbuilt
    cases hwrite
    rw [hfilter]
    exact ⟨_, ⟨rfl, rfl, rfl⟩, rfl⟩

/-- The effect of a write on the lifecycle rows of its booking. -/
def lifecycleWrite (w : ProjectionWrite) (rows : List LifecycleEvent) : List LifecycleEvent :=
  match w with
  | .insertLifecycleEvent _ row =>
    insertUnless (fun l => l.rawEventId == row.rawEventId) row rows
  | _ => rows

lemma lifecycleEvents_write (w : ProjectionWrite) (cell : BookingCell) :
    (cell.write w).lifecycleEvents = lifecycleWrite w cell.lifecycleEvents := by
  cases w <;> rfl

/-- The lifecycle rows after the writes for an event that has no row yet. -/
lemma lifecycleEvents_writes {row : LifecycleEvent}
    (h : writes.filter (fun w => ofLifecycle w.kind) =
      [.insertLifecycleEvent args.bookingRefId row]) (base : BookingCell)
    (hnew : ∀ l ∈ base.lifecycleEvents, l.rawEventId ≠ row.rawEventId) :
    (writes.foldl (fun cell w => cell.write w) base).lifecycleEvents =
      base.lifecycleEvents ++ [row] := by
  have hfold (ws : List ProjectionWrite) (base : BookingCell) :
      (ws.foldl (fun cell w => cell.write w) base).lifecycleEvents =
        ws.foldl (fun rows w => lifecycleWrite w rows) base.lifecycleEvents := by
    induction ws generalizing base with
    | nil => rfl
    | cons w rest ih => rw [List.foldl_cons, ih, lifecycleEvents_write, List.foldl_cons]
  have hother (rows : List LifecycleEvent) (w : ProjectionWrite)
      (hw : ofLifecycle w.kind = false) : lifecycleWrite w rows = rows := by
    cases w <;> first | rfl | cases hw
  rw [hfold, foldl_filter_kind (p := ofLifecycle) hother, h]
  exact insertUnless_of_new fun l hl => beq_eq_false_iff_ne.mpr (hnew l hl)

end Rows

section Clients

variable {ext : Externals}

/-- The reassignment branch reads the user the payload names. -/
lemma newClient_eq_some (huuid : ext.uuid "" = none) {payload : Json} {answer : Option Uuid}
    (h : IngestEvent.newClient ext payload = .ok answer) (u : Uuid) :
    answer = some u ↔ NamesNewClient ext payload u := by
  rw [IngestEvent.newClient_eq_some_iff h]
  constructor
  · rintro ⟨original, s, horiginal, hs, _, hu⟩
    exact ⟨original, s, horiginal, hs, hu⟩
  · rintro ⟨original, s, horiginal, hs, hu⟩
    refine ⟨original, s, horiginal, hs, ?_, hu⟩
    rintro rfl
    rw [huuid] at hu
    cases hu

/-- The ids an upsert and an update of the client leave in the row of a booking. -/
lemma onRow_userId {work : BookingWork} {excluded : Booking} (h : work.upsert = some excluded)
    (row : Option Booking) :
    ∃ booking, work.onRow row = some booking ∧
      booking.organizerUserId =
        excluded.organizerUserId.or (row.bind fun b => b.organizerUserId) ∧
      booking.clientUserId =
        (work.newClient.or excluded.clientUserId).or (row.bind fun b => b.clientUserId) := by
  rw [BookingWork.onRow, h]
  cases work.newClient <;> cases row <;>
    exact ⟨_, rfl, by simp [Booking.merge, Booking.setUserId], by simp [Booking.merge, Booking.setUserId]⟩

end Clients

section Saves

variable {ext : Externals} {now : Timestamp} {m : Message} {uid : String} {db db' : Db}

lemma lifecycleEventsOf_eq (db : Db) (uid : String) :
    db.lifecycleEventsOf uid = (db.cellOf uid).elim [] (·.lifecycleEvents) := by
  have hcell : db.cellOf uid = (findBooking uid db.tables.bookings).map (cellOf db.tables) := rfl
  rw [Db.lifecycleEventsOf, hcell]
  cases findBooking uid db.tables.bookings <;> rfl

/-- A new message whose save takes effect is stored. -/
lemma stored_of_effect (h : db.WellFormed) (hnew : ¬db.Stores m)
    (heffect : saveEffect ext now m db = .ok db') : saveOutcome ext now m db = .stored := by
  obtain ⟨event, hparse, _⟩ := bind_eq_ok.mp heffect
  have hd : isDuplicate event db = false := Bool.eq_false_iff.mpr fun hd =>
    not_conflicts_of_not_stores h hparse hnew ((content_conflicts h).mpr hd)
  rw [saveOutcome, saveEvent_ok ext heffect, trace_execute ext hparse, hd]
  rfl

/-- The lifecycle rows of a booking stem from stored events. -/
lemma lifecycleEventsOf_ne (h : db.WellFormed) (hfresh : m.eventId ∉ db.tables.eventIds) :
    ∀ row ∈ db.lifecycleEventsOf uid, row.rawEventId ≠ m.eventId := by
  intro row hrow heq
  rw [Db.lifecycleEventsOf] at hrow
  split at hrow
  next b _ =>
    apply hfresh
    rw [← heq]
    exact h.lifecycleSources ⟨b.id, row⟩ (mem_rowsOf.mp hrow)
  next => cases hrow

/-- What a stored lifecycle message leaves: the lifecycle row with the ids of its participants, or
the client its payload names, and the bookings row with these ids or its own. -/
structure LifecycleStored (ext : Externals) (m : Message) (uid : String) (db db' : Db)
    (row : LifecycleEvent) (booking : Booking) (client newClient : Option Uuid) : Prop where
  added : db'.lifecycleEventsOf uid = db.lifecycleEventsOf uid ++ [row]
  rawEventId : row.rawEventId = m.eventId
  bookingOf : db'.bookingOf uid = some booking
  userId : ∀ role, booking.userId role =
    (row.userId role).or ((db.bookingOf uid).bind fun b => b.userId role)
  clientUserId : row.clientUserId = newClient.or client
  extracted : ∃ organizer, ParticipantExtractor.extract ext (EventParser.orEmpty m.payload) =
    .ok (organizer, client)
  reassigned : m.eventType = EventType.bookingClientReassigned.value →
    IngestEvent.newClient ext (EventParser.orEmpty m.payload) = .ok newClient

/-- A stored lifecycle message is written into the row of its booking and into a row of its own. -/
lemma lifecycleStored_of_stored (h : db.WellFormed) (hm : m.LifecycleOf uid)
    (htype : m.eventType ∈ LifecycleProjection.lifecycleTypes.map EventType.value)
    (hstored : saveOutcome ext now m db = .stored) :
    ∃ row booking client newClient,
      LifecycleStored ext m uid db (saveEvent ext now m db).2 row booking client newClient := by
  obtain ⟨event, work, hparse, hplan, hcontent⟩ := content_of_stored h hm.toFiledUnder hstored
  obtain ⟨_, heventType, hpayload⟩ := EventParser.parse_filed ext hparse
  have heventId := (EventParser.parse_keys ext hparse).1
  have hknown : bookingKnown m.queueName db uid = false := by
    rw [bookingKnown, hm.queueName]
    rfl
  rw [hknown] at hplan
  obtain ⟨organizer, client, hextract, ⟨hfalse, _⟩ | ⟨_, ⟨data, _, hupsert⟩, _, hclient, hwrites⟩⟩ :=
    plan_eq_ok ext hplan
  · cases hfalse
  have hcan : LifecycleProjection.canHandle event = true := by
    rw [LifecycleProjection.canHandle, heventType]
    exact decide_eq_true htype
  obtain ⟨row, hmade, hfilter⟩ := lifecycleWrites_eq hcan hwrites
  obtain ⟨booking, hbooking, horganizerId, hclientId⟩ := onRow_userId hupsert (db.bookingOf uid)
  have hcell : (saveEvent ext now m db).2.cellOf uid = work.onBooking (db.cellOf uid) := by
    rw [Db.cellOf, hcontent]
    exact Function.update_self _ _ _
  obtain ⟨base, _, _, hlifecycles, honBooking⟩ :=
    onBooking_eq work (db.cellOf uid) (.inl (hupsert ▸ rfl))
  refine ⟨row, booking, client, work.newClient, {
    added := ?_
    rawEventId := hmade.rawEventId.trans heventId
    bookingOf := ?_
    userId := fun role => ?_
    clientUserId := hmade.clientUserId
    extracted := ⟨organizer, hpayload ▸ hextract⟩
    reassigned := fun hre => ?_ }⟩
  · rw [lifecycleEventsOf_eq, hcell, honBooking, lifecycleEventsOf_eq, ← hlifecycles]
    refine lifecycleEvents_writes hfilter base ?_
    rw [hlifecycles, ← lifecycleEventsOf_eq, hmade.rawEventId, heventId]
    exact lifecycleEventsOf_ne h (fresh_of_stored h hstored)
  · rw [bookingOf_eq_content]
    change ((saveEvent ext now m db).2.cellOf uid).map (·.booking) = some booking
    rw [hcell, onBooking_booking, ← hbooking, bookingOf_eq_content]
    rfl
  · cases role with
    | organizer => exact horganizerId.trans (by rw [LifecycleEvent.userId, hmade.organizerUserId]; rfl)
    | client => exact hclientId.trans (by rw [LifecycleEvent.userId, hmade.clientUserId]; rfl)
  · rw [reassignedClient, if_pos (heventType.trans hre), hpayload] at hclient
    exact hclient

/-- When a new lifecycle message commits, the row of its booking and its lifecycle row tell the
same story. -/
theorem sameStory_lifecycle (huuid : ext.uuid "" = none) (h : db.WellFormed)
    (hm : m.LifecycleOf uid)
    (htype : m.eventType ∈ LifecycleProjection.lifecycleTypes.map EventType.value)
    (hnew : ¬db.Stores m) {fault : Fault Exc}
    (hcommits : commits (SqlExecutor.execute ext) fault (IngestEvent.execute ext now m) db = true) :
    ∃ row booking, SameStory ext m uid db (saveEventUnder ext fault now m db).2 row booking := by
  have heffect := saveEventUnder_of_commits ext hcommits
  have hstored := stored_of_effect h hnew heffect
  have hdb := effect_of_stored hstored
  rw [heffect] at hdb
  rw [Except.ok.inj hdb]
  obtain ⟨row, booking, client, newClient, hrows⟩ := lifecycleStored_of_stored h hm htype hstored
  have hclient : booking.clientUserId =
      row.clientUserId.or ((db.bookingOf uid).bind fun b => b.clientUserId) := hrows.userId .client
  refine ⟨row, booking, {
    added := hrows.added
    rawEventId := hrows.rawEventId
    bookingOf := hrows.bookingOf
    given := fun role u hu => ?_
    kept := fun role hnone => ?_
    newClient := fun hre u hnames => ?_
    noNewClient := fun hre hnames => ?_ }⟩
  · rw [hrows.userId, hu]
    rfl
  · rw [hrows.userId, hnone]
    rfl
  · have hnewClient := (newClient_eq_some huuid (hrows.reassigned hre) u).mpr hnames
    have hrow : row.clientUserId = some u := by
      rw [hrows.clientUserId, hnewClient]
      rfl
    refine ⟨hrow, ?_⟩
    rw [hclient, hrow]
    rfl
  · have hnewClient : newClient = none := Option.eq_none_iff_forall_ne_some.mpr fun u hu =>
      hnames u ((newClient_eq_some huuid (hrows.reassigned hre) u).mp hu)
    have hrow : row.clientUserId = client := by
      rw [hrows.clientUserId, hnewClient]
      rfl
    obtain ⟨organizer, hextract⟩ := hrows.extracted
    refine ⟨organizer, client, hextract, hrow, ?_⟩
    rw [hclient, hrow]

end Saves

/-- A reassignment to the client `b`, where the participants still list the client `a`. -/
def clientReassigned : Message :=
  Message.sample BOOKING_LIFECYCLE_SAVER_QUEUE "1" "b" .bookingClientReassigned 0
    (.obj [("original", .obj [("new_client_user_id",
        .str "00000000-0000-0000-0000-00000000000b")]),
      ("normalized", .obj [("participants", .arr [participant .client "a@x"
        (.str "00000000-0000-0000-0000-00000000000a")])])])

theorem sameStory_clientReassigned :
    ∃ row booking, SameStory .sample clientReassigned "b" .empty
      (saveEventUnder .sample .none 0 clientReassigned .empty).2 row booking :=
  sameStory_lifecycle rfl .empty ⟨⟨rfl, by decide, by decide⟩, rfl⟩ (by decide)
    (by rintro ⟨_, he, _⟩; cases he) rfl

end EventSaver
