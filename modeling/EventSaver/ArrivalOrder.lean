import EventSaver.BookingRecord
import EventSaver.Participants

/-!
# The order of arrival

The bookings row after lifecycle messages of its booking have been processed in some order: every
field has the value that the last of them to carry one carries.
-/

namespace EventSaver
open JsonData TableData EffectProgram ListData

/-- The fields of a bookings row that events carry values for. -/
structure BookingFields where
  currentStatus : Option String
  startTime : Option Timestamp
  endTime : Option Timestamp
  organizerUserId : Option Uuid
  clientUserId : Option Uuid
  deriving DecidableEq

/-- The fields when each is found by one rule. -/
def BookingFields.of (pick : ∀ {α : Type}, (Booking → Option α) → Option α) : BookingFields where
  currentStatus := pick Booking.currentStatus
  startTime := pick Booking.startTime
  endTime := pick Booking.endTime
  organizerUserId := pick Booking.organizerUserId
  clientUserId := pick Booking.clientUserId

def Booking.fields (b : Booking) : BookingFields := .of fun field => field b

def Db.fieldsOf (db : Db) (uid : String) : BookingFields :=
  .of fun field => (db.bookingOf uid).bind field

section Events

variable (ext : Externals) (e : EventRow)

/-- The event stands for a status of its booking. -/
def EventRow.GivesStatus (status : String) : Prop :=
  (e.eventType, status) ∈ [(EventType.bookingCreated.value, "created"),
    (EventType.bookingCancelled.value, "cancelled"), (EventType.bookingRejected.value, "rejected")]

/-- The unwrapped payload has a time under a key. -/
def EventRow.GivesTime (key : String) (time : Timestamp) : Prop :=
  ∃ text datetime, (ext.unwrapPayload e.payload).get? key = some (.str text) ∧ text ≠ "" ∧
    ext.fromisoformat (replaceZ text) = some datetime ∧ datetime.instant = time

/-- The last participant with the role and an id has that id. -/
def EventRow.GivesUser (role : RecipientRole) (u : Uuid) : Prop :=
  ParticipantExtractor.IsLastGiven ext (ParticipantExtractor.participantsOf e.payload) role (some u)

/-- The event reassigns the booking to a client. -/
def EventRow.NamesClient (u : Uuid) : Prop :=
  e.eventType = EventType.bookingClientReassigned.value ∧ IngestEvent.NamesClient ext e.payload u

/-- The event has a client: the one it reassigns the booking to, or else the participant. -/
def EventRow.GivesClient (u : Uuid) : Prop :=
  e.NamesClient ext u ∨ (∀ v, ¬ e.NamesClient ext v) ∧ e.GivesUser ext .client u

end Events

/-- Every field is an answer to what events give for it. -/
structure BookingFields.Answer (ext : Externals)
    (answers : ∀ {α : Type}, (EventRow → α → Prop) → Option α → Prop) (fields : BookingFields) :
    Prop where
  currentStatus : answers EventRow.GivesStatus fields.currentStatus
  startTime : answers (fun e => e.GivesTime ext "start_time") fields.startTime
  endTime : answers (fun e => e.GivesTime ext "end_time") fields.endTime
  organizerUserId : answers (fun e => e.GivesUser ext .organizer) fields.organizerUserId
  clientUserId : answers (fun e => e.GivesClient ext) fields.clientUserId

/-- The event is stored for a message received at a given moment. -/
structure StoredFor (ext : Externals) (entry : Timestamp × Message) (e : EventRow) : Prop where
  eventId : e.eventId = entry.2.eventId
  eventType : e.eventType = entry.2.eventType
  payload : e.payload = EventParser.orEmpty entry.2.payload
  occurredAt : EventParser.parseOccurredAt ext entry.1 entry.2.time = .ok e.occurredAt

/-- What a series of messages stores, and what it carries for the row of a booking. -/
def recordedBy (ext : Externals) (uid : String) (ms : Journal) : List (EventRow × Booking) :=
  ms.filterMap fun entry => entry.2.recorded ext entry.1 uid

/-- Save messages one after the other. -/
def saveAll (ext : Externals) (ms : Journal) (db : Db) : Db :=
  ms.foldl (fun db entry => (saveEvent ext entry.1 entry.2 db).2) db

/-- A field that keeps its value when a merged row carries none. -/
def Coalesces {α : Type} (field : Booking → Option α) : Prop :=
  ∀ excluded existing, field (Booking.merge excluded existing) = (field excluded).or (field existing)

section Merging

variable {α : Type} {field : Booking → Option α}

/-- A field after a series of merges: the last value carried, or the one it had. -/
lemma foldl_join (hfield : Coalesces field) (entries : List (EventRow × Booking))
    (row : Option Booking) :
    (entries.foldl (fun row entry => some (Booking.join entry.2 row)) row).bind field =
      (lastValue (fun entry => field entry.2) entries).or (row.bind field) := by
  refine foldl_lastValue (fun row : Option Booking => row.bind field) (fun row entry => ?_) entries row
  cases row with
  | none => rw [Option.bind_none, Option.or_none, Option.bind_some, Booking.join, Option.elim_none]
  | some existing => exact hfield entry.2 existing

lemma BookingFields.of_congr {pick pick' : ∀ {α : Type}, (Booking → Option α) → Option α}
    (h : ∀ {α : Type} (field : Booking → Option α), Coalesces field → pick field = pick' field) :
    BookingFields.of pick = BookingFields.of pick' := by
  rw [BookingFields.of, BookingFields.of, h Booking.currentStatus fun _ _ => rfl,
    h Booking.startTime fun _ _ => rfl, h Booking.endTime fun _ _ => rfl,
    h Booking.organizerUserId fun _ _ => rfl, h Booking.clientUserId fun _ _ => rfl]

/-- What is carried last is what events give last, if events give what is carried. -/
lemma answer_last {ext : Externals} {entries : List (EventRow × Booking)}
    (h : ∀ entry ∈ entries, entry.2.fields.Answer ext fun gives answer =>
      ∀ value, answer = some value ↔ gives entry.1 value) :
    (BookingFields.of fun field => lastValue (fun entry => field entry.2) entries).Answer ext
      fun gives answer => IsLast gives (entries.map Prod.fst) answer where
  currentStatus := isLast_map fun entry hentry => (h entry hentry).currentStatus
  startTime := isLast_map fun entry hentry => (h entry hentry).startTime
  endTime := isLast_map fun entry hentry => (h entry hentry).endTime
  organizerUserId := isLast_map fun entry hentry => (h entry hentry).organizerUserId
  clientUserId := isLast_map fun entry hentry => (h entry hentry).clientUserId

lemma BookingFields.Answer.mono {ext : Externals} {fields : BookingFields}
    {answers answers' : ∀ {α : Type}, (EventRow → α → Prop) → Option α → Prop}
    (h : fields.Answer ext answers)
    (himp : ∀ {α : Type} (gives : EventRow → α → Prop) (answer : Option α),
      answers gives answer → answers' gives answer) : fields.Answer ext answers' where
  currentStatus := himp _ _ h.currentStatus
  startTime := himp _ _ h.startTime
  endTime := himp _ _ h.endTime
  organizerUserId := himp _ _ h.organizerUserId
  clientUserId := himp _ _ h.clientUserId

end Merging

section Recorded

variable {ext : Externals} {now : Timestamp} {m : Message} {uid : String} {e : EventRow}
  {carried : Booking}

lemma statusByEventType_eq_some {eventType status : String} :
    BookingDataExtractor.statusByEventType eventType = some status ↔
      (eventType, status) ∈ [(EventType.bookingCreated.value, "created"),
        (EventType.bookingCancelled.value, "cancelled"),
        (EventType.bookingRejected.value, "rejected")] := by
  simp only [List.mem_cons, Prod.mk.injEq, List.not_mem_nil, or_false]
  have hcancelled : EventType.bookingCancelled.value ≠ EventType.bookingCreated.value := by decide
  have hrejected : EventType.bookingRejected.value ≠ EventType.bookingCreated.value := by decide
  have hother : EventType.bookingRejected.value ≠ EventType.bookingCancelled.value := by decide
  unfold BookingDataExtractor.statusByEventType
  by_cases h : eventType = EventType.bookingCreated.value
  · simp [h, hcancelled.symm, hrejected.symm, eq_comm]
  · by_cases h' : eventType = EventType.bookingCancelled.value
    · simp [h', hcancelled, hother.symm, eq_comm]
    · by_cases h'' : eventType = EventType.bookingRejected.value
      · simp [h'', hrejected, hother, eq_comm]
      · simp [h, h', h'']

/-- The client after the reassignment branch is the one the event has. -/
lemma givesClient_iff {event : ParsedEvent} {newClient client : Option Uuid} {value : Uuid}
    (hnew : reassignedClient ext event = .ok newClient)
    (hclient : ∀ u, client = some u ↔ (EventRepository.row event).GivesUser ext .client u) :
    newClient.or client = some value ↔ (EventRepository.row event).GivesClient ext value := by
  have hnames (u : Uuid) :
      newClient = some u ↔ (EventRepository.row event).NamesClient ext u := by
    unfold reassignedClient at hnew
    split at hnew
    · rename_i htype
      rw [IngestEvent.newClient_eq_some_iff hnew]
      exact (and_iff_right htype).symm
    · rename_i htype
      cases hnew
      exact iff_of_false (Option.some_ne_none u).symm fun h => htype h.1
  rw [EventRow.GivesClient, ← hnames, ← hclient]
  cases newClient with
  | none =>
    rw [Option.none_or]
    refine ⟨fun h => .inr ⟨fun v hv => ?_, h⟩, fun h => ?_⟩
    · cases (hnames v).mpr hv
    · exact h.resolve_left (Option.some_ne_none value).symm |>.2
  | some v =>
    rw [Option.some_or]
    refine ⟨.inl, fun h => h.resolve_right fun hother => ?_⟩
    exact hother.1 v ((hnames v).mp rfl)

/-- What a lifecycle message carries for the row of its booking is what its event gives. -/
lemma Message.recorded_gives (h : m.recorded ext now uid = some (e, carried)) :
    StoredFor ext (now, m) e ∧ carried.fields.Answer ext fun gives answer =>
      ∀ value, answer = some value ↔ gives e value := by
  unfold Message.recorded at h
  cases hparse : EventParser.parse ext now m with
  | error _ =>
    rw [hparse] at h
    cases h
  | ok event =>
    cases hplan : plan ext m.queueName event uid false 0 with
    | error _ =>
      rw [hparse] at h
      simp only [hplan] at h
      cases h
    | ok work =>
      rw [hparse] at h
      simp only [hplan] at h
      obtain ⟨carried, hcarried, heq⟩ := Option.map_eq_some_iff.mp h
      obtain ⟨rfl, rfl⟩ := Prod.mk.inj heq
      obtain ⟨_, htype, hpayload⟩ := EventParser.parse_filed ext hparse
      obtain ⟨organizer, client, hids, ⟨hknown, _⟩ | ⟨_, ⟨data, hdata, hupsert⟩, _, hnew, _⟩⟩ :=
        plan_eq_ok ext hplan
      · cases hknown
      have hrow : carried.currentStatus = data.status ∧ carried.startTime = data.startTime ∧
          carried.endTime = data.endTime ∧ carried.organizerUserId = organizer ∧
            carried.clientUserId = work.newClient.or client := by
        rw [BookingWork.onRow, hupsert] at hcarried
        cases hclient : work.newClient <;> rw [hclient] at hcarried <;> cases hcarried <;>
          exact ⟨rfl, rfl, rfl, rfl, rfl⟩
      obtain ⟨hstatus, hstart, hend, horganizer, hclient⟩ := hrow
      obtain ⟨hdataStatus, hdataStart, hdataEnd⟩ := BookingDataExtractor.extract_eq_ok hdata
      have huser := ParticipantExtractor.isLastGiven_of_extract hids
      have htime (key : String) (value : Timestamp) :
          parseIsoDatetime ext (((ext.unwrapPayload event.payload).get? key).getD .null) =
            some value ↔ (EventRepository.row event).GivesTime ext key value := by
        simp only [parseIsoDatetime_eq_some, Json.getD_null_eq_str]
        rfl
      have hgives (role : RecipientRole) (answer : Option Uuid)
          (h : ParticipantExtractor.IsLastGiven ext
            (ParticipantExtractor.participantsOf event.payload) role answer) (u : Uuid) :
          answer = some u ↔ (EventRepository.row event).GivesUser ext role u := by
        rw [ParticipantExtractor.isLastGiven_iff] at h
        rw [EventRow.GivesUser, ParticipantExtractor.isLastGiven_iff]
        exact (congrArg (· = some u) h).to_iff.symm
      refine ⟨⟨(EventParser.parse_keys ext hparse).1, htype, hpayload,
        EventParser.parse_occurredAt ext hparse⟩, ?_⟩
      exact {
        currentStatus := fun value => by
          change carried.currentStatus = some value ↔ _
          rw [hstatus, hdataStatus]
          exact statusByEventType_eq_some
        startTime := fun value => by
          change carried.startTime = some value ↔ _
          rw [hstart, hdataStart]
          exact htime _ _
        endTime := fun value => by
          change carried.endTime = some value ↔ _
          rw [hend, hdataEnd]
          exact htime _ _
        organizerUserId := fun value => by
          change carried.organizerUserId = some value ↔ _
          rw [horganizer]
          exact hgives .organizer organizer huser.1 value
        clientUserId := fun value => by
          change carried.clientUserId = some value ↔ _
          rw [hclient]
          exact givesClient_iff hnew (hgives .client client huser.2) }

end Recorded

section Runs

variable {ext : Externals} {uid : String} {db : Db}

/-- What is stored after a save was stored before, or is the event saved. -/
lemma stores_saveEvent {now : Timestamp} {m m' : Message}
    (h : (saveEvent ext now m db).2.Stores m') : db.Stores m' ∨ m.SharesKey m' := by
  cases heffect : saveEffect ext now m db with
  | error e =>
    obtain ⟨reached, hsave, _⟩ := saveEvent_error ext heffect
    rw [hsave] at h
    exact .inl h
  | ok db' =>
    obtain ⟨event, hparse, hingest⟩ := bind_eq_ok.mp heffect
    obtain ⟨hid, hkey⟩ := EventParser.parse_keys ext hparse
    obtain ⟨e, he, hshares⟩ := h
    rw [saveEvent_ok ext heffect, ingestEffect_events ext hingest, List.mem_append] at he
    rcases he with he | he
    · exact .inl ⟨e, he, hshares⟩
    · split at he
      · cases he
      · rw [List.mem_singleton.mp he] at hshares
        refine .inr ?_
        rcases hshares with hshares | ⟨hsome, hshares⟩
        · exact .inl (hid.symm.trans hshares)
        · have heq : m.idempotencyKey = m'.idempotencyKey := hkey.symm.trans hshares
          exact .inr ⟨heq ▸ hsome, heq⟩

/-- What a series of new messages does to a part of the database on which each of them does a
step. -/
theorem saveAll_fold {σ : Type} (π : Db → σ) (step : Timestamp × Message → σ → σ)
    {P : Timestamp × Message → Prop} (h : db.WellFormed) {ms : Journal} (hms : ∀ entry ∈ ms, P entry)
    (hkeys : ms.Pairwise fun entry entry' => ¬ entry.2.SharesKey entry'.2)
    (hnew : ∀ entry ∈ ms, ¬ db.Stores entry.2)
    (hstep : ∀ db : Db, db.WellFormed → ∀ entry, P entry → ¬ db.Stores entry.2 →
      π (saveEvent ext entry.1 entry.2 db).2 = step entry (π db)) :
    π (saveAll ext ms db) = ms.foldl (fun s entry => step entry s) (π db) := by
  induction ms generalizing db with
  | nil => rfl
  | cons entry rest ih =>
    obtain ⟨hentry, hrest⟩ := List.forall_mem_cons.mp hms
    obtain ⟨hnewEntry, hnewRest⟩ := List.forall_mem_cons.mp hnew
    obtain ⟨hkeysEntry, hkeysRest⟩ := List.pairwise_cons.mp hkeys
    have hnewRest' : ∀ later ∈ rest, ¬ (saveEvent ext entry.1 entry.2 db).2.Stores later.2 := by
      intro later hlater hstores
      rcases stores_saveEvent hstores with hstores | hshares
      · exact hnewRest later hlater hstores
      · exact hkeysEntry later hlater hshares
    rw [List.foldl_cons, ← hstep db h entry hentry hnewEntry]
    exact ih (h.saveEvent entry.1 entry.2) hrest hkeysRest hnewRest'

/-- What a series of new lifecycle messages stores, and the merges of what they carry. -/
lemma recorded_saveAll (h : db.WellFormed) {ms : Journal}
    (hms : ∀ entry ∈ ms, entry.2.LifecycleOf uid)
    (hkeys : ms.Pairwise fun entry entry' => ¬ entry.2.SharesKey entry'.2)
    (hnew : ∀ entry ∈ ms, ¬ db.Stores entry.2) :
    (saveAll ext ms db).tables.events =
        db.tables.events ++ (recordedBy ext uid ms).map Prod.fst ∧
      (saveAll ext ms db).bookingOf uid =
        (recordedBy ext uid ms).foldl (fun row entry => some (Booking.join entry.2 row))
          (db.bookingOf uid) := by
  have hfold := saveAll_fold (fun db => (db.tables.events, db.bookingOf uid))
    (fun entry s => (entry.2.recorded ext entry.1 uid).elim s fun recorded =>
      (s.1 ++ [recorded.1], some (recorded.2.join s.2))) h hms hkeys hnew
      fun db h entry hentry hnew => (saveEvent_lifecycle h hentry hnew).trans (by
        cases entry.2.recorded ext entry.1 uid <;> rfl)
  have hrun (s : List EventRow × Option Booking) :
      ms.foldl (fun s entry => (entry.2.recorded ext entry.1 uid).elim s fun recorded =>
          (s.1 ++ [recorded.1], some (recorded.2.join s.2))) s =
        (s.1 ++ (recordedBy ext uid ms).map Prod.fst,
          (recordedBy ext uid ms).foldl (fun row entry => some (Booking.join entry.2 row)) s.2) := by
    clear hfold hnew hkeys hms
    induction ms generalizing s with
    | nil => exact Prod.ext (List.append_nil _).symm rfl
    | cons entry rest ih =>
      rw [List.foldl_cons, ih, recordedBy, recordedBy]
      cases hentry : entry.2.recorded ext entry.1 uid with
      | none => simp only [List.filterMap_cons, hentry, Option.elim_none]
      | some recorded =>
        simp only [List.filterMap_cons, hentry, Option.elim_some, List.map_cons, List.foldl_cons,
          List.append_assoc, List.singleton_append]
  rw [hrun] at hfold
  exact ⟨congrArg Prod.fst hfold, congrArg Prod.snd hfold⟩

lemma storedFor_recordedBy (ms : Journal) :
    List.Forall₂ (StoredFor ext) (ms.filter fun entry => (entry.2.recorded ext entry.1 uid).isSome)
      ((recordedBy ext uid ms).map Prod.fst) := by
  induction ms with
  | nil => exact .nil
  | cons entry rest ih =>
    rw [recordedBy] at ih ⊢
    cases hentry : entry.2.recorded ext entry.1 uid with
    | none =>
      simpa only [List.filter_cons, List.filterMap_cons, hentry, Option.isSome_none,
        Bool.false_eq_true, if_false] using ih
    | some recorded =>
      simp only [List.filter_cons, List.filterMap_cons, hentry, Option.isSome_some, if_true,
        List.map_cons]
      exact .cons (Message.recorded_gives hentry).1 ih

/-- Every field of a bookings row has the value that the last event stored to give one gives; when
the events are stored in the order of time, that is the newest. -/
theorem fieldsOf_saveAll (hdb : db.Reachable ext) (hnone : db.bookingOf uid = none) {ms : Journal}
    (hms : ∀ entry ∈ ms, entry.2.LifecycleOf uid)
    (hkeys : ms.Pairwise fun entry entry' => ¬ entry.2.SharesKey entry'.2)
    (hnew : ∀ entry ∈ ms, ¬ db.Stores entry.2) :
    ∃ saved rows, saved.Sublist ms ∧ List.Forall₂ (StoredFor ext) saved rows ∧
      (saveAll ext ms db).tables.events = db.tables.events ++ rows ∧
      ((saveAll ext ms db).fieldsOf uid).Answer ext (fun gives => IsLast gives rows) ∧
      (rows.Pairwise (fun e e' => e.occurredAt < e'.occurredAt) →
        ((saveAll ext ms db).fieldsOf uid).Answer ext
          fun gives => IsNewest (·.occurredAt) gives rows) := by
  obtain ⟨hevents, hrow⟩ := recorded_saveAll hdb.wellFormed hms hkeys hnew
  have hrecorded {entry : Timestamp × Message} {recorded : EventRow × Booking}
      (h : entry.2.recorded ext entry.1 uid = some recorded) := Message.recorded_gives h
  have hlast : ((saveAll ext ms db).fieldsOf uid).Answer ext
      fun gives => IsLast gives ((recordedBy ext uid ms).map Prod.fst) := by
    have hfields : (saveAll ext ms db).fieldsOf uid =
        .of fun field => lastValue (fun entry => field entry.2) (recordedBy ext uid ms) :=
      BookingFields.of_congr fun field hfield => by
        rw [hrow, hnone, foldl_join hfield, Option.bind_none, Option.or_none]
    rw [hfields]
    refine answer_last fun recorded hmem => ?_
    obtain ⟨entry, _, hentry⟩ := List.mem_filterMap.mp hmem
    exact (hrecorded hentry).2
  refine ⟨ms.filter fun entry => (entry.2.recorded ext entry.1 uid).isSome, _,
    List.filter_sublist, ?_, hevents, hlast, fun hsorted => ?_⟩
  · exact storedFor_recordedBy ms
  · exact hlast.mono fun gives answer h => h.isNewest (hsorted.imp le_of_lt)

end Runs

/-- A creation that lists an organizer, a reassignment to another client than the one listed, and a
cancellation. -/
def reassignedThenCancelled : Journal :=
  [(0, .sample BOOKING_LIFECYCLE_SAVER_QUEUE "1" "b" .bookingCreated 1
      (listing [participant .organizer "" (.str "00000000-0000-0000-0000-00000000000a")])),
    (0, .sample BOOKING_LIFECYCLE_SAVER_QUEUE "2" "b" .bookingClientReassigned 2
      (.obj [("original", .obj [("new_client_user_id",
          .str "00000000-0000-0000-0000-00000000000b")]),
        ("normalized", .obj [("participants", .arr [participant .client ""
          (.str "00000000-0000-0000-0000-00000000000a")])])])),
    (0, .sample BOOKING_LIFECYCLE_SAVER_QUEUE "3" "b" .bookingCancelled 3 (.obj []))]

theorem fieldsOf_saveAll_cancelled :
    (saveAll .sample reassignedThenCancelled .empty).fieldsOf "b" =
        { currentStatus := some "cancelled", startTime := none, endTime := none,
          organizerUserId := some ⟨10⟩, clientUserId := some ⟨11⟩ } ∧
      ∃ rows, List.Forall₂ (StoredFor .sample) reassignedThenCancelled rows ∧
        ((saveAll .sample reassignedThenCancelled .empty).fieldsOf "b").Answer .sample
          fun gives => IsNewest (·.occurredAt) gives rows := by
  have hlifecycle : ∀ entry ∈ reassignedThenCancelled, entry.2.LifecycleOf "b" := by
    simp only [reassignedThenCancelled, List.forall_mem_cons, List.not_mem_nil, false_imp_iff,
      implies_true, and_true]
    exact ⟨⟨⟨rfl, by decide, by decide⟩, rfl⟩, ⟨⟨rfl, by decide, by decide⟩, rfl⟩,
      ⟨⟨rfl, by decide, by decide⟩, rfl⟩⟩
  have hkeys : reassignedThenCancelled.Pairwise
      fun entry entry' => ¬ entry.2.SharesKey entry'.2 := by
    simp [reassignedThenCancelled, Message.SharesKey, Message.sample]
  have hnew : ∀ entry ∈ reassignedThenCancelled, ¬ Db.empty.Stores entry.2 := by
    rintro entry _ ⟨e, he, _⟩
    cases he
  obtain ⟨saved, rows, hsublist, hstored, hevents, _, hnewest⟩ :=
    fieldsOf_saveAll .empty rfl hlifecycle hkeys hnew
  obtain rfl : (saveAll .sample reassignedThenCancelled .empty).tables.events = rows := hevents
  obtain rfl : saved = reassignedThenCancelled :=
    hsublist.eq_of_length (hstored.length_eq.trans (by decide))
  exact ⟨by decide, _, hstored, hnewest (by decide)⟩

/-- A creation and a cancellation of a booking. -/
def createdThenCancelled : Journal :=
  [(0, .sample BOOKING_LIFECYCLE_SAVER_QUEUE "1" "b" .bookingCreated 1 (.obj [])),
    (0, .sample BOOKING_LIFECYCLE_SAVER_QUEUE "2" "b" .bookingCancelled 2 (.obj []))]

/-- A creation that arrives after the cancellation wins. -/
theorem fieldsOf_saveAll_swapped :
    (saveAll .sample createdThenCancelled .empty).fieldsOf "b" ≠
      (saveAll .sample createdThenCancelled.reverse .empty).fieldsOf "b" := by decide

end EventSaver
