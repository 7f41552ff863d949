import EventSaver.StatementOrder

/-!
# The payload envelope

Which events take the same path whether their payload comes bare or in an envelope
`{"original": p}`.
-/

namespace EventSaver
open JsonData EffectProgram

/-- Two rows that differ in the raw payload and its hash only. -/
def EventRow.SameButPayload (row row' : EventRow) : Prop :=
  { row with payload := row'.payload, hash := row'.hash } = row'

/-- Two programs that make the same calls with the same parameters, the stored raw payload
excepted, and of which both raise or neither does, whatever is answered. -/
inductive SamePath {α : Type} : Ingest α → Ingest α → Prop
  | pure (a : α) : SamePath (.pure a) (.pure a)
  | throw (e e' : Exc) : SamePath (.throw e) (.throw e')
  | insertEvent {row row' : EventRow} {next next' : Bool → Ingest α}
    (hrow : row.SameButPayload row') (h : ∀ r, SamePath (next r) (next' r)) :
    SamePath (.call (S := Calls) (.insertEvent row) next)
      (.call (S := Calls) (.insertEvent row') next')
  | call (c : Call) {next next' : c.Reply → Ingest α} (h : ∀ r, SamePath (next r) (next' r)) :
    SamePath (.call (S := Calls) c next) (.call (S := Calls) c next')

namespace SamePath

variable {α β : Type}

lemma refl (p : Ingest α) : SamePath p p := by
  induction p with
  | pure a => exact .pure a
  | throw e => exact .throw e e
  | call c next ih => exact .call c ih

/-- The continuations of the insertion on a path. -/
lemma insertEvent_next {row row' : EventRow} {next next' : Bool → Ingest α}
    (h : SamePath (.call (S := Calls) (.insertEvent row) next)
      (.call (S := Calls) (.insertEvent row') next')) (r : Bool) :
    SamePath (next r) (next' r) := by
  cases h with
  | insertEvent _ hnext => exact hnext r
  | call _ hnext => exact hnext r

lemma call_next {c : Call} {next next' : c.Reply → Ingest α}
    (h : SamePath (.call (S := Calls) c next) (.call (S := Calls) c next')) (r : c.Reply) :
    SamePath (next r) (next' r) := by
  cases h with
  | insertEvent _ hnext => exact hnext r
  | call _ hnext => exact hnext r

lemma not_throw_call (e : Exc) (c : Call) (next : c.Reply → Ingest α) :
    ¬ SamePath (.throw e) (.call (S := Calls) c next) := nofun

lemma not_throw_pure (e : Exc) (a : α) : ¬ SamePath (.throw e) (.pure a : Ingest α) := nofun

/-- A call that is no insertion is made by both programs. -/
lemma every_call {P : Call → Prop} {p : Ingest α} {c : Call} {next : c.Reply → Ingest α}
    (hp : p.Every P) (h : SamePath p (.call (S := Calls) c next)) (hc : ∀ row, c ≠ .insertEvent row) :
    P c := by
  cases h with
  | insertEvent _ _ => exact absurd rfl (hc _)
  | call _ _ => exact hp.1

end SamePath

/-- A payload that is an object with neither of the keys of the envelope. -/
structure Bare (p : Json) : Prop where
  isObj : p.isObj = true
  original : p.get? "original" = none
  normalized : p.get? "normalized" = none

def envelope (p : Json) : Json := .obj [("original", p)]

/-- Two payloads that every reader but the two direct ones of the use case reads alike. -/
structure ReadsAs (ext : Externals) (p p' : Json) : Prop where
  original : Payload.original p' = Payload.original p
  normalized : Payload.get p' "normalized" = Payload.get p "normalized"
  normalizedD : Payload.getD p' "normalized" (.obj []) = Payload.getD p "normalized" (.obj [])
  unwrap : ext.unwrapPayload p' = ext.unwrapPayload p

def ParsedEvent.withPayload (event : ParsedEvent) (payload : Json) (hash : String) : ParsedEvent :=
  { event with payload := payload, payloadHash := hash }

def HandleArgs.withPayload (args : HandleArgs) (payload : Json) (hash : String) : HandleArgs :=
  { args with event := args.event.withPayload payload hash }

section Readers

variable {ext : Externals} {p p' : Json} {hash : String}

lemma readsAs_envelope
    (hunwrap : ∀ payload, ext.unwrapPayload payload = (payload.get? "original").getD payload)
    (hp : Bare p) : ReadsAs ext p (envelope p) := by
  obtain ⟨hobj, horiginal, hnormalized⟩ := hp
  cases p with
  | obj fields =>
    have hgetD (key : String) (default : Json) : Payload.getD (.obj fields) key default =
        .ok (((Json.obj fields).get? key).getD default) := rfl
    refine ⟨?_, ?_, ?_, ?_⟩
    · rw [Payload.original, Payload.original, hgetD, horiginal]
      rfl
    · rw [Payload.get, Payload.get, hgetD, hnormalized]
      rfl
    · rw [hgetD, hnormalized]
      rfl
    · rw [hunwrap, hunwrap, horiginal]
      rfl
  | null => cases hobj
  | bool b => cases hobj
  | num m e => cases hobj
  | str s => cases hobj
  | arr items => cases hobj

variable (h : ReadsAs ext p p')

include h

lemma ReadsAs.extract : ParticipantExtractor.extract ext p' = ParticipantExtractor.extract ext p := by
  rw [ParticipantExtractor.extract, ParticipantExtractor.extract, h.normalized]

lemma ReadsAs.bookingData (bookingId eventType : String) :
    BookingDataExtractor.extract ext bookingId eventType p' =
      BookingDataExtractor.extract ext bookingId eventType p := by
  rw [BookingDataExtractor.extract, BookingDataExtractor.extract, h.unwrap]

lemma ReadsAs.extractAction (queueName eventType source : String) :
    BookingTimelineClassifier.extractAction ext queueName eventType source p' =
      BookingTimelineClassifier.extractAction ext queueName eventType source p := by
  simp only [BookingTimelineClassifier.extractAction,
    BookingTimelineClassifier.extractActionByQueue,
    BookingTimelineClassifier.extractActionByQueueChat,
    BookingTimelineClassifier.extractActionBySource, h.original]

variable (hash) in
lemma ReadsAs.firstParticipant {args : HandleArgs} (hp : args.event.payload = p) :
    (args.withPayload p' hash).firstParticipantUserId = args.firstParticipantUserId := by
  have hnormalized : Payload.get (args.withPayload p' hash).event.payload "normalized" =
      Payload.get args.event.payload "normalized" := by
    rw [hp]
    exact h.normalized
  rw [HandleArgs.firstParticipantUserId, HandleArgs.firstParticipantUserId, hnormalized]
  rfl

variable (hash) in
lemma ReadsAs.original_eq {args : HandleArgs} (hp : args.event.payload = p) :
    (args.withPayload p' hash).original = args.original := by
  rw [HandleArgs.original, HandleArgs.original, hp]
  exact h.original

lemma ReadsAs.extractDetails {event : ParsedEvent} (hp : event.payload = p) :
    LifecycleProjection.extractDetails ext (event.withPayload p' hash) =
      LifecycleProjection.extractDetails ext event := by
  have hunwrap : ext.unwrapPayload (event.withPayload p' hash).payload =
      ext.unwrapPayload event.payload := by
    rw [hp]
    exact h.unwrap
  have hnormalized : Payload.getD (event.withPayload p' hash).payload "normalized" (.obj []) =
      Payload.getD event.payload "normalized" (.obj []) := by
    rw [hp]
    exact h.normalizedD
  rw [LifecycleProjection.extractDetails, LifecycleProjection.extractDetails, hunwrap, hnormalized]
  rfl

variable (hash) in
/-- Every handler handles the two payloads alike. -/
lemma ReadsAs.handle {args : HandleArgs} (hp : args.event.payload = p) :
    ∀ handler ∈ projectionHandlers ext,
      handler.canHandle (args.withPayload p' hash).event = handler.canHandle args.event ∧
        handler.handle (args.withPayload p' hash) = handler.handle args := by
  have horiginal := h.original_eq hash hp
  have hfirst := h.firstParticipant hash hp
  have hpayload : (args.withPayload p' hash).event.payload = p' := rfl
  have horiginal' : Payload.original (args.withPayload p' hash).event.payload =
      Payload.original args.event.payload := horiginal
  simp only [projectionHandlers, List.forall_mem_cons, List.not_mem_nil, false_imp_iff,
    implies_true, and_true]
  refine ⟨⟨rfl, ?_⟩, ⟨rfl, ?_⟩, ⟨rfl, ?_⟩, ⟨rfl, ?_⟩, ⟨rfl, ?_⟩, ⟨rfl, ?_⟩, ⟨rfl, ?_⟩, ⟨rfl, ?_⟩⟩
  · rw [MeetingLinkProjection.handle, MeetingLinkProjection.handle, horiginal]
    rfl
  · rw [EmailNotificationProjection.handle, EmailNotificationProjection.handle,
      EmailNotificationProjection.handleEmailSent, EmailNotificationProjection.handleEmailSent,
      EmailNotificationProjection.handleEmailStatus, EmailNotificationProjection.handleEmailStatus,
      horiginal]
    rfl
  · rw [TelegramNotificationProjection.handle, TelegramNotificationProjection.handle, horiginal]
    rfl
  · rw [EmailStatusHistoryProjection.handle, EmailStatusHistoryProjection.handle, horiginal]
    rfl
  · rw [ChatEventProjection.handle, ChatEventProjection.handle, hfirst, hpayload,
      h.extractAction, ChatEventProjection.extractMessageId, ChatEventProjection.extractMessageId,
      ChatEventProjection.extractTextPreview, ChatEventProjection.extractTextPreview, h.original, hp]
    rfl
  · rw [ChatReadUpdateProjection.handle, ChatReadUpdateProjection.handle, hfirst, horiginal]
    rfl
  · rw [VideoEventProjection.handle, VideoEventProjection.handle, hpayload, h.extractAction,
      VideoEventProjection.extractParticipantRole, VideoEventProjection.extractParticipantRole,
      VideoEventProjection.extractEventTime, VideoEventProjection.extractEventTime, h.original, hp]
    simp only [VideoEventProjection.projectPayload, h.original]
    rfl
  · rw [LifecycleProjection.handle, LifecycleProjection.handle, LifecycleProjection.statement,
      LifecycleProjection.statement]
    have hdetails : LifecycleProjection.extractDetails ext (args.withPayload p' hash).event =
        LifecycleProjection.extractDetails ext args.event := h.extractDetails hp
    rw [hdetails]
    rfl

lemma ReadsAs.executeProjections (args : HandleArgs) (hp : args.event.payload = p) :
    ProjectionExecutor.executeProjections (args.withPayload p' hash) (projectionHandlers ext) =
      ProjectionExecutor.executeProjections args (projectionHandlers ext) := by
  have hhandle := h.handle hash hp
  generalize projectionHandlers ext = handlers at hhandle
  induction handlers with
  | nil => rfl
  | cons handler rest ih =>
    rw [List.forall_mem_cons] at hhandle
    obtain ⟨⟨hcan, hhandler⟩, hrest⟩ := hhandle
    rw [ProjectionExecutor.executeProjections, ProjectionExecutor.executeProjections, hcan,
      ProjectionExecutor.project, ProjectionExecutor.project, hhandler, ih hrest]

end Readers

/-- A payload that announces a user: it has an e-mail, a role that can be looked up, and the text
of an id. -/
def AnnouncesUser (ext : Externals) (p : Json) : Prop :=
  ∃ email role userId u column, p.get? "email" = some email ∧ p.get? "role" = some role ∧
    p.get? "user_id" = some userId ∧ pyUuid ext userId = .ok u ∧
    BookingRepository.roleColumn role = .ok column

/-- A payload that names a new client by the text of an id. -/
def NamesClient (ext : Externals) (p : Json) : Prop :=
  ∃ s u, p.get? "new_client_user_id" = some (.str s) ∧ s ≠ "" ∧ ext.uuid s = some u

section Bare

variable {ext : Externals} {p : Json}

lemma Bare.getD (hp : Bare p) (default : Json) : Payload.getD p "original" default = .ok default := by
  rw [Payload.getD_eq_ok, hp.original]
  exact ⟨hp.isObj, rfl⟩

lemma Bare.syncedUser (hp : Bare p) : IngestEvent.syncedUser ext p = .error .keyError := by
  rw [IngestEvent.syncedUser, hp.getD]
  rfl

lemma Bare.newClient (hp : Bare p) : IngestEvent.newClient ext p = .ok none := by
  rw [IngestEvent.newClient, hp.getD]
  rfl

/-- In the envelope a user is announced to the repository. -/
lemma syncedUser_envelope {email role : Json} {u : Uuid} :
    IngestEvent.syncedUser ext (envelope p) = .ok (email, role, u) ↔
      p.get? "email" = some email ∧ p.get? "role" = some role ∧
        ∃ userId, p.get? "user_id" = some userId ∧ pyUuid ext userId = .ok u := by
  have horiginal : Payload.getD (envelope p) "original" (.obj []) = .ok p := rfl
  rw [IngestEvent.syncedUser, horiginal]
  simp only [ok_bind, bind_eq_ok, Payload.item_eq_ok, pure_eq_ok, Except.ok.injEq, Prod.mk.injEq]
  constructor
  · rintro ⟨email', hemail, role', hrole, userId, hid, u', hu, rfl, rfl, rfl⟩
    exact ⟨hemail, hrole, userId, hid, hu⟩
  · rintro ⟨hemail, hrole, userId, hid, hu⟩
    exact ⟨email, hemail, role, hrole, userId, hid, u, hu, rfl, rfl, rfl⟩

lemma newClient_envelope (hp : Bare p) :
    (NamesClient ext p → ∃ u, IngestEvent.newClient ext (envelope p) = .ok (some u)) ∧
      (¬ NamesClient ext p → IngestEvent.newClient ext (envelope p) = .ok none) := by
  have horiginal : Payload.getD (envelope p) "original" (.obj []) = .ok p := rfl
  have hget : Payload.get p "new_client_user_id" =
      .ok ((p.get? "new_client_user_id").getD .null) :=
    Payload.get_eq_ok.mpr ⟨hp.isObj, rfl⟩
  rw [IngestEvent.newClient, horiginal, ok_bind, hget, ok_bind]
  constructor
  · rintro ⟨s, u, hs, hne, hu⟩
    refine ⟨u, ?_⟩
    have htruthy : (Json.str s).truthy = true := by simpa [Json.truthy] using hne
    rw [hs, Option.getD_some, if_pos htruthy, pyUuid, hu]
    rfl
  · intro hno
    cases hvalue : p.get? "new_client_user_id" with
    | none => rfl
    | some value =>
      rw [Option.getD_some]
      by_cases htruthy : value.truthy = true
      · rw [if_pos htruthy]
        cases value with
        | null => cases htruthy
        | str s =>
          have hnone : ext.uuid s = none := by
            cases hu : ext.uuid s with
            | none => rfl
            | some u =>
              have hne : s ≠ "" := by simpa [Json.truthy] using htruthy
              exact absurd ⟨s, u, hvalue, hne, hu⟩ hno
          rw [pyUuid, hnone]
          rfl
        | bool b => rfl
        | num m e => rfl
        | arr items => rfl
        | obj fields => rfl
      · rw [if_neg htruthy]
        rfl

end Bare

section UseCase

variable {ext : Externals} {p : Json} {event : ParsedEvent} {hash queueName bookingId : String}

/-- A booking event that names no new client is processed alike. -/
lemma ReadsAs.processBooking {p' : Json} (h : ReadsAs ext p p') (hp : event.payload = p)
    (hclient : event.eventType = EventType.bookingClientReassigned.value →
      IngestEvent.newClient ext p' = IngestEvent.newClient ext p) :
    IngestEvent.processBooking ext queueName (event.withPayload p' hash) bookingId =
      IngestEvent.processBooking ext queueName event bookingId := by
  have hextract : ParticipantExtractor.extract ext (event.withPayload p' hash).payload =
      ParticipantExtractor.extract ext event.payload := by
    rw [hp]
    exact h.extract
  have hreassign (ref : Nat) (client : Option Uuid) :
      IngestEvent.reassignClient ext (event.withPayload p' hash) ref client =
        IngestEvent.reassignClient ext event ref client := by
    rw [IngestEvent.reassignClient, IngestEvent.reassignClient, hp]
    by_cases ht : event.eventType = EventType.bookingClientReassigned.value
    · rw [← hclient ht]
      rfl
    · rw [if_neg ht]
      exact if_neg ht
  have hupsert (organizer client : Option Uuid) :
      IngestEvent.upsertBooking ext (event.withPayload p' hash) bookingId organizer client =
        IngestEvent.upsertBooking ext event bookingId organizer client := by
    have hdata : BookingDataExtractor.extract ext bookingId
        (event.withPayload p' hash).eventType (event.withPayload p' hash).payload =
        BookingDataExtractor.extract ext bookingId event.eventType event.payload := by
      rw [hp]
      exact h.bookingData bookingId event.eventType
    rw [IngestEvent.upsertBooking, IngestEvent.upsertBooking, hdata]
    simp only [hreassign]
    rfl
  have hproject (ref : Nat) (organizer client : Option Uuid) :
      ProjectionExecutor.executeProjections
          ⟨event.withPayload p' hash, ref, organizer, client, queueName⟩ (projectionHandlers ext) =
        ProjectionExecutor.executeProjections ⟨event, ref, organizer, client, queueName⟩
          (projectionHandlers ext) :=
    h.executeProjections ⟨event, ref, organizer, client, queueName⟩ hp
  rw [IngestEvent.processBooking, IngestEvent.processBooking, hextract]
  simp only [hupsert, hproject]

/-- The branch that writes the bookings row, for a reassignment. -/
lemma upsertBooking_reassigned (event : ParsedEvent) {data : BookingData}
    (ht : event.eventType = EventType.bookingClientReassigned.value)
    (hdata : BookingDataExtractor.extract ext bookingId event.eventType event.payload = .ok data)
    {client' : Option Uuid} (hclient : IngestEvent.newClient ext event.payload = .ok client')
    (organizer client : Option Uuid) (next : Nat × Option Uuid → Ingest Unit) :
    (IngestEvent.upsertBooking ext event bookingId organizer client >>= next) =
      .call (S := Calls) (.upsertBooking (BookingRepository.row data event.occurredAt organizer client))
        fun
        | some id => client'.elim (next (id, client)) fun u =>
            .call (S := Calls) (.updateClient id u) fun _ => next (id, some u)
        | none => .throw .runtimeError := by
  have hhistory (id : Nat) : IngestEvent.saveOrganizerHistory event id organizer = .pure () := by
    unfold IngestEvent.saveOrganizerHistory
    rw [ht]
    rfl
  have hreassign (id : Nat) : IngestEvent.reassignClient ext event id client =
      client'.elim (.pure client) fun u =>
        .call (S := Calls) (.updateClient id u) fun _ => .pure (some u) := by
    rw [IngestEvent.reassignClient, if_pos ht, hclient]
    cases client' <;> rfl
  rw [IngestEvent.upsertBooking, hdata]
  refine congrArg (Program.call (S := Calls) _) (funext fun id => ?_)
  cases id with
  | none => rfl
  | some id =>
    simp only [Program.pure_eq, Program.bind_pure', hhistory, hreassign]
    cases client' <;> rfl

/-- A reassignment that names its client in the envelope only takes another path. -/
lemma not_samePath_processBooking {p' : Json} {u : Uuid} (h : ReadsAs ext p p')
    (hp : event.payload = p) (hobj : p.isObj = true) (hbare : ext.unwrapPayload p = p)
    (ht : event.eventType = EventType.bookingClientReassigned.value)
    (hclient : IngestEvent.newClient ext p = .ok none)
    (hclient' : IngestEvent.newClient ext p' = .ok (some u)) :
    ¬ SamePath (IngestEvent.processBooking ext queueName event bookingId)
      (IngestEvent.processBooking ext queueName (event.withPayload p' hash) bookingId) := by
  have hget (key : String) : ∃ value, Payload.get p key = .ok value :=
    ⟨_, Payload.get_eq_ok.mpr ⟨hobj, rfl⟩⟩
  obtain ⟨startTime, hstart⟩ := hget "start_time"
  obtain ⟨endTime, hend⟩ := hget "end_time"
  have hdata : ∃ data, BookingDataExtractor.extract ext bookingId event.eventType p = .ok data := by
    rw [BookingDataExtractor.extract, hbare, hstart, hend]
    exact ⟨_, rfl⟩
  obtain ⟨data, hdata⟩ := hdata
  have hdata' : BookingDataExtractor.extract ext bookingId event.eventType p' = .ok data :=
    (h.bookingData bookingId event.eventType).trans hdata
  have hids : ∃ ids, ParticipantExtractor.extract ext p = .ok ids := by
    obtain ⟨normalized, hnormalized⟩ := hget "normalized"
    rw [ParticipantExtractor.extract, hnormalized, ok_bind]
    split
    · split <;> exact ⟨_, rfl⟩
    · exact ⟨_, rfl⟩
  obtain ⟨⟨organizer, client⟩, hids⟩ := hids
  have hids' : ParticipantExtractor.extract ext (event.withPayload p' hash).payload =
      .ok (organizer, client) := h.extract.trans hids
  subst hp
  -- Both reach the upsert; the reassignment of the client follows it in one of them only.
  have hbranch (next next' : Nat × Option Uuid → Ingest Unit)
      (hnext : ∀ a, (next a).Every Call.Projects) :
      ¬ SamePath (IngestEvent.upsertBooking ext event bookingId organizer client >>= next)
        (IngestEvent.upsertBooking ext (event.withPayload p' hash) bookingId organizer client >>=
          next') := by
    intro hpath
    rw [upsertBooking_reassigned event ht hdata hclient,
      upsertBooking_reassigned (event.withPayload p' hash) ht hdata' hclient'] at hpath
    exact (hpath.call_next (some 0)).every_call (hnext _) fun row hrow => by cases hrow
  unfold IngestEvent.processBooking
  rw [hids', hids]
  unfold BookingRepository.getOrNone
  by_cases hq : queueName = BOOKING_LIFECYCLE_SAVER_QUEUE
  · rw [if_pos hq]
    exact hbranch _ _ fun _ => every_executeProjections ext _
  · rw [if_neg hq]
    intro hpath
    exact hbranch _ _ (fun _ => every_executeProjections ext _) (hpath.call_next none)

end UseCase

section Ingestion

variable {ext : Externals} {p : Json} {hash queueName : String}

/-- An announcement of a user raises when it comes bare. -/
lemma process_synced {event : ParsedEvent} (hp : Bare event.payload)
    (ht : event.eventType = EventType.userSynced.value) :
    IngestEvent.process ext queueName event = .throw .keyError := by
  unfold IngestEvent.process
  rw [if_pos ht, hp.syncedUser]
  rfl

/-- In the envelope it raises only when it announces no user. -/
lemma process_synced_envelope {event : ParsedEvent}
    (ht : event.eventType = EventType.userSynced.value) :
    (∃ e, IngestEvent.process ext queueName (event.withPayload (envelope p) hash) = .throw e) ↔
      ¬ AnnouncesUser ext p := by
  unfold IngestEvent.process
  rw [if_pos (show (event.withPayload (envelope p) hash).eventType = _ from ht)]
  change (∃ e, (Program.lift (IngestEvent.syncedUser ext (envelope p)) >>= fun user =>
    BookingRepository.backfillUserIdByEmail user.1 user.2.1 user.2.2) = .throw e) ↔ _
  cases hsynced : IngestEvent.syncedUser ext (envelope p) with
  | error e =>
    refine ⟨fun _ => ?_, fun _ => ⟨e, rfl⟩⟩
    rintro ⟨email, role, userId, u, column, hemail, hrole, hid, hu, _⟩
    have hok := syncedUser_envelope.mpr ⟨hemail, hrole, userId, hid, hu⟩
    rw [hsynced] at hok
    cases hok
  | ok user =>
    obtain ⟨email, role, u⟩ := user
    obtain ⟨hemail, hrole, userId, hid, hu⟩ := syncedUser_envelope.mp hsynced
    simp only [Program.lift_ok, Program.bind_pure']
    unfold BookingRepository.backfillUserIdByEmail
    cases hcolumn : BookingRepository.roleColumn role with
    | error e =>
      refine ⟨fun _ => ?_, fun _ => ⟨e, rfl⟩⟩
      rintro ⟨_, role', _, _, column, _, hrole', _, _, hcolumn'⟩
      obtain rfl : role = role' := Option.some.inj (hrole.symm.trans hrole')
      rw [hcolumn] at hcolumn'
      cases hcolumn'
    | ok column =>
      have hannounces : AnnouncesUser ext p :=
        ⟨email, role, userId, u, column, hemail, hrole, hid, hu, hcolumn⟩
      refine ⟨?_, fun hno => absurd hannounces hno⟩
      rintro ⟨e, he⟩
      cases column <;> cases he

variable (ext) in
/-- The two payloads after parsing. -/
lemma parse_envelope (hp : Bare p) (now : Timestamp) (m : Message) :
    (∀ e, EventParser.parseOccurredAt ext now m.time = .error e →
      EventParser.parse ext now { m with payload := p } = .error e ∧
        EventParser.parse ext now { m with payload := envelope p } = .error e) ∧
    ∀ time, EventParser.parseOccurredAt ext now m.time = .ok time → ∃ event,
      EventParser.parse ext now { m with payload := p } = .ok event ∧
        EventParser.parse ext now { m with payload := envelope p } =
          .ok (event.withPayload (envelope p) (ext.payloadHash (envelope p))) ∧
        event.payload = p ∧ event.bookingId = m.bookingId ∧ event.eventType = m.eventType := by
  have hempty : EventParser.orEmpty p = p := by
    obtain ⟨hobj, _, _⟩ := hp
    cases p with
    | obj fields => cases fields <;> rfl
    | null => cases hobj
    | bool b => cases hobj
    | num m e => cases hobj
    | str s => cases hobj
    | arr items => cases hobj
  constructor
  · intro e he
    rw [EventParser.parse, EventParser.parse, he]
    exact ⟨rfl, rfl⟩
  · intro time htime
    have hparse : ∃ event, EventParser.parse ext now { m with payload := p } = .ok event := by
      rw [EventParser.parse, htime]
      exact ⟨_, rfl⟩
    obtain ⟨event, hevent⟩ := hparse
    obtain ⟨hbooking, htype, hpayload⟩ := EventParser.parse_filed ext hevent
    refine ⟨event, hevent, ?_, hpayload.trans hempty, hbooking, htype⟩
    rw [EventParser.parse, htime] at hevent ⊢
    cases hevent
    rfl

/-- After the insertion, which the payloads do not differ in otherwise, the paths are those of
the processing. -/
lemma samePath_ingest (event : ParsedEvent) (payload : Json) :
    SamePath (IngestEvent.ingest ext queueName event)
        (IngestEvent.ingest ext queueName (event.withPayload payload hash)) ↔
      SamePath (IngestEvent.process ext queueName event)
        (IngestEvent.process ext queueName (event.withPayload payload hash)) := by
  have hrow : (EventRepository.row event).SameButPayload
      (EventRepository.row (event.withPayload payload hash)) := rfl
  have hingest (event : ParsedEvent) : IngestEvent.ingest ext queueName event =
      .call (S := Calls) (.insertEvent (EventRepository.row event)) fun isInserted =>
        if isInserted then
          .call (S := Calls) (.incEventsTotal event.eventType) fun _ =>
            IngestEvent.process ext queueName event
        else .pure () := rfl
  rw [hingest, hingest]
  constructor
  · intro h
    exact (h.insertEvent_next true).call_next ()
  · intro h
    refine .insertEvent hrow fun isInserted => ?_
    cases isInserted with
    | true => exact .call _ fun _ => h
    | false => exact .pure ()

lemma process_filed (event : ParsedEvent) {bookingId : String}
    (hsynced : event.eventType ≠ EventType.userSynced.value) (hid : event.bookingId = some bookingId)
    (hne : bookingId ≠ "") :
    IngestEvent.process ext queueName event =
      IngestEvent.processBooking ext queueName event bookingId := by
  unfold IngestEvent.process
  rw [if_neg hsynced, hid]
  exact if_neg hne

lemma process_unfiled (event : ParsedEvent)
    (hsynced : event.eventType ≠ EventType.userSynced.value)
    (hid : ¬ ∃ bookingId, event.bookingId = some bookingId ∧ bookingId ≠ "") :
    IngestEvent.process ext queueName event = .pure () := by
  unfold IngestEvent.process
  rw [if_neg hsynced]
  cases hbooking : event.bookingId with
  | none => rfl
  | some bookingId =>
    have hempty : bookingId = "" := by
      by_contra hne
      exact hid ⟨bookingId, hbooking, hne⟩
    exact if_pos hempty

/-- What makes an envelope matter for a message that reaches its insertion: it announces a user,
or it reassigns the client of a booking to one it names. -/
def EnvelopeMatters (ext : Externals) (m : Message) (p : Json) : Prop :=
  (m.eventType = EventType.userSynced.value ∧ AnnouncesUser ext p) ∨
    (m.eventType = EventType.bookingClientReassigned.value ∧
      (∃ bookingId, m.bookingId = some bookingId ∧ bookingId ≠ "") ∧ NamesClient ext p)

lemma samePath_process (hunwrap : ∀ payload, ext.unwrapPayload payload =
      (payload.get? "original").getD payload) (hp : Bare p) {m : Message} {event : ParsedEvent}
    (hpayload : event.payload = p) (hbooking : event.bookingId = m.bookingId)
    (htype : event.eventType = m.eventType) :
    SamePath (IngestEvent.process ext queueName event)
      (IngestEvent.process ext queueName (event.withPayload (envelope p) hash)) ↔
        ¬ EnvelopeMatters ext m p := by
  have hreads : ReadsAs ext p (envelope p) := readsAs_envelope hunwrap hp
  by_cases hsynced : event.eventType = EventType.userSynced.value
  · have hother : event.eventType ≠ EventType.bookingClientReassigned.value := by
      rw [hsynced]
      decide
    have hthrow : (∃ e, IngestEvent.process ext queueName (event.withPayload (envelope p) hash) =
        .throw e) ↔ ¬ AnnouncesUser ext p := process_synced_envelope hsynced
    have hmatters : EnvelopeMatters ext m p ↔ AnnouncesUser ext p := by
      constructor
      · rintro (⟨_, hannounces⟩ | ⟨hreassigned, _⟩)
        · exact hannounces
        · exact absurd (htype.trans hreassigned) hother
      · exact fun hannounces => .inl ⟨htype ▸ hsynced, hannounces⟩
    rw [process_synced (hpayload ▸ hp) hsynced, hmatters, ← hthrow]
    constructor
    · intro h
      cases hprocess : IngestEvent.process ext queueName (event.withPayload (envelope p) hash) with
      | throw e => exact ⟨e, rfl⟩
      | pure a =>
        rw [hprocess] at h
        exact absurd h (SamePath.not_throw_pure _ _)
      | call c next =>
        rw [hprocess] at h
        exact absurd h (SamePath.not_throw_call _ _ _)
    · rintro ⟨e, he⟩
      rw [he]
      exact .throw _ _
  · have hmatters : EnvelopeMatters ext m p ↔
        event.eventType = EventType.bookingClientReassigned.value ∧
          (∃ bookingId, event.bookingId = some bookingId ∧ bookingId ≠ "") ∧ NamesClient ext p := by
      rw [EnvelopeMatters, ← hbooking, ← htype]
      simp only [hsynced, false_and, false_or]
    rw [hmatters]
    by_cases hfiled : ∃ bookingId, event.bookingId = some bookingId ∧ bookingId ≠ ""
    · obtain ⟨bookingId, hid, hne⟩ := hfiled
      rw [process_filed event hsynced hid hne,
        process_filed (event.withPayload (envelope p) hash) hsynced hid hne]
      by_cases hnames : event.eventType = EventType.bookingClientReassigned.value ∧ NamesClient ext p
      · obtain ⟨hreassigned, hnames⟩ := hnames
        obtain ⟨u, hclient⟩ := (newClient_envelope hp).1 hnames
        have hbare : ext.unwrapPayload p = p := by
          rw [hunwrap, hp.original]
          rfl
        exact iff_of_false
          (not_samePath_processBooking hreads hpayload hp.isObj hbare hreassigned hp.newClient hclient)
          (not_not.mpr ⟨hreassigned, ⟨bookingId, hid, hne⟩, hnames⟩)
      · have hclient (hreassigned : event.eventType = EventType.bookingClientReassigned.value) :
            IngestEvent.newClient ext (envelope p) = IngestEvent.newClient ext p := by
          have hno : ¬ NamesClient ext p := fun h => hnames ⟨hreassigned, h⟩
          rw [(newClient_envelope hp).2 hno, hp.newClient]
        rw [hreads.processBooking hpayload hclient]
        exact iff_of_true (SamePath.refl _) fun h => hnames ⟨h.1, h.2.2⟩
    · rw [process_unfiled event hsynced hfiled,
        process_unfiled (event.withPayload (envelope p) hash) hsynced hfiled]
      exact iff_of_true (SamePath.refl _) fun h => hfiled h.2.1

/-- A bare payload and its envelope take the same path, unless the message is parsed and either
announces a user or names the new client of a booking: the use case looks for both of these under
`original` only. -/
theorem samePath_envelope_iff (hunwrap : ∀ payload, ext.unwrapPayload payload =
      (payload.get? "original").getD payload) (hp : Bare p) (now : Timestamp) (m : Message) :
    SamePath (IngestEvent.execute ext now { m with payload := p })
        (IngestEvent.execute ext now { m with payload := envelope p }) ↔
      ¬ ((∃ time, EventParser.parseOccurredAt ext now m.time = .ok time) ∧
        EnvelopeMatters ext m p) := by
  obtain ⟨hfails, hparses⟩ := parse_envelope ext hp now m
  unfold IngestEvent.execute
  cases htime : EventParser.parseOccurredAt ext now m.time with
  | error e =>
    obtain ⟨hbare, henvelope⟩ := hfails e htime
    rw [hbare, henvelope]
    refine ⟨fun _ => ?_, fun _ => .throw e e⟩
    rintro ⟨⟨time, h⟩, _⟩
    cases h
  | ok time =>
    obtain ⟨event, hbare, henvelope, hpayload, hbooking, htype⟩ := hparses time htime
    rw [hbare, henvelope]
    simp only [Program.lift_ok, Program.bind_pure']
    rw [samePath_ingest, samePath_process hunwrap hp hpayload hbooking htype]
    exact not_congr ⟨fun h => ⟨⟨time, rfl⟩, h⟩, And.right⟩

end Ingestion

/-- The payload of a reassignment to a client whose id can be read. -/
def reassignment : Json :=
  .obj [("new_client_user_id", .str "00000000-0000-0000-0000-00000000000a")]

/-- The payload of an announcement of a user. -/
def announcement : Json :=
  .obj [("email", .str "a@example.org"), ("role", .str "organizer"),
    ("user_id", .str "00000000-0000-0000-0000-00000000000a")]

theorem samePath_envelope_iff_created :
    SamePath
      (IngestEvent.execute .sample 0
        (.sample BOOKING_LIFECYCLE_SAVER_QUEUE "e" "b" .bookingCreated 1 reassignment))
      (IngestEvent.execute .sample 0
        (.sample BOOKING_LIFECYCLE_SAVER_QUEUE "e" "b" .bookingCreated 1 (envelope reassignment))) := by
  have hbare : Bare reassignment := ⟨rfl, rfl, rfl⟩
  refine (samePath_envelope_iff (fun _ => rfl) hbare 0
    (.sample BOOKING_LIFECYCLE_SAVER_QUEUE "e" "b" .bookingCreated 1 .null)).mpr ?_
  rintro ⟨_, ⟨hsynced, _⟩ | ⟨hreassigned, _⟩⟩
  · exact absurd hsynced (by decide)
  · exact absurd hreassigned (by decide)

/-- Bare, a reassignment does not reach the bookings row, and an announcement raises. -/
theorem envelope_not_transparent :
    (Bare reassignment ∧ ¬ SamePath
      (IngestEvent.execute .sample 0
        (.sample BOOKING_LIFECYCLE_SAVER_QUEUE "e" "b" .bookingClientReassigned 1 reassignment))
      (IngestEvent.execute .sample 0
        (.sample BOOKING_LIFECYCLE_SAVER_QUEUE "e" "b" .bookingClientReassigned 1
          (envelope reassignment)))) ∧
    (Bare announcement ∧ ¬ SamePath
      (IngestEvent.execute .sample 0 (.sample "events.users" "e" "b" .userSynced 1 announcement))
      (IngestEvent.execute .sample 0
        (.sample "events.users" "e" "b" .userSynced 1 (envelope announcement)))) := by
  have hbare : Bare reassignment := ⟨rfl, rfl, rfl⟩
  refine ⟨⟨hbare, fun h => ?_⟩, ⟨⟨rfl, rfl, rfl⟩, fun h => ?_⟩⟩
  · have hreads : ReadsAs .sample reassignment (envelope reassignment) :=
      readsAs_envelope (fun _ => rfl) hbare
    have hprocess := (h.insertEvent_next true).call_next ()
    exact not_samePath_processBooking hreads rfl rfl rfl rfl rfl rfl hprocess
  · have hprocess := (h.insertEvent_next true).call_next ()
    exact SamePath.not_throw_call _ _ _ hprocess

end EventSaver
