import EventSaver.IngestPlan

/-!
# The writes of one event

The statements the handlers build for an event carry its id and the id of its booking, differ
between two bookings in that id only, and go to the table of their handler.
-/

namespace EventSaver
open JsonData TableData EffectProgram

namespace ProjectionWrite

/-- The write refers to the event and to the booking given by an id, and tells when an e-mail was
sent. -/
def FiledUnder (eventId : String) (ref : Nat) : ProjectionWrite → Prop
  | .upsertMeetingLink r row => r = ref ∧ row.sourceEventId = eventId
  | .deleteMeetingLink r _ => r = ref
  | .upsertEmailSent r row =>
    r = ref ∧ row.sentEventId = some eventId ∧ row.sentAt.isSome = true
  | .upsertEmailStatus r row => r = ref ∧ row.lastStatusEventId = some eventId
  | .insertTelegramNotification r row => r = ref ∧ row.sourceEventId = eventId
  | .insertEmailStatusHistory _ row => row.sourceEventId = eventId
  | .insertChatEvent r row => r = ref ∧ row.rawEventId = eventId
  | .updateChatRead r _ _ _ => r = ref
  | .insertVideoEvent r row => r = ref ∧ row.rawEventId = eventId
  | .insertLifecycleEvent r row => r = ref ∧ row.rawEventId = eventId

def withRef (ref : Nat) : ProjectionWrite → ProjectionWrite
  | .upsertMeetingLink _ row => .upsertMeetingLink ref row
  | .deleteMeetingLink _ userId => .deleteMeetingLink ref userId
  | .upsertEmailSent _ row => .upsertEmailSent ref row
  | .upsertEmailStatus _ row => .upsertEmailStatus ref row
  | .insertTelegramNotification _ row => .insertTelegramNotification ref row
  | .insertEmailStatusHistory jobId row => .insertEmailStatusHistory jobId row
  | .insertChatEvent _ row => .insertChatEvent ref row
  | .updateChatRead _ reader messageId time => .updateChatRead ref reader messageId time
  | .insertVideoEvent _ row => .insertVideoEvent ref row
  | .insertLifecycleEvent _ row => .insertLifecycleEvent ref row

/-- The handlers, by what they write. -/
inductive Kind where
  | meetingLink
  | emailNotification
  | telegramNotification
  | emailStatusHistory
  | chatEvent
  | chatRead
  | videoEvent
  | lifecycleEvent
  deriving DecidableEq

def kind : ProjectionWrite → Kind
  | .upsertMeetingLink _ _ => .meetingLink
  | .deleteMeetingLink _ _ => .meetingLink
  | .upsertEmailSent _ _ => .emailNotification
  | .upsertEmailStatus _ _ => .emailNotification
  | .insertTelegramNotification _ _ => .telegramNotification
  | .insertEmailStatusHistory _ _ => .emailStatusHistory
  | .insertChatEvent _ _ => .chatEvent
  | .updateChatRead _ _ _ _ => .chatRead
  | .insertVideoEvent _ _ => .videoEvent
  | .insertLifecycleEvent _ _ => .lifecycleEvent

/-- The job of an e-mail a write is about. -/
def jobId? : ProjectionWrite → Option String
  | .upsertEmailSent _ row => some row.jobId
  | .upsertEmailStatus _ row => some row.jobId
  | .insertEmailStatusHistory jobId _ => some jobId
  | _ => none

end ProjectionWrite

/-- The e-mail job an event with a given type and payload is about. -/
def emailJobIdOf (eventType : String) (payload : Json) : Option String :=
  let original := (payload.get? "original").getD payload
  if eventType = EventType.notificationEmailSent.value then
    (original.get? "job_id").bind Json.str?
  else if eventType = EventType.unisenderStatusCreated.value then
    ((original.get? "event_data").bind (·.get? "job_id")).bind Json.str?
  else none

def ParsedEvent.emailJobId? (event : ParsedEvent) : Option String :=
  emailJobIdOf event.eventType event.payload

def Message.emailJobId? (m : Message) : Option String :=
  emailJobIdOf m.eventType (EventParser.orEmpty m.payload)

def BookingWork.withRef (ref : Nat) (w : BookingWork) : BookingWork :=
  { w with writes := w.writes.map (·.withRef ref) }

def HandleArgs.withRef (ref : Nat) (args : HandleArgs) : HandleArgs :=
  { args with bookingRefId := ref }

def ProjectionStmt.withRef (ref : Nat) : ProjectionStmt → ProjectionStmt
  | .upsertMeetingLink _ userId url source time => .upsertMeetingLink ref userId url source time
  | .deleteMeetingLink _ userId => .deleteMeetingLink ref userId
  | .upsertEmailSent _ row => .upsertEmailSent ref row
  | .upsertEmailStatus _ row => .upsertEmailStatus ref row
  | .insertTelegramNotification _ row => .insertTelegramNotification ref row
  | .insertEmailStatusHistory jobId row => .insertEmailStatusHistory jobId row
  | .insertChatEvent _ id provider type messageId userId preview time =>
    .insertChatEvent ref id provider type messageId userId preview time
  | .updateChatRead _ reader messageId time => .updateChatRead ref reader messageId time
  | .insertVideoEvent _ id type role userId time payload =>
    .insertVideoEvent ref id type role userId time payload
  | .insertLifecycleEvent _ row => .insertLifecycleEvent ref row

lemma ProjectionStmt.bind_withRef (ref : Nat) (stmt : ProjectionStmt) :
    (stmt.withRef ref).bind = stmt.bind.map (·.withRef ref) := by
  cases stmt <;> first | rfl | (unfold bind withRef; simp only [except_map_bind]; rfl)

namespace StatementBuilder

/-- The builder uses the id of the booking only to refer to it. -/
def RefGeneric (b : StatementBuilder) : Prop :=
  ∀ args ref, b.statement (args.withRef ref) =
    (b.statement args).map (Option.map (·.withRef ref))

/-- What holds of every write of a builder. -/
def Writes (b : StatementBuilder) (P : HandleArgs → ProjectionWrite → Prop) : Prop :=
  ∀ args w, b.write args = .ok (some w) → P args w

lemma write_withRef {b : StatementBuilder} (hb : b.RefGeneric) (args : HandleArgs) (ref : Nat) :
    b.write (args.withRef ref) = (b.write args).map (Option.map (·.withRef ref)) := by
  by_cases hc : b.canHandle args.event = true
  · rw [@write_of b (args.withRef ref) hc, write_of hc, hb args ref, except_map_bind]
    rcases b.statement args with e | _ | stmt
    · rfl
    · rfl
    · simp only [Except.map, ok_bind, Option.map]
      rw [stmt.bind_withRef]
      cases stmt.bind <;> rfl
  · rw [@write_of_not b (args.withRef ref) hc, write_of_not hc]
    rfl

end StatementBuilder

section RefGeneric

variable (ext : Externals)

lemma meetingLink_refGeneric :
    StatementBuilder.RefGeneric ⟨MeetingLinkProjection.canHandle, MeetingLinkProjection.handle⟩ := by
  intro args ref
  dsimp only
  unfold MeetingLinkProjection.handle
  simp only [HandleArgs.withRef]
  cases args.organizerUserId.or args.clientUserId with
  | none => rfl
  | some userId =>
    by_cases ht : args.event.eventType = EventType.meetingUrlDeleted.value
    · simp only [ht, if_true]
      rfl
    · simp only [ht, if_false, except_map_bind]
      rfl

lemma handleEmailSent_withRef (args : HandleArgs) (ref : Nat) :
    EmailNotificationProjection.handleEmailSent (args.withRef ref) =
      (EmailNotificationProjection.handleEmailSent args).map (Option.map (·.withRef ref)) := by
  unfold EmailNotificationProjection.handleEmailSent
  simp only [except_map_bind]
  apply bind_congr
  intro original
  apply bind_congr
  intro jobId
  cases jobId <;> simp only [except_map_bind] <;> rfl

lemma handleEmailStatus_withRef (args : HandleArgs) (ref : Nat) :
    EmailNotificationProjection.handleEmailStatus ext (args.withRef ref) =
      (EmailNotificationProjection.handleEmailStatus ext args).map
        (Option.map (·.withRef ref)) := by
  unfold EmailNotificationProjection.handleEmailStatus
  simp only [except_map_bind]
  apply bind_congr
  intro original
  apply bind_congr
  intro eventData
  cases eventData with
  | obj fields =>
    simp only [except_map_bind]
    apply bind_congr
    intro jobId
    cases jobId <;> rfl
  | _ => rfl

lemma emailNotification_refGeneric :
    StatementBuilder.RefGeneric
      ⟨EmailNotificationProjection.canHandle, EmailNotificationProjection.handle ext⟩ := by
  intro args ref
  dsimp only
  unfold EmailNotificationProjection.handle
  rw [handleEmailSent_withRef, handleEmailStatus_withRef]
  change ite (args.event.eventType = _) _ _ = _
  split
  · rfl
  · change ite (args.event.eventType = _) _ _ = _
    split <;> rfl

lemma telegram_refGeneric :
    StatementBuilder.RefGeneric
      ⟨TelegramNotificationProjection.canHandle, TelegramNotificationProjection.handle⟩ := by
  intro args ref
  dsimp only
  unfold TelegramNotificationProjection.handle
  simp only [except_map_bind]
  rfl

lemma emailStatusHistory_refGeneric :
    StatementBuilder.RefGeneric
      ⟨EmailStatusHistoryProjection.canHandle, EmailStatusHistoryProjection.handle ext⟩ := by
  intro args ref
  dsimp only
  unfold EmailStatusHistoryProjection.handle
  simp only [except_map_bind]
  apply bind_congr
  intro original
  apply bind_congr
  intro eventData
  cases eventData with
  | obj fields =>
    simp only [except_map_bind]
    apply bind_congr
    intro jobId
    apply bind_congr
    intro status
    cases jobId <;> cases status <;> simp only [except_map_bind] <;> rfl
  | _ => rfl

lemma chatEvent_refGeneric :
    StatementBuilder.RefGeneric
      ⟨ChatEventProjection.canHandle, ChatEventProjection.handle ext⟩ := by
  intro args ref
  dsimp only
  unfold ChatEventProjection.handle
  simp only [except_map_bind]
  rfl

lemma chatReadUpdate_refGeneric :
    StatementBuilder.RefGeneric
      ⟨ChatReadUpdateProjection.canHandle, ChatReadUpdateProjection.handle⟩ := by
  intro args ref
  dsimp only
  unfold ChatReadUpdateProjection.handle
  simp only [except_map_bind]
  apply bind_congr
  intro reader
  cases reader with
  | none => rfl
  | some reader =>
    simp only [except_map_bind]
    rfl

lemma videoEvent_refGeneric :
    StatementBuilder.RefGeneric
      ⟨VideoEventProjection.canHandle ext, VideoEventProjection.handle ext⟩ := by
  intro args ref
  dsimp only
  unfold VideoEventProjection.handle
  simp only [except_map_bind]
  rfl

lemma lifecycle_refGeneric :
    StatementBuilder.RefGeneric ⟨LifecycleProjection.canHandle,
      fun args => (LifecycleProjection.statement ext args).map (Option.map Prod.snd)⟩ := by
  intro args ref
  dsimp only
  unfold LifecycleProjection.statement
  simp only [HandleArgs.withRef]
  split
  · rfl
  · simp only [except_map_bind]
    rfl

lemma statementBuilders_refGeneric : ∀ b ∈ statementBuilders ext, b.RefGeneric := by
  simp only [statementBuilders, List.mem_cons, List.not_mem_nil, or_false]
  rintro b (rfl | rfl | rfl | rfl | rfl | rfl | rfl | rfl)
  · exact meetingLink_refGeneric
  · exact emailNotification_refGeneric ext
  · exact telegram_refGeneric
  · exact emailStatusHistory_refGeneric ext
  · exact chatEvent_refGeneric ext
  · exact chatReadUpdate_refGeneric
  · exact videoEvent_refGeneric ext
  · exact lifecycle_refGeneric ext

lemma collectWrites_withRef {bs : List StatementBuilder} (hbs : ∀ b ∈ bs, b.RefGeneric)
    (args : HandleArgs) (ref : Nat) :
    collectWrites (args.withRef ref) bs =
      (collectWrites args bs).map (List.map (·.withRef ref)) := by
  induction bs with
  | nil => rfl
  | cons b rest ih =>
    rw [collectWrites, collectWrites, StatementBuilder.write_withRef (hbs b List.mem_cons_self),
      ih fun b hb => hbs b (List.mem_cons_of_mem _ hb)]
    rcases b.write args with e | write
    · rfl
    · rcases collectWrites args rest with e | writes
      · rfl
      · cases write <;> rfl

/-- The plan refers to the booking by the id it is given and uses it for nothing else. -/
theorem plan_withRef (queueName : String) (event : ParsedEvent) (bookingId : String)
    (known : Bool) (ref ref' : Nat) :
    plan ext queueName event bookingId known ref' =
      (plan ext queueName event bookingId known ref).map (·.withRef ref') := by
  have hwrites (organizer client : Option Uuid) :
      projectionWrites ext ⟨event, ref', organizer, client, queueName⟩ =
        (projectionWrites ext ⟨event, ref, organizer, client, queueName⟩).map
          (List.map (·.withRef ref')) :=
    collectWrites_withRef (statementBuilders_refGeneric ext)
      ⟨event, ref, organizer, client, queueName⟩ ref'
  unfold plan
  rw [except_map_bind]
  apply bind_congr
  rintro ⟨organizer, client⟩
  dsimp only
  cases known with
  | true =>
    simp only [if_true, hwrites, except_map_bind]
    cases projectionWrites ext ⟨event, ref, organizer, client, queueName⟩ <;> rfl
  | false =>
    simp only [Bool.false_eq_true, if_false, hwrites, except_map_bind]
    apply bind_congr
    intro data
    apply bind_congr
    intro newClient
    cases projectionWrites ext ⟨event, ref, organizer, newClient.or client, queueName⟩ <;> rfl

end RefGeneric

section Shapes

variable {ext : Externals} {args : HandleArgs} {w : ProjectionWrite}

lemma StatementBuilder.write_eq_some {b : StatementBuilder} :
    b.write args = .ok (some w) ↔
      b.canHandle args.event = true ∧
        ∃ stmt, b.statement args = .ok (some stmt) ∧ stmt.bind = .ok w := by
  by_cases hc : b.canHandle args.event = true
  · rw [write_of hc, bind_eq_ok]
    constructor
    · rintro ⟨_ | stmt, hstmt, hbind⟩
      · cases hbind
      · obtain ⟨w', hw, hw'⟩ := except_map_eq_ok.mp hbind
        exact ⟨hc, stmt, hstmt, Option.some.inj hw' ▸ hw⟩
    · rintro ⟨_, stmt, hstmt, hbind⟩
      exact ⟨some stmt, hstmt, except_map_eq_ok.mpr ⟨w, hbind, rfl⟩⟩
  · rw [write_of_not hc]
    simp [hc]

/-- What a write of a handler is about. -/
def ProjectionWrite.Of (kind : ProjectionWrite.Kind) (args : HandleArgs) (w : ProjectionWrite) :
    Prop :=
  w.FiledUnder args.event.eventId args.bookingRefId ∧ w.kind = kind ∧
    ∀ jobId, w.jobId? = some jobId → args.event.emailJobId? = some jobId

lemma meetingLink_write
    (h : StatementBuilder.write ⟨MeetingLinkProjection.canHandle, MeetingLinkProjection.handle⟩ args =
      .ok (some w)) : w.Of .meetingLink args := by
  obtain ⟨_, stmt, hstmt, hbind⟩ := StatementBuilder.write_eq_some.mp h
  dsimp only at hstmt
  unfold MeetingLinkProjection.handle at hstmt
  cases hid : args.organizerUserId.or args.clientUserId with
  | none =>
    rw [hid] at hstmt
    cases hstmt
  | some userId =>
    rw [hid] at hstmt
    dsimp only at hstmt
    split at hstmt
    · cases hstmt
      cases hbind
      exact ⟨rfl, rfl, fun _ hj => nomatch hj⟩
    · simp only [bind_eq_ok] at hstmt
      obtain ⟨_, _, _, _, hstmt⟩ := hstmt
      cases hstmt
      obtain ⟨_, _, hbind⟩ := bind_eq_ok.mp hbind
      cases hbind
      exact ⟨⟨rfl, rfl⟩, rfl, fun _ hj => nomatch hj⟩

lemma emailJobId?_sent (event : ParsedEvent) {original : Json} {jobId : String}
    (ht : event.eventType = EventType.notificationEmailSent.value)
    (horiginal : Payload.original event.payload = .ok original)
    (hjob : Payload.get original "job_id" = .ok (.str jobId)) :
    event.emailJobId? = some jobId := by
  obtain ⟨_, rfl⟩ := Payload.original_eq_ok.mp horiginal
  have hget := (Payload.get_eq_ok.mp hjob).2
  rw [eq_comm, Json.getD_null_eq_str] at hget
  rw [ParsedEvent.emailJobId?, emailJobIdOf, if_pos ht, hget]
  rfl

lemma emailJobId?_status (event : ParsedEvent) {original : Json} {jobId : String}
    {fields : List (String × Json)} (ht : event.eventType = EventType.unisenderStatusCreated.value)
    (horiginal : Payload.original event.payload = .ok original)
    (hdata : Payload.get original "event_data" = .ok (.obj fields))
    (hjob : Payload.get (.obj fields) "job_id" = .ok (.str jobId)) :
    event.emailJobId? = some jobId := by
  have hne : ¬ event.eventType = EventType.notificationEmailSent.value := by
    rw [ht, EventType.value_inj]
    decide
  obtain ⟨_, rfl⟩ := Payload.original_eq_ok.mp horiginal
  have hget := (Payload.get_eq_ok.mp hdata).2
  have hget' := (Payload.get_eq_ok.mp hjob).2
  rw [eq_comm, Json.getD_null_eq_obj] at hget
  rw [eq_comm, Json.getD_null_eq_str] at hget'
  rw [ParsedEvent.emailJobId?, emailJobIdOf, if_neg hne, if_pos ht, hget]
  exact congrArg (·.bind Json.str?) hget'

lemma emailNotification_write
    (h : StatementBuilder.write
      ⟨EmailNotificationProjection.canHandle, EmailNotificationProjection.handle ext⟩ args =
      .ok (some w)) : w.Of .emailNotification args := by
  obtain ⟨_, stmt, hstmt, hbind⟩ := StatementBuilder.write_eq_some.mp h
  dsimp only at hstmt
  unfold EmailNotificationProjection.handle at hstmt
  split at hstmt
  next ht =>
    simp only [EmailNotificationProjection.handleEmailSent, bind_eq_ok] at hstmt
    obtain ⟨original, horiginal, jobId, hjob, hstmt⟩ := hstmt
    split at hstmt
    next jobId =>
      simp only [bind_eq_ok] at hstmt
      obtain ⟨_, _, _, _, _, _, hstmt⟩ := hstmt
      cases hstmt
      cases hbind
      refine ⟨⟨rfl, rfl, rfl⟩, rfl, fun j hj => ?_⟩
      cases hj
      exact emailJobId?_sent _ ht horiginal hjob
    next => cases hstmt
  next =>
    split at hstmt
    next ht =>
      simp only [EmailNotificationProjection.handleEmailStatus, bind_eq_ok] at hstmt
      obtain ⟨original, horiginal, eventData, hdata, hstmt⟩ := hstmt
      split at hstmt
      next fields =>
        simp only [bind_eq_ok] at hstmt
        obtain ⟨jobId, hjob, _, _, _, _, _, _, _, _, hstmt⟩ := hstmt
        split at hstmt
        next jobId =>
          cases hstmt
          cases hbind
          refine ⟨⟨rfl, rfl⟩, rfl, fun j hj => ?_⟩
          cases hj
          exact emailJobId?_status _ ht horiginal hdata hjob
        next => cases hstmt
      next => cases hstmt
    next => cases hstmt

lemma telegram_write
    (h : StatementBuilder.write
      ⟨TelegramNotificationProjection.canHandle, TelegramNotificationProjection.handle⟩ args =
      .ok (some w)) : w.Of .telegramNotification args := by
  obtain ⟨_, stmt, hstmt, hbind⟩ := StatementBuilder.write_eq_some.mp h
  simp only [TelegramNotificationProjection.handle, bind_eq_ok] at hstmt
  obtain ⟨_, _, _, _, _, _, _, _, hstmt⟩ := hstmt
  cases hstmt
  cases hbind
  exact ⟨⟨rfl, rfl⟩, rfl, fun _ hj => nomatch hj⟩

lemma emailStatusHistory_write
    (h : StatementBuilder.write
      ⟨EmailStatusHistoryProjection.canHandle, EmailStatusHistoryProjection.handle ext⟩ args =
      .ok (some w)) : w.Of .emailStatusHistory args := by
  obtain ⟨hcan, stmt, hstmt, hbind⟩ := StatementBuilder.write_eq_some.mp h
  have ht : args.event.eventType = EventType.unisenderStatusCreated.value := beq_iff_eq.mp hcan
  simp only [EmailStatusHistoryProjection.handle, bind_eq_ok] at hstmt
  obtain ⟨original, horiginal, eventData, hdata, hstmt⟩ := hstmt
  split at hstmt
  next fields =>
    simp only [bind_eq_ok] at hstmt
    obtain ⟨jobId, hjob, status, _, _, _, hstmt⟩ := hstmt
    split at hstmt
    next jobId status =>
      simp only [bind_eq_ok] at hstmt
      obtain ⟨_, _, hstmt⟩ := hstmt
      cases hstmt
      cases hbind
      refine ⟨rfl, rfl, fun j hj => ?_⟩
      cases hj
      exact emailJobId?_status _ ht horiginal hdata hjob
    next => cases hstmt
  next => cases hstmt

lemma chatEvent_write
    (h : StatementBuilder.write
      ⟨ChatEventProjection.canHandle, ChatEventProjection.handle ext⟩ args = .ok (some w)) :
    w.Of .chatEvent args := by
  obtain ⟨_, stmt, hstmt, hbind⟩ := StatementBuilder.write_eq_some.mp h
  simp only [ChatEventProjection.handle, bind_eq_ok] at hstmt
  obtain ⟨_, _, _, _, _, _, _, _, hstmt⟩ := hstmt
  cases hstmt
  obtain ⟨_, _, hbind⟩ := bind_eq_ok.mp hbind
  cases hbind
  exact ⟨⟨rfl, rfl⟩, rfl, fun _ hj => nomatch hj⟩

lemma chatReadUpdate_write
    (h : StatementBuilder.write
      ⟨ChatReadUpdateProjection.canHandle, ChatReadUpdateProjection.handle⟩ args =
      .ok (some w)) : w.Of .chatRead args := by
  obtain ⟨_, stmt, hstmt, hbind⟩ := StatementBuilder.write_eq_some.mp h
  simp only [ChatReadUpdateProjection.handle, bind_eq_ok] at hstmt
  obtain ⟨reader, _, hstmt⟩ := hstmt
  split at hstmt
  next => cases hstmt
  next reader =>
    simp only [bind_eq_ok] at hstmt
    obtain ⟨_, _, _, _, hstmt⟩ := hstmt
    cases hstmt
    obtain ⟨_, _, hbind⟩ := bind_eq_ok.mp hbind
    cases hbind
    exact ⟨rfl, rfl, fun _ hj => nomatch hj⟩

lemma videoEvent_write
    (h : StatementBuilder.write
      ⟨VideoEventProjection.canHandle ext, VideoEventProjection.handle ext⟩ args =
      .ok (some w)) : w.Of .videoEvent args := by
  obtain ⟨_, stmt, hstmt, hbind⟩ := StatementBuilder.write_eq_some.mp h
  simp only [VideoEventProjection.handle, bind_eq_ok] at hstmt
  obtain ⟨_, _, _, _, _, _, _, _, hstmt⟩ := hstmt
  cases hstmt
  obtain ⟨_, _, hbind⟩ := bind_eq_ok.mp hbind
  cases hbind
  exact ⟨⟨rfl, rfl⟩, rfl, fun _ hj => nomatch hj⟩

lemma lifecycle_write
    (h : StatementBuilder.write ⟨LifecycleProjection.canHandle,
      fun args => (LifecycleProjection.statement ext args).map (Option.map Prod.snd)⟩ args =
      .ok (some w)) : w.Of .lifecycleEvent args := by
  obtain ⟨_, stmt, hstmt, hbind⟩ := StatementBuilder.write_eq_some.mp h
  obtain ⟨built, hbuilt, hsnd⟩ := except_map_eq_ok.mp hstmt
  unfold LifecycleProjection.statement at hbuilt
  split at hbuilt
  · cases hbuilt
    cases hsnd
  · simp only [bind_eq_ok] at hbuilt
    obtain ⟨_, _, hbuilt⟩ := hbuilt
    cases hbuilt
    cases hsnd
    cases hbind
    exact ⟨⟨rfl, rfl⟩, rfl, fun _ hj => nomatch hj⟩

variable (ext)

/-- Each handler writes to its own table, about the event at hand. -/
theorem statementBuilders_writes :
    List.Forall₂ (fun b kind => b.Writes (ProjectionWrite.Of kind)) (statementBuilders ext)
      [.meetingLink, .emailNotification, .telegramNotification, .emailStatusHistory, .chatEvent,
        .chatRead, .videoEvent, .lifecycleEvent] := by
  unfold statementBuilders
  exact .cons (fun _ _ => meetingLink_write) <| .cons (fun _ _ => emailNotification_write) <|
    .cons (fun _ _ => telegram_write) <| .cons (fun _ _ => emailStatusHistory_write) <|
    .cons (fun _ _ => chatEvent_write) <| .cons (fun _ _ => chatReadUpdate_write) <|
    .cons (fun _ _ => videoEvent_write) <| .cons (fun _ _ => lifecycle_write) .nil

end Shapes

section Plans

variable (ext : Externals) {queueName : String} {event : ParsedEvent} {bookingId : String}
  {known : Bool} {ref : Nat} {work : BookingWork}

lemma collectWrites_forall {bs : List StatementBuilder} {kinds : List ProjectionWrite.Kind}
    (hbs : List.Forall₂ (fun b kind => b.Writes (ProjectionWrite.Of kind)) bs kinds)
    {args : HandleArgs} {writes : List ProjectionWrite} (h : collectWrites args bs = .ok writes) :
    ∀ w ∈ writes, ∃ kind ∈ kinds, w.Of kind args := by
  induction hbs generalizing writes with
  | nil =>
    cases h
    simp
  | @cons b kind bs kinds hb _ ih =>
    rw [collectWrites] at h
    obtain ⟨write, hwrite, h⟩ := bind_eq_ok.mp h
    obtain ⟨rest, hrest, h⟩ := bind_eq_ok.mp h
    cases h
    intro w hw
    rcases List.mem_append.mp hw with hw | hw
    · rw [Option.mem_toList] at hw
      exact ⟨kind, List.mem_cons_self, hb args w (hw ▸ hwrite)⟩
    · obtain ⟨k, hk, hof⟩ := ih hrest w hw
      exact ⟨k, List.mem_cons_of_mem _ hk, hof⟩

/-- What a plan contains. -/
theorem plan_eq_ok (h : plan ext queueName event bookingId known ref = .ok work) :
    ∃ organizer client, ParticipantExtractor.extract ext event.payload = .ok (organizer, client) ∧
      ((known = true ∧ work.upsert = none ∧ work.organizer = none ∧ work.newClient = none ∧
          projectionWrites ext ⟨event, ref, organizer, client, queueName⟩ = .ok work.writes) ∨
        known = false ∧
          (∃ data, BookingDataExtractor.extract ext bookingId event.eventType event.payload =
              .ok data ∧
            work.upsert = some (BookingRepository.row data event.occurredAt organizer client)) ∧
          work.organizer = organizerAssignment event organizer ∧
          reassignedClient ext event = .ok work.newClient ∧
          projectionWrites ext
            ⟨event, ref, organizer, work.newClient.or client, queueName⟩ = .ok work.writes) := by
  unfold plan at h
  obtain ⟨⟨organizer, client⟩, hx, h⟩ := bind_eq_ok.mp h
  refine ⟨organizer, client, hx, ?_⟩
  dsimp only at h
  split at h
  next hk =>
    obtain ⟨writes, hwrites, h⟩ := bind_eq_ok.mp h
    cases h
    exact .inl ⟨hk, rfl, rfl, rfl, hwrites⟩
  next hk =>
    obtain ⟨data, hdata, h⟩ := bind_eq_ok.mp h
    obtain ⟨newClient, hclient, h⟩ := bind_eq_ok.mp h
    obtain ⟨writes, hwrites, h⟩ := bind_eq_ok.mp h
    cases h
    exact .inr ⟨Bool.eq_false_iff.mpr hk, ⟨data, hdata, rfl⟩, rfl, hclient, hwrites⟩

/-- The writes of a plan are about its event and its booking. -/
theorem plan_writes (h : plan ext queueName event bookingId known ref = .ok work) :
    ∀ w ∈ work.writes, w.FiledUnder event.eventId ref ∧
      ∀ jobId, w.jobId? = some jobId → event.emailJobId? = some jobId := by
  intro w hw
  obtain ⟨organizer, client, _, ⟨_, _, _, _, hwrites⟩ | ⟨_, _, _, _, hwrites⟩⟩ := plan_eq_ok ext h
  · obtain ⟨_, _, hof⟩ := collectWrites_forall (statementBuilders_writes ext) hwrites w hw
    exact ⟨hof.1, hof.2.2⟩
  · obtain ⟨_, _, hof⟩ := collectWrites_forall (statementBuilders_writes ext) hwrites w hw
    exact ⟨hof.1, hof.2.2⟩

/-- The row a plan upserts is the one of its booking, and a known booking is not upserted. -/
theorem plan_upsert (h : plan ext queueName event bookingId known ref = .ok work) :
    (known = true → work.upsert = none) ∧
      (known = false → ∃ row, work.upsert = some row ∧ row.bookingUid = bookingId) := by
  obtain ⟨organizer, client, _, ⟨hk, hu, _⟩ | ⟨hk, ⟨data, hdata, hu⟩, _⟩⟩ := plan_eq_ok ext h
  · exact ⟨fun _ => hu, fun hk' => by simp [hk] at hk'⟩
  · refine ⟨fun hk' => by simp [hk] at hk', fun _ => ⟨_, hu, ?_⟩⟩
    exact BookingDataExtractor.extract_bookingId ext hdata

end Plans

end EventSaver
