import EventSaver.Consumer
import EventSaver.Library.Errors

/-!
# Errors of the ingestion

Unless something goes wrong outside it, the ingestion of a message raises errors of the kind that
is not retried: of the conversion of its values, of its statements' parameters, of the code itself.
-/

namespace EventSaver
open JsonData TableData EffectProgram

/-- An error that is not retried. -/
abbrev Fatal (e : Exc) : Prop := isTransient e = false

section Values

variable {ext : Externals}

lemma fatal_getD (value : Json) (key : String) (default : Json) :
    RaisesOnly Fatal (Payload.getD value key default) := by
  cases value with
  | obj fields => exact .ok _
  | _ => exact .error rfl

lemma fatal_get (value : Json) (key : String) : RaisesOnly Fatal (Payload.get value key) :=
  fatal_getD value key .null

lemma fatal_original (payload : Json) : RaisesOnly Fatal (Payload.original payload) :=
  fatal_getD payload "original" payload

lemma fatal_item (value : Json) (key : String) : RaisesOnly Fatal (Payload.item value key) := by
  unfold Payload.item
  split
  · split
    · exact .ok _
    · exact .error rfl
  · exact .error rfl

lemma fatal_pyUuid (value : Json) : RaisesOnly Fatal (pyUuid ext value) := by
  unfold pyUuid
  split
  · split
    · exact .ok _
    · exact .error rfl
  · exact .error rfl
  · exact .error rfl

lemma fatal_parse (now : Timestamp) (m : Message) :
    RaisesOnly Fatal (EventParser.parse ext now m) := by
  refine .bind ?_ fun occurredAt => .pure _
  unfold EventParser.parseOccurredAt
  split
  · exact .ok _
  · exact .ok _
  · split
    · exact .ok _
    · exact .error rfl

lemma fatal_extractParticipants (payload : Json) :
    RaisesOnly Fatal (ParticipantExtractor.extract ext payload) := by
  refine .bind (fatal_get _ _) fun normalized => ?_
  split
  · split <;> exact .pure _
  · exact .pure _

lemma fatal_extractBooking (bookingId eventType : String) (payload : Json) :
    RaisesOnly Fatal (BookingDataExtractor.extract ext bookingId eventType payload) :=
  .bind (fatal_get _ _) fun _ => .bind (fatal_get _ _) fun _ => .pure _

lemma fatal_syncedUser (payload : Json) :
    RaisesOnly Fatal (IngestEvent.syncedUser ext payload) :=
  .bind (fatal_getD _ _ _) fun _ => .bind (fatal_item _ _) fun _ => .bind (fatal_item _ _) fun _ =>
    .bind (fatal_item _ _) fun _ => .bind (fatal_pyUuid _) fun _ => .pure _

lemma fatal_newClient (payload : Json) :
    RaisesOnly Fatal (IngestEvent.newClient ext payload) := by
  refine .bind (fatal_getD _ _ _) fun original => .bind (fatal_get _ _) fun newClientId => ?_
  refine .ite ?_ (.pure _)
  split
  · exact .pure _
  · exact .pure _
  · exact .pure _
  · rename_i e _ _ herror
    exact .error (fatal_pyUuid newClientId e herror)

lemma fatal_roleColumn (role : Json) : RaisesOnly Fatal (BookingRepository.roleColumn role) := by
  unfold BookingRepository.roleColumn
  split
  · exact .ite (.pure _) (.ite (.pure _) (.pure _))
  · exact .error rfl
  · exact .error rfl
  · exact .pure _

end Values

section Handlers

variable {ext : Externals} (args : HandleArgs)

lemma fatal_firstParticipantUserId : RaisesOnly Fatal args.firstParticipantUserId := by
  refine .bind (fatal_get _ _) fun normalized => ?_
  split
  · split <;> exact .pure _
  · exact .pure _

lemma fatal_extractAction (queueName eventType source : String) (payload : Json) :
    RaisesOnly Fatal
      (BookingTimelineClassifier.extractAction ext queueName eventType source payload) := by
  have hqueue : RaisesOnly Fatal (BookingTimelineClassifier.extractActionByQueue ext queueName
      eventType payload) :=
    .ite (.bind (fatal_original _) fun _ => .bind (fatal_get _ _) fun _ => .pure _)
      (.ite (.pure _) (.pure _))
  have hsource : RaisesOnly Fatal
      (BookingTimelineClassifier.extractActionBySource source payload) :=
    .ite (.bind (fatal_original _) fun _ => fatal_get _ _) (.pure _)
  refine .bind hqueue fun extracted => .ite (.pure _) ?_
  exact .bind hsource fun extracted => .ite (.pure _) (.pure _)

lemma fatal_meetingLink : RaisesOnly Fatal (MeetingLinkProjection.handle args) := by
  unfold MeetingLinkProjection.handle
  split
  · exact .pure _
  · exact .ite (.pure _) (.bind (fatal_original _) fun _ => .bind (fatal_get _ _) fun _ => .pure _)

lemma fatal_emailSent : RaisesOnly Fatal (EmailNotificationProjection.handleEmailSent args) := by
  refine .bind (fatal_original _) fun original => .bind (fatal_get _ _) fun jobId => ?_
  split
  · exact .bind (fatal_get _ _) fun _ => .bind (fatal_get _ _) fun _ =>
      .bind (fatal_get _ _) fun _ => .pure _
  · exact .pure _

lemma fatal_emailStatus :
    RaisesOnly Fatal (EmailNotificationProjection.handleEmailStatus ext args) := by
  refine .bind (fatal_original _) fun original => .bind (fatal_get _ _) fun eventData => ?_
  split
  · refine .bind (fatal_get _ _) fun jobId => .bind (fatal_get _ _) fun status =>
      .bind (fatal_get _ _) fun url => .bind (fatal_get _ _) fun eventTime =>
        .bind (fatal_get _ _) fun email => ?_
    split <;> exact .pure _
  · exact .pure _

lemma fatal_emailNotification :
    RaisesOnly Fatal (EmailNotificationProjection.handle ext args) :=
  .ite (fatal_emailSent args) (.ite (fatal_emailStatus args) (.pure _))

lemma fatal_telegramNotification :
    RaisesOnly Fatal (TelegramNotificationProjection.handle args) :=
  .bind (fatal_original _) fun _ => .bind (fatal_get _ _) fun _ => .bind (fatal_get _ _) fun _ =>
    .bind (fatal_get _ _) fun _ => .pure _

lemma fatal_emailStatusHistory :
    RaisesOnly Fatal (EmailStatusHistoryProjection.handle ext args) := by
  refine .bind (fatal_original _) fun original => .bind (fatal_get _ _) fun eventData => ?_
  split
  · refine .bind (fatal_get _ _) fun jobId => .bind (fatal_get _ _) fun status =>
      .bind (fatal_get _ _) fun eventTime => ?_
    split
    · exact .bind (fatal_get _ _) fun _ => .pure _
    · exact .pure _
  · exact .pure _

lemma fatal_chatEvent : RaisesOnly Fatal (ChatEventProjection.handle ext args) := by
  have hid : RaisesOnly Fatal (ChatEventProjection.extractMessageId args.event.payload) := by
    refine .bind (fatal_original _) fun original => .bind (fatal_get _ _) fun messageId => ?_
    split
    · exact .pure _
    · exact .bind (fatal_get _ _) fun _ => .pure _
  have hpreview : RaisesOnly Fatal (ChatEventProjection.extractTextPreview args.event.payload) :=
    .bind (fatal_original _) fun _ => .bind (fatal_get _ _) fun _ => .pure _
  exact .bind (fatal_extractAction _ _ _ _) fun _ => .bind hid fun _ =>
    .bind (fatal_firstParticipantUserId args) fun _ => .bind hpreview fun _ => .pure _

lemma fatal_chatRead : RaisesOnly Fatal (ChatReadUpdateProjection.handle args) := by
  refine .bind (fatal_firstParticipantUserId args) fun reader => ?_
  split
  · exact .pure _
  · exact .bind (fatal_original _) fun _ => .bind (fatal_get _ _) fun _ => .pure _

lemma fatal_videoEvent : RaisesOnly Fatal (VideoEventProjection.handle ext args) := by
  have hrole : RaisesOnly Fatal
      (VideoEventProjection.extractParticipantRole args.event.payload) :=
    .bind (fatal_original _) fun _ => .bind (fatal_get _ _) fun _ => .pure _
  have htime : RaisesOnly Fatal
      (VideoEventProjection.extractEventTime ext args.event.payload) :=
    .bind (fatal_original _) fun _ => .bind (fatal_get _ _) fun _ => .pure _
  have hpayload (action : Json) : RaisesOnly Fatal
      (VideoEventProjection.projectPayload ext action args.event.payload) := by
    refine .bind (fatal_original _) fun original => ?_
    split
    · exact .error rfl
    · exact .error rfl
    · split
      · refine .bind (fatal_get _ _) fun muted => ?_
        split <;> exact .pure _
      · split
        · refine .bind (fatal_get _ _) fun devices => ?_
          split <;> exact .pure _
        · exact .ite (.pure _) (.pure _)
    · exact .pure _
  exact .bind (fatal_extractAction _ _ _ _) fun _ => .bind hrole fun _ => .bind htime fun _ =>
    .bind (hpayload _) fun _ => .pure _

lemma fatal_pick (source : Json) (keys : List String) :
    RaisesOnly Fatal (LifecycleProjection.pick source keys) := by
  unfold LifecycleProjection.pick
  split
  · exact .pure _
  · exact .ite (.error rfl) (.pure _)
  · exact .ite (.error rfl) (.pure _)
  · exact .error rfl

lemma fatal_previousOrganizer (participants : List Json) :
    RaisesOnly Fatal (LifecycleProjection.previousOrganizer participants) := by
  induction participants with
  | nil => exact .pure _
  | cons p rest ih =>
    exact .bind (fatal_get _ _) fun _ => .ite (.bind (fatal_get _ _) fun _ => .pure _) ih

lemma fatal_iterate (participants : Json) :
    RaisesOnly Fatal (LifecycleProjection.iterate participants) := by
  unfold LifecycleProjection.iterate
  split
  · exact .pure _
  · exact .pure _
  · exact .pure _
  · exact .error rfl

lemma fatal_extractDetails (event : ParsedEvent) :
    RaisesOnly Fatal (LifecycleProjection.extractDetails ext event) := by
  have hreassigned : RaisesOnly Fatal (do
      let normalized ← Payload.getD event.payload "normalized" (.obj [])
      let participants ← Payload.getD normalized "participants" (.arr [])
      LifecycleProjection.previousOrganizer (← LifecycleProjection.iterate participants)) :=
    .bind (fatal_getD _ _ _) fun _ => .bind (fatal_getD _ _ _) fun _ =>
      .bind (fatal_iterate _) fun _ => fatal_previousOrganizer _
  exact .ite (fatal_pick _ _) (.ite (fatal_pick _ _) (.ite hreassigned (.ite (fatal_pick _ _)
    (.ite (fatal_pick _ _) (.ite (fatal_pick _ _) (.pure _))))))

lemma fatal_lifecycle : (LifecycleProjection.handle ext args).ThrowsOnly Fatal := by
  have hstatement : RaisesOnly Fatal (LifecycleProjection.statement ext args) := by
    unfold LifecycleProjection.statement
    split
    · exact .pure _
    · exact .bind (fatal_extractDetails _) fun _ => .pure _
  refine .bind (.lift hstatement) fun found => ?_
  split
  · exact .pure _
  · exact .bind (.perform _) fun _ => .pure _

lemma fatal_handlers :
    ∀ handler ∈ projectionHandlers ext, (handler.handle args).ThrowsOnly Fatal := by
  simp only [projectionHandlers, List.forall_mem_cons]
  exact ⟨.lift (fatal_meetingLink args), .lift (fatal_emailNotification args),
    .lift (fatal_telegramNotification args), .lift (fatal_emailStatusHistory args),
    .lift (fatal_chatEvent args), .lift (fatal_chatRead args), .lift (fatal_videoEvent args),
    fatal_lifecycle args, List.forall_mem_nil _⟩

end Handlers

section Ingestion

variable {ext : Externals}

lemma fatal_executeProjections (args : HandleArgs) (handlers : List ProjectionHandler)
    (h : ∀ handler ∈ handlers, (handler.handle args).ThrowsOnly Fatal) :
    (ProjectionExecutor.executeProjections args handlers).ThrowsOnly Fatal := by
  induction handlers with
  | nil => exact .pure _
  | cons handler rest ih =>
    rw [List.forall_mem_cons] at h
    have hproject : (ProjectionExecutor.project handler args).ThrowsOnly Fatal := by
      refine .bind h.1 fun stmt => ?_
      split
      · exact .perform _
      · exact .pure _
    exact .ite (.bind hproject fun _ => ih h.2) (ih h.2)

lemma fatal_upsertBooking (event : ParsedEvent) (bookingId : String)
    (organizerUserId clientUserId : Option Uuid) :
    (IngestEvent.upsertBooking ext event bookingId organizerUserId clientUserId).ThrowsOnly
      Fatal := by
  have hupsert (data : BookingData) : (BookingRepository.upsert data event.occurredAt
      organizerUserId clientUserId).ThrowsOnly Fatal := by
    refine .bind (.perform _) fun id => ?_
    split
    · exact .pure _
    · exact rfl
  have hhistory (ref : Nat) :
      (IngestEvent.saveOrganizerHistory event ref organizerUserId).ThrowsOnly Fatal := by
    refine .ite ?_ (.pure _)
    split
    · exact .perform _
    · exact .pure _
  have hclient (ref : Nat) :
      (IngestEvent.reassignClient ext event ref clientUserId).ThrowsOnly Fatal := by
    refine .ite (.bind (.lift (fatal_newClient _)) fun newClient => ?_) (.pure _)
    split
    · exact .bind (.perform _) fun _ => .pure _
    · exact .pure _
  exact .bind (.lift (fatal_extractBooking _ _ _)) fun _ => .bind (hupsert _) fun _ =>
    .bind (hhistory _) fun _ => .bind (hclient _) fun _ => .pure _

/-- Whatever its statements return, the ingestion throws no transient error itself. -/
lemma fatal_execute (now : Timestamp) (m : Message) :
    (IngestEvent.execute ext now m).ThrowsOnly Fatal := by
  have hsynced (email role : Json) (userId : Uuid) :
      (BookingRepository.backfillUserIdByEmail email role userId).ThrowsOnly Fatal := by
    refine .bind (.lift (fatal_roleColumn role)) fun column => ?_
    split
    · exact .pure _
    · exact .perform _
  have hbooking (event : ParsedEvent) (bookingId : String) :
      (IngestEvent.processBooking ext m.queueName event bookingId).ThrowsOnly Fatal := by
    refine .bind (.lift (fatal_extractParticipants _)) fun participants =>
      .bind (.ite (.pure _) (.perform _)) fun known => ?_
    dsimp only
    split
    · exact .bind (.pure _) fun _ => fatal_executeProjections _ _ (fatal_handlers _)
    · exact .bind (fatal_upsertBooking _ _ _ _) fun _ =>
        fatal_executeProjections _ _ (fatal_handlers _)
  refine .bind (.lift (fatal_parse _ _)) fun event => .bind (.perform _) fun isInserted =>
    .ite (.bind (.perform _) fun _ => ?_) (.pure _)
  refine .ite (.bind (.lift (fatal_syncedUser _)) fun _ => hsynced _ _ _) ?_
  split
  · exact .pure _
  · exact .ite (.pure _) (hbooking _ _)

/-- A statement that reaches the database may only fail for its parameters. -/
lemma fatal_sql (call : Call) (db : Db) :
    RaisesOnly Fatal (SqlExecutor.execute ext call db) := by
  have htext (value : Json) : RaisesOnly Fatal (textParam value) := by
    cases value with
    | str s => exact .ok _
    | _ => exact .error rfl
  have hnullable (value : Json) : RaisesOnly Fatal (nullableTextParam value) := by
    unfold nullableTextParam
    split
    · exact .ok _
    · exact .ok _
    · exact .error rfl
  cases call with
  | insertEvent row => exact .ite (.ok _) (.ok _)
  | backfillUserIdByEmail email role userId => exact .bind (hnullable _) fun _ => .pure _
  | project stmt =>
    refine .bind ?_ fun _ => .pure _
    cases stmt with
    | upsertMeetingLink ref userId meetingUrl sourceEventId occurredAt =>
      exact .bind (htext _) fun _ => .pure _
    | insertChatEvent ref rawEventId provider chatEventType messageId userId textPreview
        occurredAt => exact .bind (htext _) fun _ => .pure _
    | updateChatRead ref readerUserId lastReadMessageId readOccurredAt =>
      exact .bind (hnullable _) fun _ => .pure _
    | insertVideoEvent ref rawEventId videoEventType participantRole userId eventTime payload =>
      exact .bind (htext _) fun _ => .pure _
    | _ => exact .pure _
  | _ => exact .ok _

/-- A save attempt that nothing goes wrong around raises no transient error. -/
theorem fatal_of_saveEvent {now : Timestamp} {m : Message} {db db' : Db} {e : Exc}
    (h : saveEvent ext now m db = (.error e, db')) : Fatal e := by
  rw [saveEvent, saveEventUnder, transact_none] at h
  rcases hrun : (IngestEvent.execute ext now m).run (SqlExecutor.execute ext) db with ⟨e' | _, t⟩
  · rw [hrun] at h
    cases h
    exact (fatal_execute now m).run fatal_sql hrun
  · rw [hrun] at h
    cases h

end Ingestion

end EventSaver
