import Mathlib.Data.List.TakeWhile
import EventSaver.IngestPlan

/-!
# Malformed payloads

Which payloads the extractors, the classifier and the handlers get through. A value of an
unexpected kind counts as absent nearly everywhere: the exceptions are the original itself, the
participants of a reassignment, and a container in the place of the action of a video event.
-/

namespace EventSaver
open JsonData EffectProgram

/-- Extraction, classification and projection of an event end without an exception. -/
structure NeverRaises (ext : Externals) (args : HandleArgs) : Prop where
  participants : (ParticipantExtractor.extract ext args.event.payload).isOk = true
  bookingData : ∀ bookingId, (BookingDataExtractor.extract ext bookingId args.event.eventType
    args.event.payload).isOk = true
  reassignment : ∀ db, ((IngestEvent.reassignClient ext args.event args.bookingRefId
    args.clientUserId).run (SqlExecutor.execute ext) db).1.isOk = true
  action : (BookingTimelineClassifier.extractAction ext args.queueName args.event.eventType
    args.event.source args.event.payload).isOk = true
  handlers : ∀ h ∈ projectionHandlers ext, h.canHandle args.event = true →
    ∀ db, ((h.handle args).run (SqlExecutor.execute ext) db).1.isOk = true

namespace Payload

/-- The original of a payload, or the payload itself when it has none. -/
def originalOf (payload : Json) : Json := (payload.get? "original").getD payload

/-- An array or an object. -/
def isContainer : Json → Bool
  | .arr _ => true
  | .obj _ => true
  | _ => false

def isPreviousOrganizer (p : Json) : Bool := ((p.get? "role").getD .null).isStr "previous_organizer"

/-- Participants the loop of a reassignment gets through: no other value than an object stands
before the first previous organizer. -/
def loopsThrough : Json → Bool
  | .arr items => (items.takeWhile fun p => !isPreviousOrganizer p).all Json.isObj
  | .str s => s == ""
  | .obj fields => fields.isEmpty
  | _ => false

end Payload

/-- The condition on an event under which nothing raises. -/
structure Readable (ext : Externals) (queueName : String) (event : ParsedEvent) : Prop where
  original : (Payload.originalOf event.payload).isObj = true
  action : queueName = "events.chat" → event.eventType ∈ ext.jitsiEventTypes →
    ∀ type, (Payload.originalOf event.payload).get? "type" = some type → type.truthy = true →
      Payload.isContainer type = false
  participants : event.eventType = EventType.bookingReassigned.value →
    ((event.payload.get? "normalized").getD (.obj [])).isObj = true ∧
      Payload.loopsThrough ((((event.payload.get? "normalized").getD (.obj [])).get?
        "participants").getD (.arr [])) = true

section Reading

variable {ε α β : Type}

lemma isOk_iff {x : Except ε α} : x.isOk = true ↔ ∃ a, x = .ok a := by
  cases x <;> simp [Except.isOk, Except.toBool]

lemma isOk_bind {x : Except ε α} {f : α → Except ε β} {a : α} (h : x = .ok a) :
    (x >>= f).isOk = (f a).isOk := by rw [h, ok_bind]

end Reading

section Loop

/-- The loop over the participants raises at a value that is no object. -/
lemma previousOrganizer_isOk (items : List Json) :
    (LifecycleProjection.previousOrganizer items).isOk =
      (items.takeWhile fun p => !Payload.isPreviousOrganizer p).all Json.isObj := by
  induction items with
  | nil => rfl
  | cons p rest ih =>
    rw [LifecycleProjection.previousOrganizer]
    cases p with
    | obj fields =>
      have hrole : Payload.get (.obj fields) "role" =
          .ok ((Json.obj fields).get? "role" |>.getD .null) := rfl
      rw [isOk_bind hrole, List.takeWhile_cons, Payload.isPreviousOrganizer]
      cases ((((Json.obj fields).get? "role").getD .null).isStr "previous_organizer") with
      | true => rfl
      | false => exact ih
    | null => rfl
    | bool b => rfl
    | num mantissa exponent => rfl
    | str s => rfl
    | arr items => rfl

lemma takeWhile_chars (chars : List Char) :
    ((chars.map fun c => Json.str c.toString).takeWhile fun p => !Payload.isPreviousOrganizer p) =
      chars.map fun c => Json.str c.toString := by
  refine List.takeWhile_eq_self_iff.mpr fun p hp => ?_
  obtain ⟨c, _, rfl⟩ := List.mem_map.mp hp
  rfl

/-- What the loop iterates over, and whether it gets through. -/
lemma iterate_isOk (participants : Json) :
    (LifecycleProjection.iterate participants >>= LifecycleProjection.previousOrganizer).isOk =
      Payload.loopsThrough participants := by
  cases participants with
  | arr items => exact previousOrganizer_isOk items
  | str s =>
    have hiterate : LifecycleProjection.iterate (.str s) =
        .ok (s.toList.map fun c => .str c.toString) := rfl
    rw [isOk_bind hiterate, previousOrganizer_isOk, takeWhile_chars, Payload.loopsThrough]
    cases hs : s.toList with
    | nil =>
      have hempty : s = "" := String.toList_inj.mp hs
      rw [hempty]
      rfl
    | cons c rest =>
      have hne : s ≠ "" := fun h => by simp [h] at hs
      rw [beq_eq_false_iff_ne.mpr hne]
      rfl
  | obj fields =>
    have hiterate : LifecycleProjection.iterate (.obj fields) =
        .ok (fields.map fun field => .str field.1) := rfl
    rw [isOk_bind hiterate, previousOrganizer_isOk, Payload.loopsThrough]
    cases fields <;> rfl
  | null => rfl
  | bool b => rfl
  | num mantissa exponent => rfl

end Loop

section Handlers

variable {ext : Externals} {args : HandleArgs} {fields original : List (String × Json)}

lemma original_eq (hpayload : args.event.payload = .obj fields)
    (horiginal : Payload.originalOf args.event.payload = .obj original) :
    Payload.original args.event.payload = .ok (.obj original) := by
  rw [Payload.original_eq_ok, ← horiginal]
  exact ⟨by rw [hpayload]; rfl, rfl⟩

lemma get_ok (key : String) : Payload.get (.obj original) key =
    .ok (((Json.obj original).get? key).getD .null) := rfl

lemma firstParticipant_isOk (hpayload : args.event.payload = .obj fields) :
    args.firstParticipantUserId.isOk = true := by
  rw [HandleArgs.firstParticipantUserId, hpayload, get_ok, ok_bind]
  split
  · split <;> rfl
  · rfl

variable (ext) in
/-- The classifier gets through every original that is an object. -/
lemma extractAction_isOk (queueName eventType source : String) {payload : Json}
    (h : Payload.original payload = .ok (.obj original)) :
    (BookingTimelineClassifier.extractAction ext queueName eventType source payload).isOk = true := by
  have hqueue : ∃ action, BookingTimelineClassifier.extractActionByQueue ext queueName eventType
      payload = .ok action := by
    unfold BookingTimelineClassifier.extractActionByQueue
      BookingTimelineClassifier.extractActionByQueueChat
    rw [h]
    split
    · exact ⟨_, rfl⟩
    · split <;> exact ⟨_, rfl⟩
  have hsource : ∃ action, BookingTimelineClassifier.extractActionBySource source payload =
      .ok action := by
    unfold BookingTimelineClassifier.extractActionBySource
    rw [h]
    split <;> exact ⟨_, rfl⟩
  obtain ⟨action, hqueue⟩ := hqueue
  obtain ⟨action', hsource⟩ := hsource
  rw [BookingTimelineClassifier.extractAction, hqueue, ok_bind, hsource]
  split
  · rfl
  · rw [ok_bind]
    split <;> rfl

lemma meetingLink_isOk (h : args.original = .ok (.obj original)) :
    (MeetingLinkProjection.handle args).isOk = true := by
  unfold MeetingLinkProjection.handle
  split
  · rfl
  · split
    · rfl
    · rw [isOk_bind h]
      rfl

lemma emailNotification_isOk (h : args.original = .ok (.obj original)) :
    (EmailNotificationProjection.handle ext args).isOk = true := by
  unfold EmailNotificationProjection.handle
  split
  · rw [EmailNotificationProjection.handleEmailSent, isOk_bind h, get_ok, ok_bind]
    split <;> rfl
  · split
    · rw [EmailNotificationProjection.handleEmailStatus, isOk_bind h, get_ok, ok_bind]
      split
      next data hdata =>
        rw [hdata, get_ok, ok_bind, get_ok, ok_bind, get_ok, ok_bind, get_ok, ok_bind, get_ok,
          ok_bind]
        split <;> rfl
      next => rfl
    · rfl

lemma telegram_isOk (h : args.original = .ok (.obj original)) :
    (TelegramNotificationProjection.handle args).isOk = true := by
  rw [TelegramNotificationProjection.handle, isOk_bind h]
  rfl

lemma emailStatusHistory_isOk (h : args.original = .ok (.obj original)) :
    (EmailStatusHistoryProjection.handle ext args).isOk = true := by
  rw [EmailStatusHistoryProjection.handle, isOk_bind h, get_ok, ok_bind]
  split
  next data hdata =>
    rw [hdata, get_ok, ok_bind, get_ok, ok_bind, get_ok, ok_bind]
    split <;> rfl
  next => rfl

lemma extractMessageId_isOk (h : Payload.original args.event.payload = .ok (.obj original)) :
    (ChatEventProjection.extractMessageId args.event.payload).isOk = true := by
  rw [ChatEventProjection.extractMessageId, isOk_bind h, get_ok, ok_bind]
  split <;> rfl

lemma chatEvent_isOk (hpayload : args.event.payload = .obj fields)
    (h : Payload.original args.event.payload = .ok (.obj original)) :
    (ChatEventProjection.handle ext args).isOk = true := by
  obtain ⟨action, haction⟩ := isOk_iff.mp (extractAction_isOk ext args.queueName
    args.event.eventType args.event.source h)
  obtain ⟨messageId, hmessageId⟩ := isOk_iff.mp (extractMessageId_isOk h)
  obtain ⟨userId, huserId⟩ := isOk_iff.mp (firstParticipant_isOk hpayload)
  rw [ChatEventProjection.handle, isOk_bind haction, isOk_bind hmessageId, isOk_bind huserId,
    ChatEventProjection.extractTextPreview, h]
  rfl

lemma chatReadUpdate_isOk (hpayload : args.event.payload = .obj fields)
    (h : args.original = .ok (.obj original)) :
    (ChatReadUpdateProjection.handle args).isOk = true := by
  obtain ⟨reader, hreader⟩ := isOk_iff.mp (firstParticipant_isOk hpayload)
  rw [ChatReadUpdateProjection.handle, isOk_bind hreader]
  cases reader with
  | none => rfl
  | some reader => exact (isOk_bind h).trans rfl

variable (ext) in
/-- A container in the place of the action is what a video event trips over. -/
lemma projectPayload_isOk (action : Json) {payload : Json}
    (h : Payload.original payload = .ok (.obj original)) :
    (VideoEventProjection.projectPayload ext action payload).isOk = !Payload.isContainer action := by
  rw [VideoEventProjection.projectPayload, isOk_bind h]
  cases action with
  | str s =>
    dsimp only [Payload.isContainer]
    split
    · rw [get_ok, ok_bind]
      split <;> rfl
    · split
      · rw [get_ok, ok_bind]
        split <;> rfl
      · split <;> rfl
  | arr items => rfl
  | obj fields => rfl
  | null => rfl
  | bool b => rfl
  | num mantissa exponent => rfl

variable (ext) in
/-- The action of a video event is a container only if the chat queue says so. -/
lemma extractAction_container (queueName eventType : String) {payload : Json}
    (h : Payload.original payload = .ok (.obj original)) :
    ∃ action, BookingTimelineClassifier.extractAction ext queueName eventType
        SourceType.jitsi.value payload = .ok action ∧
      (Payload.isContainer action = true ↔ queueName = "events.chat" ∧
        ∃ type, (Json.obj original).get? "type" = some type ∧ type.truthy = true ∧
          Payload.isContainer type = true) := by
  have hsource : BookingTimelineClassifier.extractActionBySource SourceType.jitsi.value payload =
      .ok .null := rfl
  rw [BookingTimelineClassifier.extractAction, hsource]
  by_cases hchat : queueName = "events.chat"
  · have hqueue : BookingTimelineClassifier.extractActionByQueue ext queueName eventType payload =
        .ok (if (((Json.obj original).get? "type").getD .null).truthy then
          ((Json.obj original).get? "type").getD .null else .null) := by
      rw [BookingTimelineClassifier.extractActionByQueue, if_pos hchat,
        BookingTimelineClassifier.extractActionByQueueChat, h]
      rfl
    rw [hqueue, ok_bind]
    cases htype : (Json.obj original).get? "type" with
    | none => exact ⟨_, rfl, by simp [Payload.isContainer]⟩
    | some type =>
      rw [Option.getD_some]
      cases htruthy : type.truthy with
      | true =>
        rw [if_pos rfl, if_pos htruthy]
        exact ⟨type, rfl, by simp [hchat, htruthy]⟩
      | false => exact ⟨_, rfl, by simp [Payload.isContainer, htruthy]⟩
  · have hqueue : ∃ action, BookingTimelineClassifier.extractActionByQueue ext queueName eventType
        payload = .ok action ∧ Payload.isContainer action = false := by
      rw [BookingTimelineClassifier.extractActionByQueue, if_neg hchat]
      split
      · refine ⟨_, rfl, ?_⟩
        cases BookingTimelineClassifier.extractActionByQueueJitsi ext eventType <;> rfl
      · exact ⟨_, rfl, rfl⟩
    obtain ⟨action, hqueue, hcontainer⟩ := hqueue
    rw [hqueue, ok_bind]
    split
    · exact ⟨action, rfl, by simp [hchat, hcontainer]⟩
    · exact ⟨_, rfl, by simp [hchat, Payload.isContainer]⟩

lemma videoEvent_isOk (h : Payload.original args.event.payload = .ok (.obj original)) :
    (VideoEventProjection.handle ext args).isOk = true ↔
      (args.queueName = "events.chat" → ∀ type, (Json.obj original).get? "type" = some type →
        type.truthy = true → Payload.isContainer type = false) := by
  obtain ⟨action, haction, hcontainer⟩ :=
    extractAction_container ext args.queueName args.event.eventType h
  have hrole : (VideoEventProjection.extractParticipantRole args.event.payload).isOk = true := by
    rw [VideoEventProjection.extractParticipantRole, isOk_bind h]
    rfl
  have htime : (VideoEventProjection.extractEventTime ext args.event.payload).isOk = true := by
    rw [VideoEventProjection.extractEventTime, isOk_bind h]
    rfl
  obtain ⟨role, hrole⟩ := isOk_iff.mp hrole
  obtain ⟨time, htime⟩ := isOk_iff.mp htime
  have hhandle : (VideoEventProjection.handle ext args).isOk = !Payload.isContainer action := by
    rw [VideoEventProjection.handle, isOk_bind haction, isOk_bind hrole, isOk_bind htime,
      ← projectPayload_isOk ext action h]
    cases VideoEventProjection.projectPayload ext action args.event.payload <;> rfl
  rw [hhandle, Bool.not_eq_true', Bool.eq_false_iff, ne_eq, hcontainer]
  simp only [not_and, not_exists, Bool.not_eq_true]

/-- The details are read, unless a reassignment holds unreadable participants. -/
lemma extractDetails_isOk
    (hunwrap : ∀ fields, ext.unwrapPayload (.obj fields) = Payload.originalOf (.obj fields))
    {event : ParsedEvent} (hpayload : event.payload = .obj fields)
    (horiginal : Payload.originalOf event.payload = .obj original) :
    (LifecycleProjection.extractDetails ext event).isOk = true ↔
      (event.eventType = EventType.bookingReassigned.value →
        ((event.payload.get? "normalized").getD (.obj [])).isObj = true ∧
          Payload.loopsThrough ((((event.payload.get? "normalized").getD (.obj [])).get?
            "participants").getD (.arr [])) = true) := by
  have hunwrapped : ext.unwrapPayload event.payload = .obj original := by
    rw [hpayload, hunwrap, ← hpayload, horiginal]
  unfold LifecycleProjection.extractDetails
  rw [hunwrapped]
  dsimp only
  by_cases htype : event.eventType = EventType.bookingReassigned.value
  · have hne {type : EventType} (h : EventType.bookingReassigned ≠ type) :
        ¬ EventType.bookingReassigned.value = type.value := by rwa [EventType.value_inj]
    rw [htype, if_neg (hne (by decide)), if_neg (hne (by decide)), if_pos rfl]
    have hnormalized : Payload.getD event.payload "normalized" (.obj []) =
        .ok ((event.payload.get? "normalized").getD (.obj [])) := by
      rw [hpayload]
      rfl
    rw [isOk_bind hnormalized]
    generalize (event.payload.get? "normalized").getD (.obj []) = normalized
    cases normalized with
    | obj fields =>
      have hparticipants : Payload.getD (.obj fields) "participants" (.arr []) =
          .ok (((Json.obj fields).get? "participants").getD (.arr [])) := rfl
      rw [isOk_bind hparticipants]
      have hloop := iterate_isOk (((Json.obj fields).get? "participants").getD (.arr []))
      simp only [hloop, Json.isObj, true_and, forall_const]
    | null => simp [Payload.getD, Json.isObj, Except.isOk, Except.toBool]
    | bool b => simp [Payload.getD, Json.isObj, Except.isOk, Except.toBool]
    | num mantissa exponent => simp [Payload.getD, Json.isObj, Except.isOk, Except.toBool]
    | str s => simp [Payload.getD, Json.isObj, Except.isOk, Except.toBool]
    | arr items => simp [Payload.getD, Json.isObj, Except.isOk, Except.toBool]
  · have hpick (keys : List String) :
        (LifecycleProjection.pick (.obj original) keys).isOk = true := rfl
    rw [if_neg htype]
    refine iff_of_true ?_ fun h => absurd h htype
    split
    · exact hpick _
    · split
      · exact hpick _
      · split
        · exact hpick _
        · split
          · exact hpick _
          · split
            · exact hpick _
            · rfl

lemma extract_isOk (hpayload : args.event.payload = .obj fields) :
    (ParticipantExtractor.extract ext args.event.payload).isOk = true := by
  rw [ParticipantExtractor.extract, hpayload, get_ok, ok_bind]
  split
  · split <;> rfl
  · rfl

lemma bookingData_isOk
    (hunwrap : ∀ fields, ext.unwrapPayload (.obj fields) = Payload.originalOf (.obj fields))
    (hpayload : args.event.payload = .obj fields) (bookingId eventType : String) :
    (BookingDataExtractor.extract ext bookingId eventType args.event.payload).isOk =
      (Payload.originalOf args.event.payload).isObj := by
  rw [BookingDataExtractor.extract, hpayload, hunwrap]
  cases Payload.originalOf (.obj fields) <;> rfl

lemma newClient_isOk (hpayload : args.event.payload = .obj fields)
    (horiginal : Payload.originalOf args.event.payload = .obj original) :
    (IngestEvent.newClient ext args.event.payload).isOk = true := by
  have hget : ∃ fields, Payload.getD args.event.payload "original" (.obj []) =
      .ok (.obj fields) := by
    rw [Payload.originalOf] at horiginal
    rw [hpayload] at horiginal ⊢
    cases hvalue : (Json.obj fields).get? "original" with
    | none => exact ⟨[], by rw [Payload.getD, hvalue]; rfl⟩
    | some value =>
      rw [hvalue] at horiginal
      exact ⟨original, by rw [Payload.getD, hvalue]; exact congrArg Except.ok horiginal⟩
  obtain ⟨found, hget⟩ := hget
  rw [IngestEvent.newClient, isOk_bind hget, get_ok, ok_bind]
  cases ((Json.obj found).get? "new_client_user_id").getD .null with
  | null => rfl
  | bool b => cases b <;> rfl
  | num mantissa exponent => split <;> rfl
  | str s =>
    split
    · rw [pyUuid]
      cases ext.uuid s <;> rfl
    · rfl
  | arr items => split <;> rfl
  | obj fields => split <;> rfl

lemma reassignClient_isOk (hpayload : args.event.payload = .obj fields)
    (horiginal : Payload.originalOf args.event.payload = .obj original) (db : Db) :
    ((IngestEvent.reassignClient ext args.event args.bookingRefId args.clientUserId).run
      (SqlExecutor.execute ext) db).1.isOk = true := by
  unfold IngestEvent.reassignClient
  split
  · obtain ⟨client, hclient⟩ := isOk_iff.mp (@newClient_isOk ext _ _ _ hpayload horiginal)
    rw [hclient]
    cases client <;> rfl
  · rfl

lemma lifecycle_isOk (db : Db) :
    ((LifecycleProjection.handle ext args).run (SqlExecutor.execute ext) db).1.isOk = true ↔
      ((LifecycleProjection.actionOf args.event.eventType).isSome = true →
        (LifecycleProjection.extractDetails ext args.event).isOk = true) := by
  have hrun := congrArg Prod.fst ((builds_lifecycle ext).2 args db)
  dsimp only at hrun
  rw [hrun, LifecycleProjection.statement]
  cases LifecycleProjection.actionOf args.event.eventType with
  | none => exact iff_of_true rfl fun h => (nomatch h)
  | some action =>
    cases LifecycleProjection.extractDetails ext args.event with
    | error e => simp [Except.map, Except.isOk, Except.toBool]
    | ok details => simp [Except.map, Except.isOk, Except.toBool]

lemma lift_isOk (statement : Except Exc (Option ProjectionStmt)) :
    (∀ db, ((Program.lift statement : Ingest (Option ProjectionStmt)).run
      (SqlExecutor.execute ext) db).1.isOk = true) ↔ statement.isOk = true := by
  simp only [Program.run_lift]
  exact ⟨fun h => h .empty, fun h _ => h⟩

/-- With an original that is an object, only two handlers can raise. -/
lemma handlers_isOk
    (hunwrap : ∀ fields, ext.unwrapPayload (.obj fields) = Payload.originalOf (.obj fields))
    (hpayload : args.event.payload = .obj fields)
    (horiginal : Payload.originalOf args.event.payload = .obj original) :
    (∀ h ∈ projectionHandlers ext, h.canHandle args.event = true →
      ∀ db, ((h.handle args).run (SqlExecutor.execute ext) db).1.isOk = true) ↔
    (args.event.eventType ∈ ext.jitsiEventTypes →
      (VideoEventProjection.handle ext args).isOk = true) ∧
    (args.event.eventType = EventType.bookingReassigned.value →
      (LifecycleProjection.extractDetails ext args.event).isOk = true) := by
  have h := original_eq hpayload horiginal
  have hdetails := extractDetails_isOk hunwrap hpayload horiginal
  simp only [projectionHandlers, List.forall_mem_cons, List.not_mem_nil, false_imp_iff,
    implies_true, and_true, lift_isOk, meetingLink_isOk h, emailNotification_isOk h, telegram_isOk h,
    emailStatusHistory_isOk h, chatEvent_isOk hpayload h, chatReadUpdate_isOk hpayload h,
    lifecycle_isOk, true_and, VideoEventProjection.canHandle, decide_eq_true_eq]
  refine and_congr_right fun _ => ?_
  constructor
  · intro hlifecycle htype
    have hcan : LifecycleProjection.canHandle args.event = true := by
      rw [LifecycleProjection.canHandle, htype]
      decide
    have haction : (LifecycleProjection.actionOf args.event.eventType).isSome = true := by
      rw [htype]
      decide
    exact hlifecycle hcan .empty haction
  · intro hreassigned _ _ _
    by_cases htype : args.event.eventType = EventType.bookingReassigned.value
    · exact hreassigned htype
    · exact hdetails.mpr fun htype' => absurd htype' htype

end Handlers

/-- Extraction, classification and projection of an event end without an exception if and only if
the event is readable. -/
theorem neverRaises_iff (ext : Externals)
    (hunwrap : ∀ fields, ext.unwrapPayload (.obj fields) = Payload.originalOf (.obj fields))
    (args : HandleArgs) {fields : List (String × Json)}
    (hpayload : args.event.payload = .obj fields) :
    NeverRaises ext args ↔ Readable ext args.queueName args.event := by
  have hdata := @bookingData_isOk ext args fields hunwrap hpayload
  have hobject (hobj : (Payload.originalOf args.event.payload).isObj = true) :
      ∃ original, Payload.originalOf args.event.payload = .obj original := by
    cases hvalue : Payload.originalOf args.event.payload with
    | obj original => exact ⟨original, rfl⟩
    | _ => rw [hvalue] at hobj; cases hobj
  constructor
  · intro h
    have hobj : (Payload.originalOf args.event.payload).isObj = true :=
      (hdata "" args.event.eventType).symm.trans (h.bookingData "")
    obtain ⟨original, horiginal⟩ := hobject hobj
    have hpayload' := original_eq hpayload horiginal
    obtain ⟨hvideo, hdetails⟩ := (handlers_isOk hunwrap hpayload horiginal).mp h.handlers
    refine ⟨hobj, fun hchat hjitsi => ?_, fun htype => ?_⟩
    · rw [horiginal]
      exact (videoEvent_isOk hpayload').mp (hvideo hjitsi) hchat
    · exact (extractDetails_isOk hunwrap hpayload horiginal).mp (hdetails htype) htype
  · intro h
    obtain ⟨original, horiginal⟩ := hobject h.original
    have hpayload' := original_eq hpayload horiginal
    refine ⟨extract_isOk hpayload, fun bookingId => ?_, reassignClient_isOk hpayload horiginal,
      extractAction_isOk ext _ _ _ hpayload', (handlers_isOk hunwrap hpayload horiginal).mpr
        ⟨fun hjitsi => ?_, fun _ => ?_⟩⟩
    · exact (hdata bookingId args.event.eventType).trans h.original
    · refine (videoEvent_isOk hpayload').mpr fun hchat => ?_
      rw [← horiginal]
      exact h.action hchat hjitsi
    · exact (extractDetails_isOk hunwrap hpayload horiginal).mpr h.participants

/-- A reassignment with a payload. -/
def reassignmentArgs (fields : List (String × Json)) : HandleArgs where
  event := {
    eventId := "1"
    eventType := EventType.bookingReassigned.value
    source := SourceType.booking.value
    occurredAt := 0
    bookingId := some "b"
    payload := .obj fields
    idempotencyKey := none
    traceId := none
    spanId := none
    dataschema := none
    payloadHash := "" }
  bookingRefId := 0
  organizerUserId := none
  clientUserId := none
  queueName := BOOKING_LIFECYCLE_SAVER_QUEUE

/-- Participants of other kinds than objects are skipped once the previous organizer is found. -/
theorem neverRaises_reassignment :
    NeverRaises .sample (reassignmentArgs [("normalized", .obj [("participants",
      .arr [.obj [("role", .str "previous_organizer")], .null])])]) :=
  (neverRaises_iff .sample (fun _ => rfl) _ rfl).mpr
    ⟨rfl, fun h => absurd h (by decide), fun _ => ⟨rfl, rfl⟩⟩

/-- A reassignment without normalized data is lost. -/
theorem not_neverRaises_reassignment :
    ¬ NeverRaises .sample (reassignmentArgs [("original", .obj []), ("normalized", .null)]) := fun h =>
  absurd (h.handlers _ (List.mem_of_getElem (i := 7) (h := by decide) rfl) rfl .empty) (by decide)

end EventSaver
