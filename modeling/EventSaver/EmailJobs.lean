import EventSaver.MalformedPayloads
import EventSaver.Processing

/-!
# What a message does to an e-mail job

A delivery status of a job overwrites the status columns of its notification and adds a row to the
history. The sent fact of a job fills the other columns. Other messages leave the job alone.
-/

namespace EventSaver
open JsonData TableData EffectProgram

/-- A delivery status of a job. -/
structure StatusReport where
  jobId : String
  status : Option String
  time : Option Timestamp
  clickedUrl : Option String
  recipientEmail : Option String
  eventId : String
  deriving DecidableEq

namespace StatusReport

/-- The notification the upsert for a status proposes. -/
def notification (r : StatusReport) : EmailNotification where
  userId := none
  triggerEvent := none
  jobId := r.jobId
  sentEventId := none
  sentAt := none
  lastStatus := r.status
  lastStatusEventTime := r.time
  lastStatusEventId := some r.eventId
  lastClickedUrl := r.clickedUrl
  recipientEmail := r.recipientEmail

/-- The history row of a status, if it has a text. -/
def historyRow (r : StatusReport) : Option EmailStatus :=
  r.status.map fun status => ⟨status, r.time, r.clickedUrl, r.eventId⟩

/-- The effect of a new status on the cell of its job. -/
def record (uid : String) (r : StatusReport) (cell : Option EmailCell) : EmailCell :=
  let upserted := EmailCell.upsert .mergeStatus uid r.notification cell
  { upserted with statusHistory := upserted.statusHistory ++ r.historyRow.toList }

end StatusReport

/-- The sent fact of a job. -/
structure SentFact where
  jobId : String
  userId : Option Uuid
  triggerEvent : Option String
  sentAt : Timestamp
  recipientEmail : Option String
  eventId : String
  deriving DecidableEq

namespace SentFact

/-- The notification the upsert for a sent e-mail proposes. -/
def notification (f : SentFact) : EmailNotification where
  userId := f.userId
  triggerEvent := f.triggerEvent
  jobId := f.jobId
  sentEventId := some f.eventId
  sentAt := some f.sentAt
  lastStatus := none
  lastStatusEventTime := none
  lastStatusEventId := none
  lastClickedUrl := none
  recipientEmail := f.recipientEmail

/-- The effect of a sent fact on the cell of its job. -/
def record (uid : String) (f : SentFact) (cell : Option EmailCell) : EmailCell :=
  EmailCell.upsert .mergeSent uid f.notification cell

end SentFact

section Facts

variable (ext : Externals)

def statusReportOf (eventId eventType : String) (payload : Json) : Option StatusReport :=
  if eventType = EventType.unisenderStatusCreated.value then
    match (Payload.originalOf payload).get? "event_data" with
    | some (.obj fields) =>
      match (Json.obj fields).get? "job_id" with
      | some (.str jobId) =>
        some {
          jobId := jobId
          status := (((Json.obj fields).get? "status").getD .null).str?
          time := parseIsoDatetime ext (((Json.obj fields).get? "event_time").getD .null)
          clickedUrl := (((Json.obj fields).get? "url").getD .null).str?
          recipientEmail := (((Json.obj fields).get? "email").getD .null).str?
          eventId := eventId }
      | _ => none
    | _ => none
  else none

/-- The delivery status a message reports. -/
def Message.statusReport (m : Message) : Option StatusReport :=
  statusReportOf ext m.eventId m.eventType (EventParser.orEmpty m.payload)

/-- The sent fact among the arguments of the handlers. -/
def HandleArgs.sentFact (args : HandleArgs) : Option SentFact :=
  if args.event.eventType = EventType.notificationEmailSent.value then
    let original := Payload.originalOf args.event.payload
    match original.get? "job_id" with
    | some (.str jobId) =>
      some {
        jobId := jobId
        userId := args.userIdForRole ((original.get? "recipient_role").getD .null)
        triggerEvent := ((original.get? "trigger_event").getD .null).str?
        sentAt := args.event.occurredAt
        recipientEmail := ((original.get? "email").getD .null).str?
        eventId := args.event.eventId }
    | _ => none
  else none

/-- The sent fact a message carries. -/
def Message.sentFact (now : Timestamp) (m : Message) : Option SentFact :=
  (m.handleArgs ext now).bind HandleArgs.sentFact

end Facts

section Writes

variable {ext : Externals} {args : HandleArgs} {writes : List ProjectionWrite}

/-- The effect of a series of writes on the cell of a job. -/
def EmailCell.writeAll (uid jobId : String) (ws : List ProjectionWrite) (cell : Option EmailCell) :
    Option EmailCell :=
  ws.foldl (fun cell w => if w.jobId? = some jobId then EmailCell.write uid w cell else cell) cell

/-- The writes about e-mail jobs. -/
def ofEmail : ProjectionWrite.Kind → Bool
  | .emailNotification => true
  | .emailStatusHistory => true
  | _ => false

lemma EmailCell.writeAll_filter (uid jobId : String) (cell : Option EmailCell) :
    writeAll uid jobId writes cell = writeAll uid jobId (writes.filter fun w => ofEmail w.kind) cell := by
  refine foldl_filter_kind (fun cell w hw => ?_) cell
  cases w <;> first | rfl | exact absurd hw (by simp [ofEmail, ProjectionWrite.kind])

/-- Of the writes for an event, those of two handlers are about an e-mail job. -/
lemma writeAll_projectionWrites (h : projectionWrites ext args = .ok writes) :
    ∃ notification status,
      StatementBuilder.write
        ⟨EmailNotificationProjection.canHandle, EmailNotificationProjection.handle ext⟩ args =
        .ok notification ∧
      StatementBuilder.write
        ⟨EmailStatusHistoryProjection.canHandle, EmailStatusHistoryProjection.handle ext⟩ args =
        .ok status ∧
      ∀ uid jobId cell, EmailCell.writeAll uid jobId writes cell =
        EmailCell.writeAll uid jobId (notification.toList ++ status.toList) cell := by
  obtain ⟨ws, hws, hfilter⟩ := projectionWrites_filter h ofEmail
  cases hws with
  | @cons _ notification _ ws hnotification hws =>
    cases hws with
    | @cons _ status _ ws hstatus hws =>
      cases hws
      refine ⟨notification, status, hnotification, hstatus, fun uid jobId cell => ?_⟩
      rw [EmailCell.writeAll_filter, hfilter, List.flatMap_cons, List.flatMap_cons,
        List.flatMap_nil, List.append_nil]

lemma write_of_statement {b : StatementBuilder} (stmt : ProjectionStmt) {w : ProjectionWrite}
    (hcan : b.canHandle args.event = true) (hstmt : b.statement args = .ok (some stmt))
    (hbind : stmt.bind = .ok w) : b.write args = .ok (some w) :=
  StatementBuilder.write_eq_some.mpr ⟨hcan, stmt, hstmt, hbind⟩

lemma exists_obj_of_get? {value found : Json} {key : String} (h : value.get? key = some found) :
    ∃ fields, value = .obj fields := by
  cases value with
  | obj fields => exact ⟨fields, rfl⟩
  | _ => cases h

/-- What is found in the original of a payload is found by the handlers. -/
lemma original_of_get? {payload found : Json} {key : String}
    (h : (Payload.originalOf payload).get? key = some found) :
    ∃ original, Payload.original payload = .ok (.obj original) ∧
      (Json.obj original).get? key = some found := by
  obtain ⟨original, horiginal⟩ := exists_obj_of_get? h
  refine ⟨original, Payload.original_eq_ok.mpr ⟨?_, horiginal.symm⟩, horiginal ▸ h⟩
  cases payload with
  | obj fields => rfl
  | _ => cases horiginal

/-- The writes for a delivery status. -/
lemma writes_of_statusReport {r : StatusReport}
    (h : statusReportOf ext args.event.eventId args.event.eventType args.event.payload = some r) :
    StatementBuilder.write
        ⟨EmailNotificationProjection.canHandle, EmailNotificationProjection.handle ext⟩ args =
      .ok (some (.upsertEmailStatus args.bookingRefId r.notification)) ∧
    StatementBuilder.write
        ⟨EmailStatusHistoryProjection.canHandle, EmailStatusHistoryProjection.handle ext⟩ args =
      .ok (r.historyRow.map fun row => .insertEmailStatusHistory r.jobId row) := by
  unfold statusReportOf at h
  split at h
  next htype =>
    split at h
    next fields hdata =>
      split at h
      next jobId hjob =>
        cases h
        obtain ⟨original, horiginal, hdata⟩ := original_of_get? hdata
        have hargs : args.original = .ok (.obj original) := horiginal
        have hne : ¬ args.event.eventType = EventType.notificationEmailSent.value := by
          rw [htype, EventType.value_inj]
          decide
        have hcan : EmailNotificationProjection.canHandle args.event = true := by
          rw [EmailNotificationProjection.canHandle, Bool.or_eq_true, beq_iff_eq, beq_iff_eq]
          exact .inr htype
        constructor
        · refine write_of_statement (.upsertEmailStatus _ _) hcan ?_ rfl
          dsimp only
          rw [EmailNotificationProjection.handle, if_neg hne, if_pos htype,
            EmailNotificationProjection.handleEmailStatus, hargs]
          simp only [ok_bind, get_ok, hdata, Option.getD_some, hjob]
          rfl
        · rw [StatementBuilder.write_of (beq_iff_eq.mpr htype)]
          dsimp only
          rw [EmailStatusHistoryProjection.handle, hargs]
          simp only [ok_bind, get_ok, hdata, Option.getD_some, hjob, StatusReport.historyRow]
          cases ((Json.obj fields).get? "status").getD .null <;> rfl
      next => cases h
    next => cases h
  next => cases h

variable (ext) in
/-- The writes for a sent e-mail. -/
lemma writes_of_sentFact {f : SentFact} (h : args.sentFact = some f) :
    StatementBuilder.write
        ⟨EmailNotificationProjection.canHandle, EmailNotificationProjection.handle ext⟩ args =
      .ok (some (.upsertEmailSent args.bookingRefId f.notification)) ∧
    StatementBuilder.write
        ⟨EmailStatusHistoryProjection.canHandle, EmailStatusHistoryProjection.handle ext⟩ args =
      .ok none := by
  unfold HandleArgs.sentFact at h
  split at h
  next htype =>
    dsimp only at h
    split at h
    next jobId hjob =>
      cases h
      obtain ⟨original, horiginal, hjob⟩ := original_of_get? hjob
      have hargs : args.original = .ok (.obj original) := horiginal
      have hof : Payload.originalOf args.event.payload = .obj original :=
        (Payload.original_eq_ok.mp horiginal).2.symm
      have hcan : EmailNotificationProjection.canHandle args.event = true := by
        rw [EmailNotificationProjection.canHandle, Bool.or_eq_true, beq_iff_eq, beq_iff_eq]
        exact .inl htype
      have hnot : ¬ EmailStatusHistoryProjection.canHandle args.event = true := by
        rw [EmailStatusHistoryProjection.canHandle, beq_iff_eq, htype, EventType.value_inj]
        decide
      refine ⟨write_of_statement (.upsertEmailSent _ _) hcan ?_ rfl, StatementBuilder.write_of_not hnot⟩
      dsimp only
      rw [EmailNotificationProjection.handle, if_pos htype,
        EmailNotificationProjection.handleEmailSent, hargs]
      simp only [ok_bind, get_ok, hjob, Option.getD_some, hof]
      rfl
    next => cases h
  next => cases h

end Writes

section Steps

variable {ext : Externals} {now : Timestamp} {m : Message} {uid : String} {db : Db}
  {r : StatusReport}

/-- A report is about the job of its message and carries the id of its event. -/
lemma statusReport_keys (h : m.statusReport ext = some r) :
    m.emailJobId? = some r.jobId ∧ r.eventId = m.eventId := by
  unfold Message.statusReport statusReportOf at h
  split at h
  next htype =>
    split at h
    next fields hdata =>
      split at h
      next jobId hjob =>
        cases h
        have hne : ¬ m.eventType = EventType.notificationEmailSent.value := by
          rw [htype, EventType.value_inj]
          decide
        refine ⟨?_, rfl⟩
        rw [Message.emailJobId?, emailJobIdOf, if_neg hne, if_pos htype]
        change (((Payload.originalOf _).get? "event_data").bind _).bind _ = _
        rw [hdata, Option.bind_some, hjob]
        rfl
      next => cases h
    next => cases h
  next => cases h

/-- The history of a job stems from stored events. -/
lemma statusHistory_sources (h : db.WellFormed) {jobId : String} {cell : EmailCell}
    (hcell : db.emailCellOf jobId = some cell) :
    ∀ s ∈ cell.statusHistory, s.sourceEventId ∈ db.tables.eventIds := by
  obtain ⟨n, _, rfl⟩ := Option.map_eq_some_iff.mp hcell
  intro s hs
  exact h.statusSources ⟨n.id, s⟩ (mem_rowsOf.mp hs)

/-- A processed status is recorded in the cell of its job. -/
theorem emailCellOf_status (h : db.WellFormed) (hm : m.FiledUnder uid)
    (hstored : saveOutcome ext now m db = .stored) (hr : m.statusReport ext = some r) :
    (saveEvent ext now m db).2.emailCellOf r.jobId =
      some (r.record uid (db.emailCellOf r.jobId)) := by
  obtain ⟨args, writes, hhandled⟩ := handled_of_stored h hm hstored
  obtain ⟨notification, status, hnotification, hstatus, hwrites⟩ :=
    writeAll_projectionWrites hhandled.collected
  have hreport : statusReportOf ext args.event.eventId args.event.eventType args.event.payload =
      some r := by
    obtain ⟨hid, htype, hpayload⟩ := hhandled.event
    rw [hid, htype, hpayload]
    exact hr
  obtain ⟨hnotification', hstatus'⟩ := writes_of_statusReport hreport
  rw [hnotification] at hnotification'
  rw [hstatus] at hstatus'
  cases hnotification'
  cases hstatus'
  have hnew : ∀ s ∈ (EmailCell.upsert .mergeStatus uid r.notification
      (db.emailCellOf r.jobId)).statusHistory, (s.sourceEventId == m.eventId) = false := by
    intro s hs
    cases hcell : db.emailCellOf r.jobId with
    | none =>
      rw [hcell] at hs
      cases hs
    | some cell =>
      rw [hcell] at hs
      have hmem := statusHistory_sources h hcell s hs
      exact beq_eq_false_iff_ne.mpr fun heq => fresh_of_stored h hstored (heq ▸ hmem)
  rw [hhandled.email]
  refine (hwrites uid r.jobId _).trans ?_
  have hupsert : EmailCell.writeAll uid r.jobId
      [.upsertEmailStatus args.bookingRefId r.notification] (db.emailCellOf r.jobId) =
      some (EmailCell.upsert .mergeStatus uid r.notification (db.emailCellOf r.jobId)) := if_pos rfl
  rw [EmailCell.writeAll, List.foldl_append, StatusReport.record]
  refine (congrArg (List.foldl _ · _) hupsert).trans ?_
  generalize EmailCell.upsert .mergeStatus uid r.notification (db.emailCellOf r.jobId) = upserted
    at hnew ⊢
  cases hrow : r.historyRow with
  | none =>
    simp only [Option.map_none, Option.toList_none, List.foldl_nil, List.append_nil]
  | some row =>
    have hsource : row.sourceEventId = m.eventId := by
      obtain ⟨status, _, rfl⟩ := Option.map_eq_some_iff.mp hrow
      exact (statusReport_keys hr).2
    simp only [Option.map_some, Option.toList_some, List.foldl_cons, List.foldl_nil,
      ProjectionWrite.jobId?, if_pos, EmailCell.write, hsource, insertUnless_of_new hnew]

/-- The sent fact of a message is that of the arguments its handlers are called with. -/
lemma sentFact_of_handled {args : HandleArgs} {writes : List ProjectionWrite}
    (h : Handled ext now m uid db args writes) : m.sentFact ext now = args.sentFact := by
  by_cases hsent : m.eventType = EventType.notificationEmailSent.value
  · rw [Message.sentFact, h.handleArgs (by rw [hsent, ne_eq, EventType.value_inj]; decide)]
    rfl
  · have hnone (args : HandleArgs) (hparse : EventParser.parse ext now m = .ok args.event) :
        args.sentFact = none := by
      rw [HandleArgs.sentFact, if_neg ((EventParser.parse_filed ext hparse).2.1 ▸ hsent)]
    rw [hnone args h.parse, Message.sentFact]
    cases hargs : m.handleArgs ext now with
    | none => rfl
    | some args' => exact hnone args' (handleArgs_event hargs)

/-- A processed sent fact is merged into the cell of its job. -/
theorem emailCellOf_sent {f : SentFact} (h : db.WellFormed) (hm : m.FiledUnder uid)
    (hstored : saveOutcome ext now m db = .stored) (hf : m.sentFact ext now = some f) :
    (saveEvent ext now m db).2.emailCellOf f.jobId = some (f.record uid (db.emailCellOf f.jobId)) := by
  obtain ⟨args, writes, hhandled⟩ := handled_of_stored h hm hstored
  obtain ⟨notification, status, hnotification, hstatus, hwrites⟩ :=
    writeAll_projectionWrites hhandled.collected
  rw [sentFact_of_handled hhandled] at hf
  obtain ⟨hnotification', hstatus'⟩ := writes_of_sentFact ext hf
  rw [hnotification] at hnotification'
  rw [hstatus] at hstatus'
  cases hnotification'
  cases hstatus'
  rw [hhandled.email]
  exact (hwrites uid f.jobId _).trans (if_pos rfl)

/-- A message that is not filed under a booking leaves the e-mail jobs alone. -/
lemma Ledger.email_save_unfiled (hm : ∀ uid, ¬ m.FiledUnder uid) (L : Ledger) :
    (L.save ext now m).email = L.email := by
  have hbackfill (request : Option (RecipientRole × Option String × Uuid)) (L : Ledger) :
      (L.backfill ext request).email = L.email := by
    rcases request with _ | ⟨role, _ | email, userId⟩ <;> rfl
  have hrecord (L' : Ledger) (h : L.record ext now m = .ok L') : L'.email = L.email := by
    obtain ⟨event, hparse, h⟩ := bind_eq_ok.mp h
    obtain ⟨hbooking, htype, _⟩ := EventParser.parse_filed ext hparse
    unfold Ledger.ingest at h
    split at h
    · exact Except.ok.inj h ▸ rfl
    · unfold Ledger.process at h
      split at h
      · obtain ⟨request, _, rfl⟩ := except_map_eq_ok.mp h
        exact hbackfill request _
      next hsynced =>
        split at h
        · exact Except.ok.inj h ▸ rfl
        next uid hid =>
          split at h
          · exact Except.ok.inj h ▸ rfl
          next hempty => exact absurd ⟨hbooking ▸ hid, hempty, htype ▸ hsynced⟩ (hm uid)
  rw [Ledger.save]
  cases h : L.record ext now m with
  | ok L' => exact hrecord L' h
  | error e => rfl

/-- A message about another job, or about none, leaves a job alone. -/
theorem emailCellOf_other (h : db.WellFormed) {jobId : String} (hjob : m.emailJobId? ≠ some jobId) :
    (saveEvent ext now m db).2.emailCellOf jobId = db.emailCellOf jobId := by
  rw [Db.emailCellOf, content_saveEvent h]
  by_cases hfiled : ∃ uid, m.FiledUnder uid
  · obtain ⟨uid, hm⟩ := hfiled
    rw [Ledger.save_eq hm]
    rcases hdecision : (content db.tables).decision ext now m uid with e | _ | ⟨event, work⟩
    · rfl
    · rfl
    · obtain ⟨hparse, _, hplan⟩ := Ledger.decision_eq_some hdecision
      obtain ⟨_, htype, hpayload⟩ := EventParser.parse_filed ext hparse
      refine BookingWork.onEmail_other hplan ?_ _
      rw [ParsedEvent.emailJobId?, htype, hpayload]
      exact hjob
  · rw [Ledger.email_save_unfiled (not_exists.mp hfiled)]
    rfl

lemma exists_str_of_str? {value : Json} {text : String} (h : value.str? = some text) :
    value = .str text := by
  cases value with
  | str s => exact congrArg Json.str (Option.some.inj h)
  | _ => cases h

variable (ext) in
/-- A status message about a job reports a status of it. -/
lemma statusReport_of_job {jobId : String} (htype : m.eventType = EventType.unisenderStatusCreated.value)
    (hjob : m.emailJobId? = some jobId) :
    ∃ r, m.statusReport ext = some r ∧ r.jobId = jobId := by
  have hne : ¬ m.eventType = EventType.notificationEmailSent.value := by
    rw [htype, EventType.value_inj]
    decide
  rw [Message.emailJobId?, emailJobIdOf, if_neg hne, if_pos htype] at hjob
  obtain ⟨value, hget, hstr⟩ := Option.bind_eq_some_iff.mp hjob
  obtain ⟨data, hdata, hget⟩ := Option.bind_eq_some_iff.mp hget
  obtain ⟨fields, rfl⟩ := exists_obj_of_get? hget
  have hdata' : (Payload.originalOf (EventParser.orEmpty m.payload)).get? "event_data" =
      some (.obj fields) := hdata
  rw [exists_str_of_str? hstr] at hget
  rw [Message.statusReport, statusReportOf, if_pos htype, hdata']
  dsimp only
  rw [hget]
  exact ⟨_, rfl, rfl⟩

lemma statusReport_of_sent (htype : m.eventType = EventType.notificationEmailSent.value) :
    m.statusReport ext = none := by
  rw [Message.statusReport, statusReportOf, if_neg]
  rw [htype, EventType.value_inj]
  decide

/-- A processed sent message about a job is its sent fact. -/
lemma sentFact_of_stored (h : db.WellFormed) (hm : m.FiledUnder uid)
    (hstored : saveOutcome ext now m db = .stored) {jobId : String}
    (htype : m.eventType = EventType.notificationEmailSent.value)
    (hjob : m.emailJobId? = some jobId) :
    ∃ f, m.sentFact ext now = some f ∧ f.jobId = jobId ∧
      f.recipientEmail =
        (((Payload.originalOf (EventParser.orEmpty m.payload)).get? "email").getD .null).str? := by
  obtain ⟨args, writes, hhandled⟩ := handled_of_stored h hm hstored
  obtain ⟨_, htype', hpayload⟩ := hhandled.event
  rw [Message.emailJobId?, emailJobIdOf, if_pos htype] at hjob
  obtain ⟨value, hget, hstr⟩ := Option.bind_eq_some_iff.mp hjob
  rw [exists_str_of_str? hstr] at hget
  have hget' : (Payload.originalOf (EventParser.orEmpty m.payload)).get? "job_id" =
      some (.str jobId) := hget
  rw [sentFact_of_handled hhandled, HandleArgs.sentFact, if_pos (htype'.trans htype), hpayload]
  dsimp only
  rw [hget']
  exact ⟨_, rfl, rfl, rfl⟩

lemma eventType_of_job {jobId : String} (hjob : m.emailJobId? = some jobId) :
    m.eventType = EventType.notificationEmailSent.value ∨
      m.eventType = EventType.unisenderStatusCreated.value := by
  unfold Message.emailJobId? emailJobIdOf at hjob
  dsimp only at hjob
  split at hjob
  next hsent => exact .inl hsent
  next =>
    split at hjob
    next hstatus => exact .inr hstatus
    next => cases hjob

end Steps

section Runs

variable (ext : Externals) (jobId : String)

/-- The effect of a processed message on the cell of a job. -/
def emailStep (entry : Timestamp × Message) (cell : Option EmailCell) : Option EmailCell :=
  if entry.2.emailJobId? = some jobId then
    match entry.2.statusReport ext, entry.2.sentFact ext entry.1 with
    | some r, _ => some (r.record (entry.2.bookingId.getD "") cell)
    | none, some f => some (f.record (entry.2.bookingId.getD "") cell)
    | none, none => cell
  else cell

variable {ext jobId} {ms : Journal} {db : Db}

/-- What a series of processed messages does to the cell of a job. -/
theorem emailCellOf_saveAll (h : db.WellFormed) (hp : Processed ext ms db)
    (hms : ∀ entry ∈ ms, entry.2.emailJobId? = some jobId → ∃ uid, entry.2.FiledUnder uid) :
    (saveAll ext ms db).emailCellOf jobId =
      ms.foldl (fun cell entry => emailStep ext jobId entry cell) (db.emailCellOf jobId) := by
  refine hp.fold (fun db => db.emailCellOf jobId) (emailStep ext jobId) h hms ?_
  intro db h entry hentry hstored
  rw [emailStep]
  split
  next hjob =>
    obtain ⟨uid, hm⟩ := hentry hjob
    rw [hm.bookingId, Option.getD_some]
    rcases eventType_of_job hjob with htype | htype
    · obtain ⟨f, hf, rfl, _⟩ := sentFact_of_stored h hm hstored htype hjob
      rw [statusReport_of_sent htype, hf]
      exact emailCellOf_sent h hm hstored hf
    · obtain ⟨r, hr, rfl⟩ := statusReport_of_job ext htype hjob
      rw [hr]
      exact emailCellOf_status h hm hstored hr
  next hjob => exact emailCellOf_other h hjob

end Runs

/-- Externals that read two times. -/
def Externals.dated : Externals :=
  { Externals.sample with
    fromisoformat := fun s =>
      if s = "2026-01-15T10:00:00+00:00" then some ⟨1768471200000000, some 0⟩
      else if s = "2026-01-15T10:05:00+00:00" then some ⟨1768471500000000, some 0⟩
      else none }

/-- A delivery status of job `j` of booking `b`. -/
def statusMessage (eventId status time : String) : Timestamp × Message :=
  (0, { Message.sample "events.mail" eventId "b" .unisenderStatusCreated 0
      (.obj [("original", .obj [("event_data", .obj [("job_id", .str "j"), ("status", .str status),
        ("event_time", .str time), ("email", .str "x")])])]) with
    source := "unisender-go" })

/-- The sent fact of job `j` of booking `b`. -/
def sentMessage : Timestamp × Message :=
  (0, .sample "events.notification.delivery" "sent" "b" .notificationEmailSent 0
    (.obj [("original", .obj [("job_id", .str "j"), ("recipient_role", .str "client"),
      ("trigger_event", .str "booking.created"), ("email", .str "x")])]))

end EventSaver
