import EventSaver.EmailStatus
import EventSaver.ProjectionRows

/-!
# The place of the sent fact

The sent fact of a job and its delivery statuses write different columns, so it does not matter
where among the statuses the sent fact arrives.
-/

namespace EventSaver
open JsonData TableData EffectProgram

/-- The notification of a job and the rows of its history. -/
def Db.emailRowsOf (db : Db) (jobId : String) : Option (EmailNotificationRow × List EmailStatus) :=
  (findNotification jobId db.tables.emailNotifications).map fun n =>
    (n, rowsOf n.id db.tables.emailStatusHistory)

/-- A message of a type about an e-mail job, filed under a booking. -/
structure Message.EmailOf (m : Message) (eventType : EventType) (uid jobId : String) : Prop
    extends m.FiledUnder uid where
  eventType : m.eventType = eventType.value
  emailJobId : m.emailJobId? = some jobId

/-- The e-mail address of the recipient, as a message about a job gives it. -/
def Message.recipientEmail (ext : Externals) (m : Message) : Option String :=
  match m.statusReport ext with
  | some r => r.recipientEmail
  | none => (((Payload.originalOf (EventParser.orEmpty m.payload)).get? "email").getD .null).str?

section Commutation

variable {ext : Externals} {uid jobId : String}

/-- A sent fact and a delivery status of one job commute if they agree about the recipient. -/
lemma record_comm {r : StatusReport} {f : SentFact} (hjob : r.jobId = f.jobId)
    (hemail : ∀ e e', r.recipientEmail = some e → f.recipientEmail = some e' → e = e')
    (cell : Option EmailCell) :
    f.record uid (some (r.record uid cell)) = r.record uid (some (f.record uid cell)) := by
  have hrecipient (email : Option String) :
      f.recipientEmail.or (r.recipientEmail.or email) =
        r.recipientEmail.or (f.recipientEmail.or email) := by
    cases hr : r.recipientEmail with
    | none => rfl
    | some e =>
      cases hf : f.recipientEmail with
      | none => rfl
      | some e' => rw [hemail e e' hr hf]
  cases cell with
  | none =>
    have hnone := hrecipient none
    rw [Option.or_none, Option.or_none] at hnone
    simp [SentFact.record, StatusReport.record, EmailCell.upsert, EmailNotification.mergeSent,
      EmailNotification.mergeStatus, SentFact.notification, StatusReport.notification, hjob, hnone]
  | some cell =>
    simp [SentFact.record, StatusReport.record, EmailCell.upsert, EmailNotification.mergeSent,
      EmailNotification.mergeStatus, SentFact.notification, StatusReport.notification, hrecipient]

/-- A step that commutes with each of the steps before it can be made first. -/
lemma foldl_move {σ α : Type} {step : σ → α → σ} {x : α} {before : List α}
    (hcomm : ∀ a ∈ before, ∀ s, step (step s a) x = step (step s x) a) (after : List α) (s : σ) :
    (before ++ x :: after).foldl step s = (x :: (before ++ after)).foldl step s := by
  induction before generalizing s with
  | nil => rfl
  | cons a rest ih =>
    obtain ⟨ha, hrest⟩ := List.forall_mem_cons.mp hcomm
    have hmove := ih hrest (step s a)
    rw [List.foldl_cons] at hmove
    rw [List.cons_append, List.foldl_cons, hmove, ha]
    rfl

end Commutation

section Keys

variable {ext : Externals} {now : Timestamp} {m : Message} {uid jobId : String} {db : Db}

/-- The id of the notification of a job, or the one it will get. -/
def Db.notificationId (db : Db) (jobId : String) : Nat :=
  (findNotification jobId db.tables.emailNotifications).elim db.notificationsSeq (·.id)

lemma notificationId_upsert
    (merge : EmailNotification → EmailNotification → EmailNotification)
    (hmerge : ∀ row n, (merge row n).jobId = n.jobId) (ref : Nat) (row : EmailNotification) :
    Db.notificationId
        { db with
          notificationsSeq := db.notificationsSeq + 1
          tables.emailNotifications :=
            upsertNotification merge db.notificationsSeq ref row db.tables.emailNotifications }
        row.jobId =
      db.notificationId row.jobId := by
  unfold Db.notificationId findNotification upsertNotification
  dsimp only
  rw [find?_upsertWhere_self (fun n => by rw [hmerge]) (by simp)]
  cases db.tables.emailNotifications.find? fun n => n.jobId == row.jobId <;> rfl

lemma notificationId_write {w : ProjectionWrite} (hw : ∀ j, w.jobId? = some j → j = jobId) :
    (w.apply db).notificationId jobId = db.notificationId jobId := by
  cases w with
  | upsertEmailSent ref row =>
    obtain rfl := hw row.jobId rfl
    exact notificationId_upsert EmailNotification.mergeSent (fun _ _ => rfl) ref row
  | upsertEmailStatus ref row =>
    obtain rfl := hw row.jobId rfl
    exact notificationId_upsert EmailNotification.mergeStatus (fun _ _ => rfl) ref row
  | upsertMeetingLink ref row => rfl
  | deleteMeetingLink ref userId => rfl
  | insertTelegramNotification ref row => rfl
  | insertEmailStatusHistory job row => rfl
  | insertChatEvent ref row => rfl
  | updateChatRead ref reader messageId time => rfl
  | insertVideoEvent ref row => rfl
  | insertLifecycleEvent ref row => rfl

/-- A message about a job keeps the id of its notification, or gives it the next one. -/
lemma notificationId_saveEffect (hm : m.FiledUnder uid) (hjob : m.emailJobId? = some jobId)
    {db' : Db} (he : saveEffect ext now m db = .ok db') :
    db'.notificationId jobId = db.notificationId jobId := by
  obtain ⟨event, hparse, hingest⟩ := bind_eq_ok.mp he
  obtain ⟨hbooking, htype, hpayload⟩ := EventParser.parse_filed ext hparse
  unfold ingestEffect at hingest
  split at hingest
  · exact Except.ok.inj hingest ▸ rfl
  · unfold processEffect at hingest
    rw [if_neg (htype ▸ hm.notSynced), hbooking, hm.bookingId] at hingest
    simp only [if_neg hm.nonempty] at hingest
    obtain ⟨work, hplan, rfl⟩ := except_map_eq_ok.mp hingest
    have hjob' : event.emailJobId? = some jobId := by
      rw [ParsedEvent.emailJobId?, htype, hpayload]
      exact hjob
    have hws : ∀ w ∈ work.writes, ∀ j, w.jobId? = some j → j = jobId := fun w hw j hj =>
      Option.some.inj (((plan_writes ext hplan w hw).2 j hj).symm.trans hjob')
    have hbefore (ref : Nat) (db : Db) :
        (work.applyClient ref (work.applyOrganizer ref (work.applyUpsert db))).notificationId
          jobId = db.notificationId jobId := by
      unfold BookingWork.applyClient BookingWork.applyOrganizer BookingWork.applyUpsert
      cases work.newClient <;> cases work.organizer <;> cases work.upsert <;> rfl
    have hwrites (ws : List ProjectionWrite) (hws : ∀ w ∈ ws, ∀ j, w.jobId? = some j → j = jobId)
        (db : Db) :
        (ws.foldl ProjectionWrite.apply db).notificationId jobId = db.notificationId jobId := by
      induction ws generalizing db with
      | nil => rfl
      | cons w rest ih =>
        obtain ⟨hw, hrest⟩ := List.forall_mem_cons.mp hws
        exact (ih hrest (w.apply db)).trans (notificationId_write hw)
    unfold BookingWork.apply
    rw [hwrites work.writes hws, hbefore]
    rfl

lemma Db.Keeps.saveEvent (now : Timestamp) (m : Message) (db : Db) :
    db.Keeps m.eventId (saveEvent ext now m db).2 := by
  cases heffect : saveEffect ext now m db with
  | error e =>
    obtain ⟨reached, hsave, _⟩ := saveEvent_error ext heffect
    rw [hsave]
    exact .of_tables_eq rfl
  | ok db' =>
    obtain ⟨event, hparse, hingest⟩ := bind_eq_ok.mp heffect
    rw [saveEvent_ok ext heffect, ← (EventParser.parse_keys ext hparse).1]
    unfold ingestEffect at hingest
    split at hingest
    · exact Except.ok.inj hingest ▸ .refl db
    · exact (Db.Keeps.insertRow event).trans (.process hingest)

variable (ext) in
/-- A series of messages keeps the ids of the bookings there are. -/
lemma located_saveAll {ref : Nat} (ms : Journal) (h : db.Located uid ref) :
    (saveAll ext ms db).Located uid ref := by
  induction ms generalizing db with
  | nil => exact h
  | cons entry rest ih => exact ih ((Db.Keeps.saveEvent entry.1 entry.2 db).located uid ref h)

lemma notificationId_saveAll {ms : Journal} (h : db.WellFormed) (hp : Processed ext ms db)
    (hms : ∀ entry ∈ ms, entry.2.FiledUnder uid ∧ entry.2.emailJobId? = some jobId) :
    (saveAll ext ms db).notificationId jobId = db.notificationId jobId := by
  have hfold := hp.fold (fun db => db.notificationId jobId) (fun _ id => id) h hms
    fun db h entry hentry hstored =>
      notificationId_saveEffect hentry.1 hentry.2 (effect_of_stored hstored)
  rw [hfold]
  exact List.foldl_fixed _

end Keys

section Rows

variable {ext : Externals} {uid jobId : String} {db db' : Db} {ref : Nat}

lemma bookingRefId_eq (h : db.WellFormed) (hloc : db.Located uid ref) {id : Nat}
    (hid : bookingUidOf db.tables id = some uid) : id = ref := by
  obtain ⟨b, hb, rfl⟩ := hloc
  obtain ⟨b', hb', huid⟩ := Option.map_eq_some_iff.mp hid
  have hfind := h.findBooking_eq (List.mem_of_find?_eq_some hb')
  rw [huid, hb] at hfind
  have hid' : b'.id = id := by simpa using List.find?_some hb'
  rw [← hid', Option.some.inj hfind]

/-- The rows of a job are determined by its cell, the id of its notification and the booking. -/
lemma emailRowsOf_eq (h : db.WellFormed) (h' : db'.WellFormed) (hloc : db.Located uid ref)
    (hloc' : db'.Located uid ref) (hid : db.notificationId jobId = db'.notificationId jobId)
    (hcell : db.emailCellOf jobId = db'.emailCellOf jobId)
    (huid : ∀ cell, db.emailCellOf jobId = some cell → cell.bookingUid = some uid) :
    db.emailRowsOf jobId = db'.emailRowsOf jobId := by
  have hcell' : (findNotification jobId db.tables.emailNotifications).map (emailCellOf db.tables) =
      (findNotification jobId db'.tables.emailNotifications).map (emailCellOf db'.tables) := hcell
  unfold Db.emailRowsOf
  unfold Db.notificationId at hid
  cases hn : findNotification jobId db.tables.emailNotifications with
  | none =>
    rw [hn] at hcell'
    rw [Option.map_eq_none_iff.mp hcell'.symm]
    rfl
  | some n =>
    have huid' : bookingUidOf db.tables n.bookingRefId = some uid :=
      huid (emailCellOf db.tables n) (by rw [Db.emailCellOf]; exact congrArg (Option.map _) hn)
    rw [hn] at hcell' hid
    obtain ⟨n', hn', heq⟩ := Option.map_eq_some_iff.mp hcell'.symm
    rw [hn'] at hid ⊢
    have hids : n.id = n'.id := hid
    have hnotification : n'.toEmailNotification = n.toEmailNotification :=
      congrArg EmailCell.notification heq
    have hhistory : rowsOf n'.id db'.tables.emailStatusHistory =
        rowsOf n.id db.tables.emailStatusHistory := congrArg EmailCell.statusHistory heq
    have huid'' : bookingUidOf db'.tables n'.bookingRefId = some uid :=
      (congrArg EmailCell.bookingUid heq).trans huid'
    have href : n.bookingRefId = n'.bookingRefId :=
      (bookingRefId_eq h hloc huid').trans (bookingRefId_eq h' hloc' huid'').symm
    have hrow : n = n' := by
      cases n
      cases n'
      rw [EmailNotificationRow.mk.injEq]
      exact ⟨hnotification.symm, hids, href⟩
    rw [Option.map_some, Option.map_some, hhistory, hrow]

end Rows

lemma emailRowsOf_history (db : Db) (jobId : String) :
    (db.emailRowsOf jobId).map Prod.snd = (db.emailCellOf jobId).map (·.statusHistory) := by
  have hcell : db.emailCellOf jobId =
      (findNotification jobId db.tables.emailNotifications).map (emailCellOf db.tables) := rfl
  rw [Db.emailRowsOf, hcell, Option.map_map, Option.map_map]
  rfl

section Positions

variable {ext : Externals} {uid jobId : String} {db : Db} {sent : Timestamp × Message}
  {statuses : Journal}

variable (ext) in
lemma emailStep_status {entry : Timestamp × Message}
    (hm : entry.2.EmailOf .unisenderStatusCreated uid jobId) :
    ∃ r, entry.2.statusReport ext = some r ∧ r.jobId = jobId ∧
      ∀ cell, emailStep ext jobId entry cell = some (r.record uid cell) := by
  obtain ⟨r, hr, hjob⟩ := statusReport_of_job ext hm.eventType hm.emailJobId
  refine ⟨r, hr, hjob, fun cell => ?_⟩
  rw [emailStep, if_pos hm.emailJobId, hr, hm.bookingId]
  rfl

lemma emailStep_sent (h : db.WellFormed) (hm : sent.2.EmailOf .notificationEmailSent uid jobId)
    (hstored : saveOutcome ext sent.1 sent.2 db = .stored) :
    ∃ f : SentFact, f.jobId = jobId ∧ f.recipientEmail = sent.2.recipientEmail ext ∧
      ∀ cell, emailStep ext jobId sent cell = some (f.record uid cell) := by
  obtain ⟨f, hf, hjob, hemail⟩ :=
    sentFact_of_stored h hm.toFiledUnder hstored hm.eventType hm.emailJobId
  refine ⟨f, hjob, ?_, fun cell => ?_⟩
  · rw [Message.recipientEmail, statusReport_of_sent hm.eventType]
    exact hemail
  · rw [emailStep, if_pos hm.emailJobId, statusReport_of_sent hm.eventType, hf, hm.bookingId]
    rfl

variable (ext) in
/-- The cell of a job belongs to the booking whose messages were processed last. -/
lemma bookingUid_foldl
    (hms : ∀ entry ∈ statuses, entry.2.EmailOf .unisenderStatusCreated uid jobId) (cell : EmailCell)
    (hcell : cell.bookingUid = some uid) :
    ∃ cell', statuses.foldl (fun cell entry => emailStep ext jobId entry cell) (some cell) =
      some cell' ∧ cell'.bookingUid = some uid := by
  induction statuses generalizing cell with
  | nil => exact ⟨cell, rfl, hcell⟩
  | cons entry rest ih =>
    obtain ⟨hentry, hrest⟩ := List.forall_mem_cons.mp hms
    obtain ⟨r, _, _, hstep⟩ := emailStep_status ext hentry
    rw [List.foldl_cons, hstep]
    exact ih hrest _ rfl

lemma reports_filterMap
    (hms : ∀ entry ∈ statuses, entry.2.EmailOf .unisenderStatusCreated uid jobId) :
    (reports ext jobId statuses).filterMap StatusReport.historyRow =
      statuses.filterMap fun entry =>
        (entry.2.statusReport ext).bind StatusReport.historyRow := by
  rw [reports, List.filterMap_filterMap]
  refine List.filterMap_congr fun entry hentry => ?_
  obtain ⟨r, hr, hjob, _⟩ := emailStep_status ext (hms entry hentry)
  rw [reportOf_eq_some.mpr ⟨hr, hjob⟩, hr]

variable (ext) in
/-- The step of a sent fact commutes with that of a status, if they agree about the recipient. -/
lemma emailStep_comm {entry : Timestamp × Message} {f : SentFact}
    (hstep : ∀ cell, emailStep ext jobId sent cell = some (f.record uid cell))
    (hf : f.jobId = jobId ∧ f.recipientEmail = sent.2.recipientEmail ext)
    (hentry : entry.2.EmailOf .unisenderStatusCreated uid jobId)
    (hemail : ∀ e e', entry.2.recipientEmail ext = some e → sent.2.recipientEmail ext = some e' →
      e = e') (cell : Option EmailCell) :
    emailStep ext jobId sent (emailStep ext jobId entry cell) =
      emailStep ext jobId entry (emailStep ext jobId sent cell) := by
  obtain ⟨r, hr, hrjob, hstatus⟩ := emailStep_status ext hentry
  have hrecipient : entry.2.recipientEmail ext = r.recipientEmail := by
    rw [Message.recipientEmail, hr]
  rw [hstatus, hstep, hstep, hstatus]
  refine congrArg some (record_comm (hrjob.trans hf.1.symm) (fun e e' he he' => ?_) cell)
  exact hemail e e' (hrecipient.trans he) (hf.2.symm.trans he')

/-- A sent fact leaves the history of its job alone. -/
lemma statusHistory_record (f : SentFact) :
    (f.record uid (db.emailCellOf jobId)).statusHistory =
      (db.emailRowsOf jobId).elim [] Prod.snd := by
  have hrows := emailRowsOf_history db jobId
  cases hc : db.emailCellOf jobId with
  | none =>
    rw [hc] at hrows
    rw [Option.map_eq_none_iff.mp hrows]
    rfl
  | some c =>
    rw [hc] at hrows
    obtain ⟨found, hfound, hsnd⟩ := Option.map_eq_some_iff.mp hrows
    rw [hfound]
    exact hsnd.symm

lemma located_of_cellOf (h : (db.cellOf uid).isSome = true) : ∃ ref, db.Located uid ref := by
  obtain ⟨c, hc⟩ := Option.isSome_iff_exists.mp h
  obtain ⟨b, hb, _⟩ := Option.map_eq_some_iff.mp hc
  exact ⟨b.id, b, hb, rfl⟩

/-- Wherever the sent fact of a job arrives among its delivery statuses, all of them are processed,
the rows of the job end up the same, and the history has every status in the order of arrival. -/
theorem sentFact_anywhere (hdb : db.Reachable ext) (hcell : (db.cellOf uid).isSome = true)
    (hsent : sent.2.EmailOf .notificationEmailSent uid jobId)
    (hstatuses : ∀ entry ∈ statuses, entry.2.EmailOf .unisenderStatusCreated uid jobId)
    (hemails : ∀ entry ∈ sent :: statuses, ∀ entry' ∈ sent :: statuses, ∀ e e',
      entry.2.recipientEmail ext = some e → entry'.2.recipientEmail ext = some e' → e = e')
    (hp : Processed ext (sent :: statuses) db) (before after : Journal)
    (hsplit : statuses = before ++ after) :
    Processed ext (before ++ sent :: after) db ∧
      (saveAll ext (before ++ sent :: after) db).emailRowsOf jobId =
        (saveAll ext (sent :: statuses) db).emailRowsOf jobId ∧
      ∃ n, (saveAll ext (sent :: statuses) db).emailRowsOf jobId =
        some (n, (db.emailRowsOf jobId).elim [] Prod.snd ++
          statuses.filterMap fun entry =>
            (entry.2.statusReport ext).bind StatusReport.historyRow) := by
  have hwf := hdb.wellFormed
  have hmem {entry : Timestamp × Message} (hentry : entry ∈ sent :: statuses) :
      entry.2.FiledUnder uid ∧ entry.2.emailJobId? = some jobId := by
    rcases List.mem_cons.mp hentry with rfl | hentry
    · exact ⟨hsent.toFiledUnder, hsent.emailJobId⟩
    · exact ⟨(hstatuses entry hentry).toFiledUnder, (hstatuses entry hentry).emailJobId⟩
  have hperm : (sent :: statuses).Perm (before ++ sent :: after) := by
    rw [hsplit]
    exact List.perm_middle.symm
  have hmem' {entry : Timestamp × Message} (hentry : entry ∈ before ++ sent :: after) :
      entry.2.FiledUnder uid ∧ entry.2.emailJobId? = some jobId :=
    hmem (hperm.mem_iff.mpr hentry)
  have hp' : Processed ext (before ++ sent :: after) db :=
    hp.perm hwf (fun entry hentry => (hmem hentry).1) hcell hperm
  obtain ⟨f, hfjob, hrecipient, hsentStep⟩ := emailStep_sent hwf hsent hp.1
  have hcomm : ∀ entry ∈ before, ∀ cell,
      emailStep ext jobId sent (emailStep ext jobId entry cell) =
        emailStep ext jobId entry (emailStep ext jobId sent cell) := by
    intro entry hentry cell
    have hstatus : entry ∈ statuses := hsplit ▸ List.mem_append_left _ hentry
    exact emailStep_comm ext hsentStep ⟨hfjob, hrecipient⟩ (hstatuses entry hstatus)
      (hemails entry (List.mem_cons_of_mem _ hstatus) sent List.mem_cons_self) cell
  have hfold : (saveAll ext (sent :: statuses) db).emailCellOf jobId = _ :=
    emailCellOf_saveAll hwf hp fun entry hentry _ => ⟨uid, (hmem hentry).1⟩
  have hfold' : (saveAll ext (before ++ sent :: after) db).emailCellOf jobId = _ :=
    emailCellOf_saveAll hwf hp' fun entry hentry _ => ⟨uid, (hmem' hentry).1⟩
  have hsame : (saveAll ext (before ++ sent :: after) db).emailCellOf jobId =
      (saveAll ext (sent :: statuses) db).emailCellOf jobId := by
    rw [hfold, hfold', foldl_move hcomm, ← hsplit]
  obtain ⟨cell, hfinal, huid⟩ := bookingUid_foldl ext hstatuses
    (f.record uid (db.emailCellOf jobId)) (by cases db.emailCellOf jobId <;> rfl)
  rw [List.foldl_cons, hsentStep, hfinal] at hfold
  obtain ⟨ref, hloc⟩ := located_of_cellOf hcell
  refine ⟨hp', ?_, ?_⟩
  · refine emailRowsOf_eq (Processed.wellFormed ext _ hwf) (Processed.wellFormed ext _ hwf)
      (located_saveAll ext _ hloc) (located_saveAll ext _ hloc) ?_ hsame fun c hc => ?_
    · rw [notificationId_saveAll hwf hp' fun _ => hmem', notificationId_saveAll hwf hp fun _ => hmem]
    · rw [hsame, hfold] at hc
      exact Option.some.inj hc ▸ huid
  · have hhistory := statusHistory_foldl ext jobId statuses
      (some (f.record uid (db.emailCellOf jobId)))
    rw [hfinal, reports_filterMap hstatuses, Option.elim_some, Option.elim_some,
      statusHistory_record] at hhistory
    have hrows := emailRowsOf_history (saveAll ext (sent :: statuses) db) jobId
    rw [hfold] at hrows
    obtain ⟨⟨n, rows⟩, hn, hrows⟩ := Option.map_eq_some_iff.mp hrows
    refine ⟨n, ?_⟩
    rw [hn]
    exact congrArg some (Prod.ext rfl (hrows.trans hhistory))

end Positions

/-- A database in which the booking `b` exists. -/
def createdDb : Db := (saveEventUnder .dated .none 0 createdMessage .empty).2

/-- The delivery and the opening of an e-mail. -/
def twoStatuses : Journal :=
  [ statusMessage "1" "delivered" "2026-01-15T10:00:00Z",
    statusMessage "2" "opened" "2026-01-15T10:05:00Z"]

theorem sentFact_anywhere_between :
    (saveAll .dated [twoStatuses[0], sentMessage, twoStatuses[1]] createdDb).emailRowsOf "j" =
      (saveAll .dated (sentMessage :: twoStatuses) createdDb).emailRowsOf "j" := by
  have hfiled : ∀ entry ∈ twoStatuses, entry.2.EmailOf .unisenderStatusCreated "b" "j" := by
    simp only [twoStatuses, List.forall_mem_cons, List.not_mem_nil, false_imp_iff, implies_true,
      and_true]
    exact ⟨⟨⟨rfl, by decide, by decide⟩, rfl, rfl⟩, ⟨⟨rfl, by decide, by decide⟩, rfl, rfl⟩⟩
  have hemail : ∀ entry ∈ sentMessage :: twoStatuses,
      entry.2.recipientEmail .dated = some "x" := by decide
  have hp : Processed .dated (sentMessage :: twoStatuses) createdDb := ⟨rfl, rfl, rfl, trivial⟩
  refine (sentFact_anywhere (.save .empty .none 0 createdMessage) rfl
    ⟨⟨rfl, by decide, by decide⟩, rfl, rfl⟩ hfiled (fun entry hentry entry' hentry' e e' he he' => ?_)
    hp [twoStatuses[0]] [twoStatuses[1]] rfl).2.1
  rw [hemail entry hentry] at he
  rw [hemail entry' hentry'] at he'
  exact Option.some.inj (he.symm.trans he')

end EventSaver
