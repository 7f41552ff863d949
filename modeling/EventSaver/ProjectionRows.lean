import EventSaver.Refinement

/-!
# The projection rows of the stored events

Which handlers write a row for an event, and that in every reachable database each stored event
has exactly those rows, under its own booking.
-/

namespace EventSaver
open JsonData TableData EffectProgram

/-- The job of a delivery status that has a job and a status. -/
def ParsedEvent.statusJobId? (event : ParsedEvent) : Option String :=
  if event.eventType = EventType.unisenderStatusCreated.value then
    match ((event.payload.get? "original").getD event.payload).get? "event_data" with
    | some (.obj fields) =>
      match (Json.obj fields).get? "job_id", (Json.obj fields).get? "status" with
      | some (.str jobId), some (.str _) => some jobId
      | _, _ => none
    | _ => none
  else none

section Handlers

variable {ext : Externals} {args : HandleArgs}

/-- A builder that writes whenever it can handle the event and does not raise. -/
def StatementBuilder.Total (b : StatementBuilder) : Prop :=
  ∀ args write, b.write args = .ok write → write.isSome = b.canHandle args.event

lemma StatementBuilder.total_of {b : StatementBuilder}
    (h : ∀ args stmt, b.canHandle args.event = true → b.statement args = .ok stmt →
      stmt.isSome = true) : b.Total := by
  intro args write hwrite
  by_cases hc : b.canHandle args.event = true
  · rw [write_of hc] at hwrite
    obtain ⟨stmt, hstmt, hbind⟩ := bind_eq_ok.mp hwrite
    obtain ⟨stmt, rfl⟩ := Option.isSome_iff_exists.mp (h args stmt hc hstmt)
    obtain ⟨w, _, rfl⟩ := except_map_eq_ok.mp hbind
    exact hc.symm
  · rw [write_of_not hc] at hwrite
    cases hwrite
    exact (Bool.eq_false_iff.mpr hc).symm

lemma telegram_total : StatementBuilder.Total
    ⟨TelegramNotificationProjection.canHandle, TelegramNotificationProjection.handle⟩ := by
  refine StatementBuilder.total_of fun args stmt _ hstmt => ?_
  simp only [TelegramNotificationProjection.handle, bind_eq_ok] at hstmt
  obtain ⟨_, _, _, _, _, _, _, _, hstmt⟩ := hstmt
  cases hstmt
  rfl

variable (ext) in
lemma chatEvent_total : StatementBuilder.Total
    ⟨ChatEventProjection.canHandle, ChatEventProjection.handle ext⟩ := by
  refine StatementBuilder.total_of fun args stmt _ hstmt => ?_
  simp only [ChatEventProjection.handle, bind_eq_ok] at hstmt
  obtain ⟨_, _, _, _, _, _, _, _, hstmt⟩ := hstmt
  cases hstmt
  rfl

variable (ext) in
lemma videoEvent_total : StatementBuilder.Total
    ⟨VideoEventProjection.canHandle ext, VideoEventProjection.handle ext⟩ := by
  refine StatementBuilder.total_of fun args stmt _ hstmt => ?_
  simp only [VideoEventProjection.handle, bind_eq_ok] at hstmt
  obtain ⟨_, _, _, _, _, _, _, _, hstmt⟩ := hstmt
  cases hstmt
  rfl

/-- Every lifecycle type has an action. -/
lemma actionOf_isSome {event : ParsedEvent} (h : LifecycleProjection.canHandle event = true) :
    (LifecycleProjection.actionOf event.eventType).isSome = true := by
  rw [LifecycleProjection.canHandle, decide_eq_true_eq] at h
  obtain ⟨type, htype, heq⟩ := List.mem_map.mp h
  rw [← heq]
  simp only [LifecycleProjection.lifecycleTypes, List.mem_cons, List.not_mem_nil, or_false] at htype
  rcases htype with rfl | rfl | rfl | rfl | rfl | rfl <;> decide

variable (ext) in
lemma lifecycle_total : StatementBuilder.Total ⟨LifecycleProjection.canHandle,
    fun args => (LifecycleProjection.statement ext args).map (Option.map Prod.snd)⟩ := by
  refine StatementBuilder.total_of fun args stmt hc hstmt => ?_
  obtain ⟨action, haction⟩ := Option.isSome_iff_exists.mp (actionOf_isSome hc)
  obtain ⟨built, hbuilt, rfl⟩ := except_map_eq_ok.mp hstmt
  rw [LifecycleProjection.statement, haction] at hbuilt
  obtain ⟨details, _, hbuilt⟩ := bind_eq_ok.mp hbuilt
  cases hbuilt
  rfl

/-- The handlers of a list that write, told by the kinds of the writes. -/
lemma collectWrites_kind {bs : List StatementBuilder} {kinds : List ProjectionWrite.Kind}
    (hbs : List.Forall₂ (fun b kind => b.Writes (ProjectionWrite.Of kind)) bs kinds)
    (hkinds : kinds.Nodup) {writes : List ProjectionWrite}
    (h : collectWrites args bs = .ok writes) {b : StatementBuilder} {kind : ProjectionWrite.Kind}
    (hb : (b, kind) ∈ bs.zip kinds) :
    ∃ write, b.write args = .ok write ∧
      ((∃ w ∈ writes, w.kind = kind) ↔ write.isSome = true) := by
  induction hbs generalizing writes with
  | nil => cases hb
  | @cons b' kind' bs kinds hb' hbs ih =>
    rw [List.nodup_cons] at hkinds
    rw [collectWrites] at h
    obtain ⟨write, hwrite, h⟩ := bind_eq_ok.mp h
    obtain ⟨rest, hrest, h⟩ := bind_eq_ok.mp h
    cases h
    have hkind {w : ProjectionWrite} (hw : w ∈ write.toList) : w.kind = kind' := by
      rw [Option.mem_toList] at hw
      exact (hb' args w (hw ▸ hwrite)).2.1
    rcases List.mem_cons.mp hb with hb | hb
    · cases hb
      refine ⟨write, hwrite, ?_⟩
      constructor
      · rintro ⟨w, hw, hwk⟩
        rcases List.mem_append.mp hw with hw | hw
        · rw [Option.mem_toList.mp hw]
          rfl
        · obtain ⟨k, hk, hof⟩ := collectWrites_forall hbs hrest w hw
          rw [hof.2.1] at hwk
          exact absurd (hwk ▸ hk) hkinds.1
      · intro hsome
        obtain ⟨w, rfl⟩ := Option.isSome_iff_exists.mp hsome
        exact ⟨w, by simp, hkind (by simp)⟩
    · obtain ⟨write', hwrite', hiff⟩ := ih hkinds.2 hrest hb
      refine ⟨write', hwrite', Iff.trans ?_ hiff⟩
      constructor
      · rintro ⟨w, hw, hwk⟩
        rcases List.mem_append.mp hw with hw | hw
        · rw [hkind hw] at hwk
          exact absurd (hwk ▸ (List.of_mem_zip hb).2) hkinds.1
        · exact ⟨w, hw, hwk⟩
      · rintro ⟨w, hw, hwk⟩
        exact ⟨w, List.mem_append_right _ hw, hwk⟩

/-- A total handler has written exactly when it can handle the event. -/
lemma projectionWrites_kind {writes : List ProjectionWrite}
    (h : projectionWrites ext args = .ok writes) {b : StatementBuilder}
    {kind : ProjectionWrite.Kind}
    (hb : (b, kind) ∈ (statementBuilders ext).zip [.meetingLink, .emailNotification,
      .telegramNotification, .emailStatusHistory, .chatEvent, .chatRead, .videoEvent,
      .lifecycleEvent]) (htotal : b.Total) :
    (∃ w ∈ writes, w.kind = kind) ↔ b.canHandle args.event = true := by
  obtain ⟨write, hwrite, hiff⟩ :=
    collectWrites_kind (statementBuilders_writes ext) (by decide) h hb
  rw [hiff, htotal args write hwrite]

/-- The history of delivery statuses is written for the job of the status. -/
lemma emailStatusHistory_job {write : Option ProjectionWrite}
    (h : StatementBuilder.write
      ⟨EmailStatusHistoryProjection.canHandle, EmailStatusHistoryProjection.handle ext⟩ args =
      .ok write) :
    match write with
    | some w => ∃ jobId row, w = .insertEmailStatusHistory jobId row ∧
        args.event.statusJobId? = some jobId
    | none => args.event.statusJobId? = none := by
  by_cases hcan : EmailStatusHistoryProjection.canHandle args.event = true
  · have ht : args.event.eventType = EventType.unisenderStatusCreated.value := beq_iff_eq.mp hcan
    rw [StatementBuilder.write_of hcan] at h
    obtain ⟨stmt, hstmt, hbind⟩ := bind_eq_ok.mp h
    simp only [EmailStatusHistoryProjection.handle, bind_eq_ok] at hstmt
    obtain ⟨original, horiginal, eventData, hdata, hstmt⟩ := hstmt
    obtain ⟨_, rfl⟩ := Payload.original_eq_ok.mp horiginal
    have hdata' := (Payload.get_eq_ok.mp hdata).2
    rw [ParsedEvent.statusJobId?, if_pos ht]
    split at hstmt
    next fields =>
      rw [eq_comm, Json.getD_null_eq_obj] at hdata'
      rw [hdata']
      simp only [bind_eq_ok] at hstmt
      obtain ⟨jobId, hjob, status, hstatus, _, _, hstmt⟩ := hstmt
      have hjob' := (Payload.get_eq_ok.mp hjob).2
      have hstatus' := (Payload.get_eq_ok.mp hstatus).2
      dsimp only
      split at hstmt
      next jobId status =>
        rw [eq_comm, Json.getD_null_eq_str] at hjob' hstatus'
        simp only [bind_eq_ok] at hstmt
        obtain ⟨_, _, hstmt⟩ := hstmt
        cases hstmt
        cases hbind
        exact ⟨jobId, _, rfl, by rw [hjob', hstatus']⟩
      next hne =>
        cases hstmt
        cases hbind
        dsimp only
        split
        next hj hs =>
          rw [hj] at hjob'
          rw [hs] at hstatus'
          exact absurd hstatus' (hne _ _ hjob')
        next => rfl
    next hne =>
      cases hstmt
      cases hbind
      dsimp only
      split
      next hd =>
        rw [hd] at hdata'
        exact absurd hdata' (hne _)
      next => rfl
  · rw [StatementBuilder.write_of_not hcan] at h
    cases h
    have ht : ¬ args.event.eventType = EventType.unisenderStatusCreated.value := fun ht =>
      hcan (beq_iff_eq.mpr ht)
    exact if_neg ht

/-- The notification of the job of a status is written. -/
lemma emailNotification_job {write : Option ProjectionWrite} {jobId : String}
    (hjob : args.event.statusJobId? = some jobId)
    (h : StatementBuilder.write
      ⟨EmailNotificationProjection.canHandle, EmailNotificationProjection.handle ext⟩ args =
      .ok write) :
    ∃ row, write = some (.upsertEmailStatus args.bookingRefId row) ∧ row.jobId = jobId := by
  rw [ParsedEvent.statusJobId?] at hjob
  split at hjob
  next ht =>
    have hcan : EmailNotificationProjection.canHandle args.event = true := by
      rw [EmailNotificationProjection.canHandle, Bool.or_eq_true, beq_iff_eq, beq_iff_eq]
      exact .inr ht
    have hne : ¬ args.event.eventType = EventType.notificationEmailSent.value := by
      rw [ht, EventType.value_inj]
      decide
    split at hjob
    next fields hdata =>
      split at hjob
      next hj hs =>
        cases hjob
        rw [StatementBuilder.write_of hcan] at h
        dsimp only at h
        rw [EmailNotificationProjection.handle, if_neg hne, if_pos ht,
          EmailNotificationProjection.handleEmailStatus] at h
        obtain ⟨stmt, hstmt, hbind⟩ := bind_eq_ok.mp h
        simp only [bind_eq_ok] at hstmt
        obtain ⟨original, horiginal, eventData, hget, hstmt⟩ := hstmt
        obtain ⟨_, rfl⟩ := Payload.original_eq_ok.mp horiginal
        have hget' := (Payload.get_eq_ok.mp hget).2
        rw [hdata, Option.getD_some] at hget'
        subst hget'
        simp only [bind_eq_ok] at hstmt
        obtain ⟨job, hgetJob, _, _, _, _, _, _, _, _, hstmt⟩ := hstmt
        have hgetJob' := (Payload.get_eq_ok.mp hgetJob).2
        rw [hj, Option.getD_some] at hgetJob'
        subst hgetJob'
        cases hstmt
        cases hbind
        exact ⟨_, rfl, rfl⟩
      next => cases hjob
    next => cases hjob
  next => cases hjob

/-- The writes of the handlers, split at the history of delivery statuses. -/
lemma projectionWrites_split {writes : List ProjectionWrite}
    (h : projectionWrites ext args = .ok writes) :
    ∃ (before after : List ProjectionWrite) (status : Option ProjectionWrite),
      writes = before ++ status.toList ++ after ∧
      (∀ w ∈ before ++ after, w.kind ≠ .emailStatusHistory) ∧
      match status with
      | some w => ∃ jobId row, w = .insertEmailStatusHistory jobId row ∧
          args.event.statusJobId? = some jobId ∧
          ∃ row', .upsertEmailStatus args.bookingRefId row' ∈ before ∧ row'.jobId = jobId
      | none => args.event.statusJobId? = none := by
  simp only [projectionWrites, statementBuilders, collectWrites, bind_eq_ok] at h
  obtain ⟨w₁, h₁, ws₁, ⟨w₂, h₂, ws₂, ⟨w₃, h₃, ws₃, ⟨w₄, h₄, ws₄, ⟨w₅, h₅, ws₅, ⟨w₆, h₆, ws₆,
    ⟨w₇, h₇, ws₇, ⟨w₈, h₈, ws₈, hnil, hws₇⟩, hws₆⟩, hws₅⟩, hws₄⟩, hws₃⟩, hws₂⟩, hws₁⟩, hws⟩ := h
  cases hnil
  cases hws₇
  cases hws₆
  cases hws₅
  cases hws₄
  cases hws₃
  cases hws₂
  cases hws₁
  cases hws
  refine ⟨w₁.toList ++ w₂.toList ++ w₃.toList,
    w₅.toList ++ w₆.toList ++ w₇.toList ++ w₈.toList, w₄, by simp, ?_, ?_⟩
  · intro w hw
    have hkind : w.kind = .meetingLink ∨ w.kind = .emailNotification ∨
        w.kind = .telegramNotification ∨ w.kind = .chatEvent ∨ w.kind = .chatRead ∨
        w.kind = .videoEvent ∨ w.kind = .lifecycleEvent := by
      simp only [List.mem_append, Option.mem_toList] at hw
      rcases hw with ((rfl | rfl) | rfl) | ((rfl | rfl) | rfl) | rfl
      · exact .inl (meetingLink_write h₁).2.1
      · exact .inr (.inl (emailNotification_write h₂).2.1)
      · exact .inr (.inr (.inl (telegram_write h₃).2.1))
      · exact .inr (.inr (.inr (.inl (chatEvent_write h₅).2.1)))
      · exact .inr (.inr (.inr (.inr (.inl (chatReadUpdate_write h₆).2.1))))
      · exact .inr (.inr (.inr (.inr (.inr (.inl (videoEvent_write h₇).2.1)))))
      · exact .inr (.inr (.inr (.inr (.inr (.inr (lifecycle_write h₈).2.1)))))
    rcases hkind with hk | hk | hk | hk | hk | hk | hk <;> rw [hk] <;> decide
  · have hstatus := emailStatusHistory_job h₄
    cases w₄ with
    | none => exact hstatus
    | some w =>
      obtain ⟨jobId, row, hw, hjob⟩ := hstatus
      obtain ⟨row', hemail, hrow'⟩ := emailNotification_job hjob h₂
      refine ⟨jobId, row, hw, hjob, row', ?_, hrow'⟩
      rw [hemail]
      simp

end Handlers

namespace Tables

/-- The references of the rows that a table of append-only rows holds for an event. -/
def projected (t : Tables) (eventId : String) : ProjectionWrite.Kind → List Nat
  | .telegramNotification => refsFrom (·.sourceEventId) eventId t.telegramNotifications
  | .emailStatusHistory => refsFrom (·.sourceEventId) eventId t.emailStatusHistory
  | .chatEvent => refsFrom (·.rawEventId) eventId t.chatEvents
  | .videoEvent => refsFrom (·.rawEventId) eventId t.videoEvents
  | .lifecycleEvent => refsFrom (·.rawEventId) eventId t.lifecycleEvents
  | _ => []

end Tables

/-- What a transaction for the event `newId` leaves as it was: the ids of the bookings and of the
notifications, and the rows of other events. -/
structure Db.Keeps (newId : String) (db db' : Db) : Prop where
  located : ∀ uid ref, db.Located uid ref → db'.Located uid ref
  notification : ∀ jobId n, findNotification jobId db.tables.emailNotifications = some n →
    ∃ n', findNotification jobId db'.tables.emailNotifications = some n' ∧ n'.id = n.id
  projected : ∀ eventId ≠ newId, ∀ kind,
    db'.tables.projected eventId kind = db.tables.projected eventId kind

namespace Db.Keeps

variable {newId : String} {db db' db'' : Db}

lemma refl (db : Db) : db.Keeps newId db :=
  ⟨fun _ _ h => h, fun _ n h => ⟨n, h, rfl⟩, fun _ _ _ => rfl⟩

lemma trans (h : db.Keeps newId db') (h' : db'.Keeps newId db'') : db.Keeps newId db'' where
  located uid ref hloc := h'.located uid ref (h.located uid ref hloc)
  notification jobId n hn := by
    obtain ⟨n', hn', hid⟩ := h.notification jobId n hn
    obtain ⟨n'', hn'', hid'⟩ := h'.notification jobId n' hn'
    exact ⟨n'', hn'', hid'.trans hid⟩
  projected eventId hne kind := (h'.projected eventId hne kind).trans (h.projected eventId hne kind)

/-- A change of the tables that keeps what others refer to. -/
lemma of_tables {t : Tables} {seq seq' : Nat} (hbookings : t.bookings = db.tables.bookings)
    (hnotifications : t.emailNotifications = db.tables.emailNotifications)
    (hprojected : ∀ eventId ≠ newId, ∀ kind,
      t.projected eventId kind = db.tables.projected eventId kind) :
    db.Keeps newId ⟨t, seq, seq'⟩ where
  located uid ref h := by
    obtain ⟨b, hb, hid⟩ := h
    exact ⟨b, by rwa [hbookings], hid⟩
  notification jobId n h := ⟨n, by rwa [hnotifications], rfl⟩
  projected := hprojected

/-- An update of bookings rows that keeps their keys. -/
lemma updateBookings (p : BookingRow → Bool) (f : Booking → Booking)
    (hf : ∀ b, (f b).bookingUid = b.bookingUid) {seq : Nat} :
    db.Keeps newId { db with
      bookingsSeq := seq
      tables.bookings := updateWhere p (fun b => b.update f) db.tables.bookings } where
  located uid ref h := by
    obtain ⟨b, hb, hid⟩ := h
    refine ⟨if p b then b.update f else b, ?_, ?_⟩
    · have hkey (b : BookingRow) : ((b.update f).bookingUid == uid) = (b.bookingUid == uid) := by
        rw [BookingRow.update_toBooking, hf]
      rw [findBooking] at hb ⊢
      rw [find?_updateWhere hkey, hb]
      rfl
    · split
      · exact hid
      · exact hid
  notification jobId n h := ⟨n, h, rfl⟩
  projected _ _ _ := rfl

lemma upsertBooking (row : Booking) :
    db.Keeps newId { db with
      bookingsSeq := db.bookingsSeq + 1
      tables.bookings := upsertBookingRow db.bookingsSeq row db.tables.bookings } := by
  unfold upsertBookingRow upsertWhere
  split
  · exact updateBookings _ row.merge fun b => rfl
  next hnone =>
    refine ⟨fun uid ref h => ?_, fun jobId n h => ⟨n, h, rfl⟩, fun _ _ _ => rfl⟩
    obtain ⟨b, hb, hid⟩ := h
    refine ⟨b, ?_, hid⟩
    rw [findBooking] at hb ⊢
    rw [List.find?_append, hb]
    rfl

lemma upsertNotification (merge : EmailNotification → EmailNotification → EmailNotification)
    (hmerge : ∀ row n, (merge row n).jobId = n.jobId) (ref : Nat) (row : EmailNotification) :
    db.Keeps newId { db with
      notificationsSeq := db.notificationsSeq + 1
      tables.emailNotifications := EventSaver.upsertNotification merge db.notificationsSeq ref row
        db.tables.emailNotifications } where
  located uid ref h := h
  notification jobId n h := by
    have hkey (n : EmailNotificationRow) :
        (merge row n.toEmailNotification).jobId = n.jobId := hmerge row _
    unfold EventSaver.upsertNotification upsertWhere
    rw [findNotification] at h ⊢
    split
    · rw [find?_updateWhere fun n => by dsimp only; rw [hkey], h]
      refine ⟨_, rfl, ?_⟩
      dsimp only
      split <;> rfl
    · rw [List.find?_append, h]
      exact ⟨n, rfl, rfl⟩
  projected _ _ _ := rfl

lemma refsFrom_insertStatusHistory_other {notifications : List EmailNotificationRow}
    {jobId eventId : String} {row : EmailStatus} {history : List (Linked EmailStatus)}
    (h : row.sourceEventId ≠ eventId) :
    refsFrom (·.sourceEventId) eventId (insertStatusHistory notifications jobId row history) =
      refsFrom (·.sourceEventId) eventId history := by
  unfold insertStatusHistory
  split
  · exact refsFrom_insertUnless_other h
  · rfl

/-- A write for an event keeps the rows of other events. -/
lemma write {w : ProjectionWrite} {ref : Nat} (hw : w.FiledUnder newId ref) :
    db.Keeps newId (w.apply db) := by
  cases w with
  | upsertMeetingLink r row => exact of_tables rfl rfl fun _ _ _ => rfl
  | deleteMeetingLink r userId => exact of_tables rfl rfl fun _ _ _ => rfl
  | upsertEmailSent r row =>
    exact upsertNotification EmailNotification.mergeSent (fun _ _ => rfl) r row
  | upsertEmailStatus r row =>
    exact upsertNotification EmailNotification.mergeStatus (fun _ _ => rfl) r row
  | insertTelegramNotification r row =>
    refine of_tables rfl rfl fun eventId hne kind => ?_
    obtain ⟨_, hsource⟩ := hw
    cases kind <;> first | rfl | exact refsFrom_insertUnless_other (hsource ▸ hne.symm)
  | insertEmailStatusHistory jobId row =>
    refine of_tables rfl rfl fun eventId hne kind => ?_
    have hsource : row.sourceEventId = newId := hw
    cases kind <;> first | rfl | exact refsFrom_insertStatusHistory_other (hsource ▸ hne.symm)
  | insertChatEvent r row =>
    refine of_tables rfl rfl fun eventId hne kind => ?_
    obtain ⟨_, hsource⟩ := hw
    cases kind <;> first | rfl | exact refsFrom_insertUnless_other (hsource ▸ hne.symm)
  | updateChatRead r reader messageId time =>
    refine of_tables rfl rfl fun eventId hne kind => ?_
    cases kind <;> first | rfl | exact refsFrom_updateWhere fun l => ⟨rfl, rfl⟩
  | insertVideoEvent r row =>
    refine of_tables rfl rfl fun eventId hne kind => ?_
    obtain ⟨_, hsource⟩ := hw
    cases kind <;> first | rfl | exact refsFrom_insertUnless_other (hsource ▸ hne.symm)
  | insertLifecycleEvent r row =>
    refine of_tables rfl rfl fun eventId hne kind => ?_
    obtain ⟨_, hsource⟩ := hw
    cases kind <;> first | rfl | exact refsFrom_insertUnless_other (hsource ▸ hne.symm)

lemma writes {ws : List ProjectionWrite} {ref : Nat} (hws : ∀ w ∈ ws, w.FiledUnder newId ref) :
    db.Keeps newId (ws.foldl ProjectionWrite.apply db) := by
  induction ws generalizing db with
  | nil => exact refl db
  | cons w rest ih =>
    rw [List.forall_mem_cons] at hws
    exact (write hws.1).trans (ih hws.2)

/-- The changes before the projections are written keep every projection row. -/
lemma beforeWrites (work : BookingWork) (ref : Nat) :
    db.Keeps newId (work.applyClient ref (work.applyOrganizer ref (work.applyUpsert db))) := by
  have hupsert : db.Keeps newId (work.applyUpsert db) := by
    unfold BookingWork.applyUpsert
    cases work.upsert with
    | none => exact refl db
    | some row => exact upsertBooking row
  have horganizer (db : Db) : db.Keeps newId (work.applyOrganizer ref db) := by
    unfold BookingWork.applyOrganizer
    cases work.organizer with
    | none => exact refl db
    | some row => exact of_tables rfl rfl fun _ _ _ => rfl
  have hclient (db : Db) : db.Keeps newId (work.applyClient ref db) := by
    unfold BookingWork.applyClient
    cases work.newClient with
    | none => exact refl db
    | some u => exact updateBookings _ _ fun b => b.setUserId_bookingUid .client u
  exact hupsert.trans ((horganizer _).trans (hclient _))

lemma insertRow (event : ParsedEvent) : db.Keeps newId (insertRow event db) :=
  of_tables rfl rfl fun _ _ _ => rfl

lemma backfill (ext : Externals) (request : Option (RecipientRole × Option String × Uuid)) :
    db.Keeps newId (applyBackfill ext request db) := by
  rcases request with _ | ⟨role, _ | email, userId⟩
  · exact refl db
  · exact refl db
  · exact updateBookings _ _ fun b => b.setUserId_bookingUid role userId

end Db.Keeps

/-- The tables that only grow, by at most one row for an event. -/
def ProjectionWrite.Kind.appends : ProjectionWrite.Kind → Bool
  | .telegramNotification => true
  | .chatEvent => true
  | .videoEvent => true
  | .lifecycleEvent => true
  | _ => false

section NewEvent

variable {eventId : String} {ref : Nat} {db : Db} {kind : ProjectionWrite.Kind}

lemma projected_write_self {w : ProjectionWrite} (hw : w.FiledUnder eventId ref)
    (hk : kind.appends = true) :
    (w.apply db).tables.projected eventId kind =
      if w.kind = kind ∧ db.tables.projected eventId kind = [] then [ref]
      else db.tables.projected eventId kind := by
  by_cases hkind : w.kind = kind
  · subst hkind
    simp only [true_and]
    cases w with
    | insertTelegramNotification r row =>
      obtain ⟨rfl, hsource⟩ := hw
      exact refsFrom_insertUnless_self hsource
    | insertChatEvent r row =>
      obtain ⟨rfl, hsource⟩ := hw
      exact refsFrom_insertUnless_self hsource
    | insertVideoEvent r row =>
      obtain ⟨rfl, hsource⟩ := hw
      exact refsFrom_insertUnless_self hsource
    | insertLifecycleEvent r row =>
      obtain ⟨rfl, hsource⟩ := hw
      exact refsFrom_insertUnless_self hsource
    | upsertMeetingLink r row => cases hk
    | deleteMeetingLink r userId => cases hk
    | upsertEmailSent r row => cases hk
    | upsertEmailStatus r row => cases hk
    | insertEmailStatusHistory jobId row => cases hk
    | updateChatRead r reader messageId time => cases hk
  · rw [if_neg fun h => hkind h.1]
    cases w with
    | updateChatRead r reader messageId time =>
      cases kind <;> first | rfl | exact refsFrom_updateWhere fun l => ⟨rfl, rfl⟩
    | _ =>
      cases kind <;> first | rfl | exact absurd rfl hkind

lemma projected_writes_kept {ws : List ProjectionWrite} (hws : ∀ w ∈ ws, w.FiledUnder eventId ref)
    (hk : kind.appends = true) (h : db.tables.projected eventId kind = [ref]) :
    (ws.foldl ProjectionWrite.apply db).tables.projected eventId kind = [ref] := by
  induction ws generalizing db with
  | nil => exact h
  | cons w rest ih =>
    rw [List.forall_mem_cons] at hws
    refine ih hws.2 ?_
    rw [projected_write_self hws.1 hk, h]
    exact if_neg fun hnil => by simp at hnil

/-- An event gets one row in a table when one of its writes is for the table. -/
lemma projected_writes_self {ws : List ProjectionWrite}
    (hws : ∀ w ∈ ws, w.FiledUnder eventId ref) (hk : kind.appends = true)
    (h : db.tables.projected eventId kind = []) :
    (ws.foldl ProjectionWrite.apply db).tables.projected eventId kind =
      if ∃ w ∈ ws, w.kind = kind then [ref] else [] := by
  induction ws generalizing db with
  | nil =>
    rw [if_neg (by simp)]
    exact h
  | cons w rest ih =>
    rw [List.forall_mem_cons] at hws
    have hstep : (w.apply db).tables.projected eventId kind = _ := projected_write_self hws.1 hk
    rw [List.foldl_cons]
    by_cases hw : w.kind = kind
    · rw [if_pos ⟨hw, h⟩] at hstep
      rw [projected_writes_kept hws.2 hk hstep, if_pos ⟨w, List.mem_cons_self, hw⟩]
    · rw [if_neg fun hand => hw hand.1, h] at hstep
      rw [ih hws.2 hstep]
      congr 1
      simp [hw]

/-- Only a write of the history adds a delivery status. -/
lemma projected_status_other {w : ProjectionWrite} (hw : w.kind ≠ .emailStatusHistory) :
    (w.apply db).tables.projected eventId .emailStatusHistory =
      db.tables.projected eventId .emailStatusHistory := by
  cases w with
  | insertEmailStatusHistory jobId row => exact absurd rfl hw
  | _ => rfl

lemma projected_status_others {ws : List ProjectionWrite}
    (hws : ∀ w ∈ ws, w.kind ≠ .emailStatusHistory) :
    (ws.foldl ProjectionWrite.apply db).tables.projected eventId .emailStatusHistory =
      db.tables.projected eventId .emailStatusHistory := by
  induction ws generalizing db with
  | nil => rfl
  | cons w rest ih =>
    rw [List.forall_mem_cons] at hws
    rw [List.foldl_cons, ih hws.2, projected_status_other hws.1]

/-- The notification of a job is there once a status has been written for it. -/
lemma notification_writes {ws : List ProjectionWrite} (hws : ∀ w ∈ ws, w.FiledUnder eventId ref)
    {row : EmailNotification} (hmem : .upsertEmailStatus ref row ∈ ws) :
    ∃ n, findNotification row.jobId
      (ws.foldl ProjectionWrite.apply db).tables.emailNotifications = some n := by
  induction ws generalizing db with
  | nil => cases hmem
  | cons w rest ih =>
    rw [List.forall_mem_cons] at hws
    rcases List.mem_cons.mp hmem with rfl | hmem
    · have hkeeps : (ProjectionWrite.apply db (.upsertEmailStatus ref row)).Keeps eventId
          (rest.foldl ProjectionWrite.apply _) := .writes hws.2
      have hfind : ∃ n, findNotification row.jobId
          (ProjectionWrite.apply db (.upsertEmailStatus ref row)).tables.emailNotifications =
            some n :=
        ⟨_, find?_upsertWhere_self (fun n => rfl) (by simp)⟩
      obtain ⟨n, hn⟩ := hfind
      obtain ⟨n', hn', _⟩ := hkeeps.notification row.jobId n hn
      exact ⟨n', hn'⟩
    · exact ih hws.2 hmem

/-- The delivery status of a new event refers to the notification of its job. -/
lemma projected_status_self {before after : List ProjectionWrite} {row : EmailStatus}
    {row' : EmailNotification} {jobId : String}
    (hws : ∀ w ∈ before ++ [ProjectionWrite.insertEmailStatusHistory jobId row] ++ after,
      w.FiledUnder eventId ref)
    (hothers : ∀ w ∈ before ++ after, w.kind ≠ .emailStatusHistory)
    (hmem : .upsertEmailStatus ref row' ∈ before) (hjob : row'.jobId = jobId)
    (hnew : db.tables.projected eventId .emailStatusHistory = []) :
    ∃ n, findNotification jobId
        ((before ++ [ProjectionWrite.insertEmailStatusHistory jobId row] ++ after).foldl
          ProjectionWrite.apply db).tables.emailNotifications = some n ∧
      ((before ++ [ProjectionWrite.insertEmailStatusHistory jobId row] ++ after).foldl
        ProjectionWrite.apply db).tables.projected eventId .emailStatusHistory = [n.id] := by
  rw [List.forall_mem_append] at hothers
  have hbefore : ∀ w ∈ before, w.FiledUnder eventId ref := fun w hw => hws w (by simp [hw])
  have hafter : ∀ w ∈ after, w.FiledUnder eventId ref := fun w hw => hws w (by simp [hw])
  have hstatus : row.sourceEventId = eventId :=
    hws (.insertEmailStatusHistory jobId row) (by simp)
  obtain ⟨n, hn⟩ : ∃ n, findNotification row'.jobId
      (before.foldl ProjectionWrite.apply db).tables.emailNotifications = some n :=
    notification_writes hbefore hmem
  have hnil : (before.foldl ProjectionWrite.apply db).tables.projected eventId
      .emailStatusHistory = [] := by
    rw [projected_status_others hothers.1, hnew]
  rw [List.foldl_append, List.foldl_append, List.foldl_cons, List.foldl_nil]
  generalize before.foldl ProjectionWrite.apply db = middle at hn hnil
  rw [hjob] at hn
  have hrow : (ProjectionWrite.apply middle (.insertEmailStatusHistory jobId row)).tables.projected
      eventId .emailStatusHistory = [n.id] := by
    have hnil' : refsFrom EmailStatus.sourceEventId eventId middle.tables.emailStatusHistory = [] :=
      hnil
    simp only [Tables.projected, ProjectionWrite.apply, insertStatusHistory, hn]
    rw [refsFrom_insertUnless_self hstatus, if_pos hnil']
  have hkeeps : (ProjectionWrite.apply middle (.insertEmailStatusHistory jobId row)).Keeps eventId
      (after.foldl ProjectionWrite.apply _) := .writes hafter
  obtain ⟨n', hn', hid⟩ := hkeeps.notification jobId n hn
  exact ⟨n', hn', by rw [projected_status_others hothers.2, hrow, hid]⟩

end NewEvent

/-- The event a row of `events` stores. -/
def EventRow.event (e : EventRow) : ParsedEvent where
  eventId := e.eventId
  eventType := e.eventType
  source := e.source
  occurredAt := e.occurredAt
  bookingId := e.bookingId
  payload := e.payload
  idempotencyKey := e.idempotencyKey
  traceId := e.traceId
  spanId := e.spanId
  dataschema := e.dataschema
  payloadHash := e.hash

/-- An event that is filed under a booking. -/
def EventRow.FiledUnder (e : EventRow) (uid : String) : Prop :=
  e.bookingId = some uid ∧ uid ≠ "" ∧ e.eventType ≠ EventType.userSynced.value

/-- The append-only rows of an event filed under the booking `uid` with the id `ref`: one in each
table whose handler can handle the event, under the booking, and one delivery status under the
notification of its job. -/
structure Db.ProjectsAt (ext : Externals) (db : Db) (e : EventRow) (uid : String) (ref : Nat) :
    Prop where
  located : db.Located uid ref
  lifecycle : refsFrom LifecycleEvent.rawEventId e.eventId db.tables.lifecycleEvents =
    if LifecycleProjection.canHandle e.event then [ref] else []
  chat : refsFrom ChatEvent.rawEventId e.eventId db.tables.chatEvents =
    if ChatEventProjection.canHandle e.event then [ref] else []
  video : refsFrom VideoEvent.rawEventId e.eventId db.tables.videoEvents =
    if VideoEventProjection.canHandle ext e.event then [ref] else []
  telegram : refsFrom TelegramNotification.sourceEventId e.eventId
    db.tables.telegramNotifications =
    if TelegramNotificationProjection.canHandle e.event then [ref] else []
  status : match e.event.statusJobId? with
    | some jobId => ∃ n, findNotification jobId db.tables.emailNotifications = some n ∧
        refsFrom EmailStatus.sourceEventId e.eventId db.tables.emailStatusHistory = [n.id]
    | none => refsFrom EmailStatus.sourceEventId e.eventId db.tables.emailStatusHistory = []

/-- Every stored event has its rows, and no others. -/
structure Db.ProjectsAll (ext : Externals) (db : Db) : Prop where
  filed : ∀ e ∈ db.tables.events, ∀ uid, e.FiledUnder uid → ∃ ref, db.ProjectsAt ext e uid ref
  unfiled : ∀ e ∈ db.tables.events, (∀ uid, ¬ e.FiledUnder uid) →
    ∀ kind, db.tables.projected e.eventId kind = []

section Invariant

variable {ext : Externals} {db db' : Db} {e : EventRow} {uid newId : String} {ref : Nat}
  {event : ParsedEvent} {queueName : String}

lemma Db.ProjectsAt.keeps (h : db.ProjectsAt ext e uid ref) (hkeeps : db.Keeps newId db')
    (hne : e.eventId ≠ newId) : db'.ProjectsAt ext e uid ref where
  located := hkeeps.located uid ref h.located
  lifecycle := (hkeeps.projected e.eventId hne .lifecycleEvent).trans h.lifecycle
  chat := (hkeeps.projected e.eventId hne .chatEvent).trans h.chat
  video := (hkeeps.projected e.eventId hne .videoEvent).trans h.video
  telegram := (hkeeps.projected e.eventId hne .telegramNotification).trans h.telegram
  status := by
    have hstatus := h.status
    have hrows : refsFrom EmailStatus.sourceEventId e.eventId db'.tables.emailStatusHistory =
        refsFrom EmailStatus.sourceEventId e.eventId db.tables.emailStatusHistory :=
      hkeeps.projected e.eventId hne .emailStatusHistory
    rw [hrows]
    split at hstatus
    next jobId hjob =>
      obtain ⟨n, hn, hrefs⟩ := hstatus
      obtain ⟨n', hn', hid⟩ := hkeeps.notification jobId n hn
      exact ⟨n', hn', by rw [hrefs, hid]⟩
    next => exact hstatus

lemma projected_beforeWrites (work : BookingWork) (eventId : String)
    (kind : ProjectionWrite.Kind) :
    (work.applyClient ref (work.applyOrganizer ref (work.applyUpsert db))).tables.projected
      eventId kind = db.tables.projected eventId kind := by
  unfold BookingWork.applyClient BookingWork.applyOrganizer BookingWork.applyUpsert
  cases work.newClient <;> cases work.organizer <;> cases work.upsert <;> cases kind <;> rfl

/-- A new event filed under a booking gets its rows. -/
lemma projectsAt_processBooking
    (hnew : ∀ kind, db.tables.projected event.eventId kind = [])
    (he : processBookingEffect ext queueName event uid db = .ok db') :
    ∃ ref, db'.ProjectsAt ext (EventRepository.row event) uid ref := by
  obtain ⟨work, hplan, rfl⟩ := except_map_eq_ok.mp he
  have hloc := located_applyUpsert hplan
  have hfiled := plan_writes ext hplan
  generalize bookingRef db uid = ref at hplan hloc hfiled ⊢
  have hws : ∀ w ∈ work.writes, w.FiledUnder event.eventId ref := fun w hw => (hfiled w hw).1
  obtain ⟨args, hevent, href, hwrites⟩ : ∃ args : HandleArgs, args.event = event ∧
      args.bookingRefId = ref ∧ projectionWrites ext args = .ok work.writes := by
    obtain ⟨organizer, client, _, ⟨_, _, _, _, hw⟩ | ⟨_, _, _, _, hw⟩⟩ := plan_eq_ok ext hplan
    · exact ⟨_, rfl, rfl, hw⟩
    · exact ⟨_, rfl, rfl, hw⟩
  have hbefore (kind : ProjectionWrite.Kind) :
      (work.applyClient ref (work.applyOrganizer ref (work.applyUpsert db))).tables.projected
        event.eventId kind = [] := by
    rw [projected_beforeWrites, hnew]
  have hloc' : (work.applyClient ref (work.applyOrganizer ref (work.applyUpsert db))).Located uid
      ref := hloc.applyOrganizer.applyClient
  unfold BookingWork.apply
  generalize work.applyClient ref (work.applyOrganizer ref (work.applyUpsert db)) = middle
    at hbefore hloc' ⊢
  have hkeeps : middle.Keeps event.eventId (work.writes.foldl ProjectionWrite.apply middle) :=
    .writes hws
  have hrows (kind : ProjectionWrite.Kind) {b : StatementBuilder}
      (hb : (b, kind) ∈ (statementBuilders ext).zip [.meetingLink, .emailNotification,
        .telegramNotification, .emailStatusHistory, .chatEvent, .chatRead, .videoEvent,
        .lifecycleEvent]) (htotal : b.Total) (hk : kind.appends = true) :
      (work.writes.foldl ProjectionWrite.apply middle).tables.projected event.eventId kind =
        if b.canHandle event then [ref] else [] := by
    have hkind := projectionWrites_kind hwrites hb htotal
    rw [hevent] at hkind
    rw [projected_writes_self hws hk (hbefore kind)]
    simp only [hkind]
  refine ⟨ref, hkeeps.located uid ref hloc', hrows .lifecycleEvent ?_ (lifecycle_total ext) rfl,
    hrows .chatEvent ?_ (chatEvent_total ext) rfl, hrows .videoEvent ?_ (videoEvent_total ext) rfl,
    hrows .telegramNotification ?_ telegram_total rfl, ?_⟩
  · simp [statementBuilders]
  · simp [statementBuilders]
  · simp [statementBuilders]
  · simp [statementBuilders]
  · obtain ⟨before, after, status, hsplit, hothers, hstatus⟩ := projectionWrites_split hwrites
    rw [hevent, href] at hstatus
    have hrowEvent : (EventRepository.row event).event = event := rfl
    rw [hrowEvent]
    rw [hsplit] at hws ⊢
    cases status with
    | some w =>
      obtain ⟨jobId, row, rfl, hjob, row', hmem, hjob'⟩ := hstatus
      rw [hjob]
      exact projected_status_self hws hothers hmem hjob' (hbefore .emailStatusHistory)
    | none =>
      dsimp only at hstatus
      rw [hstatus]
      rw [Option.toList_none, List.append_nil]
      exact (projected_status_others hothers).trans (hbefore .emailStatusHistory)

lemma Db.Keeps.process (he : processEffect ext queueName event db = .ok db') :
    db.Keeps event.eventId db' := by
  unfold processEffect at he
  split at he
  · obtain ⟨request, _, he⟩ := bind_eq_ok.mp he
    cases he
    exact .backfill ext request
  · split at he
    · cases he
      exact .refl db
    · split at he
      · cases he
        exact .refl db
      · obtain ⟨work, hplan, rfl⟩ := except_map_eq_ok.mp he
        exact (Db.Keeps.beforeWrites work _).trans
          (.writes fun w hw => (plan_writes ext hplan w hw).1)

/-- An event that is not filed under a booking gets no row. -/
lemma projected_process_unfiled (hunfiled : ∀ uid, ¬ (EventRepository.row event).FiledUnder uid)
    (he : processEffect ext queueName event db = .ok db') (kind : ProjectionWrite.Kind) :
    db'.tables.projected event.eventId kind = db.tables.projected event.eventId kind := by
  unfold processEffect at he
  split at he
  · obtain ⟨request, _, he⟩ := bind_eq_ok.mp he
    cases he
    rcases request with _ | ⟨role, _ | email, userId⟩ <;> rfl
  next hsynced =>
    split at he
    · cases he
      rfl
    next uid hbooking =>
      split at he
      · cases he
        rfl
      next hempty => exact absurd ⟨hbooking, hempty, hsynced⟩ (hunfiled uid)

lemma projected_fresh (h : db.WellFormed) {eventId : String} (hnot : eventId ∉ db.tables.eventIds)
    (kind : ProjectionWrite.Kind) : db.tables.projected eventId kind = [] := by
  cases kind with
  | telegramNotification =>
    exact refsFrom_eq_nil fun l hl heq => hnot (heq ▸ h.telegramSources l hl)
  | emailStatusHistory => exact refsFrom_eq_nil fun l hl heq => hnot (heq ▸ h.statusSources l hl)
  | chatEvent => exact refsFrom_eq_nil fun l hl heq => hnot (heq ▸ h.chatSources l hl)
  | videoEvent => exact refsFrom_eq_nil fun l hl heq => hnot (heq ▸ h.videoSources l hl)
  | lifecycleEvent => exact refsFrom_eq_nil fun l hl heq => hnot (heq ▸ h.lifecycleSources l hl)
  | meetingLink => rfl
  | emailNotification => rfl
  | chatRead => rfl

/-- Ingesting an event keeps the rows of the stored events and gives a new event its own. -/
theorem Db.ProjectsAll.ingest (h : db.ProjectsAll ext) (hwf : db.WellFormed)
    (he : ingestEffect ext queueName event db = .ok db') : db'.ProjectsAll ext := by
  have hevents := ingestEffect_events ext he
  unfold ingestEffect at he
  cases hd : isDuplicate event db with
  | true =>
    rw [if_pos hd] at he
    cases he
    exact h
  | false =>
    rw [if_neg (Bool.eq_false_iff.mp hd)] at he
    rw [hd] at hevents
    have hkeeps : db.Keeps event.eventId db' := (Db.Keeps.insertRow event).trans (.process he)
    have hfresh := projected_fresh hwf (not_mem_eventIds hd)
    have hold {e : EventRow} (hmem : e ∈ db.tables.events) : e.eventId ≠ event.eventId :=
      fun heq => not_mem_eventIds hd (heq ▸ List.mem_map_of_mem hmem)
    have hmem {e : EventRow} (hmem : e ∈ db'.tables.events) :
        e ∈ db.tables.events ∨ e = EventRepository.row event := by
      rw [hevents] at hmem
      simpa using hmem
    refine ⟨fun e hevent uid hfiled => ?_, fun e hevent hunfiled kind => ?_⟩
    · rcases hmem hevent with hevent | rfl
      · obtain ⟨ref, hprojects⟩ := h.filed e hevent uid hfiled
        exact ⟨ref, hprojects.keeps hkeeps (hold hevent)⟩
      · obtain ⟨hbooking, hempty, hsynced⟩ := hfiled
        have hbooking' : event.bookingId = some uid := hbooking
        have hsynced' : event.eventType ≠ EventType.userSynced.value := hsynced
        unfold processEffect at he
        rw [if_neg hsynced', hbooking'] at he
        simp only [if_neg hempty] at he
        have hfresh' : ∀ kind, (insertRow event db).tables.projected event.eventId kind = [] :=
          fun kind => by
            have hnil := hfresh kind
            cases kind <;> exact hnil
        exact projectsAt_processBooking hfresh' he
    · rcases hmem hevent with hevent | rfl
      · rw [hkeeps.projected e.eventId (hold hevent) kind]
        exact h.unfiled e hevent hunfiled kind
      · exact (projected_process_unfiled hunfiled he kind).trans (hfresh kind)

lemma exists_ne_string (s : String) : ∃ t : String, s ≠ t := by
  by_cases hs : s = ""
  · exact ⟨"-", by rw [hs]; decide⟩
  · exact ⟨"", hs⟩

lemma Db.ProjectsAll.of_keeps (h : db.ProjectsAll ext)
    (hkeeps : ∀ newId, db.Keeps newId db') (hevents : db'.tables.events = db.tables.events) :
    db'.ProjectsAll ext where
  filed e he uid hfiled := by
    obtain ⟨ref, hprojects⟩ := h.filed e (hevents ▸ he) uid hfiled
    obtain ⟨newId, hne⟩ := exists_ne_string e.eventId
    exact ⟨ref, hprojects.keeps (hkeeps newId) hne⟩
  unfiled e he hunfiled kind := by
    obtain ⟨newId, hne⟩ := exists_ne_string e.eventId
    rw [(hkeeps newId).projected e.eventId hne kind]
    exact h.unfiled e (hevents ▸ he) hunfiled kind

lemma Db.Keeps.of_tables_eq (h : db'.tables = db.tables) : db.Keeps newId db' :=
  of_tables (t := db'.tables) (by rw [h]) (by rw [h]) fun _ _ _ => by rw [h]

/-- A cycle of the periodic backfill keeps every projection row. -/
lemma Db.Keeps.runOnce (resolver : Nat → String → RecipientRole → Except Exc Resolution)
    (batchSize : Nat) :
    (∀ newId, db.Keeps newId (runOnce ext resolver batchSize db).2) ∧
      (EventSaver.runOnce ext resolver batchSize db).2.tables.events = db.tables.events := by
  refine runOnce_rel
    (R := fun db db' => (∀ newId, db.Keeps newId db') ∧ db'.tables.events = db.tables.events)
    (fun db => ⟨fun _ => .refl db, rfl⟩)
    (fun h₁ h₂ => ⟨fun newId => (h₁.1 newId).trans (h₂.1 newId), h₂.2.trans h₁.2⟩)
    (fun db id role userId => ⟨fun _ => ?_, rfl⟩) resolver batchSize db
  exact .updateBookings _ _ fun b => b.setUserId_bookingUid role userId

theorem Db.Reachable.projectsAll (h : db.Reachable ext) : db.ProjectsAll ext := by
  induction h with
  | empty => exact ⟨fun e he => absurd he List.not_mem_nil, fun e he => absurd he List.not_mem_nil⟩
  | @save db hdb fault now m ih =>
    rcases saveEventUnder_cases ext fault now m db with heffect | htables
    · obtain ⟨event, _, hingest⟩ := bind_eq_ok.mp heffect
      exact ih.ingest hdb.wellFormed hingest
    · exact ih.of_keeps (fun _ => .of_tables_eq htables) (by rw [htables])
  | cycle _ resolver batchSize ih =>
    obtain ⟨hkeeps, hevents⟩ := Db.Keeps.runOnce resolver batchSize
    exact ih.of_keeps hkeeps hevents

end Invariant

/-- In every reachable database each event stored for a booking has its bookings row and exactly
the append-only projection rows it should have, every other stored event has none, and no such row
stems from an event that is not stored. -/
theorem projection_rows (ext : Externals) {db : Db} (h : db.Reachable ext) :
    (∀ e ∈ db.tables.events, ∀ uid, e.FiledUnder uid → ∃ ref, db.ProjectsAt ext e uid ref) ∧
      (∀ e ∈ db.tables.events, (∀ uid, ¬ e.FiledUnder uid) →
        ∀ kind, db.tables.projected e.eventId kind = []) ∧
      ∀ eventId, eventId ∉ db.tables.eventIds →
        ∀ kind, db.tables.projected eventId kind = [] :=
  ⟨h.projectsAll.filed, h.projectsAll.unfiled, fun _ hnot => projected_fresh h.wellFormed hnot⟩

def createdMessage : Message :=
  .sample BOOKING_LIFECYCLE_SAVER_QUEUE "e" "b" .bookingCreated 0 (.obj [])

def createdRow : EventRow where
  eventId := "e"
  bookingId := some "b"
  eventType := EventType.bookingCreated.value
  source := SourceType.booking.value
  hash := ""
  occurredAt := 0
  payload := .obj []
  idempotencyKey := none
  traceId := none
  spanId := none
  dataschema := none

theorem projection_rows_created :
    ∃ ref, (saveEventUnder .sample .none 0 createdMessage .empty).2.ProjectsAt .sample createdRow
      "b" ref :=
  (projection_rows .sample (.save .empty .none 0 createdMessage)).1 createdRow
    (List.mem_singleton.mpr rfl) "b" ⟨rfl, by decide, by decide⟩

end EventSaver
