import EventSaver.EmailStatus
import EventSaver.MeetingLinks
import EventSaver.Replay

/-!
# What the tables owe to the events

The rows that later events overwrite or delete are determined by the events that are stored, and by
the order in which they were: no fault and no cycle of the backfill leaves a trace in them.
-/

namespace EventSaver
open JsonData TableData EffectProgram

/-- Whether an event is filed under a booking. -/
def EventRow.isFiled (e : EventRow) : Bool :=
  e.eventType != EventType.userSynced.value && e.bookingId.any (· != "")

/-- The stored events that are filed under a booking, in the order in which they were stored. No
reading below depends on the queue or on the clock. -/
def Db.told (db : Db) : Journal :=
  (db.tables.events.filter EventRow.isFiled).map fun e => (0, e.message id "")

section Told

variable {ext : Externals} {now : Timestamp} {m : Message} {event : ParsedEvent} {db : Db}

lemma isFiled_row (h : EventParser.parse ext now m = .ok event) :
    (EventRepository.row event).isFiled = true ↔ ∃ uid, m.FiledUnder uid := by
  obtain ⟨hbooking, htype, _⟩ := EventParser.parse_filed ext h
  rw [EventRow.isFiled, Bool.and_eq_true, bne_iff_ne, Option.any_eq_true]
  change event.eventType ≠ _ ∧ (∃ uid, event.bookingId = some uid ∧ _) ↔ _
  rw [hbooking, htype]
  constructor
  · rintro ⟨hsynced, uid, huid, hne⟩
    exact ⟨uid, huid, bne_iff_ne.mp hne, hsynced⟩
  · rintro ⟨uid, hm⟩
    exact ⟨hm.notSynced, uid, hm.bookingId, bne_iff_ne.mpr hm.nonempty⟩

lemma told_append {db' : Db} {e : EventRow}
    (h : db'.tables.events = db.tables.events ++ [e]) :
    db'.told = db.told ++ if e.isFiled then [(0, e.message id "")] else [] := by
  rw [Db.told, h, List.filter_append, List.map_append, List.filter_singleton]
  cases e.isFiled <;> rfl

/-- A part of the database in which every stored event that is filed does a step of its own, and
nothing else does anything, is the result of the steps of the events told. -/
theorem Db.Reachable.eq_foldl_told {σ : Type} (π : Db → σ) (step : Timestamp × Message → σ → σ)
    (htables : ∀ db db' : Db, db'.tables = db.tables → π db' = π db)
    (hfill : ∀ (db : Db) id role userId,
      π { db with tables.bookings := fillSlot id role userId db.tables.bookings } = π db)
    (hrow : ∀ entry e, IsRowOf ext entry e → step (0, e.message id "") = step entry)
    (hfiled : ∀ db : Db, db.WellFormed → ∀ now m uid, m.FiledUnder uid →
      saveOutcome ext now m db = .stored → π (saveEvent ext now m db).2 = step (now, m) (π db))
    (hunfiled : ∀ db : Db, db.WellFormed → ∀ now m, (∀ uid, ¬ m.FiledUnder uid) →
      saveOutcome ext now m db = .stored → π (saveEvent ext now m db).2 = π db)
    (h : db.Reachable ext) :
    π db = db.told.foldl (fun s entry => step entry s) (π .empty) := by
  induction h with
  | empty => rfl
  | @save db hdb fault now m ih =>
    rcases saveEventUnder_cases ext fault now m db with heffect | hsame
    · have hsave := saveEvent_ok ext heffect
      obtain ⟨event, hparse, hingest⟩ := bind_eq_ok.mp heffect
      have hevents := ingestEffect_events ext hingest
      cases hd : isDuplicate event db with
      | true =>
        rw [ingestEffect, if_pos hd] at hingest
        rw [← Except.ok.inj hingest]
        exact ih
      | false =>
        rw [hd, if_neg Bool.false_ne_true] at hevents
        have hstored : saveOutcome ext now m db = .stored := by
          rw [saveOutcome, hsave, trace_execute ext hparse, hd]
          rfl
        have hnext : (saveEvent ext now m db).2 = (saveEventUnder ext fault now m db).2 := by
          rw [hsave]
        rw [told_append hevents]
        by_cases hfile : ∃ uid, m.FiledUnder uid
        · obtain ⟨uid, hm⟩ := hfile
          rw [if_pos ((isFiled_row hparse).mpr ⟨uid, hm⟩), List.foldl_concat, ← ih,
            hrow (now, m) _ ⟨event, hparse, rfl⟩, ← hnext]
          exact hfiled db hdb.wellFormed now m uid hm hstored
        · rw [if_neg (mt (isFiled_row hparse).mp hfile), List.append_nil, ← ih, ← hnext]
          exact hunfiled db hdb.wellFormed now m (not_exists.mp hfile) hstored
    · rw [htables db _ hsame, ih, Db.told, Db.told, hsame]
  | @cycle db _ resolver batchSize ih =>
    have hcycle := @runOnce_rel ext
      (fun db db' => π db' = π db ∧ db'.tables.events = db.tables.events)
      (fun _ => ⟨rfl, rfl⟩) (fun h h' => ⟨h'.1.trans h.1, h'.2.trans h.2⟩)
      (fun db id role userId => ⟨hfill db id role userId, rfl⟩) resolver batchSize db
    rw [hcycle.1, ih, Db.told, Db.told, hcycle.2]

end Told

section Messages

variable {ext : Externals} {now : Timestamp} {m : Message} {e : EventRow}

lemma handleArgs_row {now' : Timestamp} (h : IsRowOf ext (now, m) e) (queueName : String) :
    (e.message id queueName).handleArgs ext now' =
      (m.handleArgs ext now).map fun args => { args with queueName := queueName } := by
  obtain ⟨event, hparse, rfl⟩ := h
  rw [Message.handleArgs, parse_row_message now' hparse rfl queueName, Message.handleArgs, hparse]
  dsimp only
  rcases ParticipantExtractor.extract ext event.payload with e | ⟨organizer, client⟩
  · rfl
  · rfl

lemma sentFact_row {now' : Timestamp} (h : IsRowOf ext (now, m) e) (queueName : String) :
    (e.message id queueName).sentFact ext now' = m.sentFact ext now := by
  rw [Message.sentFact, handleArgs_row h, Message.sentFact]
  cases m.handleArgs ext now <;> rfl

lemma linkChange_row {now' : Timestamp} (h : IsRowOf ext (now, m) e) (queueName : String) :
    (e.message id queueName).linkChange ext now' = m.linkChange ext now := by
  rw [Message.linkChange, handleArgs_row h, Message.linkChange]
  cases m.handleArgs ext now <;> rfl

/-- What a message says of an e-mail job is kept in its row. -/
lemma emailStep_row (jobId : String) {entry : Timestamp × Message} (h : IsRowOf ext entry e) :
    emailStep ext jobId (0, e.message id "") = emailStep ext jobId entry := by
  obtain ⟨now, m⟩ := entry
  have hsent := @sentFact_row ext now m e 0 h ""
  obtain ⟨event, hparse, rfl⟩ := h
  obtain ⟨hbooking, htype, hpayload⟩ := EventParser.parse_filed ext hparse
  have hempty : EventParser.orEmpty ((EventRepository.row event).message id "").payload =
      EventParser.orEmpty m.payload := by
    change EventParser.orEmpty event.payload = _
    rw [hpayload, orEmpty_orEmpty]
  have hjob : ((EventRepository.row event).message id "").emailJobId? = m.emailJobId? := by
    rw [Message.emailJobId?, hempty, Message.emailJobId?, ← htype]
    rfl
  have hreport : ((EventRepository.row event).message id "").statusReport ext = m.statusReport ext := by
    rw [Message.statusReport, hempty, Message.statusReport, ← htype,
      ← (EventParser.parse_keys ext hparse).1]
    rfl
  have hbooking' : ((EventRepository.row event).message id "").bookingId = m.bookingId := hbooking
  funext cell
  rw [emailStep, emailStep, hjob, hreport, hsent, hbooking']

end Messages

section EmailJobs

variable (ext : Externals) (jobId : String)

/-- The sent fact of a job that an entry carries. -/
def sentFactOf (entry : Timestamp × Message) : Option SentFact :=
  (entry.2.sentFact ext entry.1).filter fun f => f.jobId == jobId

/-- The sent facts of a job in the order of arrival. -/
def sentFacts (ms : Journal) : List SentFact := ms.filterMap (sentFactOf ext jobId)

/-- The entries that say something of a job. -/
def mentions (ms : Journal) : Journal :=
  ms.filter fun entry =>
    (reportOf ext jobId entry.2).isSome || (sentFactOf ext jobId entry).isSome

/-- The columns that a sent fact sets. -/
structure ShownSent where
  triggerEvent : Option String
  eventId : Option String
  sentAt : Option Timestamp
  deriving DecidableEq

variable {ext jobId} {ms : Journal} {entry : Timestamp × Message} {f : SentFact} {r : StatusReport}

def SentFact.shown (f : SentFact) : ShownSent := ⟨f.triggerEvent, some f.eventId, some f.sentAt⟩

def EmailNotification.shownSent (n : EmailNotification) : ShownSent :=
  ⟨n.triggerEvent, n.sentEventId, n.sentAt⟩

lemma sentFact_keys (h : entry.2.sentFact ext entry.1 = some f) :
    entry.2.eventType = EventType.notificationEmailSent.value ∧
      entry.2.emailJobId? = some f.jobId := by
  obtain ⟨args, hargs, hf⟩ := Option.bind_eq_some_iff.mp h
  obtain ⟨_, htype, hpayload⟩ := EventParser.parse_filed ext (handleArgs_event hargs)
  unfold HandleArgs.sentFact at hf
  split at hf
  next hsent =>
    dsimp only at hf
    split at hf
    next jobId hjob =>
      cases hf
      refine ⟨htype ▸ hsent, ?_⟩
      rw [Message.emailJobId?, emailJobIdOf, if_pos (htype ▸ hsent), ← hpayload]
      exact congrArg (Option.bind · Json.str?) hjob
    next => cases hf
  next => cases hf

variable (ext jobId) in
/-- A message reports a status of a job, carries its sent fact, or says nothing of it. -/
lemma emailStep_cases (entry : Timestamp × Message) (cell : Option EmailCell) :
    (∃ r, reportOf ext jobId entry.2 = some r ∧ sentFactOf ext jobId entry = none ∧
        emailStep ext jobId entry cell = some (r.record (entry.2.bookingId.getD "") cell)) ∨
      (∃ f, reportOf ext jobId entry.2 = none ∧ sentFactOf ext jobId entry = some f ∧
        emailStep ext jobId entry cell = some (f.record (entry.2.bookingId.getD "") cell)) ∨
      reportOf ext jobId entry.2 = none ∧ sentFactOf ext jobId entry = none ∧
        emailStep ext jobId entry cell = cell := by
  cases hsent : sentFactOf ext jobId entry with
  | some f =>
    obtain ⟨hf, hjob⟩ := Option.filter_eq_some_iff.mp hsent
    obtain rfl := beq_iff_eq.mp hjob
    obtain ⟨htype, hjob⟩ := sentFact_keys hf
    have hnone : entry.2.statusReport ext = none := statusReport_of_sent htype
    refine .inr (.inl ⟨f, ?_, rfl, ?_⟩)
    · rw [reportOf, hnone]
      rfl
    · rw [emailStep, if_pos hjob, hnone, hf]
  | none =>
    cases hreport : reportOf ext jobId entry.2 with
    | some r => exact .inl ⟨r, rfl, rfl, emailStep_of_report hreport cell⟩
    | none =>
      refine .inr (.inr ⟨rfl, rfl, ?_⟩)
      rw [emailStep]
      split
      next hjob =>
        split
        next r _ hr =>
          have hjob' := (statusReport_keys hr).1.symm.trans hjob
          rw [reportOf_eq_some.mpr ⟨hr, Option.some.inj hjob'⟩] at hreport
          cases hreport
        next f _ hf =>
          have hjob' := (sentFact_keys hf).2.symm.trans hjob
          rw [sentFactOf, hf, Option.filter_some,
            if_pos (beq_iff_eq.mpr (Option.some.inj hjob'))] at hsent
          cases hsent
        next => rfl
      next => rfl

/-- The sent columns of a job after a series of messages: those of the last sent fact. -/
lemma shownSent_foldl (ms : Journal) :
    (ms.foldl (fun cell entry => emailStep ext jobId entry cell) none).elim ⟨none, none, none⟩
        (·.notification.shownSent) =
      (sentFacts ext jobId ms).getLast?.elim ⟨none, none, none⟩ SentFact.shown := by
  induction ms using List.reverseRecOn with
  | nil => rfl
  | append_singleton rest entry ih =>
    rw [List.foldl_concat, sentFacts, List.filterMap_append, List.filterMap_cons, List.filterMap_nil]
    rcases emailStep_cases ext jobId entry
      (rest.foldl (fun cell entry => emailStep ext jobId entry cell) none) with
      ⟨r, _, hsent, hcell⟩ | ⟨f, _, hsent, hcell⟩ | ⟨_, hsent, hcell⟩
    · rw [hcell, hsent]
      dsimp only
      rw [List.append_nil]
      refine Eq.trans ?_ ih
      cases rest.foldl (fun cell entry => emailStep ext jobId entry cell) none <;> rfl
    · rw [hcell, hsent]
      dsimp only
      rw [List.getLast?_concat]
      cases rest.foldl (fun cell entry => emailStep ext jobId entry cell) none <;> rfl
    · rw [hcell, hsent]
      dsimp only
      rw [List.append_nil]
      exact ih

/-- A job has a row as soon as a message mentions it, under the booking of the last one. -/
lemma bookingUid_mentions (ms : Journal) :
    (ms.foldl (fun cell entry => emailStep ext jobId entry cell) none).map (·.bookingUid) =
      (mentions ext jobId ms).getLast?.map fun entry => some (entry.2.bookingId.getD "") := by
  induction ms using List.reverseRecOn with
  | nil => rfl
  | append_singleton rest entry ih =>
    rw [List.foldl_concat, mentions, List.filter_append, List.filter_singleton]
    rcases emailStep_cases ext jobId entry
      (rest.foldl (fun cell entry => emailStep ext jobId entry cell) none) with
      ⟨r, hreport, _, hcell⟩ | ⟨f, _, hsent, hcell⟩ | ⟨hreport, hsent, hcell⟩
    · rw [hcell, hreport, Option.isSome_some, Bool.true_or, cond_true, List.getLast?_concat]
      cases rest.foldl (fun cell entry => emailStep ext jobId entry cell) none <;> rfl
    · rw [hcell, hsent, Option.isSome_some, Bool.or_true, cond_true, List.getLast?_concat]
      cases rest.foldl (fun cell entry => emailStep ext jobId entry cell) none <;> rfl
    · rw [hcell, hreport, hsent]
      simp only [Option.isSome_none, Bool.or_self, cond_false, List.append_nil]
      exact ih

/-- The backfill does not concern e-mail jobs. -/
lemma emailCellOf_fillSlot (db : Db) (id : Nat) (role : RecipientRole) (userId : Uuid)
    (jobId : String) :
    { db with
      tables.bookings := fillSlot id role userId db.tables.bookings }.emailCellOf jobId =
      db.emailCellOf jobId := by
  have huid (ref : Nat) : bookingUidOf { db.tables with
      bookings := fillSlot id role userId db.tables.bookings } ref = bookingUidOf db.tables ref := by
    rw [bookingUidOf, bookingUidOf, fillSlot,
      find?_updateWhere fun b => by simp, Option.map_map]
    congr 1
    funext b
    rw [Function.comp_apply]
    split
    · exact b.toBooking.setUserId_bookingUid role userId
    · rfl
  have hcell (n : EmailNotificationRow) : EventSaver.emailCellOf { db.tables with
      bookings := fillSlot id role userId db.tables.bookings } n =
      EventSaver.emailCellOf db.tables n := by
    rw [EventSaver.emailCellOf, huid]
    rfl
  exact congrArg (Option.map · _) (funext hcell)

/-- In every reachable state the row of an e-mail job and its history are what the stored events
say of the job: the history lists the statuses with a text in the order in which they were stored,
the row shows the status and the sent fact that were stored last, and it belongs to the booking of
the event stored last that mentions the job. -/
theorem emailRows_told {db : Db} (h : db.Reachable ext) (jobId : String) :
    (db.emailCellOf jobId).elim [] (·.statusHistory) =
        (reports ext jobId db.told).filterMap StatusReport.historyRow ∧
      (db.emailCellOf jobId).elim ⟨none, none, none⟩ (·.notification.shown) =
        (reports ext jobId db.told).getLast?.elim ⟨none, none, none⟩ StatusReport.shown ∧
      (db.emailCellOf jobId).elim ⟨none, none, none⟩ (·.notification.shownSent) =
        (sentFacts ext jobId db.told).getLast?.elim ⟨none, none, none⟩ SentFact.shown ∧
      (db.emailCellOf jobId).map (·.bookingUid) =
        (mentions ext jobId db.told).getLast?.map fun entry => some (entry.2.bookingId.getD "") := by
  have htold : db.emailCellOf jobId =
      db.told.foldl (fun cell entry => emailStep ext jobId entry cell) none := by
    refine Db.Reachable.eq_foldl_told (fun db => db.emailCellOf jobId) (emailStep ext jobId)
      (fun db db' hsame => ?_) (fun db id role userId => ?_)
      (fun entry e hrow => emailStep_row jobId hrow) (fun db hwf now m uid hm hstored => ?_)
      (fun db hwf now m hm _ => ?_) h
    · rw [Db.emailCellOf, hsame, Db.emailCellOf]
    · exact emailCellOf_fillSlot db id role userId jobId
    · exact @emailCellOf_saveAll ext jobId [(now, m)] db hwf ⟨hstored, trivial⟩
        (List.forall_mem_singleton.mpr fun _ => ⟨uid, hm⟩)
    · rw [Db.emailCellOf, content_saveEvent hwf, Ledger.email_save_unfiled hm]
      rfl
  rw [htold]
  exact ⟨statusHistory_foldl ext jobId db.told none, shown_foldl ext jobId db.told none,
    shownSent_foldl db.told, bookingUid_mentions db.told⟩

end EmailJobs

/-- The sent fact of a job, its delivery and its opening, the first of which fails at first. -/
theorem emailRows_told_opened :
    ∃ db : Db, db.Reachable .dated ∧ ∃ cell, db.emailCellOf "j" = some cell ∧
      cell.statusHistory.map (·.status) = ["delivered", "opened"] ∧
      cell.notification.shown.status = some "opened" ∧
      cell.notification.shownSent.eventId = some "sent" ∧ cell.bookingUid = some "b" := by
  have hfailed : ((saveEventUnder .dated (.before 3 .osError) 0 sentMessage.2 .empty).2).Reachable
      .dated := .save .empty _ _ _
  have hdb := ((hfailed.save .none 0 sentMessage.2).save .none 0 deliveredThenOpened[1].2).save
    .none 0 deliveredThenOpened[2].2
  obtain ⟨hhistory, hshown, hsent, hbooking⟩ := emailRows_told hdb "j"
  refine ⟨_, hdb, ?_⟩
  generalize Db.emailCellOf _ _ = cell at hhistory hshown hsent hbooking ⊢
  cases cell with
  | none => cases hbooking
  | some cell =>
    exact ⟨cell, rfl, congrArg (List.map EmailStatus.status) hhistory,
      congrArg ShownStatus.status hshown, congrArg ShownSent.eventId hsent,
      Option.some.inj hbooking⟩

section MeetingLinks

variable (ext : Externals) (uid : String) (user : Uuid)

/-- The effect of a processed message on the link of a user in a booking. -/
def linkStep (entry : Timestamp × Message) (links : List MeetingLink) : List MeetingLink :=
  if entry.2.bookingId = some uid then
    ((entry.2.linkChange ext entry.1).filter fun c => c.userId == user).elim links
      fun c => c.replace links
  else links

variable {ext uid user} {db db' : Db} {now : Timestamp} {m : Message}

/-- The links depend on the ids of the bookings, not on what else is known of them. -/
lemma linksOf_congr (hlinks : db'.tables.meetingLinks = db.tables.meetingLinks)
    (hids : (findBooking uid db'.tables.bookings).map (·.id) =
      (findBooking uid db.tables.bookings).map (·.id)) :
    db'.linksOf uid user = db.linksOf uid user := by
  have hlinksOf (db : Db) : db.linksOf uid user =
      ((findBooking uid db.tables.bookings).map (·.id)).elim []
        fun id => (rowsOf id db.tables.meetingLinks).filter fun l => l.userId == user := by
    rw [Db.linksOf]
    cases findBooking uid db.tables.bookings <;> rfl
  rw [hlinksOf, hlinksOf, hids, hlinks]

lemma findBooking_updateWhere_id (p : BookingRow → Bool) (role : RecipientRole) (u : Uuid)
    (bookings : List BookingRow) :
    (findBooking uid (updateWhere p (fun b => b.update (·.setUserId role u)) bookings)).map (·.id) =
      (findBooking uid bookings).map (·.id) := by
  rw [findBooking, find?_updateWhere fun b => by simp, Option.map_map]
  congr 1
  funext b
  rw [Function.comp_apply]
  split <;> rfl

/-- A message that is not filed under a booking leaves all links alone. -/
lemma linksOf_unfiled (hm : ∀ uid, ¬ m.FiledUnder uid)
    (hstored : saveOutcome ext now m db = .stored) :
    (saveEvent ext now m db).2.linksOf uid user = db.linksOf uid user := by
  obtain ⟨event, hparse, hingest⟩ := bind_eq_ok.mp (effect_of_stored hstored)
  obtain ⟨hbooking, htype, _⟩ := EventParser.parse_filed ext hparse
  generalize (saveEvent ext now m db).2 = after at hingest ⊢
  unfold ingestEffect at hingest
  split at hingest
  · rw [Except.ok.inj hingest]
  · unfold processEffect at hingest
    split at hingest
    · obtain ⟨request, _, hbackfill⟩ := bind_eq_ok.mp hingest
      rw [← Except.ok.inj hbackfill]
      rcases request with _ | ⟨role, _ | email, userId⟩
      · rfl
      · rfl
      · exact linksOf_congr rfl (findBooking_updateWhere_id _ role userId _)
    next hsynced =>
      split at hingest
      · rw [← Except.ok.inj hingest]
        rfl
      next uid' huid =>
        split at hingest
        · rw [← Except.ok.inj hingest]
          rfl
        next hempty => exact absurd ⟨hbooking ▸ huid, hempty, htype ▸ hsynced⟩ (hm uid')

/-- A message filed under a booking does its step, on the links of that booking. -/
lemma linksOf_filed (hwf : db.WellFormed) {uid' : String} (hm : m.FiledUnder uid')
    (hstored : saveOutcome ext now m db = .stored) :
    (saveEvent ext now m db).2.linksOf uid user =
      linkStep ext uid user (now, m) (db.linksOf uid user) := by
  by_cases huid : uid = uid'
  · subst huid
    rw [linkStep, if_pos hm.bookingId]
    exact linksOf_stored hwf hm hstored user
  · obtain ⟨args, writes, hhandled⟩ := handled_of_stored hwf hm hstored
    have hne : ¬ m.bookingId = some uid := by
      rw [hm.bookingId]
      exact fun heq => huid (Option.some.inj heq).symm
    rw [linkStep, if_neg hne, linksOf_eq, linksOf_eq, hhandled.otherBookings uid huid]

lemma linkStep_row {entry : Timestamp × Message} {e : EventRow} (h : IsRowOf ext entry e) :
    linkStep ext uid user (0, e.message id "") = linkStep ext uid user entry := by
  obtain ⟨now, m⟩ := entry
  have hchange := @linkChange_row ext now m e 0 h ""
  obtain ⟨event, hparse, rfl⟩ := h
  have hbooking : ((EventRepository.row event).message id "").bookingId = m.bookingId :=
    (EventParser.parse_filed ext hparse).1
  funext links
  rw [linkStep, linkStep, hchange, hbooking]

/-- In every reachable state the meeting link of a user in a booking is what the change stored last
has left. -/
theorem meetingLinks_told (h : db.Reachable ext) (uid : String) (user : Uuid) :
    db.linksOf uid user =
      (linkChanges ext user
        (db.told.filter fun entry => entry.2.bookingId == some uid)).getLast?.elim []
        fun c => c.row.toList := by
  have htold : db.linksOf uid user =
      db.told.foldl (fun links entry => linkStep ext uid user entry links) [] :=
    Db.Reachable.eq_foldl_told (fun db => db.linksOf uid user) (linkStep ext uid user)
      (fun db db' hsame => linksOf_congr (by rw [hsame]) (by rw [hsame]))
      (fun db id role userId => linksOf_congr rfl (findBooking_updateWhere_id _ role userId _))
      (fun entry e hrow => linkStep_row hrow)
      (fun db hwf now m uid' hm hstored => linksOf_filed hwf hm hstored)
      (fun db hwf now m hm hstored => linksOf_unfiled hm hstored) h
  rw [htold, ← foldl_replace, linkChanges, List.foldl_filterMap, List.foldl_filter]
  congr 1
  funext links entry
  rw [linkStep]
  simp only [beq_iff_eq]
  split
  · cases (entry.2.linkChange ext entry.1).filter fun c => c.userId == user <;> rfl
  · rfl

end MeetingLinks

/-- The deletion of a link that the creation it follows overtakes. -/
theorem meetingLinks_told_overtaken :
    ∃ db : Db, db.Reachable .sample ∧ (db.linksOf "b" ⟨11⟩).map (·.sourceEventId) = ["1"] := by
  have hempty : Db.empty.Reachable .sample := .empty
  have hdb := (hempty.save .none 0 (linkMessage "2" .meetingUrlDeleted 2).2).save .none 0
    (linkMessage "1" .meetingUrlCreated 1).2
  refine ⟨_, hdb, ?_⟩
  rw [meetingLinks_told hdb "b" ⟨11⟩]
  rfl

end EventSaver
