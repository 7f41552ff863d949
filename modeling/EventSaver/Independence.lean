import EventSaver.SameContent

/-!
# Events of different bookings

Saving messages of two bookings commutes up to the numbering of ids, and saving a message leaves
every row of another booking alone.
-/

namespace EventSaver
open JsonData TableData EffectProgram

/-- How a save ends: the event was new, it was known, or an exception was raised. -/
inductive Outcome where
  | stored
  | duplicate
  | error (e : Exc)
  deriving DecidableEq

def saveOutcome (ext : Externals) (now : Timestamp) (m : Message) (db : Db) : Outcome :=
  match (saveEvent ext now m db).1 with
  | .error e => .error e
  | .ok _ =>
    if ((IngestEvent.execute ext now m).trace (SqlExecutor.execute ext) db).any reportsNew then
      .stored
    else .duplicate

/-- A message filed under a booking. -/
structure Message.FiledUnder (m : Message) (bookingUid : String) : Prop where
  bookingId : m.bookingId = some bookingUid
  nonempty : bookingUid ≠ ""
  notSynced : m.eventType ≠ EventType.userSynced.value

namespace Ledger

/-- Every event is kept under its id. -/
def Keyed (L : Ledger) : Prop := ∀ id e, L.event id = some e → e.eventId = id

/-- The ledger after a message has been saved or refused. -/
noncomputable def save (ext : Externals) (now : Timestamp) (m : Message) (L : Ledger) : Ledger :=
  match L.record ext now m with
  | .ok L' => L'
  | .error _ => L

variable (ext : Externals)

open Classical in
/-- What a message filed under a booking makes the ledger do: nothing, or to store the event and
do some work for the booking. -/
noncomputable def decision (now : Timestamp) (m : Message) (uid : String) (L : Ledger) :
    Except Exc (Option (ParsedEvent × BookingWork)) := do
  let event ← EventParser.parse ext now m
  if L.Conflicts (EventRepository.row event) then return none
  let work ← plan ext m.queueName event uid (L.known m.queueName uid) 0
  return some (event, work)

def carryOut (uid : String) (d : Except Exc (Option (ParsedEvent × BookingWork))) (L : Ledger) :
    Ledger :=
  match d with
  | .ok (some (event, work)) => (L.insertEvent (EventRepository.row event)).work uid work
  | _ => L

def decisionOutcome : Except Exc (Option (ParsedEvent × BookingWork)) → Outcome
  | .error e => .error e
  | .ok none => .duplicate
  | .ok (some _) => .stored

end Ledger

section Decisions

variable {ext : Externals} {now : Timestamp} {m : Message} {uid : String} {L : Ledger}

lemma Ledger.record_eq (hm : m.FiledUnder uid) :
    L.record ext now m = (L.decision ext now m uid).map fun d => Ledger.carryOut uid (.ok d) L := by
  unfold Ledger.record Ledger.decision
  cases hparse : EventParser.parse ext now m with
  | error e => rfl
  | ok event =>
    obtain ⟨hbooking, htype, _⟩ := EventParser.parse_filed ext hparse
    simp only [ok_bind]
    unfold Ledger.ingest
    by_cases hc : L.Conflicts (EventRepository.row event)
    · rw [if_pos hc, if_pos hc]
      rfl
    · rw [if_neg hc, if_neg hc]
      unfold Ledger.process
      rw [if_neg (htype ▸ hm.notSynced), hbooking, hm.bookingId]
      simp only [if_neg hm.nonempty]
      change (plan ext m.queueName event uid (L.known m.queueName uid) 0).map _ = _
      cases plan ext m.queueName event uid (L.known m.queueName uid) 0 <;> rfl

lemma Ledger.save_eq (hm : m.FiledUnder uid) :
    L.save ext now m = Ledger.carryOut uid (L.decision ext now m uid) L := by
  rw [Ledger.save, Ledger.record_eq hm]
  rcases L.decision ext now m uid with e | _ | ⟨event, work⟩ <;> rfl

variable {db : Db}

lemma content_keyed : (content db.tables).Keyed := by
  intro id e he
  simpa using List.find?_some he

/-- Saving a message does to the ledger what it should, also when it is refused. -/
theorem content_saveEvent (h : db.WellFormed) :
    content (saveEvent ext now m db).2.tables = (content db.tables).save ext now m := by
  have hrecord := @content_saveEffect ext db h now m
  rw [Ledger.save, ← hrecord]
  cases heffect : saveEffect ext now m db with
  | ok db' =>
    rw [saveEvent_ok ext heffect]
    rfl
  | error e =>
    obtain ⟨reached, hsave, _⟩ := saveEvent_error ext heffect
    rw [hsave]
    rfl

lemma isDuplicate_eq (h : db.WellFormed) (event : ParsedEvent) [Decidable
    ((content db.tables).Conflicts (EventRepository.row event))] :
    isDuplicate event db = decide ((content db.tables).Conflicts (EventRepository.row event)) := by
  rw [Bool.eq_iff_iff, decide_eq_true_iff]
  exact (content_conflicts h).symm

/-- The outcome of a save is read off the ledger. -/
theorem saveOutcome_eq (h : db.WellFormed) (hm : m.FiledUnder uid) :
    saveOutcome ext now m db =
      Ledger.decisionOutcome ((content db.tables).decision ext now m uid) := by
  classical
  have hrecord := @content_saveEffect ext db h now m
  rw [Ledger.record_eq hm] at hrecord
  cases heffect : saveEffect ext now m db with
  | error e =>
    obtain ⟨reached, hsave, _⟩ := saveEvent_error ext heffect
    rw [heffect] at hrecord
    rw [saveOutcome, hsave]
    rcases hdec : (content db.tables).decision ext now m uid with e' | d
    · rw [hdec] at hrecord
      cases hrecord
      rfl
    · rw [hdec] at hrecord
      cases hrecord
  | ok db' =>
    obtain ⟨event, hparse, _⟩ := bind_eq_ok.mp heffect
    rw [saveOutcome, saveEvent_ok ext heffect, trace_execute ext hparse, isDuplicate_eq h event]
    rw [heffect] at hrecord
    unfold Ledger.decision at hrecord ⊢
    rw [hparse] at hrecord ⊢
    simp only [ok_bind] at hrecord ⊢
    by_cases hc : (content db.tables).Conflicts (EventRepository.row event)
    · rw [if_pos hc, decide_eq_true hc]
      rfl
    · rw [if_neg hc] at hrecord ⊢
      rw [decide_eq_false hc]
      cases hplan : plan ext m.queueName event uid ((content db.tables).known m.queueName uid) 0 with
      | error e =>
        rw [hplan] at hrecord
        cases hrecord
      | ok work => rfl

end Decisions

/-- Messages of two bookings with no key and no e-mail job in common. -/
structure Message.Apart (m₁ m₂ : Message) (uid₁ uid₂ : String) : Prop where
  filed₁ : m₁.FiledUnder uid₁
  filed₂ : m₂.FiledUnder uid₂
  bookings : uid₁ ≠ uid₂
  keys : ¬ m₁.SharesKey m₂
  jobs : ∀ jobId, m₁.emailJobId? = some jobId → m₂.emailJobId? ≠ some jobId

lemma Message.Apart.symm {m₁ m₂ : Message} {uid₁ uid₂ : String} (h : m₁.Apart m₂ uid₁ uid₂) :
    m₂.Apart m₁ uid₂ uid₁ where
  filed₁ := h.filed₂
  filed₂ := h.filed₁
  bookings := h.bookings.symm
  keys := by
    rintro (hid | ⟨hsome, hkey⟩)
    · exact h.keys (.inl hid.symm)
    · exact h.keys (.inr ⟨hkey ▸ hsome, hkey.symm⟩)
  jobs jobId h₂ h₁ := h.jobs jobId h₁ h₂

section Commuting

variable {ext : Externals} {now₁ now₂ : Timestamp} {m₁ m₂ : Message} {uid₁ uid₂ : String}
  {L : Ledger}

lemma Ledger.decision_eq_some {event : ParsedEvent} {work : BookingWork}
    (h : L.decision ext now₁ m₁ uid₁ = .ok (some (event, work))) :
    EventParser.parse ext now₁ m₁ = .ok event ∧ ¬ L.Conflicts (EventRepository.row event) ∧
      plan ext m₁.queueName event uid₁ (L.known m₁.queueName uid₁) 0 = .ok work := by
  unfold Ledger.decision at h
  obtain ⟨event', hparse, h⟩ := bind_eq_ok.mp h
  split at h
  · cases h
  next hc =>
    obtain ⟨work', hplan, h⟩ := bind_eq_ok.mp h
    cases h
    exact ⟨hparse, hc, hplan⟩

lemma row_not_conflicts {event₁ event₂ : ParsedEvent} (h : m₁.Apart m₂ uid₁ uid₂)
    (h₁ : EventParser.parse ext now₁ m₁ = .ok event₁)
    (h₂ : EventParser.parse ext now₂ m₂ = .ok event₂) :
    (EventRepository.row event₁).conflicts (EventRepository.row event₂) = false := by
  obtain ⟨hid₁, hkey₁⟩ := EventParser.parse_keys ext h₁
  obtain ⟨hid₂, hkey₂⟩ := EventParser.parse_keys ext h₂
  rw [Bool.eq_false_iff]
  intro hc
  apply h.symm.keys
  simp only [EventRow.conflicts, EventRepository.row, hid₁, hid₂, hkey₁, hkey₂, Bool.or_eq_true,
    Bool.and_eq_true, beq_iff_eq] at hc
  rcases hc with hid | ⟨hsome, hkey⟩
  · exact .inl hid
  · exact .inr ⟨hkey ▸ hsome, hkey⟩

variable (now₂) in
/-- Saving the other message makes no conflict and takes none away. -/
lemma Ledger.conflicts_carryOut (hL : L.Keyed) (h : m₁.Apart m₂ uid₁ uid₂) {event₁ : ParsedEvent}
    (h₁ : EventParser.parse ext now₁ m₁ = .ok event₁) :
    (Ledger.carryOut uid₂ (L.decision ext now₂ m₂ uid₂) L).Conflicts
      (EventRepository.row event₁) ↔ L.Conflicts (EventRepository.row event₁) := by
  rcases hdec : L.decision ext now₂ m₂ uid₂ with e | _ | ⟨event₂, work₂⟩
  · rfl
  · rfl
  · obtain ⟨h₂, hnew, _⟩ := Ledger.decision_eq_some hdec
    simp only [Ledger.carryOut, Ledger.Conflicts, Ledger.work, Ledger.insertEvent]
    constructor
    · rintro ⟨id, other, hid, hc⟩
      by_cases heq : id = event₂.eventId
      · subst heq
        rw [EventRepository.row, Function.update_self] at hid
        cases hid
        exact absurd hc (by rw [← EventRepository.row, row_not_conflicts h h₁ h₂]; simp)
      · rw [EventRepository.row, Function.update_of_ne heq] at hid
        exact ⟨id, other, hid, hc⟩
    · rintro ⟨id, other, hid, hc⟩
      refine ⟨id, other, ?_, hc⟩
      have hne : id ≠ event₂.eventId := by
        rintro rfl
        refine hnew ⟨_, other, hid, ?_⟩
        simp [EventRow.conflicts, EventRepository.row, hL _ _ hid]
      rw [EventRepository.row, Function.update_of_ne hne]
      exact hid

/-- What a message makes the ledger do does not depend on whether the other came first. -/
lemma Ledger.decision_carryOut (hL : L.Keyed) (h : m₁.Apart m₂ uid₁ uid₂) :
    (Ledger.carryOut uid₂ (L.decision ext now₂ m₂ uid₂) L).decision ext now₁ m₁ uid₁ =
      L.decision ext now₁ m₁ uid₁ := by
  have hknown : (Ledger.carryOut uid₂ (L.decision ext now₂ m₂ uid₂) L).known m₁.queueName uid₁ =
      L.known m₁.queueName uid₁ := by
    rcases L.decision ext now₂ m₂ uid₂ with e | _ | ⟨event₂, work₂⟩
    · rfl
    · rfl
    · simp only [Ledger.known, Ledger.carryOut, Ledger.work, Ledger.insertEvent,
        Function.update_of_ne h.bookings]
  unfold Ledger.decision
  cases h₁ : EventParser.parse ext now₁ m₁ with
  | error e => rfl
  | ok event₁ =>
    simp only [ok_bind]
    have hconflicts := Ledger.conflicts_carryOut now₂ hL h h₁
    unfold Ledger.decision at hconflicts hknown
    by_cases hc : L.Conflicts (EventRepository.row event₁)
    · rw [if_pos hc, if_pos (hconflicts.mpr hc)]
    · rw [if_neg hc, if_neg (fun hc' => hc (hconflicts.mp hc')), hknown]

/-- The work for an event leaves the e-mail jobs of other events alone. -/
lemma BookingWork.onEmail_other {queueName uid uid' jobId : String} {event : ParsedEvent}
    {known : Bool} {work : BookingWork} (hplan : plan ext queueName event uid known 0 = .ok work)
    (hjob : event.emailJobId? ≠ some jobId) (cell : Option EmailCell) :
    work.onEmail uid' jobId cell = cell := by
  have hws := plan_writes ext hplan
  unfold BookingWork.onEmail
  generalize work.writes = ws at hws
  induction ws generalizing cell with
  | nil => rfl
  | cons w rest ih =>
    rw [List.forall_mem_cons] at hws
    rw [List.foldl_cons, if_neg fun hj => hjob (hws.1.2 jobId hj)]
    exact ih cell hws.2

/-- What two messages make the ledger do commutes. -/
lemma Ledger.carryOut_comm (h : m₁.Apart m₂ uid₁ uid₂) :
    Ledger.carryOut uid₁ (L.decision ext now₁ m₁ uid₁)
        (Ledger.carryOut uid₂ (L.decision ext now₂ m₂ uid₂) L) =
      Ledger.carryOut uid₂ (L.decision ext now₂ m₂ uid₂)
        (Ledger.carryOut uid₁ (L.decision ext now₁ m₁ uid₁) L) := by
  rcases hdec₁ : L.decision ext now₁ m₁ uid₁ with e | _ | ⟨event₁, work₁⟩
  · rfl
  · rfl
  · rcases hdec₂ : L.decision ext now₂ m₂ uid₂ with e | _ | ⟨event₂, work₂⟩
    · rfl
    · rfl
    · obtain ⟨h₁, _, hplan₁⟩ := Ledger.decision_eq_some hdec₁
      obtain ⟨h₂, _, hplan₂⟩ := Ledger.decision_eq_some hdec₂
      have hids : event₁.eventId ≠ event₂.eventId := by
        intro heq
        apply h.keys
        rw [(EventParser.parse_keys ext h₁).1, (EventParser.parse_keys ext h₂).1] at heq
        exact .inl heq
      ext1
      · exact Function.update_comm hids.symm _ _ _
      · simp only [Ledger.carryOut, Ledger.work, Ledger.insertEvent,
          Function.update_of_ne h.bookings, Function.update_of_ne h.bookings.symm]
        exact Function.update_comm h.bookings.symm _ _ _
      · funext jobId
        simp only [Ledger.carryOut, Ledger.work, Ledger.insertEvent]
        by_cases hjob : event₁.emailJobId? = some jobId
        · have hjob' : event₂.emailJobId? ≠ some jobId := by
            obtain ⟨_, ht₁, hp₁⟩ := EventParser.parse_filed ext h₁
            obtain ⟨_, ht₂, hp₂⟩ := EventParser.parse_filed ext h₂
            rw [ParsedEvent.emailJobId?, ht₁, hp₁] at hjob
            rw [ParsedEvent.emailJobId?, ht₂, hp₂]
            exact h.jobs jobId hjob
          rw [BookingWork.onEmail_other hplan₂ hjob', BookingWork.onEmail_other hplan₂ hjob']
        · rw [BookingWork.onEmail_other hplan₁ hjob, BookingWork.onEmail_other hplan₁ hjob]

end Commuting

namespace Tables

/-- The ids of the rows of a booking. -/
def refsOf (uid : String) (t : Tables) : List Nat :=
  (t.bookings.filter fun b => b.bookingUid == uid).map (·.id)

def notificationRefsOf (uid : String) (t : Tables) : List Nat :=
  (t.emailNotifications.filter fun n => decide (n.bookingRefId ∈ t.refsOf uid)).map (·.id)

/-- The rows that belong to a booking, in every table. -/
def ofBooking (uid : String) (t : Tables) : Tables where
  events := t.events.filter fun e => e.bookingId == some uid
  bookings := t.bookings.filter fun b => b.bookingUid == uid
  organizerHistory := t.organizerHistory.filter fun l => decide (l.ref ∈ t.refsOf uid)
  meetingLinks := t.meetingLinks.filter fun l => decide (l.ref ∈ t.refsOf uid)
  emailNotifications :=
    t.emailNotifications.filter fun n => decide (n.bookingRefId ∈ t.refsOf uid)
  telegramNotifications := t.telegramNotifications.filter fun l => decide (l.ref ∈ t.refsOf uid)
  emailStatusHistory :=
    t.emailStatusHistory.filter fun l => decide (l.ref ∈ t.notificationRefsOf uid)
  chatEvents := t.chatEvents.filter fun l => decide (l.ref ∈ t.refsOf uid)
  videoEvents := t.videoEvents.filter fun l => decide (l.ref ∈ t.refsOf uid)
  lifecycleEvents := t.lifecycleEvents.filter fun l => decide (l.ref ∈ t.refsOf uid)

/-- No notification of the job belongs to the booking. -/
def JobApart (t : Tables) (uid : String) (jobId? : Option String) : Prop :=
  ∀ n ∈ t.emailNotifications, jobId? = some n.jobId → n.bookingRefId ∉ t.refsOf uid

/-- Changes of the bookings that keep the rows of a booking keep all its rows. -/
lemma ofBooking_withBookings {uid : String} {t : Tables} {bookings : List BookingRow}
    (h : (bookings.filter fun b => b.bookingUid == uid) =
      t.bookings.filter fun b => b.bookingUid == uid) :
    { t with bookings := bookings }.ofBooking uid = t.ofBooking uid := by
  have hrefs : { t with bookings := bookings }.refsOf uid = t.refsOf uid :=
    congrArg (List.map fun b : BookingRow => b.id) h
  unfold ofBooking notificationRefsOf
  rw [hrefs]
  exact congrArg (fun bookings => { t.ofBooking uid with bookings := bookings }) h

end Tables

section Frames

variable {db : Db} {uid eventId : String} {ref : Nat} {jobId? : Option String}

lemma ofBooking_notifications {notifications : List EmailNotificationRow}
    (h : (notifications.filter fun n => decide (n.bookingRefId ∈ db.tables.refsOf uid)) =
      db.tables.emailNotifications.filter fun n => decide (n.bookingRefId ∈ db.tables.refsOf uid)) :
    { db.tables with emailNotifications := notifications }.ofBooking uid =
      db.tables.ofBooking uid := by
  have hrefs : { db.tables with emailNotifications := notifications }.refsOf uid =
    db.tables.refsOf uid := rfl
  unfold Tables.ofBooking Tables.notificationRefsOf
  rw [hrefs]
  dsimp only
  rw [h]

lemma filter_insertLinked {α : Type} {refs : List Nat} (href : ref ∉ refs) (p : Linked α → Bool)
    (row : α) (table : List (Linked α)) :
    ((insertUnless p ⟨ref, row⟩ table).filter fun l => decide (l.ref ∈ refs)) =
      table.filter fun l => decide (l.ref ∈ refs) :=
  filter_insertUnless (decide_eq_false href)

lemma filter_upsertNotification (href : ref ∉ db.tables.refsOf uid)
    (hjob : db.tables.JobApart uid jobId?)
    (merge : EmailNotification → EmailNotification → EmailNotification) {id : Nat}
    {row : EmailNotification} (hrow : jobId? = some row.jobId) :
    ((upsertNotification merge id ref row db.tables.emailNotifications).filter fun n =>
        decide (n.bookingRefId ∈ db.tables.refsOf uid)) =
      db.tables.emailNotifications.filter fun n =>
        decide (n.bookingRefId ∈ db.tables.refsOf uid) := by
  refine filter_upsertWhere (fun n hn hp => ⟨?_, ?_⟩) ?_
  · exact decide_eq_false (hjob n hn (hrow.trans (congrArg some (beq_iff_eq.mp hp).symm)))
  · exact decide_eq_false href
  · exact decide_eq_false href

/-- A write for an event of another booking keeps the rows of a booking. -/
lemma ofBooking_write (h : db.WellFormed) {w : ProjectionWrite} (hw : w.FiledUnder eventId ref)
    (href : ref ∉ db.tables.refsOf uid) (hjob : db.tables.JobApart uid jobId?)
    (hwjob : ∀ jobId, w.jobId? = some jobId → jobId? = some jobId) :
    (w.apply db).tables.ofBooking uid = db.tables.ofBooking uid := by
  cases w with
  | upsertMeetingLink r row =>
    obtain ⟨rfl, _⟩ := hw
    have hlinks : ((upsertMeetingLink r row db.tables.meetingLinks).filter fun l =>
        decide (l.ref ∈ db.tables.refsOf uid)) =
        db.tables.meetingLinks.filter fun l => decide (l.ref ∈ db.tables.refsOf uid) := by
      refine filter_upsertWhere (fun l _ hp => ?_) (decide_eq_false href)
      rw [Bool.and_eq_true, beq_iff_eq] at hp
      exact ⟨decide_eq_false (hp.1 ▸ href), decide_eq_false (hp.1 ▸ href)⟩
    exact congrArg (fun links => { db.tables.ofBooking uid with meetingLinks := links }) hlinks
  | deleteMeetingLink r userId =>
    obtain rfl : r = ref := hw
    have hlinks : ((deleteMeetingLink r userId db.tables.meetingLinks).filter fun l =>
        decide (l.ref ∈ db.tables.refsOf uid)) =
        db.tables.meetingLinks.filter fun l => decide (l.ref ∈ db.tables.refsOf uid) := by
      rw [deleteMeetingLink, List.filter_filter]
      apply List.filter_congr
      intro l _
      by_cases hl : l.ref ∈ db.tables.refsOf uid
      · have hne : l.ref ≠ r := fun heq => href (heq ▸ hl)
        simp [hl, hne]
      · simp [hl]
    exact congrArg (fun links => { db.tables.ofBooking uid with meetingLinks := links }) hlinks
  | upsertEmailSent r row =>
    obtain ⟨rfl, _⟩ := hw
    exact ofBooking_notifications (filter_upsertNotification href hjob _ (hwjob _ rfl))
  | upsertEmailStatus r row =>
    obtain ⟨rfl, _⟩ := hw
    exact ofBooking_notifications (filter_upsertNotification href hjob _ (hwjob _ rfl))
  | insertTelegramNotification r row =>
    obtain ⟨rfl, _⟩ := hw
    exact congrArg (fun rows => { db.tables.ofBooking uid with telegramNotifications := rows })
      (filter_insertLinked href (fun t => t.row.sourceEventId == row.sourceEventId) row
        db.tables.telegramNotifications)
  | insertEmailStatusHistory jobId row =>
    have hrows : ((insertStatusHistory db.tables.emailNotifications jobId row
        db.tables.emailStatusHistory).filter fun l =>
          decide (l.ref ∈ db.tables.notificationRefsOf uid)) =
        db.tables.emailStatusHistory.filter fun l =>
          decide (l.ref ∈ db.tables.notificationRefsOf uid) := by
      unfold insertStatusHistory
      cases hfind : findNotification jobId db.tables.emailNotifications with
      | none => rfl
      | some n =>
        refine filter_insertUnless (decide_eq_false fun hmem => ?_)
        obtain ⟨n', hn', hid⟩ := List.mem_map.mp hmem
        obtain ⟨hn', hrefs⟩ := List.mem_filter.mp hn'
        have hn := List.mem_of_find?_eq_some hfind
        have heq := List.inj_on_of_nodup_map h.notificationIds hn' hn hid
        have hjobs : jobId? = some n'.jobId := by
          rw [heq, findNotification_job hfind]
          exact hwjob jobId rfl
        exact hjob n' hn' hjobs (of_decide_eq_true hrefs)
    exact congrArg (fun rows => { db.tables.ofBooking uid with emailStatusHistory := rows }) hrows
  | insertChatEvent r row =>
    obtain ⟨rfl, _⟩ := hw
    exact congrArg (fun rows => { db.tables.ofBooking uid with chatEvents := rows })
      (filter_insertLinked href (fun c => c.row.rawEventId == row.rawEventId) row
        db.tables.chatEvents)
  | updateChatRead r reader messageId time =>
    obtain rfl : r = ref := hw
    have hrows : ((updateChatRead r reader messageId time db.tables.chatEvents).filter fun l =>
        decide (l.ref ∈ db.tables.refsOf uid)) =
        db.tables.chatEvents.filter fun l => decide (l.ref ∈ db.tables.refsOf uid) := by
      refine filter_updateWhere fun l _ hp => ?_
      rw [Bool.and_eq_true, beq_iff_eq] at hp
      exact ⟨decide_eq_false (hp.1 ▸ href), decide_eq_false (hp.1 ▸ href)⟩
    exact congrArg (fun rows => { db.tables.ofBooking uid with chatEvents := rows }) hrows
  | insertVideoEvent r row =>
    obtain ⟨rfl, _⟩ := hw
    exact congrArg (fun rows => { db.tables.ofBooking uid with videoEvents := rows })
      (filter_insertLinked href (fun v => v.row.rawEventId == row.rawEventId) row
        db.tables.videoEvents)
  | insertLifecycleEvent r row =>
    obtain ⟨rfl, _⟩ := hw
    exact congrArg (fun rows => { db.tables.ofBooking uid with lifecycleEvents := rows })
      (filter_insertLinked href (fun l => l.row.rawEventId == row.rawEventId) row
        db.tables.lifecycleEvents)

lemma jobApart_write (href : ref ∉ db.tables.refsOf uid) (hjob : db.tables.JobApart uid jobId?)
    {w : ProjectionWrite} (hw : w.FiledUnder eventId ref) :
    (w.apply db).tables.JobApart uid jobId? := by
  have hrefs : (w.apply db).tables.refsOf uid = db.tables.refsOf uid := by
    rw [Tables.refsOf, w.apply_bookings, Tables.refsOf]
  unfold Tables.JobApart
  rw [hrefs]
  have hupsert (merge : EmailNotification → EmailNotification → EmailNotification) (id : Nat)
      (row : EmailNotification) :
      ∀ n ∈ upsertNotification merge id ref row db.tables.emailNotifications,
        jobId? = some n.jobId → n.bookingRefId ∉ db.tables.refsOf uid := by
    intro n hn hj
    rcases mem_upsertWhere hn with rfl | ⟨n', hn', rfl⟩
    · exact href
    · by_cases hp : (n'.jobId == row.jobId) = true
      · rw [if_pos hp]
        exact href
      · rw [if_neg hp] at hj ⊢
        exact hjob n' hn' hj
  cases w with
  | upsertEmailSent r row =>
    obtain ⟨rfl, _⟩ := hw
    exact hupsert _ _ row
  | upsertEmailStatus r row =>
    obtain ⟨rfl, _⟩ := hw
    exact hupsert _ _ row
  | upsertMeetingLink r row => exact hjob
  | deleteMeetingLink r userId => exact hjob
  | insertTelegramNotification r row => exact hjob
  | insertEmailStatusHistory jobId row => exact hjob
  | insertChatEvent r row => exact hjob
  | updateChatRead r reader messageId time => exact hjob
  | insertVideoEvent r row => exact hjob
  | insertLifecycleEvent r row => exact hjob

lemma ofBooking_writes (h : db.WellFormed) (hevent : eventId ∈ db.tables.eventIds)
    (hloc : ref ∈ db.tables.bookingIds) (href : ref ∉ db.tables.refsOf uid)
    (hjob : db.tables.JobApart uid jobId?) {ws : List ProjectionWrite}
    (hws : ∀ w ∈ ws, w.FiledUnder eventId ref ∧
      ∀ jobId, w.jobId? = some jobId → jobId? = some jobId) :
    (ws.foldl ProjectionWrite.apply db).tables.ofBooking uid = db.tables.ofBooking uid := by
  induction ws generalizing db with
  | nil => rfl
  | cons w rest ih =>
    rw [List.forall_mem_cons] at hws
    obtain ⟨⟨hw, hwjob⟩, hrest⟩ := hws
    have hevent' : eventId ∈ (w.apply db).tables.eventIds := by
      rwa [Tables.eventIds, w.apply_events]
    have hloc' : ref ∈ (w.apply db).tables.bookingIds := by
      rwa [Tables.bookingIds, w.apply_bookings]
    have href' : ref ∉ (w.apply db).tables.refsOf uid := by
      rwa [Tables.refsOf, w.apply_bookings]
    rw [List.foldl_cons, ih (h.write hw hevent hloc) hevent' hloc' href'
      (jobApart_write href hjob hw) hrest]
    exact ofBooking_write h hw href hjob hwjob

/-- The rows of another booking have other ids than the row the writes refer to. -/
lemma bookingRef_not_mem (h : db.WellFormed) {uid' : String} (hne : uid' ≠ uid) :
    bookingRef db uid' ∉ db.tables.refsOf uid := by
  intro hmem
  obtain ⟨b, hb, hid⟩ := List.mem_map.mp hmem
  obtain ⟨hb, huid⟩ := List.mem_filter.mp hb
  rw [bookingRef] at hid
  cases hfind : findBooking uid' db.tables.bookings with
  | none =>
    rw [hfind] at hid
    have hlt := h.ids_lt b.id (List.mem_map_of_mem hb)
    rw [hid] at hlt
    exact lt_irrefl _ hlt
  | some b' =>
    rw [hfind] at hid
    have heq := List.inj_on_of_nodup_map h.ids hb (List.mem_of_find?_eq_some hfind) hid
    rw [heq, findBooking_uid hfind, beq_iff_eq] at huid
    exact hne huid

section Saves

variable {ext : Externals} {now : Timestamp} {m : Message} {uid' queueName : String}
  {event : ParsedEvent}

/-- The ids of a booking are among its rows. -/
lemma refsOf_congr {t t' : Tables} (h : t'.ofBooking uid = t.ofBooking uid) :
    t'.refsOf uid = t.refsOf uid :=
  congrArg (fun t => t.bookings.map fun b => b.id) h

lemma ofBooking_applyUpsert (work : BookingWork) (hne : uid' ≠ uid)
    (hrow : ∀ row, work.upsert = some row → row.bookingUid = uid') :
    (work.applyUpsert db).tables.ofBooking uid = db.tables.ofBooking uid := by
  unfold BookingWork.applyUpsert
  cases hw : work.upsert with
  | none => rfl
  | some row =>
    have hrowne : (row.bookingUid == uid) = false := by
      rw [hrow row hw]
      exact beq_eq_false_iff_ne.mpr hne
    refine Tables.ofBooking_withBookings (filter_upsertWhere (fun b _ hb => ?_) hrowne)
    rw [beq_iff_eq] at hb
    have hbne : (b.bookingUid == uid) = false := hb ▸ hrowne
    exact ⟨hbne, hbne⟩

lemma ofBooking_applyOrganizer (work : BookingWork) (href : ref ∉ db.tables.refsOf uid) :
    (work.applyOrganizer ref db).tables.ofBooking uid = db.tables.ofBooking uid := by
  unfold BookingWork.applyOrganizer
  cases work.organizer with
  | none => rfl
  | some row =>
    have hrows : ((recordOrganizer ref row db.tables.organizerHistory).filter fun l =>
        decide (l.ref ∈ db.tables.refsOf uid)) =
        db.tables.organizerHistory.filter fun l => decide (l.ref ∈ db.tables.refsOf uid) := by
      unfold recordOrganizer
      split
      · exact filter_append_row (decide_eq_false href)
      · rfl
    exact congrArg (fun rows => { db.tables.ofBooking uid with organizerHistory := rows }) hrows

lemma ofBooking_applyClient (work : BookingWork) (href : ref ∉ db.tables.refsOf uid) :
    (work.applyClient ref db).tables.ofBooking uid = db.tables.ofBooking uid := by
  unfold BookingWork.applyClient
  cases work.newClient with
  | none => rfl
  | some u =>
    refine Tables.ofBooking_withBookings (filter_updateWhere fun b hb hid => ?_)
    have hbne : (b.bookingUid == uid) = false := by
      rw [Bool.eq_false_iff]
      intro huid
      rw [beq_iff_eq] at hid
      exact href (List.mem_map.mpr ⟨b, List.mem_filter.mpr ⟨hb, huid⟩, hid⟩)
    exact ⟨hbne, by rw [BookingRow.update_toBooking, Booking.setUserId_bookingUid, hbne]⟩

lemma beforeWrites_emailNotifications (work : BookingWork) :
    (work.applyClient ref (work.applyOrganizer ref (work.applyUpsert db))).tables.emailNotifications =
      db.tables.emailNotifications := by
  unfold BookingWork.applyClient BookingWork.applyOrganizer BookingWork.applyUpsert
  cases work.newClient <;> cases work.organizer <;> cases work.upsert <;> rfl

/-- Processing an event of another booking keeps the rows of a booking. -/
lemma ofBooking_processBooking (h : db.WellFormed) (hevent : event.eventId ∈ db.tables.eventIds)
    (hne : uid' ≠ uid) (hjob : db.tables.JobApart uid event.emailJobId?) {db' : Db}
    (he : processBookingEffect ext queueName event uid' db = .ok db') :
    db'.tables.ofBooking uid = db.tables.ofBooking uid := by
  obtain ⟨work, hplan, rfl⟩ := except_map_eq_ok.mp he
  have hloc := (located_applyUpsert hplan).mem
  have href := bookingRef_not_mem h hne
  have hrow : ∀ row, work.upsert = some row → row.bookingUid = uid' := by
    intro row hw
    obtain ⟨hknown, hnew⟩ := plan_upsert ext hplan
    cases hk : bookingKnown queueName db uid' with
    | true => rw [hknown hk] at hw; cases hw
    | false =>
      obtain ⟨row', hw', huid⟩ := hnew hk
      rw [hw'] at hw
      cases hw
      exact huid
  generalize bookingRef db uid' = ref at hplan hloc href
  have hupsert : (work.applyUpsert db).tables.ofBooking uid = db.tables.ofBooking uid :=
    ofBooking_applyUpsert work hne hrow
  have href₁ : ref ∉ (work.applyUpsert db).tables.refsOf uid := by rwa [refsOf_congr hupsert]
  have horganizer := (ofBooking_applyOrganizer work href₁).trans hupsert
  have href₂ : ref ∉ (work.applyOrganizer ref (work.applyUpsert db)).tables.refsOf uid := by
    rwa [refsOf_congr horganizer]
  have hclient := (ofBooking_applyClient work href₂).trans horganizer
  have hwf := ((h.applyUpsert work).applyOrganizer work hloc).applyClient work ref
  refine (ofBooking_writes hwf ?_ ?_ ?_ ?_ (plan_writes ext hplan)).trans hclient
  · simpa [Tables.eventIds] using hevent
  · rw [Tables.bookingIds, work.applyClient_bookingIds, work.applyOrganizer_bookings]
    exact hloc
  · rwa [refsOf_congr hclient]
  · unfold Tables.JobApart
    rw [beforeWrites_emailNotifications, refsOf_congr hclient]
    exact hjob

/-- Saving a message keeps the rows of another booking, unless the booking has a notification of
the job of the message. -/
theorem ofBooking_saveEvent (h : db.WellFormed) (hm : m.FiledUnder uid') (hne : uid' ≠ uid)
    (hjob : db.tables.JobApart uid m.emailJobId?) :
    (saveEvent ext now m db).2.tables.ofBooking uid = db.tables.ofBooking uid := by
  cases heffect : saveEffect ext now m db with
  | error e =>
    obtain ⟨reached, hsave, _⟩ := saveEvent_error ext heffect
    rw [hsave]
    rfl
  | ok db' =>
    rw [saveEvent_ok ext heffect]
    obtain ⟨event, hparse, hingest⟩ := bind_eq_ok.mp heffect
    obtain ⟨hbooking, htype, hpayload⟩ := EventParser.parse_filed ext hparse
    unfold ingestEffect at hingest
    cases hd : isDuplicate event db with
    | true =>
      rw [if_pos hd] at hingest
      cases hingest
      rfl
    | false =>
      have hinsert : (insertRow event db).tables.ofBooking uid = db.tables.ofBooking uid := by
        have hrow : ((EventRepository.row event).bookingId == some uid) = false := by
          simpa [EventRepository.row, hbooking, hm.bookingId] using hne
        exact congrArg (fun rows : List EventRow => { db.tables.ofBooking uid with events := rows })
          (filter_append_row (q := fun e : EventRow => e.bookingId == some uid) hrow)
      rw [if_neg (Bool.eq_false_iff.mp hd), processEffect, if_neg (htype ▸ hm.notSynced), hbooking,
        hm.bookingId] at hingest
      simp only [if_neg hm.nonempty] at hingest
      refine (ofBooking_processBooking (h.insertRow hd) (mem_eventIds_insertRow event db) hne ?_
        hingest).trans hinsert
      rw [ParsedEvent.emailJobId?, htype, hpayload]
      exact hjob

end Saves

end Frames

section Independence

variable {ext : Externals} {db : Db} {now₁ now₂ : Timestamp} {m₁ m₂ : Message}
  {uid₁ uid₂ : String}

lemma Db.WellFormed.saveEvent (h : db.WellFormed) (now : Timestamp) (m : Message) :
    (saveEvent ext now m db).2.WellFormed :=
  h.saveEventUnder ext .none now m

/-- Messages of two bookings have the same outcomes and the same final content in either order,
and saving one leaves the rows of the booking of the other alone. -/
theorem save_independent (hdb : db.Reachable ext) (h : m₁.Apart m₂ uid₁ uid₂)
    (hjob : db.tables.JobApart uid₂ m₁.emailJobId?) :
    saveOutcome ext now₁ m₁ (saveEvent ext now₂ m₂ db).2 = saveOutcome ext now₁ m₁ db ∧
      saveOutcome ext now₂ m₂ (saveEvent ext now₁ m₁ db).2 = saveOutcome ext now₂ m₂ db ∧
      (saveEvent ext now₂ m₂ (saveEvent ext now₁ m₁ db).2).2.tables.SameContent
        (saveEvent ext now₁ m₁ (saveEvent ext now₂ m₂ db).2).2.tables ∧
      (saveEvent ext now₁ m₁ db).2.tables.ofBooking uid₂ = db.tables.ofBooking uid₂ := by
  have hwf := hdb.wellFormed
  have hwf₁ : (saveEvent ext now₁ m₁ db).2.WellFormed := hwf.saveEvent now₁ m₁
  have hwf₂ : (saveEvent ext now₂ m₂ db).2.WellFormed := hwf.saveEvent now₂ m₂
  have hcontent₁ : content (saveEvent ext now₁ m₁ db).2.tables = Ledger.carryOut uid₁
      ((content db.tables).decision ext now₁ m₁ uid₁) (content db.tables) := by
    rw [content_saveEvent hwf, Ledger.save_eq h.filed₁]
  have hcontent₂ : content (saveEvent ext now₂ m₂ db).2.tables = Ledger.carryOut uid₂
      ((content db.tables).decision ext now₂ m₂ uid₂) (content db.tables) := by
    rw [content_saveEvent hwf, Ledger.save_eq h.filed₂]
  refine ⟨?_, ?_, ?_, ?_⟩
  · rw [saveOutcome_eq hwf₂ h.filed₁, saveOutcome_eq hwf h.filed₁, hcontent₂,
      Ledger.decision_carryOut content_keyed h]
  · rw [saveOutcome_eq hwf₁ h.filed₂, saveOutcome_eq hwf h.filed₂, hcontent₁,
      Ledger.decision_carryOut content_keyed h.symm]
  · refine sameContent_of_content_eq (hwf₁.saveEvent now₂ m₂) (hwf₂.saveEvent now₁ m₁) ?_
    rw [content_saveEvent hwf₁, content_saveEvent hwf₂, Ledger.save_eq h.filed₁,
      Ledger.save_eq h.filed₂, hcontent₁, hcontent₂, Ledger.decision_carryOut content_keyed h,
      Ledger.decision_carryOut content_keyed h.symm]
    exact (Ledger.carryOut_comm h).symm
  · exact ofBooking_saveEvent hwf h.filed₁ h.bookings hjob

/-- The cancellation of one booking and the creation of another. -/
theorem save_independent_twoBookings :
    let cancelled := Message.sample BOOKING_LIFECYCLE_SAVER_QUEUE "e" "b" .bookingCancelled 1 (.obj [])
    let created := Message.sample "events.other" "f" "c" .bookingCreated 0 (.obj [])
    (saveEvent .sample 0 created (saveEvent .sample 0 cancelled .empty).2).2.tables.SameContent
      (saveEvent .sample 0 cancelled (saveEvent .sample 0 created .empty).2).2.tables :=
  (save_independent .empty
    { filed₁ := ⟨rfl, by decide, by decide⟩
      filed₂ := ⟨rfl, by decide, by decide⟩
      bookings := by decide
      keys := by simp [Message.SharesKey, Message.sample]
      jobs := by
        intro jobId hjob
        cases (hjob : (none : Option String) = some jobId) }
    fun n hn => absurd hn List.not_mem_nil).2.2.1

end Independence

end EventSaver
