import EventSaver.BackfillRunner
import EventSaver.Library.Growth
import Mathlib.Logic.Relation

/-!
# What the tables never forget

No step of the service takes back what an earlier one has recorded. Apart from the meeting links,
which are deleted, every row stays at its place under its id; the rows of facts stay as they are,
and those that gather what is known of a booking, of an e-mail or of a chat message only gain.
-/

namespace EventSaver
open JsonData TableData EffectProgram

/-- A column that holds a value is not set back to NULL. -/
def StaysSet {α : Type} (before after : Option α) : Prop :=
  before.isSome = true → after.isSome = true

/-- What a bookings row may become. -/
structure BookingRow.Becomes (b b' : BookingRow) : Prop where
  id : b'.id = b.id
  bookingUid : b'.bookingUid = b.bookingUid
  firstSeenAt : b'.firstSeenAt = b.firstSeenAt
  lastSeenAt : b.lastSeenAt ≤ b'.lastSeenAt
  startTime : StaysSet b.startTime b'.startTime
  endTime : StaysSet b.endTime b'.endTime
  currentStatus : StaysSet b.currentStatus b'.currentStatus
  userId : ∀ role, StaysSet (b.userId role) (b'.userId role)

/-- What a row of an e-mail may become. Its trigger, its status and the time of that are left out:
they are those of the event saved last, which may have none. -/
structure EmailNotificationRow.Becomes (n n' : EmailNotificationRow) : Prop where
  id : n'.id = n.id
  jobId : n'.jobId = n.jobId
  userId : StaysSet n.userId n'.userId
  sentEventId : StaysSet n.sentEventId n'.sentEventId
  sentAt : StaysSet n.sentAt n'.sentAt
  lastStatusEventId : StaysSet n.lastStatusEventId n'.lastStatusEventId
  lastClickedUrl : StaysSet n.lastClickedUrl n'.lastClickedUrl
  recipientEmail : StaysSet n.recipientEmail n'.recipientEmail

/-- A chat row stays as it is or is marked as read. -/
def ChatEvent.Becomes (c c' : Linked ChatEvent) : Prop :=
  c' = c ∨ c' = { c with row := { c.row with isRead := some true } }

/-- The tables of a later state, but for the meeting links, and its sequences. -/
structure Db.Grows (db db' : Db) : Prop where
  events : db.tables.events <+: db'.tables.events
  bookings : GrowsBy BookingRow.Becomes db.tables.bookings db'.tables.bookings
  organizerHistory : db.tables.organizerHistory <+: db'.tables.organizerHistory
  emailNotifications : GrowsBy EmailNotificationRow.Becomes db.tables.emailNotifications
    db'.tables.emailNotifications
  telegramNotifications : db.tables.telegramNotifications <+: db'.tables.telegramNotifications
  emailStatusHistory : db.tables.emailStatusHistory <+: db'.tables.emailStatusHistory
  chatEvents : GrowsBy ChatEvent.Becomes db.tables.chatEvents db'.tables.chatEvents
  videoEvents : db.tables.videoEvents <+: db'.tables.videoEvents
  lifecycleEvents : db.tables.lifecycleEvents <+: db'.tables.lifecycleEvents
  seqs : SeqLe db db'

/-- A transaction of the service, with any fault: an attempt to save a message, or a cycle of the
backfill. -/
inductive Db.Step (ext : Externals) : Db → Db → Prop
  | save (db : Db) (fault : Fault Exc) (now : Timestamp) (m : Message) :
    Step ext db (saveEventUnder ext fault now m db).2
  | cycle (db : Db) (batchSize : Nat) (c : CycleAttempt) :
    Step ext db (runOnceUnder ext batchSize c db).2

section Rows

lemma StaysSet.refl {α : Type} (x : Option α) : StaysSet x x := id

lemma StaysSet.of_some {α : Type} (x : Option α) (a : α) : StaysSet x (some a) := fun _ => rfl

lemma StaysSet.or {α : Type} (excluded existing : Option α) :
    StaysSet existing (excluded.or existing) := by
  intro h
  rw [Option.isSome_or, h, Bool.or_true]

lemma BookingRow.Becomes.refl (b : BookingRow) : b.Becomes b :=
  ⟨rfl, rfl, rfl, le_rfl, .refl _, .refl _, .refl _, fun _ => .refl _⟩

lemma BookingRow.Becomes.trans {a b c : BookingRow} (h : a.Becomes b) (h' : b.Becomes c) :
    a.Becomes c where
  id := h'.id.trans h.id
  bookingUid := h'.bookingUid.trans h.bookingUid
  firstSeenAt := h'.firstSeenAt.trans h.firstSeenAt
  lastSeenAt := h.lastSeenAt.trans h'.lastSeenAt
  startTime := h'.startTime ∘ h.startTime
  endTime := h'.endTime ∘ h.endTime
  currentStatus := h'.currentStatus ∘ h.currentStatus
  userId role := h'.userId role ∘ h.userId role

lemma BookingRow.becomes_merge (b : BookingRow) (row : Booking) : b.Becomes (b.update row.merge) where
  id := rfl
  bookingUid := rfl
  firstSeenAt := rfl
  lastSeenAt := le_max_left _ _
  startTime := .or _ _
  endTime := .or _ _
  currentStatus := .or _ _
  userId role := by cases role <;> exact .or _ _

lemma BookingRow.becomes_setUserId (b : BookingRow) (role : RecipientRole) (u : Uuid) :
    b.Becomes (b.update (·.setUserId role u)) := by
  cases role with
  | organizer =>
    refine ⟨rfl, rfl, rfl, le_rfl, .refl _, .refl _, .refl _, fun role => ?_⟩
    cases role with
    | organizer => exact .of_some _ u
    | client => exact .refl _
  | client =>
    refine ⟨rfl, rfl, rfl, le_rfl, .refl _, .refl _, .refl _, fun role => ?_⟩
    cases role with
    | organizer => exact .refl _
    | client => exact .of_some _ u

lemma EmailNotificationRow.Becomes.refl (n : EmailNotificationRow) : n.Becomes n :=
  ⟨rfl, rfl, .refl _, .refl _, .refl _, .refl _, .refl _, .refl _⟩

lemma EmailNotificationRow.Becomes.trans {a b c : EmailNotificationRow} (h : a.Becomes b)
    (h' : b.Becomes c) : a.Becomes c where
  id := h'.id.trans h.id
  jobId := h'.jobId.trans h.jobId
  userId := h'.userId ∘ h.userId
  sentEventId := h'.sentEventId ∘ h.sentEventId
  sentAt := h'.sentAt ∘ h.sentAt
  lastStatusEventId := h'.lastStatusEventId ∘ h.lastStatusEventId
  lastClickedUrl := h'.lastClickedUrl ∘ h.lastClickedUrl
  recipientEmail := h'.recipientEmail ∘ h.recipientEmail

lemma ChatEvent.Becomes.refl (c : Linked ChatEvent) : ChatEvent.Becomes c c := .inl rfl

lemma ChatEvent.Becomes.trans {a b c : Linked ChatEvent} (h : ChatEvent.Becomes a b)
    (h' : ChatEvent.Becomes b c) : ChatEvent.Becomes a c := by
  rcases h with rfl | rfl
  · exact h'
  · rcases h' with rfl | rfl
    · exact .inr rfl
    · exact .inr rfl

end Rows

section Statements

lemma insertUnless_extends {α : Type} (p : α → Bool) (row : α) (table : List α) :
    table <+: insertUnless p row table := by
  unfold insertUnless
  split
  · exact List.prefix_rfl
  · exact List.prefix_append _ _

lemma recordOrganizer_extends (ref : Nat) (row : OrganizerAssignment)
    (history : List (Linked OrganizerAssignment)) :
    history <+: recordOrganizer ref row history := by
  unfold recordOrganizer
  split
  · exact List.prefix_append _ _
  · exact List.prefix_rfl

lemma insertStatusHistory_extends (notifications : List EmailNotificationRow) (jobId : String)
    (row : EmailStatus) (history : List (Linked EmailStatus)) :
    history <+: insertStatusHistory notifications jobId row history := by
  unfold insertStatusHistory
  split
  · exact insertUnless_extends _ _ _
  · exact List.prefix_rfl

lemma backfillBookings_grows (ext : Externals) (events : List EventRow) (role : RecipientRole)
    (email : Option String) (userId : Uuid) (bookings : List BookingRow) :
    GrowsBy BookingRow.Becomes bookings
      (backfillBookings ext events role email userId bookings) := by
  cases email with
  | none => exact .refl .refl _
  | some email => exact .updateWhere .refl fun b _ => b.becomes_setUserId role userId

end Statements

namespace Db.Grows

variable {db db' db'' : Db}

lemma refl (db : Db) : db.Grows db where
  events := List.prefix_rfl
  bookings := .refl .refl _
  organizerHistory := List.prefix_rfl
  emailNotifications := .refl .refl _
  telegramNotifications := List.prefix_rfl
  emailStatusHistory := List.prefix_rfl
  chatEvents := .refl .refl _
  videoEvents := List.prefix_rfl
  lifecycleEvents := List.prefix_rfl
  seqs := .refl db

lemma trans (h : db.Grows db') (h' : db'.Grows db'') : db.Grows db'' where
  events := h.events.trans h'.events
  bookings := h.bookings.trans .trans h'.bookings
  organizerHistory := h.organizerHistory.trans h'.organizerHistory
  emailNotifications := h.emailNotifications.trans .trans h'.emailNotifications
  telegramNotifications := h.telegramNotifications.trans h'.telegramNotifications
  emailStatusHistory := h.emailStatusHistory.trans h'.emailStatusHistory
  chatEvents := h.chatEvents.trans .trans h'.chatEvents
  videoEvents := h.videoEvents.trans h'.videoEvents
  lifecycleEvents := h.lifecycleEvents.trans h'.lifecycleEvents
  seqs := h.seqs.trans h'.seqs

/-- Only the sequences have moved. -/
lemma rollback {reached : Db} (h : SeqLe db reached) : db.Grows (db.rollback reached) :=
  { refl db with seqs := h }

/-- New bookings rows, and a sequence that has moved. -/
lemma withBookings {bookings : List BookingRow} {seq : Nat}
    (hbookings : GrowsBy BookingRow.Becomes db.tables.bookings bookings)
    (hseq : db.bookingsSeq ≤ seq) :
    db.Grows { db with bookingsSeq := seq, tables.bookings := bookings } :=
  { refl db with bookings := hbookings, seqs := ⟨hseq, le_rfl⟩ }

lemma insertRow (event : ParsedEvent) (db : Db) : db.Grows (insertRow event db) :=
  { refl db with events := List.prefix_append _ _ }

/-- An upsert of a notification that names its event among what it sets. -/
lemma upsertNotification {merge : EmailNotification → EmailNotification → EmailNotification}
    (id ref : Nat) (row : EmailNotification)
    (hmerge : ∀ n : EmailNotificationRow,
      n.Becomes { merge row n.toEmailNotification with id := n.id, bookingRefId := ref }) :
    db.Grows { db with
      notificationsSeq := db.notificationsSeq + 1
      tables.emailNotifications :=
        EventSaver.upsertNotification merge id ref row db.tables.emailNotifications } :=
  { refl db with
    emailNotifications := .upsertWhere .refl fun n _ => hmerge n
    seqs := ⟨le_rfl, Nat.le_succ _⟩ }

/-- A projection write for an event. -/
lemma write {w : ProjectionWrite} {eventId : String} {ref : Nat} (hw : w.FiledUnder eventId ref)
    (db : Db) : db.Grows (w.apply db) := by
  cases w with
  | upsertMeetingLink r row => exact { refl db with }
  | deleteMeetingLink r userId => exact { refl db with }
  | upsertEmailSent r row =>
    obtain ⟨_, hevent, htime⟩ := hw
    refine upsertNotification _ _ _ fun n =>
      ⟨rfl, rfl, .or _ _, ?_, fun _ => htime, .refl _, .refl _, .or _ _⟩
    exact hevent ▸ .of_some n.sentEventId eventId
  | upsertEmailStatus r row =>
    refine upsertNotification _ _ _ fun n =>
      ⟨rfl, rfl, .refl _, .refl _, .refl _, ?_, .or _ _, .or _ _⟩
    exact hw.2 ▸ .of_some n.lastStatusEventId eventId
  | insertTelegramNotification r row =>
    exact { refl db with telegramNotifications := insertUnless_extends _ _ _ }
  | insertEmailStatusHistory jobId row =>
    exact { refl db with emailStatusHistory := insertStatusHistory_extends _ _ _ _ }
  | insertChatEvent r row => exact { refl db with chatEvents := .insertUnless .refl }
  | updateChatRead r reader messageId time =>
    exact { refl db with chatEvents := .updateWhere .refl fun c _ => .inr rfl }
  | insertVideoEvent r row => exact { refl db with videoEvents := insertUnless_extends _ _ _ }
  | insertLifecycleEvent r row =>
    exact { refl db with lifecycleEvents := insertUnless_extends _ _ _ }

lemma writes {ws : List ProjectionWrite} {eventId : String} {ref : Nat}
    (hws : ∀ w ∈ ws, w.FiledUnder eventId ref) (db : Db) :
    db.Grows (ws.foldl ProjectionWrite.apply db) := by
  induction ws generalizing db with
  | nil => exact refl db
  | cons w rest ih =>
    rw [List.forall_mem_cons] at hws
    exact (write hws.1 db).trans (ih hws.2 _)

/-- What the writes for one event do to its booking. -/
lemma work {work : BookingWork} {eventId : String} {ref : Nat}
    (hws : ∀ w ∈ work.writes, w.FiledUnder eventId ref) (db : Db) : db.Grows (work.apply ref db) := by
  have hupsert : db.Grows (work.applyUpsert db) := by
    unfold BookingWork.applyUpsert
    cases work.upsert with
    | none => exact refl db
    | some row =>
      exact withBookings (.upsertWhere .refl fun b _ => b.becomes_merge row) (Nat.le_succ _)
  have horganizer (db : Db) : db.Grows (work.applyOrganizer ref db) := by
    unfold BookingWork.applyOrganizer
    cases work.organizer with
    | none => exact refl db
    | some row => exact { refl db with organizerHistory := recordOrganizer_extends _ _ _ }
  have hclient (db : Db) : db.Grows (work.applyClient ref db) := by
    unfold BookingWork.applyClient
    cases work.newClient with
    | none => exact refl db
    | some u =>
      exact withBookings (.updateWhere .refl fun b _ => b.becomes_setUserId .client u) le_rfl
  exact ((hupsert.trans (horganizer _)).trans (hclient _)).trans (writes hws _)

variable {ext : Externals}

lemma process {queueName : String} {event : ParsedEvent}
    (h : processEffect ext queueName event db = .ok db') : db.Grows db' := by
  unfold processEffect at h
  split at h
  · obtain ⟨request, _, h⟩ := bind_eq_ok.mp h
    cases h
    rcases request with _ | ⟨role, email, userId⟩
    · exact refl db
    · exact withBookings (backfillBookings_grows ext _ role email userId _) le_rfl
  · split at h
    · cases h
      exact refl db
    · split at h
      · cases h
        exact refl db
      · obtain ⟨work, hplan, rfl⟩ := except_map_eq_ok.mp h
        exact Db.Grows.work (fun w hw => (plan_writes ext hplan w hw).1) db

lemma save {now : Timestamp} {m : Message} (h : saveEffect ext now m db = .ok db') :
    db.Grows db' := by
  obtain ⟨event, _, h⟩ := bind_eq_ok.mp h
  unfold ingestEffect at h
  split at h
  · cases h
    exact refl db
  · exact (insertRow event db).trans (process h)

lemma saveEventUnder (fault : Fault Exc) (now : Timestamp) (m : Message) (db : Db) :
    db.Grows (saveEventUnder ext fault now m db).2 := by
  cases hc : commits (SqlExecutor.execute ext) fault (IngestEvent.execute ext now m) db with
  | true => exact save (saveEventUnder_of_commits ext hc)
  | false =>
    obtain ⟨e, reached, hsave, hseqs⟩ := saveEventUnder_of_not_commits ext hc
    rw [hsave]
    exact rollback hseqs

lemma runOnceUnder (batchSize : Nat) (c : CycleAttempt) (db : Db) :
    db.Grows (runOnceUnder ext batchSize c db).2 := by
  cases hc : commits (cycleExecute ext c.resolver) c.fault
      (UserIdBackfillService.runOnceProgram batchSize) (db, 0) with
  | true =>
    have hstate := (transact_of_commits _ (fun start reached : Db × Nat =>
      (start.1.rollback reached.1, reached.2)) hc).1
    have hcycle : (EventSaver.runOnceUnder ext batchSize c db).2 =
        (runOnce ext c.resolver batchSize db).2 := congrArg Prod.fst hstate
    rw [hcycle]
    refine runOnce_rel refl trans (fun db id role userId => ?_) c.resolver batchSize db
    exact withBookings (.updateWhere .refl fun b _ => b.becomes_setUserId role userId) le_rfl
  | false =>
    obtain ⟨e, hend⟩ := transact_of_not_commits _ (fun start reached : Db × Nat =>
      (start.1.rollback reached.1, reached.2)) hc
    rw [EventSaver.runOnceUnder, hend]
    refine rollback ?_
    exact runFaulty_rel (cycleExecute ext c.resolver) (R := fun s s' => SeqLe s.1 s'.1)
      (fun s => .refl s.1) .trans (fun call s r s' h => by
        obtain ⟨hbookings, hnotifications⟩ := cycleExecute_seqs h
        exact ⟨hbookings.ge, hnotifications.ge⟩) _ _ (db, 0)

lemma step (h : db.Step ext db') : db.Grows db' := by
  cases h with
  | save fault now m => exact saveEventUnder fault now m db
  | cycle batchSize c => exact runOnceUnder batchSize c db

end Db.Grows

/-- In every run the tables grow, and who finds a booking or an e-mail finds it again later. -/
theorem history_grows {ext : Externals} {db db' : Db}
    (h : Relation.ReflTransGen (Db.Step ext) db db') :
    db.Grows db' ∧
      (∀ uid b, findBooking uid db.tables.bookings = some b →
        ∃ b', findBooking uid db'.tables.bookings = some b' ∧ b.Becomes b') ∧
      ∀ jobId n, findNotification jobId db.tables.emailNotifications = some n →
        ∃ n', findNotification jobId db'.tables.emailNotifications = some n' ∧ n.Becomes n' := by
  have hgrows : db.Grows db' := by
    induction h with
    | refl => exact .refl db
    | tail _ hstep ih => exact ih.trans (.step hstep)
  refine ⟨hgrows, fun uid b hb => ?_, fun jobId n hn => ?_⟩
  · exact hgrows.bookings.find? (fun a a' ha => by rw [ha.bookingUid]) hb
  · exact hgrows.emailNotifications.find? (fun a a' ha => by rw [ha.jobId]) hn

/-- A cycle finds the organizer of the second booking, and the save that follows fails. -/
theorem history_grows_twoBookings :
    ∃ db', Relation.ReflTransGen (Db.Step .sample) twoBookings db' ∧
      ∃ b', findBooking "y" db'.tables.bookings = some b' ∧ secondBooking.Becomes b' ∧
        b'.organizerUserId = some ⟨10⟩ := by
  let c : CycleAttempt := ⟨fun _ _ _ => .ok (.answered (some ⟨10⟩)), .none⟩
  let db := (runOnceUnder .sample 2 c twoBookings).2
  have hrun : Relation.ReflTransGen (Db.Step .sample) twoBookings
      (saveEventUnder .sample (.before 2 .osError) 0
        (.sample "events.chat" "z" "y" .chatCreated 2 (listing [])) db).2 :=
    (Relation.ReflTransGen.single (.cycle twoBookings 2 c)).tail (.save db _ 0 _)
  obtain ⟨b', hb', hbecomes⟩ := (history_grows hrun).2.1 "y" secondBooking rfl
  refine ⟨_, hrun, b', hb', hbecomes, ?_⟩
  exact congrArg (Option.bind · fun b => b.organizerUserId) hb'.symm

end EventSaver
