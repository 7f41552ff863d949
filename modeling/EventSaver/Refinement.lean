import EventSaver.Ledger
import EventSaver.WellFormed

/-!
# The database refines the ledger

`content` reads a database as a ledger. On well-formed databases saving an event and then reading
is reading and then recording it.
-/

namespace EventSaver
open JsonData TableData EffectProgram

section Content

variable (t : Tables)

def cellOf (b : BookingRow) : BookingCell where
  booking := b.toBooking
  organizerHistory := rowsOf b.id t.organizerHistory
  meetingLinks := rowsOf b.id t.meetingLinks
  telegramNotifications := rowsOf b.id t.telegramNotifications
  chatEvents := rowsOf b.id t.chatEvents
  videoEvents := rowsOf b.id t.videoEvents
  lifecycleEvents := rowsOf b.id t.lifecycleEvents

/-- The booking an id refers to. -/
def bookingUidOf (id : Nat) : Option String :=
  (t.bookings.find? fun b => b.id == id).map fun b => b.bookingUid

def emailCellOf (n : EmailNotificationRow) : EmailCell where
  notification := n.toEmailNotification
  bookingUid := bookingUidOf t n.bookingRefId
  statusHistory := rowsOf n.id t.emailStatusHistory

/-- The ledger a database stands for. -/
def content : Ledger where
  event id := t.events.find? fun e => e.eventId == id
  booking uid := (findBooking uid t.bookings).map (cellOf t)
  email jobId := (findNotification jobId t.emailNotifications).map (emailCellOf t)

end Content

/-- The rows that stem from an event are those of one booking, and its status rows those of one
job. -/
structure Tables.OwnRows (t : Tables) (eventId : String) (ref : Nat) (jobId? : Option String) :
    Prop where
  telegrams : ∀ l ∈ t.telegramNotifications, l.row.sourceEventId = eventId → l.ref = ref
  chats : ∀ l ∈ t.chatEvents, l.row.rawEventId = eventId → l.ref = ref
  videos : ∀ l ∈ t.videoEvents, l.row.rawEventId = eventId → l.ref = ref
  lifecycles : ∀ l ∈ t.lifecycleEvents, l.row.rawEventId = eventId → l.ref = ref
  statuses : ∀ l ∈ t.emailStatusHistory, l.row.sourceEventId = eventId →
    ∃ n ∈ t.emailNotifications, n.id = l.ref ∧ jobId? = some n.jobId

lemma findBooking_uid {uid : String} {bookings : List BookingRow} {b : BookingRow}
    (h : findBooking uid bookings = some b) : b.bookingUid = uid := by
  simpa using List.find?_some h

lemma findNotification_job {jobId : String} {notifications : List EmailNotificationRow}
    {n : EmailNotificationRow} (h : findNotification jobId notifications = some n) :
    n.jobId = jobId := by
  simpa using List.find?_some h

section Located

variable {db : Db} {uid : String} {ref : Nat}

/-- Another booking has another id. -/
lemma Db.WellFormed.id_ne (h : db.WellFormed) {uid' : String} {b b' : BookingRow}
    (hb : findBooking uid db.tables.bookings = some b)
    (hb' : findBooking uid' db.tables.bookings = some b') (hne : uid' ≠ uid) : b'.id ≠ b.id := by
  intro hid
  have hmem := List.mem_of_find?_eq_some hb
  have hmem' := List.mem_of_find?_eq_some hb'
  have heq := List.inj_on_of_nodup_map h.ids hmem' hmem hid
  exact hne ((findBooking_uid hb').symm.trans (heq ▸ findBooking_uid hb))

/-- A change of the timelines of one booking. -/
lemma content_booking_local {t t' : Tables} {b : BookingRow} {f : BookingCell → BookingCell}
    (hb : findBooking uid t.bookings = some b) (hbookings : t'.bookings = t.bookings)
    (hself : cellOf t' b = f (cellOf t b))
    (hother : ∀ uid' b', uid' ≠ uid → findBooking uid' t.bookings = some b' →
      cellOf t' b' = cellOf t b') :
    (content t').booking =
      Function.update (content t).booking uid (((content t).booking uid).map f) := by
  funext uid'
  by_cases hu : uid' = uid
  · subst hu
    rw [Function.update_self]
    simp only [content, hbookings, hb, Option.map_some, hself]
  · rw [Function.update_of_ne hu]
    simp only [content, hbookings]
    cases hb' : findBooking uid' t.bookings with
    | none => rfl
    | some b' => exact congrArg some (hother uid' b' hu hb')

/-- A write leaves the timelines of the other bookings as they are. -/
lemma cellOf_write_other {b' : BookingRow} {w : ProjectionWrite} {eventId : String}
    (hw : w.FiledUnder eventId ref) (hne : ref ≠ b'.id) :
    cellOf (w.apply db).tables b' = cellOf db.tables b' := by
  cases w with
  | upsertMeetingLink r row =>
    obtain ⟨rfl, _⟩ := hw
    simp only [cellOf, ProjectionWrite.apply, rowsOf_upsertMeetingLink_other hne]
  | deleteMeetingLink r userId =>
    obtain rfl : r = ref := hw
    simp only [cellOf, ProjectionWrite.apply, rowsOf_deleteMeetingLink_other hne]
  | insertTelegramNotification r row =>
    obtain ⟨rfl, _⟩ := hw
    simp only [cellOf, ProjectionWrite.apply, rowsOf_insertUnless_other hne]
  | insertChatEvent r row =>
    obtain ⟨rfl, _⟩ := hw
    simp only [cellOf, ProjectionWrite.apply, rowsOf_insertUnless_other hne]
  | updateChatRead r reader messageId time =>
    obtain rfl : r = ref := hw
    simp only [cellOf, ProjectionWrite.apply, rowsOf_updateChatRead_other hne]
  | insertVideoEvent r row =>
    obtain ⟨rfl, _⟩ := hw
    simp only [cellOf, ProjectionWrite.apply, rowsOf_insertUnless_other hne]
  | insertLifecycleEvent r row =>
    obtain ⟨rfl, _⟩ := hw
    simp only [cellOf, ProjectionWrite.apply, rowsOf_insertUnless_other hne]
  | upsertEmailSent r row => rfl
  | upsertEmailStatus r row => rfl
  | insertEmailStatusHistory jobId row => rfl

/-- The timelines after a write. -/
lemma content_write_booking (h : db.WellFormed) {b : BookingRow} {w : ProjectionWrite}
    {eventId : String} {jobId? : Option String}
    (hb : findBooking uid db.tables.bookings = some b)
    (hown : db.tables.OwnRows eventId b.id jobId?) (hw : w.FiledUnder eventId b.id) :
    (content (w.apply db).tables).booking =
      Function.update (content db.tables).booking uid
        (((content db.tables).booking uid).map (BookingCell.write w)) := by
  refine content_booking_local hb (w.apply_bookings db) ?_ ?_
  · cases w with
    | upsertMeetingLink r row =>
      obtain ⟨rfl, _⟩ := hw
      simp only [cellOf, ProjectionWrite.apply, BookingCell.write, rowsOf_upsertMeetingLink_self]
    | deleteMeetingLink r userId =>
      obtain rfl : r = b.id := hw
      simp only [cellOf, ProjectionWrite.apply, BookingCell.write, rowsOf_deleteMeetingLink_self]
    | insertTelegramNotification r row =>
      obtain ⟨rfl, rfl⟩ := hw
      have hrows := rowsOf_insertUnless_self (q := fun t => t.sourceEventId == row.sourceEventId)
        (a := row) fun l hl hq => hown.telegrams l hl (beq_iff_eq.mp hq)
      simp only [cellOf, ProjectionWrite.apply, BookingCell.write, hrows]
    | insertChatEvent r row =>
      obtain ⟨rfl, rfl⟩ := hw
      have hrows := rowsOf_insertUnless_self (q := fun c => c.rawEventId == row.rawEventId)
        (a := row) fun l hl hq => hown.chats l hl (beq_iff_eq.mp hq)
      simp only [cellOf, ProjectionWrite.apply, BookingCell.write, hrows]
    | updateChatRead r reader messageId time =>
      obtain rfl : r = b.id := hw
      simp only [cellOf, ProjectionWrite.apply, BookingCell.write, rowsOf_updateChatRead_self]
    | insertVideoEvent r row =>
      obtain ⟨rfl, rfl⟩ := hw
      have hrows := rowsOf_insertUnless_self (q := fun v => v.rawEventId == row.rawEventId)
        (a := row) fun l hl hq => hown.videos l hl (beq_iff_eq.mp hq)
      simp only [cellOf, ProjectionWrite.apply, BookingCell.write, hrows]
    | insertLifecycleEvent r row =>
      obtain ⟨rfl, rfl⟩ := hw
      have hrows := rowsOf_insertUnless_self (q := fun l => l.rawEventId == row.rawEventId)
        (a := row) fun l hl hq => hown.lifecycles l hl (beq_iff_eq.mp hq)
      simp only [cellOf, ProjectionWrite.apply, BookingCell.write, hrows]
    | upsertEmailSent r row => rfl
    | upsertEmailStatus r row => rfl
    | insertEmailStatusHistory jobId row => rfl
  · intro uid' b' hne hb'
    exact cellOf_write_other hw (h.id_ne hb hb' hne).symm

lemma Db.WellFormed.bookingUidOf_eq (h : db.WellFormed) {b : BookingRow}
    (hb : findBooking uid db.tables.bookings = some b) :
    bookingUidOf db.tables b.id = some uid := by
  have hfind : db.tables.bookings.find? (fun b' => b'.id == b.id) = some b :=
    find?_eq_some_of_mem h.ids (List.mem_of_find?_eq_some hb)
  rw [bookingUidOf, hfind]
  exact congrArg some (findBooking_uid hb)

end Located

section Emails

variable {db : Db} {uid : String}

lemma content_upsertNotification (h : db.WellFormed) {b : BookingRow}
    (hb : findBooking uid db.tables.bookings = some b)
    (merge : EmailNotification → EmailNotification → EmailNotification)
    (hmerge : ∀ row n, (merge row n).jobId = n.jobId) (row : EmailNotification) (jobId : String) :
    (findNotification jobId
        (upsertNotification merge db.notificationsSeq b.id row db.tables.emailNotifications)).map
        (emailCellOf db.tables) =
      if row.jobId = jobId then
        some (EmailCell.upsert merge uid row ((content db.tables).email jobId))
      else (content db.tables).email jobId := by
  unfold findNotification upsertNotification
  split
  next hj =>
    subst hj
    rw [find?_upsertWhere_self (fun n => by rw [hmerge]) (by simp)]
    simp only [content]
    change some (emailCellOf _ ((findNotification row.jobId _).elim _ _)) = _
    cases findNotification row.jobId db.tables.emailNotifications with
    | none =>
      have hfresh : rowsOf db.notificationsSeq db.tables.emailStatusHistory = [] :=
        rowsOf_eq_nil fun l hl => (h.notificationIds_lt _ (h.statuses l hl)).ne
      simp only [emailCellOf, Option.elim, EmailCell.upsert, Option.map_none, hfresh,
        h.bookingUidOf_eq hb]
    | some n =>
      simp only [emailCellOf, Option.elim, EmailCell.upsert, Option.map_some, h.bookingUidOf_eq hb]
  next hj =>
    rw [find?_upsertWhere_other (fun n => by rw [hmerge])]
    · rfl
    · intro n hn
      rw [beq_iff_eq] at hn
      simpa [hn] using hj
    · simpa using hj

lemma Db.WellFormed.findNotification_eq (h : db.WellFormed) {n : EmailNotificationRow}
    (hn : n ∈ db.tables.emailNotifications) :
    findNotification n.jobId db.tables.emailNotifications = some n :=
  find?_eq_some_of_mem h.jobs hn

lemma content_insertStatusHistory (h : db.WellFormed) {eventId jobId : String} {ref : Nat}
    (hown : db.tables.OwnRows eventId ref (some jobId)) {row : EmailStatus}
    (hrow : row.sourceEventId = eventId) (jobId' : String) :
    (content { db.tables with
      emailStatusHistory := insertStatusHistory db.tables.emailNotifications jobId row
        db.tables.emailStatusHistory }).email jobId' =
      if jobId = jobId' then
        EmailCell.write uid (.insertEmailStatusHistory jobId row) ((content db.tables).email jobId')
      else (content db.tables).email jobId' := by
  cases hfind : findNotification jobId db.tables.emailNotifications with
  | none =>
    simp only [insertStatusHistory, hfind]
    by_cases hj : jobId = jobId'
    · subst hj
      rw [if_pos rfl]
      simp only [content, hfind, EmailCell.write, Option.map_none]
    · rw [if_neg hj]
  | some n =>
    simp only [insertStatusHistory, hfind]
    by_cases hj : jobId = jobId'
    · subst hj
      have hself : rowsOf n.id (insertUnless (fun l => l.row.sourceEventId == row.sourceEventId)
            ⟨n.id, row⟩ db.tables.emailStatusHistory) =
          insertUnless (fun s => s.sourceEventId == row.sourceEventId) row
            (rowsOf n.id db.tables.emailStatusHistory) := by
        refine rowsOf_insertUnless_self
          (q := fun s : EmailStatus => s.sourceEventId == row.sourceEventId) fun l hl hq => ?_
        obtain ⟨n', hn', hid, hj⟩ := hown.statuses l hl ((beq_iff_eq.mp hq).trans hrow)
        have hn'' := h.findNotification_eq hn'
        rw [← Option.some.inj hj, hfind] at hn''
        rw [← hid, Option.some.inj hn'']
      rw [if_pos rfl]
      simp only [content, hfind, EmailCell.write, emailCellOf, Option.map_some, hself]
      rfl
    · rw [if_neg hj]
      simp only [content]
      cases hfind' : findNotification jobId' db.tables.emailNotifications with
      | none => rfl
      | some n' =>
        have hne : n.id ≠ n'.id := by
          intro hid
          have heq := List.inj_on_of_nodup_map h.notificationIds (List.mem_of_find?_eq_some hfind)
            (List.mem_of_find?_eq_some hfind') hid
          exact hj ((findNotification_job hfind).symm.trans (heq ▸ findNotification_job hfind'))
        simp only [emailCellOf, Option.map_some, rowsOf_insertUnless_other hne]
        rfl

/-- The notifications after a write. -/
lemma content_write_email (h : db.WellFormed) {b : BookingRow} {w : ProjectionWrite}
    {eventId : String} {jobId? : Option String}
    (hb : findBooking uid db.tables.bookings = some b)
    (hown : db.tables.OwnRows eventId b.id jobId?) (hw : w.FiledUnder eventId b.id)
    (hjob : ∀ jobId, w.jobId? = some jobId → jobId? = some jobId) (jobId : String) :
    (content (w.apply db).tables).email jobId =
      if w.jobId? = some jobId then EmailCell.write uid w ((content db.tables).email jobId)
      else (content db.tables).email jobId := by
  cases w with
  | upsertEmailSent r row =>
    obtain ⟨rfl, _⟩ := hw
    simp only [ProjectionWrite.jobId?, Option.some.injEq, EmailCell.write]
    exact content_upsertNotification h hb .mergeSent (fun _ _ => rfl) row jobId
  | upsertEmailStatus r row =>
    obtain ⟨rfl, _⟩ := hw
    simp only [ProjectionWrite.jobId?, Option.some.injEq, EmailCell.write]
    exact content_upsertNotification h hb .mergeStatus (fun _ _ => rfl) row jobId
  | insertEmailStatusHistory job row =>
    obtain rfl : row.sourceEventId = eventId := hw
    rw [hjob job rfl] at hown
    simp only [ProjectionWrite.jobId?, Option.some.injEq]
    exact content_insertStatusHistory h hown rfl jobId
  | upsertMeetingLink r row => rfl
  | deleteMeetingLink r userId => rfl
  | insertTelegramNotification r row => rfl
  | insertChatEvent r row => rfl
  | updateChatRead r reader messageId time => rfl
  | insertVideoEvent r row => rfl
  | insertLifecycleEvent r row => rfl

end Emails

section Writes

variable {db : Db} {uid eventId : String} {ref : Nat} {jobId? : Option String}

lemma exists_upsertNotification
    (merge : EmailNotification → EmailNotification → EmailNotification)
    (hmerge : ∀ row n, (merge row n).jobId = n.jobId) {id ref : Nat} {row : EmailNotification}
    {notifications : List EmailNotificationRow} {n : EmailNotificationRow}
    (hn : n ∈ notifications) :
    ∃ n' ∈ upsertNotification merge id ref row notifications, n'.id = n.id ∧ n'.jobId = n.jobId := by
  have hkeys := map_upsertWhere (fun n : EmailNotificationRow => n.jobId == row.jobId)
    (fun n => { merge row n.toEmailNotification with id := n.id, bookingRefId := ref })
    { row with id := id, bookingRefId := ref } notifications (fun n => (n.id, n.jobId))
    fun n => by rw [hmerge]
  have hmem : (n.id, n.jobId) ∈
      (upsertNotification merge id ref row notifications).map fun n => (n.id, n.jobId) := by
    unfold upsertNotification
    rw [hkeys]
    exact List.mem_append_left _ (List.mem_map_of_mem hn)
  obtain ⟨n', hn', heq⟩ := List.mem_map.mp hmem
  exact ⟨n', hn', (Prod.mk.inj heq).1, (Prod.mk.inj heq).2⟩

lemma Tables.OwnRows.write (hown : db.tables.OwnRows eventId ref jobId?) {w : ProjectionWrite}
    (hw : w.FiledUnder eventId ref) (hjob : ∀ jobId, w.jobId? = some jobId → jobId? = some jobId) :
    (w.apply db).tables.OwnRows eventId ref jobId? := by
  cases w with
  | upsertMeetingLink r row => exact { hown with }
  | deleteMeetingLink r userId => exact { hown with }
  | upsertEmailSent r row =>
    exact { hown with
      statuses := by
        intro l hl hsource
        obtain ⟨n, hn, hid, hj⟩ := hown.statuses l hl hsource
        obtain ⟨n', hn', hid', hj'⟩ := exists_upsertNotification .mergeSent (fun _ _ => rfl) hn
        exact ⟨n', hn', hid'.trans hid, hj' ▸ hj⟩ }
  | upsertEmailStatus r row =>
    exact { hown with
      statuses := by
        intro l hl hsource
        obtain ⟨n, hn, hid, hj⟩ := hown.statuses l hl hsource
        obtain ⟨n', hn', hid', hj'⟩ := exists_upsertNotification .mergeStatus (fun _ _ => rfl) hn
        exact ⟨n', hn', hid'.trans hid, hj' ▸ hj⟩ }
  | insertTelegramNotification r row =>
    exact { hown with
      telegrams := by
        intro l hl hsource
        rcases mem_insertUnless hl with rfl | hl
        · exact hw.1
        · exact hown.telegrams l hl hsource }
  | insertEmailStatusHistory jobId row =>
    exact { hown with
      statuses := by
        intro l hl hsource
        simp only [ProjectionWrite.apply, insertStatusHistory] at hl
        cases hfind : findNotification jobId db.tables.emailNotifications with
        | none =>
          rw [hfind] at hl
          exact hown.statuses l hl hsource
        | some n =>
          rw [hfind] at hl
          rcases mem_insertUnless hl with rfl | hl
          · exact ⟨n, List.mem_of_find?_eq_some hfind, rfl,
              (findNotification_job hfind).symm ▸ hjob jobId rfl⟩
          · exact hown.statuses l hl hsource }
  | insertChatEvent r row =>
    exact { hown with
      chats := by
        intro l hl hsource
        rcases mem_insertUnless hl with rfl | hl
        · exact hw.1
        · exact hown.chats l hl hsource }
  | updateChatRead r reader messageId time =>
    exact { hown with
      chats := by
        intro l hl hsource
        obtain ⟨l', hl', rfl⟩ := mem_updateWhere hl
        split at hsource
        next hp => rw [if_pos hp]; exact hown.chats l' hl' hsource
        next hp => rw [if_neg hp]; exact hown.chats l' hl' hsource }
  | insertVideoEvent r row =>
    exact { hown with
      videos := by
        intro l hl hsource
        rcases mem_insertUnless hl with rfl | hl
        · exact hw.1
        · exact hown.videos l hl hsource }
  | insertLifecycleEvent r row =>
    exact { hown with
      lifecycles := by
        intro l hl hsource
        rcases mem_insertUnless hl with rfl | hl
        · exact hw.1
        · exact hown.lifecycles l hl hsource }

/-- The ledger after the writes for an event. -/
lemma content_writes (h : db.WellFormed) (hb : db.Located uid ref)
    (hevent : eventId ∈ db.tables.eventIds) (hown : db.tables.OwnRows eventId ref jobId?)
    {ws : List ProjectionWrite}
    (hws : ∀ w ∈ ws, w.FiledUnder eventId ref ∧
      ∀ jobId, w.jobId? = some jobId → jobId? = some jobId) :
    (content (ws.foldl ProjectionWrite.apply db).tables).booking =
        Function.update (content db.tables).booking uid
          (ws.foldl (fun cell w => cell.map (BookingCell.write w))
            ((content db.tables).booking uid)) ∧
      ∀ jobId, (content (ws.foldl ProjectionWrite.apply db).tables).email jobId =
        ws.foldl (fun cell w => if w.jobId? = some jobId then EmailCell.write uid w cell else cell)
          ((content db.tables).email jobId) := by
  induction ws generalizing db with
  | nil => exact ⟨(Function.update_eq_self _ _).symm, fun _ => rfl⟩
  | cons w rest ih =>
    rw [List.forall_mem_cons] at hws
    obtain ⟨⟨hw, hjob⟩, hrest⟩ := hws
    obtain ⟨b, hfind, rfl⟩ := hb
    have hloc : (w.apply db).Located uid b.id := ⟨b, by rw [w.apply_bookings, hfind], rfl⟩
    have hevent' : eventId ∈ (w.apply db).tables.eventIds := by
      rwa [Tables.eventIds, w.apply_events]
    obtain ⟨hbooking, hemail⟩ := ih (h.write hw hevent (Db.Located.mem ⟨b, hfind, rfl⟩)) hloc
      hevent' (hown.write hw hjob) hrest
    rw [content_write_booking h hfind hown hw] at hbooking
    constructor
    · rw [List.foldl_cons, hbooking, Function.update_idem, Function.update_self]
      rfl
    · intro jobId
      rw [List.foldl_cons, hemail jobId, content_write_email h hfind hown hw hjob]
      rfl

end Writes

section Bookings

variable {db : Db} {uid : String} {ref : Nat}

/-- The booking of a notification is not touched by updates that keep the keys of the rows. -/
lemma emailCellOf_congr {t t' : Tables} (hstatus : t'.emailStatusHistory = t.emailStatusHistory)
    {n : EmailNotificationRow}
    (hbooking : bookingUidOf t' n.bookingRefId = bookingUidOf t n.bookingRefId) :
    emailCellOf t' n = emailCellOf t n := by
  simp only [emailCellOf, hstatus, hbooking]

lemma content_email_congr {t t' : Tables} (hnotifications : t'.emailNotifications = t.emailNotifications)
    (hstatus : t'.emailStatusHistory = t.emailStatusHistory)
    (hbooking : ∀ n ∈ t.emailNotifications,
      bookingUidOf t' n.bookingRefId = bookingUidOf t n.bookingRefId) :
    (content t').email = (content t).email := by
  funext jobId
  simp only [content, hnotifications]
  cases hfind : findNotification jobId t.emailNotifications with
  | none => rfl
  | some n =>
    exact congrArg some (emailCellOf_congr hstatus (hbooking n (List.mem_of_find?_eq_some hfind)))

/-- The ledger after an update of bookings rows that keeps their keys. -/
lemma content_updateBookings (t : Tables) (p : BookingRow → Bool) (f : Booking → Booking)
    (hf : ∀ b, (f b).bookingUid = b.bookingUid) :
    (content { t with bookings := updateWhere p (fun b => b.update f) t.bookings }).booking =
        (fun uid => (findBooking uid t.bookings).map fun b =>
          if p b then { cellOf t b with booking := f b.toBooking } else cellOf t b) ∧
      (content { t with bookings := updateWhere p (fun b => b.update f) t.bookings }).email =
        (content t).email := by
  constructor
  · funext uid
    simp only [content, findBooking]
    rw [find?_updateWhere fun b => by rw [BookingRow.update_toBooking, hf]]
    rw [Option.map_map]
    congr 1
    funext b
    by_cases hp : p b = true
    · simp only [Function.comp, if_pos hp]
      rfl
    · simp only [Function.comp, if_neg hp]
      rfl
  · refine content_email_congr rfl rfl fun n _ => ?_
    simp only [bookingUidOf]
    rw [find?_updateWhere fun b => by rw [BookingRow.update_id], Option.map_map]
    congr 1
    funext b
    by_cases hp : p b = true
    · simp only [Function.comp, if_pos hp, BookingRow.update_toBooking, hf]
    · simp only [Function.comp, if_neg hp]

lemma content_upsertBooking (h : db.WellFormed) (row : Booking) :
    (content { db.tables with
        bookings := upsertBookingRow db.bookingsSeq row db.tables.bookings }).booking =
        Function.update (content db.tables).booking row.bookingUid
          (some (BookingCell.upsert row ((content db.tables).booking row.bookingUid))) ∧
      (content { db.tables with
        bookings := upsertBookingRow db.bookingsSeq row db.tables.bookings }).email =
        (content db.tables).email := by
  constructor
  · funext uid
    by_cases hu : uid = row.bookingUid
    · subst hu
      rw [Function.update_self]
      simp only [content, findBooking_upsertBookingRow, Option.map_some]
      cases findBooking row.bookingUid db.tables.bookings with
      | some b => rfl
      | none =>
        have hfresh {α : Type} {table : List (Linked α)}
            (hrefs : RefersTo db.tables.bookingIds table) : rowsOf db.bookingsSeq table = [] :=
          rowsOf_eq_nil fun l hl => (h.ids_lt _ (hrefs l hl)).ne
        simp only [Option.elim, cellOf, hfresh h.organizerHistory, hfresh h.meetingLinks,
          hfresh h.telegrams, hfresh h.chats, hfresh h.videos, hfresh h.lifecycles]
        rfl
    · rw [Function.update_of_ne hu]
      simp only [content, findBooking, upsertBookingRow]
      rw [find?_upsertWhere_other (fun b => by rw [BookingRow.update_toBooking]; rfl)]
      · rfl
      · intro b hb
        rw [beq_iff_eq] at hb
        simpa [hb] using Ne.symm hu
      · simpa using Ne.symm hu
  · refine content_email_congr rfl rfl fun n hn => ?_
    have hne : db.bookingsSeq ≠ n.bookingRefId := (h.ids_lt _ (h.notifications n hn)).ne'
    simp only [bookingUidOf, upsertBookingRow]
    rw [find?_upsertWhere_map (fun b => by rw [BookingRow.update_id]) (by simpa using hne),
      Option.map_map]
    congr 1
    funext b
    simp only [Function.comp]
    split <;> rfl

lemma content_recordOrganizer (h : db.WellFormed) (hb : db.Located uid ref)
    (row : OrganizerAssignment) :
    (content { db.tables with
        organizerHistory := recordOrganizer ref row db.tables.organizerHistory }).booking =
      Function.update (content db.tables).booking uid
        (((content db.tables).booking uid).map (BookingCell.recordOrganizer row)) := by
  obtain ⟨b, hfind, rfl⟩ := hb
  refine content_booking_local hfind rfl ?_ ?_
  · simp only [cellOf, rowsOf_recordOrganizer_self, BookingCell.recordOrganizer]
    rfl
  · intro uid' b' hne hb'
    simp only [cellOf, rowsOf_recordOrganizer_other (h.id_ne hfind hb' hne).symm]

lemma content_updateClient (h : db.WellFormed) (hb : db.Located uid ref) (u : Uuid) :
    (content { db.tables with
        bookings := updateWhere (fun b => b.id == ref)
          (fun b => b.update (·.setUserId .client u)) db.tables.bookings }).booking =
      Function.update (content db.tables).booking uid
        (((content db.tables).booking uid).map (BookingCell.setClient u)) := by
  obtain ⟨b, hfind, rfl⟩ := hb
  rw [(content_updateBookings db.tables _ _ fun b => b.setUserId_bookingUid .client u).1]
  funext uid'
  by_cases hu : uid' = uid
  · subst hu
    rw [Function.update_self]
    simp only [content, hfind, Option.map_some, beq_self_eq_true, if_true]
    rfl
  · rw [Function.update_of_ne hu]
    simp only [content]
    cases hb' : findBooking uid' db.tables.bookings with
    | none => rfl
    | some b' => simp [h.id_ne hfind hb' hu]

end Bookings

section Processing

variable {ext : Externals} {db db' : Db} {queueName uid : String} {event : ParsedEvent}
  {work : BookingWork} {ref : Nat}

lemma content_applyUpsert (h : db.WellFormed)
    (huid : ∀ row, work.upsert = some row → row.bookingUid = uid) :
    (content (work.applyUpsert db).tables).booking =
        Function.update (content db.tables).booking uid
          (work.upsertCell ((content db.tables).booking uid)) ∧
      (content (work.applyUpsert db).tables).email = (content db.tables).email := by
  unfold BookingWork.applyUpsert BookingWork.upsertCell
  cases hrow : work.upsert with
  | none => exact ⟨(Function.update_eq_self _ _).symm, rfl⟩
  | some row =>
    obtain rfl := huid row hrow
    exact content_upsertBooking h row

variable (work) in
lemma content_applyOrganizer (h : db.WellFormed) (hb : db.Located uid ref) :
    (content (work.applyOrganizer ref db).tables).booking =
        Function.update (content db.tables).booking uid
          (work.organizerCell ((content db.tables).booking uid)) ∧
      (content (work.applyOrganizer ref db).tables).email = (content db.tables).email := by
  unfold BookingWork.applyOrganizer BookingWork.organizerCell
  cases work.organizer with
  | none => exact ⟨(Function.update_eq_self _ _).symm, rfl⟩
  | some row => exact ⟨content_recordOrganizer h hb row, rfl⟩

variable (work) in
lemma content_applyClient (h : db.WellFormed) (hb : db.Located uid ref) :
    (content (work.applyClient ref db).tables).booking =
        Function.update (content db.tables).booking uid
          (work.clientCell ((content db.tables).booking uid)) ∧
      (content (work.applyClient ref db).tables).email = (content db.tables).email := by
  unfold BookingWork.applyClient BookingWork.clientCell
  cases work.newClient with
  | none => exact ⟨(Function.update_eq_self _ _).symm, rfl⟩
  | some u =>
    exact ⟨content_updateClient h hb u,
      (content_updateBookings db.tables _ _ fun b => b.setUserId_bookingUid .client u).2⟩

lemma Tables.OwnRows.beforeWrites {eventId : String} {jobId? : Option String}
    (hown : db.tables.OwnRows eventId ref jobId?) :
    (work.applyClient ref (work.applyOrganizer ref (work.applyUpsert db))).tables.OwnRows
      eventId ref jobId? := by
  unfold BookingWork.applyClient BookingWork.applyOrganizer BookingWork.applyUpsert
  cases work.newClient <;> cases work.organizer <;> cases work.upsert <;> exact { hown with }

lemma Db.Located.applyOrganizer (hb : db.Located uid ref) :
    (work.applyOrganizer ref db).Located uid ref := by
  obtain ⟨b, hfind, hid⟩ := hb
  exact ⟨b, by rw [work.applyOrganizer_bookings, hfind], hid⟩

lemma Db.Located.applyClient (hb : db.Located uid ref) :
    (work.applyClient ref db).Located uid ref := by
  obtain ⟨b, hfind, hid⟩ := hb
  unfold BookingWork.applyClient
  cases work.newClient with
  | none => exact ⟨b, hfind, hid⟩
  | some u =>
    refine ⟨if b.id == ref then b.update (·.setUserId .client u) else b, ?_, ?_⟩
    · simp only [findBooking]
      rw [find?_updateWhere fun b => by
        rw [BookingRow.update_toBooking, Booking.setUserId_bookingUid]]
      exact congrArg (Option.map _) hfind
    · split <;> exact hid

/-- The ledger after the work for an event. -/
theorem content_work (h : db.WellFormed)
    (hplan : plan ext queueName event uid (bookingKnown queueName db uid) (bookingRef db uid) =
      .ok work)
    (hevent : event.eventId ∈ db.tables.eventIds)
    (hown : db.tables.OwnRows event.eventId (bookingRef db uid) event.emailJobId?) :
    content (work.apply (bookingRef db uid) db).tables = (content db.tables).work uid work := by
  have hloc := located_applyUpsert hplan
  generalize bookingRef db uid = ref at hplan hown hloc ⊢
  have huid : ∀ row, work.upsert = some row → row.bookingUid = uid := by
    intro row hrow
    obtain ⟨hknown, hnew⟩ := plan_upsert ext hplan
    cases hk : bookingKnown queueName db uid with
    | true => rw [hknown hk] at hrow; cases hrow
    | false =>
      obtain ⟨row', hrow', hu⟩ := hnew hk
      rw [hrow'] at hrow
      exact Option.some.inj hrow ▸ hu
  have hwf₁ := h.applyUpsert work
  have hwf₂ := hwf₁.applyOrganizer work hloc.mem
  obtain ⟨hb₁, he₁⟩ := content_applyUpsert h huid
  obtain ⟨hb₂, he₂⟩ := content_applyOrganizer work hwf₁ hloc
  obtain ⟨hb₃, he₃⟩ := content_applyClient work hwf₂ hloc.applyOrganizer
  have hevent' : event.eventId ∈
      (work.applyClient ref (work.applyOrganizer ref (work.applyUpsert db))).tables.eventIds := by
    simpa [Tables.eventIds] using hevent
  obtain ⟨hbooking, hemail⟩ := content_writes (hwf₂.applyClient work ref)
    hloc.applyOrganizer.applyClient hevent' hown.beforeWrites (plan_writes ext hplan)
  ext1
  · simp only [content, Ledger.work, BookingWork.apply_events]
  · rw [hb₃, hb₂, hb₁] at hbooking
    simp only [Function.update_idem, Function.update_self] at hbooking
    exact hbooking
  · funext jobId
    rw [he₃, he₂, he₁] at hemail
    exact hemail jobId

lemma content_known (db : Db) (queueName uid : String) :
    (content db.tables).known queueName uid = bookingKnown queueName db uid := by
  simp only [Ledger.known, bookingKnown, content, Option.isSome_map]

lemma content_process_booking (h : db.WellFormed)
    (hevent : event.eventId ∈ db.tables.eventIds)
    (hown : db.tables.OwnRows event.eventId (bookingRef db uid) event.emailJobId?) :
    (processBookingEffect ext queueName event uid db).map (fun db' => content db'.tables) =
      (plan ext queueName event uid ((content db.tables).known queueName uid) 0).map
        fun work => (content db.tables).work uid work := by
  unfold processBookingEffect
  rw [content_known, plan_withRef ext queueName event uid _ (bookingRef db uid) 0]
  cases hplan : plan ext queueName event uid (bookingKnown queueName db uid) (bookingRef db uid) with
  | error e => rfl
  | ok work =>
    exact congrArg Except.ok <| (content_work h hplan hevent hown).trans
      (Ledger.work_withRef uid work 0 _).symm

end Processing

section Events

variable {ext : Externals} {db : Db} {event : ParsedEvent}

lemma Db.WellFormed.eventIds_nodup (h : db.WellFormed) :
    (db.tables.events.map fun e => e.eventId).Nodup := by
  rw [List.Nodup, List.pairwise_map]
  refine h.events.imp fun {e e'} hne heq => ?_
  simp [EventRow.conflicts, heq] at hne

lemma content_event_eq_some (h : db.WellFormed) {e : EventRow} :
    (content db.tables).event e.eventId = some e ↔ e ∈ db.tables.events := by
  constructor
  · exact List.mem_of_find?_eq_some
  · exact find?_eq_some_of_mem h.eventIds_nodup

lemma content_event_exists (h : db.WellFormed) {P : EventRow → Prop} :
    (∃ id e, (content db.tables).event id = some e ∧ P e) ↔ ∃ e ∈ db.tables.events, P e := by
  constructor
  · rintro ⟨id, e, he, hP⟩
    exact ⟨e, List.mem_of_find?_eq_some he, hP⟩
  · rintro ⟨e, he, hP⟩
    exact ⟨e.eventId, e, (content_event_eq_some h).mpr he, hP⟩

lemma content_conflicts (h : db.WellFormed) :
    (content db.tables).Conflicts (EventRepository.row event) ↔ isDuplicate event db = true := by
  rw [isDuplicate, List.any_eq_true]
  exact content_event_exists h

lemma content_lists (h : db.WellFormed) (uid : String) (role : RecipientRole) (email : String) :
    (content db.tables).Lists ext uid role email ↔
      participantListed ext db.tables.events uid role email = true := by
  rw [participantListed, List.any_eq_true]
  refine (content_event_exists h).trans ?_
  simp only [participantListed, List.any_cons, List.any_nil, Bool.or_false]

lemma not_mem_eventIds (hd : isDuplicate event db = false) :
    event.eventId ∉ db.tables.eventIds := by
  intro hmem
  obtain ⟨e, he, heq⟩ := List.mem_map.mp hmem
  have hconflict := List.any_eq_false.mp hd e he
  simp [EventRow.conflicts, EventRepository.row, heq] at hconflict

lemma content_insertRow (hd : isDuplicate event db = false) :
    content (insertRow event db).tables =
      (content db.tables).insertEvent (EventRepository.row event) := by
  ext1
  · funext id
    simp only [content, insertRow, Ledger.insertEvent, List.find?_append]
    by_cases hid : id = event.eventId
    · subst hid
      have hnone : db.tables.events.find? (fun e => e.eventId == event.eventId) = none := by
        rw [List.find?_eq_none]
        intro e he heq
        exact not_mem_eventIds hd (List.mem_map.mpr ⟨e, he, beq_iff_eq.mp heq⟩)
      rw [hnone]
      simp [EventRepository.row]
    · have hne : event.eventId ≠ id := Ne.symm hid
      have hid' : id ≠ (EventRepository.row event).eventId := hid
      rw [Function.update_of_ne hid']
      simp [EventRepository.row, hne]
  · rfl
  · rfl

lemma content_backfill (h : db.WellFormed)
    (request : Option (RecipientRole × Option String × Uuid)) :
    content (applyBackfill ext request db).tables = (content db.tables).backfill ext request := by
  rcases request with _ | ⟨role, _ | email, userId⟩
  · rfl
  · rfl
  · obtain ⟨hbooking, hemail⟩ := content_updateBookings db.tables
      (fun b => b.userId role == none &&
        participantListed ext db.tables.events b.bookingUid role email)
      (·.setUserId role userId) fun b => b.setUserId_bookingUid role userId
    ext1
    · rfl
    · refine hbooking.trans ?_
      funext uid
      simp only [Ledger.backfill, content_lists h]
      simp only [content, Option.map_map]
      cases hfind : findBooking uid db.tables.bookings with
      | none => rfl
      | some b =>
        simp only [Option.map_some, Function.comp, findBooking_uid hfind, Bool.and_eq_true,
          beq_iff_eq, cellOf]
        congr
    · exact hemail

/-- No row stems from an event that is not stored. -/
lemma ownRows_insertRow (h : db.WellFormed) (hd : isDuplicate event db = false) (ref : Nat)
    (jobId? : Option String) :
    (insertRow event db).tables.OwnRows event.eventId ref jobId? := by
  have hnot := not_mem_eventIds hd
  exact {
    telegrams := fun l hl hs => absurd (hs ▸ h.telegramSources l hl) hnot
    chats := fun l hl hs => absurd (hs ▸ h.chatSources l hl) hnot
    videos := fun l hl hs => absurd (hs ▸ h.videoSources l hl) hnot
    lifecycles := fun l hl hs => absurd (hs ▸ h.lifecycleSources l hl) hnot
    statuses := fun l hl hs => absurd (hs ▸ h.statusSources l hl) hnot }

lemma mem_eventIds_insertRow (event : ParsedEvent) (db : Db) :
    event.eventId ∈ (insertRow event db).tables.eventIds := by
  simp [Tables.eventIds, insertRow, EventRepository.row]

theorem content_ingest (h : db.WellFormed) (queueName : String) :
    (ingestEffect ext queueName event db).map (fun db' => content db'.tables) =
      (content db.tables).ingest ext queueName event := by
  unfold ingestEffect Ledger.ingest
  by_cases hd : isDuplicate event db = true
  · rw [if_pos hd, if_pos ((content_conflicts h).mpr hd)]
    rfl
  · rw [if_neg hd, if_neg fun hc => hd ((content_conflicts h).mp hc)]
    have hd' : isDuplicate event db = false := Bool.eq_false_iff.mpr hd
    have hwf := h.insertRow hd'
    rw [← content_insertRow hd']
    unfold processEffect Ledger.process
    by_cases ht : event.eventType = EventType.userSynced.value
    · rw [if_pos ht, if_pos ht]
      cases backfillRequest ext event.payload with
      | error e => rfl
      | ok request => exact congrArg Except.ok (content_backfill hwf request)
    · rw [if_neg ht, if_neg ht]
      cases event.bookingId with
      | none => rfl
      | some uid =>
        by_cases hu : uid = ""
        · simp only [hu, if_true]
          rfl
        · simp only [hu, if_false]
          exact content_process_booking hwf (mem_eventIds_insertRow event db)
            (ownRows_insertRow h hd' _ _)

/-- Saving and then reading is reading and then recording. -/
theorem content_saveEffect (h : db.WellFormed) (now : Timestamp) (m : Message) :
    (saveEffect ext now m db).map (fun db' => content db'.tables) =
      (content db.tables).record ext now m := by
  unfold saveEffect Ledger.record
  cases EventParser.parse ext now m with
  | error e => rfl
  | ok event => exact content_ingest h m.queueName

end Events

end EventSaver
