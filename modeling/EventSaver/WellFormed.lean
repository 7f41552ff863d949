import EventSaver.ProjectionWrites
import EventSaver.UserIdBackfill

/-!
# Well-formed databases

The unique constraints, the references between the tables and the use of the sequences, as an
invariant of every transaction.
-/

namespace EventSaver
open JsonData TableData EffectProgram

namespace Tables

def bookingIds (t : Tables) : List Nat := t.bookings.map (·.id)

def eventIds (t : Tables) : List String := t.events.map (·.eventId)

def notificationIds (t : Tables) : List Nat := t.emailNotifications.map (·.id)

end Tables

/-- Every row refers to one of the given ids. -/
def RefersTo {α : Type} (ids : List Nat) (table : List (Linked α)) : Prop :=
  ∀ l ∈ table, l.ref ∈ ids

/-- Every row stems from one of the given events. -/
def StemsFrom {α : Type} (eventIds : List String) (source : α → String) (table : List (Linked α)) :
    Prop :=
  ∀ l ∈ table, source l.row ∈ eventIds

structure Db.WellFormed (db : Db) : Prop where
  events : db.tables.events.Pairwise fun e e' => e'.conflicts e = false
  uids : (db.tables.bookings.map fun b => b.bookingUid).Nodup
  ids : db.tables.bookingIds.Nodup
  ids_lt : ∀ id ∈ db.tables.bookingIds, id < db.bookingsSeq
  jobs : (db.tables.emailNotifications.map fun n => n.jobId).Nodup
  notificationIds : db.tables.notificationIds.Nodup
  notificationIds_lt : ∀ id ∈ db.tables.notificationIds, id < db.notificationsSeq
  organizerHistory : RefersTo db.tables.bookingIds db.tables.organizerHistory
  meetingLinks : RefersTo db.tables.bookingIds db.tables.meetingLinks
  notifications : ∀ n ∈ db.tables.emailNotifications, n.bookingRefId ∈ db.tables.bookingIds
  telegrams : RefersTo db.tables.bookingIds db.tables.telegramNotifications
  statuses : RefersTo db.tables.notificationIds db.tables.emailStatusHistory
  chats : RefersTo db.tables.bookingIds db.tables.chatEvents
  videos : RefersTo db.tables.bookingIds db.tables.videoEvents
  lifecycles : RefersTo db.tables.bookingIds db.tables.lifecycleEvents
  telegramSources : StemsFrom db.tables.eventIds (·.sourceEventId) db.tables.telegramNotifications
  statusSources : StemsFrom db.tables.eventIds (·.sourceEventId) db.tables.emailStatusHistory
  chatSources : StemsFrom db.tables.eventIds (·.rawEventId) db.tables.chatEvents
  videoSources : StemsFrom db.tables.eventIds (·.rawEventId) db.tables.videoEvents
  lifecycleSources : StemsFrom db.tables.eventIds (·.rawEventId) db.tables.lifecycleEvents

section References

variable {α : Type} {ids ids' : List Nat} {eventIds eventIds' : List String} {source : α → String}
  {table : List (Linked α)} {l : Linked α}

lemma RefersTo.mono (h : RefersTo ids table) (hids : ids ⊆ ids') : RefersTo ids' table :=
  fun l hl => hids (h l hl)

lemma RefersTo.append (h : RefersTo ids table) (hl : l.ref ∈ ids) : RefersTo ids (table ++ [l]) := by
  intro l' hl'
  rcases List.mem_append.mp hl' with hl' | hl'
  · exact h l' hl'
  · rw [List.mem_singleton.mp hl']
    exact hl

lemma RefersTo.insertUnless {p : Linked α → Bool} (h : RefersTo ids table) (hl : l.ref ∈ ids) :
    RefersTo ids (insertUnless p l table) := by
  intro l' hl'
  rcases mem_insertUnless hl' with rfl | hl'
  · exact hl
  · exact h l' hl'

lemma StemsFrom.mono (h : StemsFrom eventIds source table) (hids : eventIds ⊆ eventIds') :
    StemsFrom eventIds' source table :=
  fun l hl => hids (h l hl)

lemma StemsFrom.insertUnless {p : Linked α → Bool} (h : StemsFrom eventIds source table)
    (hl : source l.row ∈ eventIds) : StemsFrom eventIds source (insertUnless p l table) := by
  intro l' hl'
  rcases mem_insertUnless hl' with rfl | hl'
  · exact hl
  · exact h l' hl'

lemma RefersTo.updateWhere {p : Linked α → Bool} {f : Linked α → Linked α}
    (h : RefersTo ids table) (hf : ∀ l, (f l).ref = l.ref) :
    RefersTo ids (updateWhere p f table) := by
  intro l hl
  obtain ⟨l', hl', rfl⟩ := mem_updateWhere hl
  split
  · rw [hf]
    exact h l' hl'
  · exact h l' hl'

lemma StemsFrom.updateWhere {p : Linked α → Bool} {f : Linked α → Linked α}
    (h : StemsFrom eventIds source table) (hf : ∀ l, source (f l).row = source l.row) :
    StemsFrom eventIds source (updateWhere p f table) := by
  intro l hl
  obtain ⟨l', hl', rfl⟩ := mem_updateWhere hl
  split
  · rw [hf]
    exact h l' hl'
  · exact h l' hl'

end References

namespace Db.WellFormed

variable {db : Db}

lemma empty : Db.empty.WellFormed := by
  constructor <;> simp [Db.empty, Tables.empty, Tables.bookingIds, Tables.notificationIds, RefersTo,
    StemsFrom]

/-- A rollback keeps the tables of the start and the sequences reached. -/
lemma rollback (h : db.WellFormed) {reached : Db} (hb : db.bookingsSeq ≤ reached.bookingsSeq)
    (hn : db.notificationsSeq ≤ reached.notificationsSeq) : (db.rollback reached).WellFormed :=
  { h with
    ids_lt := fun id hid => (h.ids_lt id hid).trans_le hb
    notificationIds_lt := fun id hid => (h.notificationIds_lt id hid).trans_le hn }

/-- A new event conflicts with no row and is the source of none. -/
lemma insertRow (h : db.WellFormed) {event : ParsedEvent} (hd : isDuplicate event db = false) :
    (insertRow event db).WellFormed := by
  have hsub : db.tables.eventIds ⊆ (EventSaver.insertRow event db).tables.eventIds := by
    intro id hid
    simp only [Tables.eventIds, EventSaver.insertRow, List.map_append]
    exact List.mem_append_left _ hid
  exact { h with
    events := by
      refine List.pairwise_append.mpr ⟨h.events, List.pairwise_singleton _ _, ?_⟩
      intro e he e' he'
      rw [List.mem_singleton.mp he']
      have hnone := List.any_eq_false.mp hd e he
      simpa using hnone
    telegramSources := h.telegramSources.mono hsub
    statusSources := h.statusSources.mono hsub
    chatSources := h.chatSources.mono hsub
    videoSources := h.videoSources.mono hsub
    lifecycleSources := h.lifecycleSources.mono hsub }

/-- New bookings rows, with distinct keys and among them the ids rows refer to. -/
lemma withBookings (h : db.WellFormed) {bookings : List BookingRow} {seq : Nat}
    (huids : (bookings.map fun b => b.bookingUid).Nodup)
    (hids : (bookings.map fun b => b.id).Nodup) (hlt : ∀ b ∈ bookings, b.id < seq)
    (hsub : db.tables.bookingIds ⊆ bookings.map fun b => b.id) :
    { db with bookingsSeq := seq, tables.bookings := bookings }.WellFormed :=
  { h with
    uids := huids
    ids := hids
    ids_lt := by
      intro id hid
      obtain ⟨b, hb, rfl⟩ := List.mem_map.mp hid
      exact hlt b hb
    organizerHistory := h.organizerHistory.mono hsub
    meetingLinks := h.meetingLinks.mono hsub
    notifications := fun n hn => hsub (h.notifications n hn)
    telegrams := h.telegrams.mono hsub
    chats := h.chats.mono hsub
    videos := h.videos.mono hsub
    lifecycles := h.lifecycles.mono hsub }

/-- An update of bookings rows that keeps their keys. -/
lemma updateBookings (h : db.WellFormed) (p : BookingRow → Bool) (f : Booking → Booking)
    (hf : ∀ b, (f b).bookingUid = b.bookingUid) :
    { db with
      tables.bookings :=
        updateWhere p (fun b => b.update f) db.tables.bookings }.WellFormed := by
  have hids : (updateWhere p (fun b => b.update f) db.tables.bookings).map (fun b => b.id) =
      db.tables.bookingIds := map_updateWhere fun b => rfl
  have huids : (updateWhere p (fun b => b.update f) db.tables.bookings).map (fun b => b.bookingUid) =
      db.tables.bookings.map fun b => b.bookingUid := map_updateWhere fun b => hf b.toBooking
  refine h.withBookings (huids ▸ h.uids) (hids ▸ h.ids) ?_ (hids ▸ List.Subset.refl _)
  intro b hb
  exact h.ids_lt b.id (hids ▸ List.mem_map_of_mem hb)

lemma upsertBooking (h : db.WellFormed) (row : Booking) :
    { db with
      bookingsSeq := db.bookingsSeq + 1
      tables.bookings := upsertBookingRow db.bookingsSeq row db.tables.bookings }.WellFormed := by
  have hids := map_upsertWhere (fun b : BookingRow => b.bookingUid == row.bookingUid)
    (fun b => b.update row.merge) { row with id := db.bookingsSeq } db.tables.bookings
    (fun b => b.id) fun b => rfl
  refine h.withBookings ?_ ?_ ?_ ?_
  · exact nodup_upsertWhere (fun b => rfl) (fun b hb => by simpa using hb) h.uids
  · unfold upsertBookingRow
    rw [hids, List.nodup_append]
    refine ⟨h.ids, by split <;> simp, ?_⟩
    rintro id hid id' hid' rfl
    split at hid'
    · simp at hid'
    · rw [List.mem_singleton] at hid'
      exact absurd (h.ids_lt _ hid) (by simp [hid'])
  · intro b hb
    rcases mem_upsertWhere hb with rfl | ⟨b', hb', rfl⟩
    · exact Nat.lt_succ_self _
    · have hlt := h.ids_lt b'.id (List.mem_map_of_mem hb')
      split
      · exact Nat.lt_succ_of_lt hlt
      · exact Nat.lt_succ_of_lt hlt
  · intro id hid
    unfold upsertBookingRow
    rw [hids]
    exact List.mem_append_left _ hid

lemma recordOrganizer (h : db.WellFormed) {ref : Nat} (href : ref ∈ db.tables.bookingIds)
    (row : OrganizerAssignment) :
    { db with
      tables.organizerHistory :=
        recordOrganizer ref row db.tables.organizerHistory }.WellFormed :=
  { h with
    organizerHistory := by
      change RefersTo db.tables.bookingIds (EventSaver.recordOrganizer ref row _)
      unfold EventSaver.recordOrganizer
      split
      · exact h.organizerHistory.append href
      · exact h.organizerHistory }

/-- New notifications, with distinct keys and among them the ids rows refer to. -/
lemma withNotifications (h : db.WellFormed) {notifications : List EmailNotificationRow} {seq : Nat}
    (hjobs : (notifications.map fun n => n.jobId).Nodup)
    (hids : (notifications.map fun n => n.id).Nodup) (hlt : ∀ n ∈ notifications, n.id < seq)
    (hsub : db.tables.notificationIds ⊆ notifications.map fun n => n.id)
    (hrefs : ∀ n ∈ notifications, n.bookingRefId ∈ db.tables.bookingIds) :
    { db with notificationsSeq := seq, tables.emailNotifications := notifications }.WellFormed :=
  { h with
    jobs := hjobs
    notificationIds := hids
    notificationIds_lt := by
      intro id hid
      obtain ⟨n, hn, rfl⟩ := List.mem_map.mp hid
      exact hlt n hn
    notifications := hrefs
    statuses := h.statuses.mono hsub }

lemma upsertNotification (h : db.WellFormed) {ref : Nat} (href : ref ∈ db.tables.bookingIds)
    (merge : EmailNotification → EmailNotification → EmailNotification)
    (hmerge : ∀ row n, (merge row n).jobId = n.jobId) (row : EmailNotification) :
    { db with
      notificationsSeq := db.notificationsSeq + 1
      tables.emailNotifications :=
        upsertNotification merge db.notificationsSeq ref row
          db.tables.emailNotifications }.WellFormed := by
  have hids := map_upsertWhere (fun n : EmailNotificationRow => n.jobId == row.jobId)
    (fun n => { merge row n.toEmailNotification with id := n.id, bookingRefId := ref })
    { row with id := db.notificationsSeq, bookingRefId := ref } db.tables.emailNotifications
    (fun n => n.id) fun n => rfl
  refine h.withNotifications ?_ ?_ ?_ ?_ ?_
  · exact nodup_upsertWhere (fun n => hmerge row n.toEmailNotification)
      (fun n hn => by simpa using hn) h.jobs
  · unfold EventSaver.upsertNotification
    rw [hids, List.nodup_append]
    refine ⟨h.notificationIds, by split <;> simp, ?_⟩
    rintro id hid id' hid' rfl
    split at hid'
    · simp at hid'
    · rw [List.mem_singleton] at hid'
      exact absurd (h.notificationIds_lt _ hid) (by simp [hid'])
  · intro n hn
    rcases mem_upsertWhere hn with rfl | ⟨n', hn', rfl⟩
    · exact Nat.lt_succ_self _
    · have hlt := h.notificationIds_lt n'.id (List.mem_map_of_mem hn')
      split
      · exact Nat.lt_succ_of_lt hlt
      · exact Nat.lt_succ_of_lt hlt
  · intro id hid
    unfold EventSaver.upsertNotification
    rw [hids]
    exact List.mem_append_left _ hid
  · intro n hn
    rcases mem_upsertWhere hn with rfl | ⟨n', hn', rfl⟩
    · exact href
    · split
      · exact href
      · exact h.notifications n' hn'

lemma insertStatusHistory (h : db.WellFormed) (jobId : String) {row : EmailStatus}
    (hsource : row.sourceEventId ∈ db.tables.eventIds) :
    { db with
      tables.emailStatusHistory :=
        insertStatusHistory db.tables.emailNotifications jobId row
          db.tables.emailStatusHistory }.WellFormed := by
  unfold EventSaver.insertStatusHistory
  cases hfind : findNotification jobId db.tables.emailNotifications with
  | none => exact h
  | some n =>
    have hn : n.id ∈ db.tables.notificationIds :=
      List.mem_map_of_mem (List.mem_of_find?_eq_some hfind)
    exact { h with
      statuses := h.statuses.insertUnless hn
      statusSources := h.statusSources.insertUnless hsource }

/-- A write for a stored event and an existing booking. -/
lemma write (h : db.WellFormed) {w : ProjectionWrite} {eventId : String} {ref : Nat}
    (hw : w.FiledUnder eventId ref) (hevent : eventId ∈ db.tables.eventIds)
    (href : ref ∈ db.tables.bookingIds) : (w.apply db).WellFormed := by
  cases w with
  | upsertMeetingLink r row =>
    obtain ⟨rfl, _⟩ := hw
    exact { h with
      meetingLinks := by
        intro l hl
        rcases mem_upsertWhere hl with rfl | ⟨l', hl', rfl⟩
        · exact href
        · split
          · exact h.meetingLinks l' hl'
          · exact h.meetingLinks l' hl' }
  | deleteMeetingLink r userId =>
    exact { h with meetingLinks := fun l hl => h.meetingLinks l (List.mem_filter.mp hl).1 }
  | upsertEmailSent r row =>
    obtain ⟨rfl, _⟩ := hw
    exact h.upsertNotification href .mergeSent (fun _ _ => rfl) row
  | upsertEmailStatus r row =>
    obtain ⟨rfl, _⟩ := hw
    exact h.upsertNotification href .mergeStatus (fun _ _ => rfl) row
  | insertTelegramNotification r row =>
    obtain ⟨rfl, rfl⟩ := hw
    exact { h with
      telegrams := h.telegrams.insertUnless href
      telegramSources := h.telegramSources.insertUnless hevent }
  | insertEmailStatusHistory jobId row =>
    obtain rfl : row.sourceEventId = eventId := hw
    exact h.insertStatusHistory jobId hevent
  | insertChatEvent r row =>
    obtain ⟨rfl, rfl⟩ := hw
    exact { h with
      chats := h.chats.insertUnless href
      chatSources := h.chatSources.insertUnless hevent }
  | updateChatRead r reader messageId time =>
    exact { h with
      chats := h.chats.updateWhere fun l => rfl
      chatSources := h.chatSources.updateWhere fun l => rfl }
  | insertVideoEvent r row =>
    obtain ⟨rfl, rfl⟩ := hw
    exact { h with
      videos := h.videos.insertUnless href
      videoSources := h.videoSources.insertUnless hevent }
  | insertLifecycleEvent r row =>
    obtain ⟨rfl, rfl⟩ := hw
    exact { h with
      lifecycles := h.lifecycles.insertUnless href
      lifecycleSources := h.lifecycleSources.insertUnless hevent }

end Db.WellFormed

/-- The booking has a row with the given id. -/
def Db.Located (db : Db) (bookingUid : String) (ref : Nat) : Prop :=
  ∃ b, findBooking bookingUid db.tables.bookings = some b ∧ b.id = ref

namespace Db.Located

variable {db : Db} {bookingUid : String} {ref : Nat}

lemma mem (h : db.Located bookingUid ref) : ref ∈ db.tables.bookingIds := by
  obtain ⟨b, hb, rfl⟩ := h
  exact List.mem_map_of_mem (List.mem_of_find?_eq_some hb)

end Db.Located

lemma located_of_known {queueName bookingId : String} {db : Db}
    (h : bookingKnown queueName db bookingId = true) :
    db.Located bookingId (bookingRef db bookingId) := by
  simp only [bookingKnown, Bool.and_eq_true, Option.isSome_iff_exists] at h
  obtain ⟨_, b, hb⟩ := h
  exact ⟨b, hb, by rw [bookingRef, hb]; rfl⟩

/-- After the upsert of a plan its booking has the row the plan refers to. -/
lemma located_applyUpsert {ext : Externals} {queueName : String} {event : ParsedEvent}
    {bookingId : String} {work : BookingWork} {db : Db}
    (h : plan ext queueName event bookingId (bookingKnown queueName db bookingId)
      (bookingRef db bookingId) = .ok work) :
    (work.applyUpsert db).Located bookingId (bookingRef db bookingId) := by
  obtain ⟨hknown, hnew⟩ := plan_upsert ext h
  unfold BookingWork.applyUpsert
  cases hk : bookingKnown queueName db bookingId with
  | true =>
    rw [hknown hk]
    exact located_of_known hk
  | false =>
    obtain ⟨row, hrow, rfl⟩ := hnew hk
    rw [hrow]
    refine ⟨_, findBooking_upsertBookingRow db.bookingsSeq row db.tables.bookings, ?_⟩
    rw [bookingRef]
    cases findBooking row.bookingUid db.tables.bookings <;> rfl

namespace Db.WellFormed

variable {db : Db}

lemma applyUpsert (h : db.WellFormed) (work : BookingWork) : (work.applyUpsert db).WellFormed := by
  unfold BookingWork.applyUpsert
  cases work.upsert with
  | none => exact h
  | some row => exact h.upsertBooking row

lemma applyOrganizer (h : db.WellFormed) (work : BookingWork) {ref : Nat}
    (href : ref ∈ db.tables.bookingIds) : (work.applyOrganizer ref db).WellFormed := by
  unfold BookingWork.applyOrganizer
  cases work.organizer with
  | none => exact h
  | some row => exact h.recordOrganizer href row

lemma applyClient (h : db.WellFormed) (work : BookingWork) (ref : Nat) :
    (work.applyClient ref db).WellFormed := by
  unfold BookingWork.applyClient
  cases work.newClient with
  | none => exact h
  | some u => exact h.updateBookings _ _ fun b => b.setUserId_bookingUid .client u

lemma writes (h : db.WellFormed) {ws : List ProjectionWrite} {eventId : String} {ref : Nat}
    (hws : ∀ w ∈ ws, w.FiledUnder eventId ref) (hevent : eventId ∈ db.tables.eventIds)
    (href : ref ∈ db.tables.bookingIds) : (ws.foldl ProjectionWrite.apply db).WellFormed := by
  induction ws generalizing db with
  | nil => exact h
  | cons w rest ih =>
    rw [List.forall_mem_cons] at hws
    refine ih (h.write hws.1 hevent href) hws.2 ?_ ?_
    · rwa [Tables.eventIds, w.apply_events]
    · rwa [Tables.bookingIds, w.apply_bookings]

variable {ext : Externals} {queueName : String} {event : ParsedEvent} {db' : Db}

lemma processBooking (h : db.WellFormed) {bookingId : String}
    (hevent : event.eventId ∈ db.tables.eventIds)
    (he : processBookingEffect ext queueName event bookingId db = .ok db') : db'.WellFormed := by
  obtain ⟨work, hplan, rfl⟩ := except_map_eq_ok.mp he
  have hloc := (located_applyUpsert hplan).mem
  have hwork := ((h.applyUpsert work).applyOrganizer work hloc).applyClient work
    (bookingRef db bookingId)
  refine hwork.writes (fun w hw => (plan_writes ext hplan w hw).1) ?_ ?_
  · simpa [Tables.eventIds] using hevent
  · rw [Tables.bookingIds, work.applyClient_bookingIds, work.applyOrganizer_bookings]
    exact hloc

lemma backfill (h : db.WellFormed) (request : Option (RecipientRole × Option String × Uuid)) :
    (applyBackfill ext request db).WellFormed := by
  rcases request with _ | ⟨role, _ | email, userId⟩
  · exact h
  · exact h
  · exact h.updateBookings _ _ fun b => b.setUserId_bookingUid role userId

lemma process (h : db.WellFormed) (hevent : event.eventId ∈ db.tables.eventIds)
    (he : processEffect ext queueName event db = .ok db') : db'.WellFormed := by
  unfold processEffect at he
  split at he
  · obtain ⟨request, _, he⟩ := bind_eq_ok.mp he
    cases he
    exact h.backfill request
  · split at he
    · cases he
      exact h
    · split at he
      · cases he
        exact h
      · exact h.processBooking hevent he

lemma ingest (h : db.WellFormed) (he : ingestEffect ext queueName event db = .ok db') :
    db'.WellFormed := by
  unfold ingestEffect at he
  by_cases hd : isDuplicate event db = true
  · rw [if_pos hd] at he
    cases he
    exact h
  · rw [if_neg hd] at he
    refine (h.insertRow (Bool.eq_false_iff.mpr hd)).process ?_ he
    simp [Tables.eventIds, EventSaver.insertRow, EventRepository.row]

/-- Every transaction keeps a database well-formed, under every fault. -/
theorem saveEventUnder (h : db.WellFormed) (ext : Externals) (fault : Fault Exc)
    (now : Timestamp) (m : Message) : (saveEventUnder ext fault now m db).2.WellFormed := by
  have hnone : (saveEvent ext now m db).2.WellFormed := by
    cases heffect : saveEffect ext now m db with
    | ok db' =>
      rw [saveEvent_ok ext heffect]
      obtain ⟨event, _, he⟩ := bind_eq_ok.mp heffect
      exact h.ingest he
    | error e =>
      obtain ⟨reached, hsave, hseq⟩ := saveEvent_error ext heffect
      rw [hsave]
      exact h.rollback hseq.1 hseq.2
  cases hc : commits (SqlExecutor.execute ext) fault (IngestEvent.execute ext now m) db with
  | true =>
    rw [EventSaver.saveEventUnder, (transact_of_commits _ _ hc).1]
    exact hnone
  | false =>
    obtain ⟨e, reached, hsave, hseq⟩ := saveEventUnder_of_not_commits ext hc
    rw [hsave]
    exact h.rollback hseq.1 hseq.2

/-- A cycle of the periodic backfill sets ids and nothing else. -/
theorem runOnce (h : db.WellFormed) (ext : Externals)
    (resolver : Nat → String → RecipientRole → Except Exc Resolution) (batchSize : Nat) :
    (runOnce ext resolver batchSize db).2.WellFormed := by
  refine runOnce_rel (R := fun db db' => db.WellFormed → db'.WellFormed) (fun _ h => h)
    (fun h₁ h₂ h => h₂ (h₁ h)) (fun db id role userId h => ?_) resolver batchSize db h
  exact h.updateBookings _ _ fun b => b.setUserId_bookingUid role userId

end Db.WellFormed

/-- The databases that save attempts, with any faults, and cycles of the periodic backfill lead
to. -/
inductive Db.Reachable (ext : Externals) : Db → Prop
  | empty : Reachable ext .empty
  | save {db : Db} (h : Reachable ext db) (fault : Fault Exc) (now : Timestamp) (m : Message) :
    Reachable ext (saveEventUnder ext fault now m db).2
  | cycle {db : Db} (h : Reachable ext db)
      (resolver : Nat → String → RecipientRole → Except Exc Resolution) (batchSize : Nat) :
    Reachable ext (runOnce ext resolver batchSize db).2

theorem Db.Reachable.wellFormed {ext : Externals} {db : Db} (h : db.Reachable ext) :
    db.WellFormed := by
  induction h with
  | empty => exact .empty
  | save _ fault now m ih => exact ih.saveEventUnder ext fault now m
  | cycle _ resolver batchSize ih => exact ih.runOnce ext resolver batchSize

end EventSaver
