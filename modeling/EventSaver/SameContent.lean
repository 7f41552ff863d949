import EventSaver.Refinement

/-!
# Contents up to the numbering of ids

Two databases with the same ledger hold the same rows in every table, once the surrogate ids of
the bookings and of the notifications are renamed.
-/

namespace EventSaver
open JsonData TableData EffectProgram

namespace Tables

/-- The tables with the bookings renumbered by `ρ` and the notifications by `ν`. -/
def renumber (ρ ν : Nat → Nat) (t : Tables) : Tables where
  events := t.events
  bookings := t.bookings.map fun b => { b with id := ρ b.id }
  organizerHistory := t.organizerHistory.map (Linked.relabel ρ)
  meetingLinks := t.meetingLinks.map (Linked.relabel ρ)
  emailNotifications := t.emailNotifications.map fun n =>
    { n with id := ν n.id, bookingRefId := ρ n.bookingRefId }
  telegramNotifications := t.telegramNotifications.map (Linked.relabel ρ)
  emailStatusHistory := t.emailStatusHistory.map (Linked.relabel ν)
  chatEvents := t.chatEvents.map (Linked.relabel ρ)
  videoEvents := t.videoEvents.map (Linked.relabel ρ)
  lifecycleEvents := t.lifecycleEvents.map (Linked.relabel ρ)

/-- Every table holds the same rows, in whatever order. -/
structure SameRows (t t' : Tables) : Prop where
  events : t.events.Perm t'.events
  bookings : t.bookings.Perm t'.bookings
  organizerHistory : t.organizerHistory.Perm t'.organizerHistory
  meetingLinks : t.meetingLinks.Perm t'.meetingLinks
  emailNotifications : t.emailNotifications.Perm t'.emailNotifications
  telegramNotifications : t.telegramNotifications.Perm t'.telegramNotifications
  emailStatusHistory : t.emailStatusHistory.Perm t'.emailStatusHistory
  chatEvents : t.chatEvents.Perm t'.chatEvents
  videoEvents : t.videoEvents.Perm t'.videoEvents
  lifecycleEvents : t.lifecycleEvents.Perm t'.lifecycleEvents

/-- The tables hold the same rows up to the numbering of the auto-increment ids. -/
def SameContent (t t' : Tables) : Prop :=
  ∃ ρ ν : Nat → Nat, Set.InjOn ρ {id | id ∈ t.bookingIds} ∧
    Set.InjOn ν {id | id ∈ t.notificationIds} ∧ (t.renumber ρ ν).SameRows t'

/-- The id in `t'` of the booking with the given id in `t`. -/
def bookingRenaming (t t' : Tables) (id : Nat) : Nat :=
  ((bookingUidOf t id).bind fun uid => (findBooking uid t'.bookings).map (·.id)).getD id

/-- The id in `t'` of the notification with the given id in `t`. -/
def notificationRenaming (t t' : Tables) (id : Nat) : Nat :=
  ((t.emailNotifications.find? fun n => n.id == id).bind fun n =>
    (findNotification n.jobId t'.emailNotifications).map (·.id)).getD id

end Tables

section SameLedger

variable {db db' : Db}

lemma Db.WellFormed.findBooking_eq (h : db.WellFormed) {b : BookingRow}
    (hb : b ∈ db.tables.bookings) : findBooking b.bookingUid db.tables.bookings = some b :=
  find?_eq_some_of_mem h.uids hb

/-- The row of the same booking in a database with the same ledger. -/
lemma booking_counterpart (h : db.WellFormed) (hc : content db.tables = content db'.tables)
    {b : BookingRow} (hb : b ∈ db.tables.bookings) :
    ∃ b' ∈ db'.tables.bookings, cellOf db'.tables b' = cellOf db.tables b ∧
      db.tables.bookingRenaming db'.tables b.id = b'.id := by
  have hfind := h.findBooking_eq hb
  have hcell := congrFun (congrArg Ledger.booking hc) b.bookingUid
  simp only [content, hfind, Option.map_some] at hcell
  obtain ⟨b', hb', heq⟩ := Option.map_eq_some_iff.mp hcell.symm
  refine ⟨b', List.mem_of_find?_eq_some hb', heq, ?_⟩
  rw [Tables.bookingRenaming, h.bookingUidOf_eq hfind]
  simp only [Option.bind_some, hb', Option.map_some, Option.getD_some]

lemma notification_counterpart (h : db.WellFormed) (hc : content db.tables = content db'.tables)
    {n : EmailNotificationRow} (hn : n ∈ db.tables.emailNotifications) :
    ∃ n' ∈ db'.tables.emailNotifications,
      emailCellOf db'.tables n' = emailCellOf db.tables n ∧
      db.tables.notificationRenaming db'.tables n.id = n'.id := by
  have hcell := congrFun (congrArg Ledger.email hc) n.jobId
  simp only [content, h.findNotification_eq hn, Option.map_some] at hcell
  obtain ⟨n', hn', heq⟩ := Option.map_eq_some_iff.mp hcell.symm
  have hfind : db.tables.emailNotifications.find? (fun n' => n'.id == n.id) = some n :=
    find?_eq_some_of_mem h.notificationIds hn
  refine ⟨n', List.mem_of_find?_eq_some hn', heq, ?_⟩
  rw [Tables.notificationRenaming, hfind]
  simp only [Option.bind_some, hn', Option.map_some, Option.getD_some]

lemma toBooking_of_cellOf {t t' : Tables} {b b' : BookingRow} (h : cellOf t' b' = cellOf t b) :
    b'.toBooking = b.toBooking :=
  congrArg BookingCell.booking h

variable (h : db.WellFormed) (h' : db'.WellFormed)
  (hc : content db.tables = content db'.tables)

include h h' hc

lemma bookingRenaming_eq {b b' : BookingRow} (hb : b ∈ db.tables.bookings)
    (hb' : b' ∈ db'.tables.bookings) (huid : b'.bookingUid = b.bookingUid) :
    db.tables.bookingRenaming db'.tables b.id = b'.id := by
  obtain ⟨b'', hb'', hcell, hid⟩ := booking_counterpart h hc hb
  have huid' : b''.bookingUid = b'.bookingUid :=
    (congrArg Booking.bookingUid (toBooking_of_cellOf hcell)).trans huid.symm
  rw [hid, List.inj_on_of_nodup_map h'.uids hb'' hb' huid']

lemma bookingRenaming_injOn :
    Set.InjOn (db.tables.bookingRenaming db'.tables) {id | id ∈ db.tables.bookingIds} := by
  intro id hid id' hid' heq
  obtain ⟨b, hb, rfl⟩ := List.mem_map.mp hid
  obtain ⟨b', hb', rfl⟩ := List.mem_map.mp hid'
  obtain ⟨c, hcmem, hcell, hρ⟩ := booking_counterpart h hc hb
  obtain ⟨c', hcmem', hcell', hρ'⟩ := booking_counterpart h hc hb'
  have hcc : c = c' :=
    List.inj_on_of_nodup_map h'.ids hcmem hcmem' (hρ.symm.trans (heq.trans hρ'))
  have huid : b.bookingUid = b'.bookingUid := by
    rw [← toBooking_of_cellOf hcell, ← toBooking_of_cellOf hcell', hcc]
  rw [List.inj_on_of_nodup_map h.uids hb hb' huid]

lemma notificationRenaming_injOn :
    Set.InjOn (db.tables.notificationRenaming db'.tables)
      {id | id ∈ db.tables.notificationIds} := by
  intro id hid id' hid' heq
  obtain ⟨n, hn, rfl⟩ := List.mem_map.mp hid
  obtain ⟨n', hn', rfl⟩ := List.mem_map.mp hid'
  obtain ⟨c, hcmem, hcell, hν⟩ := notification_counterpart h hc hn
  obtain ⟨c', hcmem', hcell', hν'⟩ := notification_counterpart h hc hn'
  have hcc : c = c' :=
    List.inj_on_of_nodup_map h'.notificationIds hcmem hcmem' (hν.symm.trans (heq.trans hν'))
  have hjob : n.jobId = n'.jobId := by
    have hn₁ : c.toEmailNotification = n.toEmailNotification := congrArg EmailCell.notification hcell
    have hn₂ : c'.toEmailNotification = n'.toEmailNotification :=
      congrArg EmailCell.notification hcell'
    rw [← hn₁, ← hn₂, hcc]
  rw [List.inj_on_of_nodup_map h.jobs hn hn' hjob]

/-- A table of rows that refer to bookings. -/
lemma perm_booking_table {α : Type} {table table' : List (Linked α)} (part : BookingCell → List α)
    (htable : RefersTo db.tables.bookingIds table) (htable' : RefersTo db'.tables.bookingIds table')
    (hpart : ∀ b, part (cellOf db.tables b) = rowsOf b.id table)
    (hpart' : ∀ b, part (cellOf db'.tables b) = rowsOf b.id table') :
    (table.map (Linked.relabel (db.tables.bookingRenaming db'.tables))).Perm table' := by
  refine perm_relabel (bookingRenaming_injOn h h' hc) ?_ ?_ htable htable' ?_
  · intro id hid
    obtain ⟨b', hb', rfl⟩ := List.mem_map.mp hid
    obtain ⟨b, hb, hcell, _⟩ := booking_counterpart h' hc.symm hb'
    have huid : b'.bookingUid = b.bookingUid :=
      congrArg Booking.bookingUid (toBooking_of_cellOf hcell).symm
    rw [← bookingRenaming_eq h h' hc hb hb' huid]
    exact List.mem_map_of_mem (List.mem_map_of_mem hb)
  · intro id hid
    obtain ⟨b, hb, rfl⟩ := List.mem_map.mp hid
    obtain ⟨b', hb', _, hρ⟩ := booking_counterpart h hc hb
    rw [hρ]
    exact List.mem_map_of_mem hb'
  · intro id hid
    obtain ⟨b, hb, rfl⟩ := List.mem_map.mp hid
    obtain ⟨b', hb', hcell, hρ⟩ := booking_counterpart h hc hb
    rw [hρ, ← hpart, ← hpart', hcell]

lemma perm_statuses :
    (db.tables.emailStatusHistory.map
      (Linked.relabel (db.tables.notificationRenaming db'.tables))).Perm
      db'.tables.emailStatusHistory := by
  refine perm_relabel (notificationRenaming_injOn h h' hc) ?_ ?_ h.statuses h'.statuses ?_
  · intro id hid
    obtain ⟨n', hn', rfl⟩ := List.mem_map.mp hid
    obtain ⟨n, hn, hcell, _⟩ := notification_counterpart h' hc.symm hn'
    obtain ⟨n'', hn'', hcell', hν⟩ := notification_counterpart h hc hn
    have hjob : n''.toEmailNotification = n'.toEmailNotification :=
      congrArg EmailCell.notification (hcell'.trans hcell)
    have heq := List.inj_on_of_nodup_map h'.jobs hn'' hn' (congrArg EmailNotification.jobId hjob)
    rw [← heq, ← hν]
    exact List.mem_map_of_mem (List.mem_map_of_mem hn)
  · intro id hid
    obtain ⟨n, hn, rfl⟩ := List.mem_map.mp hid
    obtain ⟨n', hn', _, hν⟩ := notification_counterpart h hc hn
    rw [hν]
    exact List.mem_map_of_mem hn'
  · intro id hid
    obtain ⟨n, hn, rfl⟩ := List.mem_map.mp hid
    obtain ⟨n', hn', hcell, hν⟩ := notification_counterpart h hc hn
    rw [hν]
    exact (congrArg EmailCell.statusHistory hcell).symm

lemma perm_events : db.tables.events.Perm db'.tables.events := by
  rw [List.perm_ext_iff_of_nodup (.of_map _ h.eventIds_nodup) (.of_map _ h'.eventIds_nodup)]
  intro e
  rw [← content_event_eq_some h, ← content_event_eq_some h', hc]

lemma perm_bookings :
    (db.tables.bookings.map fun b =>
      { b with id := db.tables.bookingRenaming db'.tables b.id }).Perm db'.tables.bookings := by
  have huids : ((db.tables.bookings.map fun b =>
      { b with id := db.tables.bookingRenaming db'.tables b.id }).map
        fun b => b.bookingUid).Nodup := by
    rw [List.map_map]
    exact h.uids
  rw [List.perm_ext_iff_of_nodup (.of_map _ huids) (.of_map _ h'.uids)]
  intro b'
  rw [List.mem_map]
  constructor
  · rintro ⟨b, hb, rfl⟩
    obtain ⟨b', hb', hcell, hρ⟩ := booking_counterpart h hc hb
    rw [hρ, ← toBooking_of_cellOf hcell]
    exact hb'
  · intro hb'
    obtain ⟨b, hb, hcell, _⟩ := booking_counterpart h' hc.symm hb'
    have hbooking := toBooking_of_cellOf hcell
    refine ⟨b, hb, ?_⟩
    rw [bookingRenaming_eq h h' hc hb hb' (congrArg Booking.bookingUid hbooking).symm, hbooking]

/-- The bookings the notifications of one job refer to are renamed to each other. -/
lemma bookingRefId_renaming {n n' : EmailNotificationRow} (hn : n ∈ db.tables.emailNotifications)
    (hn' : n' ∈ db'.tables.emailNotifications)
    (hcell : emailCellOf db'.tables n' = emailCellOf db.tables n) :
    db.tables.bookingRenaming db'.tables n.bookingRefId = n'.bookingRefId := by
  obtain ⟨b, hb, hid⟩ := List.mem_map.mp (h.notifications n hn)
  obtain ⟨b', hb', hid'⟩ := List.mem_map.mp (h'.notifications n' hn')
  have huid : some b'.bookingUid = some b.bookingUid := by
    rw [← h.bookingUidOf_eq (h.findBooking_eq hb), ← h'.bookingUidOf_eq (h'.findBooking_eq hb'),
      hid, hid']
    exact congrArg EmailCell.bookingUid hcell
  rw [← hid, ← hid']
  exact bookingRenaming_eq h h' hc hb hb' (Option.some.inj huid)

lemma perm_notifications :
    (db.tables.emailNotifications.map fun n =>
      { n with
        id := db.tables.notificationRenaming db'.tables n.id
        bookingRefId := db.tables.bookingRenaming db'.tables n.bookingRefId }).Perm
      db'.tables.emailNotifications := by
  have hjobs : ((db.tables.emailNotifications.map fun n =>
      { n with
        id := db.tables.notificationRenaming db'.tables n.id
        bookingRefId := db.tables.bookingRenaming db'.tables n.bookingRefId }).map
        fun n => n.jobId).Nodup := by
    rw [List.map_map]
    exact h.jobs
  rw [List.perm_ext_iff_of_nodup (.of_map _ hjobs) (.of_map _ h'.jobs)]
  -- the row of `db'` for a row of `db`
  have hrow {n : EmailNotificationRow} (hn : n ∈ db.tables.emailNotifications) :
      ∃ n' ∈ db'.tables.emailNotifications, n' = { n with
        id := db.tables.notificationRenaming db'.tables n.id
        bookingRefId := db.tables.bookingRenaming db'.tables n.bookingRefId } := by
    obtain ⟨n', hn', hcell, hν⟩ := notification_counterpart h hc hn
    have hnotification : n'.toEmailNotification = n.toEmailNotification :=
      congrArg EmailCell.notification hcell
    refine ⟨n', hn', ?_⟩
    rw [hν, bookingRefId_renaming h h' hc hn hn' hcell, ← hnotification]
  intro n'
  rw [List.mem_map]
  constructor
  · rintro ⟨n, hn, rfl⟩
    obtain ⟨n', hn', heq⟩ := hrow hn
    exact heq ▸ hn'
  · intro hn'
    obtain ⟨n, hn, hcell, _⟩ := notification_counterpart h' hc.symm hn'
    obtain ⟨n'', hn'', heq⟩ := hrow hn
    refine ⟨n, hn, heq.symm.trans ?_⟩
    have hjob : n''.jobId = n'.jobId := by
      rw [heq]
      exact congrArg (fun cell => cell.notification.jobId) hcell
    exact List.inj_on_of_nodup_map h'.jobs hn'' hn' hjob

/-- Databases with one ledger have the same content. -/
theorem sameContent_of_content_eq : db.tables.SameContent db'.tables :=
  ⟨db.tables.bookingRenaming db'.tables, db.tables.notificationRenaming db'.tables,
    bookingRenaming_injOn h h' hc, notificationRenaming_injOn h h' hc,
    { events := perm_events h h' hc
      bookings := perm_bookings h h' hc
      organizerHistory := perm_booking_table h h' hc BookingCell.organizerHistory
        h.organizerHistory h'.organizerHistory (fun _ => rfl) fun _ => rfl
      meetingLinks := perm_booking_table h h' hc BookingCell.meetingLinks
        h.meetingLinks h'.meetingLinks (fun _ => rfl) fun _ => rfl
      emailNotifications := perm_notifications h h' hc
      telegramNotifications := perm_booking_table h h' hc BookingCell.telegramNotifications
        h.telegrams h'.telegrams (fun _ => rfl) fun _ => rfl
      emailStatusHistory := perm_statuses h h' hc
      chatEvents := perm_booking_table h h' hc BookingCell.chatEvents
        h.chats h'.chats (fun _ => rfl) fun _ => rfl
      videoEvents := perm_booking_table h h' hc BookingCell.videoEvents
        h.videos h'.videos (fun _ => rfl) fun _ => rfl
      lifecycleEvents := perm_booking_table h h' hc BookingCell.lifecycleEvents
        h.lifecycles h'.lifecycles (fun _ => rfl) fun _ => rfl }⟩

end SameLedger

end EventSaver
