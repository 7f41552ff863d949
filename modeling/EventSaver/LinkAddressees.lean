import EventSaver.MeetingLinks

/-!
# The addressee of a meeting link

A meeting-link event names the role of its addressee, but its handler takes the organizer whenever
the event has one.
-/

namespace EventSaver
open JsonData TableData EffectProgram

/-- The user with the role the event is addressed to. -/
def HandleArgs.addressee (args : HandleArgs) : Option Uuid :=
  args.userIdForRole
    (((Payload.originalOf args.event.payload).get? "recipient_role").getD .null)

def Message.addressee (ext : Externals) (now : Timestamp) (m : Message) : Option Uuid :=
  (m.handleArgs ext now).bind HandleArgs.addressee

def Message.organizer (ext : Externals) (now : Timestamp) (m : Message) : Option Uuid :=
  (m.handleArgs ext now).bind (·.organizerUserId)

/-- No link changes except that of one user in one booking. -/
def TouchesOnlyLink (before after : Db) (uid : String) (user : Uuid) : Prop :=
  ∀ uid' user', (uid', user') ≠ (uid, user) → after.linksOf uid' user' = before.linksOf uid' user'

section Invariant

/-- Every link stems from a stored event. -/
def Db.LinksStored (db : Db) : Prop :=
  StemsFrom db.tables.eventIds (·.sourceEventId) db.tables.meetingLinks

namespace Db.LinksStored

variable {ext : Externals} {queueName : String} {event : ParsedEvent} {db db' : Db}

lemma mono (h : db.LinksStored) (hlinks : db'.tables.meetingLinks = db.tables.meetingLinks)
    (hids : db.tables.eventIds ⊆ db'.tables.eventIds) : db'.LinksStored := by
  rw [Db.LinksStored, hlinks]
  exact StemsFrom.mono h hids

lemma write (h : db.LinksStored) {w : ProjectionWrite} {eventId : String} {ref : Nat}
    (hw : w.FiledUnder eventId ref) (hevent : eventId ∈ db.tables.eventIds) :
    (w.apply db).LinksStored := by
  have hids : (w.apply db).tables.eventIds = db.tables.eventIds := by
    rw [Tables.eventIds, w.apply_events, Tables.eventIds]
  have hother (hlinks : (w.apply db).tables.meetingLinks = db.tables.meetingLinks) :
      (w.apply db).LinksStored := h.mono hlinks (hids ▸ List.Subset.refl _)
  cases w with
  | upsertMeetingLink r row =>
    obtain ⟨_, rfl⟩ := hw
    intro l hl
    rcases mem_upsertWhere hl with rfl | ⟨l', hl', rfl⟩
    · exact hevent
    · split
      · exact hevent
      · exact h l' hl'
  | deleteMeetingLink r userId => exact fun l hl => h l (List.mem_filter.mp hl).1
  | _ => exact hother rfl

lemma writes (h : db.LinksStored) {ws : List ProjectionWrite} {eventId : String} {ref : Nat}
    (hws : ∀ w ∈ ws, w.FiledUnder eventId ref) (hevent : eventId ∈ db.tables.eventIds) :
    (ws.foldl ProjectionWrite.apply db).LinksStored := by
  induction ws generalizing db with
  | nil => exact h
  | cons w rest ih =>
    rw [List.forall_mem_cons] at hws
    refine ih (h.write hws.1 hevent) hws.2 ?_
    rwa [Tables.eventIds, w.apply_events]

lemma processBooking (h : db.LinksStored) {bookingId : String}
    (hevent : event.eventId ∈ db.tables.eventIds)
    (he : processBookingEffect ext queueName event bookingId db = .ok db') : db'.LinksStored := by
  obtain ⟨work, hplan, rfl⟩ := except_map_eq_ok.mp he
  have hlinks : (work.applyClient (bookingRef db bookingId) (work.applyOrganizer
      (bookingRef db bookingId) (work.applyUpsert db))).tables.meetingLinks =
      db.tables.meetingLinks := by
    unfold BookingWork.applyClient BookingWork.applyOrganizer BookingWork.applyUpsert
    cases work.newClient <;> cases work.organizer <;> cases work.upsert <;> rfl
  have hids : (work.applyClient (bookingRef db bookingId) (work.applyOrganizer
      (bookingRef db bookingId) (work.applyUpsert db))).tables.eventIds = db.tables.eventIds := by
    simp [Tables.eventIds]
  refine (h.mono hlinks (hids ▸ List.Subset.refl _)).writes
    (fun w hw => (plan_writes ext hplan w hw).1) ?_
  rwa [hids]

lemma ingest (h : db.LinksStored) (he : ingestEffect ext queueName event db = .ok db') :
    db'.LinksStored := by
  unfold ingestEffect at he
  split at he
  · exact Except.ok.inj he ▸ h
  · have hinsert : (insertRow event db).LinksStored := by
      refine h.mono rfl fun id hid => ?_
      rw [Tables.eventIds, insertRow, List.map_append]
      exact List.mem_append_left _ hid
    unfold processEffect at he
    split at he
    · obtain ⟨request, _, he⟩ := bind_eq_ok.mp he
      rw [← Except.ok.inj he]
      cases request <;> exact hinsert
    · split at he
      · exact Except.ok.inj he ▸ hinsert
      · split at he
        · exact Except.ok.inj he ▸ hinsert
        · refine hinsert.processBooking ?_ he
          simp [Tables.eventIds, insertRow, EventRepository.row]

end Db.LinksStored

theorem Db.Reachable.linksStored {ext : Externals} {db : Db} (h : db.Reachable ext) :
    db.LinksStored := by
  induction h with
  | empty => exact fun l hl => absurd hl List.not_mem_nil
  | @save db _ fault now m ih =>
    rcases saveEventUnder_cases ext fault now m db with heffect | htables
    · obtain ⟨event, _, hingest⟩ := bind_eq_ok.mp heffect
      exact ih.ingest hingest
    · rw [Db.LinksStored, htables]
      exact ih
  | @cycle db _ resolver batchSize ih =>
    exact runOnce_rel (R := fun db db' => db.LinksStored → db'.LinksStored) (fun _ h => h)
      (fun h₁ h₂ h => h₂ (h₁ h)) (fun _ _ _ _ h => h) resolver batchSize db ih

end Invariant

section Steps

variable {ext : Externals} {now : Timestamp} {m : Message} {uid : String} {user a : Uuid}
  {db : Db} {args : HandleArgs} {c : LinkChange}

/-- A meeting-link event with a user changes a link, or its handling raises. -/
lemma linkChange_isSome {write : Option ProjectionWrite}
    (h : StatementBuilder.write ⟨MeetingLinkProjection.canHandle, MeetingLinkProjection.handle⟩
      args = .ok write) (hcan : MeetingLinkProjection.canHandle args.event = true)
    (huser : args.organizerUserId.or args.clientUserId = some user) :
    ∃ c, args.linkChange = some c := by
  have hwrite := write_linkChange h
  rw [StatementBuilder.write_of hcan] at h
  obtain ⟨stmt, hstmt, h⟩ := bind_eq_ok.mp h
  dsimp only at hstmt
  rw [MeetingLinkProjection.handle, huser] at hstmt
  obtain ⟨stmt, rfl⟩ : ∃ s, stmt = some s := by
    dsimp only at hstmt
    split at hstmt
    · exact ⟨_, (Except.ok.inj hstmt).symm⟩
    · simp only [bind_eq_ok] at hstmt
      obtain ⟨_, _, _, _, hstmt⟩ := hstmt
      exact ⟨_, (Except.ok.inj hstmt).symm⟩
  obtain ⟨w, _, rfl⟩ := except_map_eq_ok.mp h
  obtain ⟨c, hc, _⟩ := Option.map_eq_some_iff.mp hwrite.symm
  exact ⟨c, hc⟩

lemma addressee_cases (h : args.addressee = some a) :
    args.organizerUserId = some a ∨ args.clientUserId = some a := by
  rw [HandleArgs.addressee, HandleArgs.userIdForRole] at h
  split at h
  · exact .inl h
  · split at h
    · exact .inr h
    · cases h

/-- A message that is not processed changes no booking. -/
lemma cellOf_not_stored (h : db.WellFormed) (hm : m.FiledUnder uid)
    (hne : saveOutcome ext now m db ≠ .stored) (uid' : String) :
    (saveEvent ext now m db).2.cellOf uid' = db.cellOf uid' := by
  rw [saveOutcome_eq h hm] at hne
  rw [Db.cellOf, content_saveEvent h, Ledger.save_eq hm]
  rcases hdecision : (content db.tables).decision ext now m uid with e | _ | ⟨event, work⟩
  · rfl
  · rfl
  · rw [hdecision] at hne
    exact absurd rfl hne

lemma mem_eventIds_of_linksOf (h : db.LinksStored) {l : MeetingLink}
    (hl : l ∈ db.linksOf uid user) : l.sourceEventId ∈ db.tables.eventIds := by
  rw [Db.linksOf] at hl
  split at hl
  · obtain ⟨linked, hlinked, rfl⟩ := List.mem_map.mp (List.mem_filter.mp hl).1
    exact h linked (List.mem_filter.mp hlinked).1
  · cases hl

/-- A change of a new event leaves the link alone only if it deletes none. -/
lemma replace_eq_self {links : List MeetingLink}
    (hnew : ∀ l ∈ links, l.sourceEventId ≠ c.eventId) :
    c.replace links = links ↔ c.meetingUrl = none ∧ links = [] := by
  constructor
  · intro heq
    cases hrow : c.row with
    | none =>
      have hnil : c.replace links = [] := by
        rw [LinkChange.replace, hrow]
        split
        · rfl
        · exact List.flatMap_eq_nil_iff.mpr fun _ _ => rfl
      exact ⟨Option.map_eq_none_iff.mp hrow, heq ▸ hnil⟩
    | some row =>
      have hmem : row ∈ c.replace links := by
        rw [LinkChange.replace, hrow]
        split
        next => exact List.mem_singleton.mpr rfl
        next hne =>
          obtain ⟨l, hl⟩ := List.exists_mem_of_ne_nil links hne
          exact List.mem_flatMap.mpr ⟨l, hl, List.mem_singleton.mpr rfl⟩
      obtain ⟨url, _, rfl⟩ := Option.map_eq_some_iff.mp hrow
      exact absurd rfl (hnew _ (heq ▸ hmem))
  · rintro ⟨hurl, rfl⟩
    rw [LinkChange.replace, if_pos rfl, LinkChange.row, hurl]
    rfl

/-- A processed change touches only the link of the addressee if and only if it is the
addressee's, or it deletes a link that is not there. -/
lemma touchesOnlyLink_stored (hdb : db.Reachable ext) (hm : m.FiledUnder uid)
    (hstored : saveOutcome ext now m db = .stored) (hc : m.linkChange ext now = some c) :
    TouchesOnlyLink db (saveEvent ext now m db).2 uid a ↔
      c.userId = a ∨ c.meetingUrl = none ∧ db.linksOf uid c.userId = [] := by
  have hlinks (user : Uuid) := linksOf_stored hdb.wellFormed hm hstored user
  have hnew : ∀ l ∈ db.linksOf uid c.userId, l.sourceEventId ≠ c.eventId := by
    intro l hl heq
    have hstored' := mem_eventIds_of_linksOf hdb.linksStored hl
    rw [heq, linkChange_eventId hc] at hstored'
    exact fresh_of_stored hdb.wellFormed hstored hstored'
  rw [hc] at hlinks
  rw [← replace_eq_self hnew]
  constructor
  · intro htouches
    by_cases huser : c.userId = a
    · exact .inl huser
    · have hsame := htouches uid c.userId fun heq => huser (Prod.mk.inj heq).2
      rw [hlinks, Option.filter_some, if_pos (beq_self_eq_true _)] at hsame
      exact .inr hsame
  · intro hown uid' user' hne
    by_cases huid : uid' = uid
    · subst huid
      rw [hlinks]
      by_cases huser : c.userId = user'
      · rw [Option.filter_some, if_pos (beq_iff_eq.mpr huser), ← huser]
        exact hown.resolve_left fun ha => hne (by rw [← huser, ha])
      · rw [Option.filter_some, if_neg (fun heq => huser (beq_iff_eq.mp heq))]
        rfl
    · obtain ⟨args, writes, hhandled⟩ := handled_of_stored hdb.wellFormed hm hstored
      rw [linksOf_eq, hhandled.otherBookings uid' huid, linksOf_eq]

/-- The change of a processed event with an addressee: it is the organizer's, or the addressee's if
the event has no organizer. -/
lemma linkChange_of_addressee (h : db.WellFormed) (hm : m.FiledUnder uid)
    (hstored : saveOutcome ext now m db = .stored)
    (htype : m.eventType = EventType.meetingUrlCreated.value ∨
      m.eventType = EventType.meetingUrlDeleted.value)
    (haddressee : m.addressee ext now = some a) :
    ∃ c, m.linkChange ext now = some c ∧
      (c.meetingUrl = none ↔ m.eventType = EventType.meetingUrlDeleted.value) ∧
      (m.organizer ext now = none ∧ c.userId = a ∨ m.organizer ext now = some c.userId) := by
  obtain ⟨args, writes, hhandled⟩ := handled_of_stored h hm hstored
  have hargs : m.handleArgs ext now = some args := by
    refine hhandled.handleArgs fun hreassigned => ?_
    rw [hreassigned, EventType.value_inj, EventType.value_inj] at htype
    exact absurd htype (by decide)
  have horganizer : m.organizer ext now = args.organizerUserId := by
    rw [Message.organizer, hargs, Option.bind_some]
  rw [Message.addressee, hargs, Option.bind_some] at haddressee
  have hcan : MeetingLinkProjection.canHandle args.event = true := by
    rw [MeetingLinkProjection.canHandle, hhandled.event.2.1, Bool.or_eq_true, beq_iff_eq, beq_iff_eq]
    exact htype
  obtain ⟨user, huser⟩ : ∃ user, args.organizerUserId.or args.clientUserId = some user := by
    rcases addressee_cases haddressee with ha | ha
    · exact ⟨a, by rw [ha, Option.some_or]⟩
    · rw [ha]
      cases args.organizerUserId <;> exact ⟨_, rfl⟩
  obtain ⟨write, hwrite, _⟩ := meetingLink_collected hhandled.collected
  obtain ⟨c, hc⟩ := linkChange_isSome hwrite hcan huser
  obtain ⟨hwho, _, hdeleted⟩ := linkChange_spec hc
  rw [hhandled.event.2.1] at hdeleted
  refine ⟨c, (linkChange_of_handled hhandled).trans hc, hdeleted, ?_⟩
  rw [horganizer]
  cases ho : args.organizerUserId with
  | none =>
    rw [ho, Option.none_or] at hwho
    rcases addressee_cases haddressee with ha | ha
    · rw [ho] at ha
      cases ha
    · exact .inl ⟨rfl, Option.some.inj (hwho.symm.trans ha)⟩
  | some organizer =>
    rw [ho, Option.some_or] at hwho
    exact .inr hwho

/-- A meeting-link event touches only the link of its addressee unless it is processed and has
another user as its organizer. Then it touches that user's link, except that it may delete one that
is not there. -/
theorem touchesOnlyLink_iff (hdb : db.Reachable ext) (hm : m.FiledUnder uid)
    (htype : m.eventType = EventType.meetingUrlCreated.value ∨
      m.eventType = EventType.meetingUrlDeleted.value)
    (haddressee : m.addressee ext now = some a) :
    (saveOutcome ext now m db ≠ .stored →
        TouchesOnlyLink db (saveEvent ext now m db).2 uid a) ∧
      (saveOutcome ext now m db = .stored →
        (TouchesOnlyLink db (saveEvent ext now m db).2 uid a ↔
          ∀ user, m.organizer ext now = some user → user ≠ a →
            m.eventType = EventType.meetingUrlDeleted.value ∧ db.linksOf uid user = [])) := by
  refine ⟨fun hne uid' user' _ => ?_, fun hstored => ?_⟩
  · rw [linksOf_eq, cellOf_not_stored hdb.wellFormed hm hne, linksOf_eq]
  obtain ⟨c, hc, hdeleted, hwho⟩ :=
    linkChange_of_addressee hdb.wellFormed hm hstored htype haddressee
  rw [touchesOnlyLink_stored hdb hm hstored hc, hdeleted]
  rcases hwho with ⟨hnone, hown⟩ | horganizer
  · rw [hnone]
    exact ⟨fun _ user hsome => (by cases hsome), fun _ => .inl hown⟩
  · rw [horganizer]
    constructor
    · rintro hown user huser hne
      cases huser
      exact hown.resolve_left hne
    · exact fun hother => or_iff_not_imp_left.mpr fun hne => hother _ rfl hne

end Steps

/-- A creation of a link of booking `b`, with both participants. -/
def createdFor (eventId : String) (role : RecipientRole) : Message :=
  .sample "events.meeting.lifecycle" eventId "b" .meetingUrlCreated 1
    (.obj [("original", .obj [("meeting_url", .str "https://meet"),
        ("recipient_role", .str role.value)]),
      ("normalized", .obj [("participants", .arr [
        participant .organizer "" (.str "00000000-0000-0000-0000-00000000000a"),
        participant .client "" (.str "00000000-0000-0000-0000-00000000000b")])])])

theorem touchesOnlyLink_organizer :
    TouchesOnlyLink .empty (saveEvent .sample 0 (createdFor "1" .organizer) .empty).2 "b" ⟨10⟩ := by
  have haddressee : (createdFor "1" .organizer).addressee .sample 0 = some ⟨10⟩ := rfl
  refine ((touchesOnlyLink_iff .empty ⟨rfl, by decide, by decide⟩ (.inl rfl) haddressee).2
    rfl).mpr fun user huser hne => ?_
  exact absurd (Option.some.inj huser).symm hne

/-- The database after the link of the organizer has been created. -/
def organizerLinkDb : Db := (saveEventUnder .sample .none 0 (createdFor "1" .organizer) .empty).2

/-- A link for the client takes the place of the organizer's. -/
theorem not_touchesOnlyLink_client :
    organizerLinkDb.Reachable .sample ∧ (createdFor "2" .client).FiledUnder "b" ∧
      (createdFor "2" .client).addressee .sample 0 = some ⟨11⟩ ∧
      ¬ TouchesOnlyLink organizerLinkDb
        (saveEvent .sample 0 (createdFor "2" .client) organizerLinkDb).2 "b" ⟨11⟩ := by
  refine ⟨.save .empty .none 0 _, ⟨rfl, by decide, by decide⟩, rfl, fun htouches => ?_⟩
  exact absurd (htouches "b" ⟨10⟩ (by decide)) (by decide)

end EventSaver
