import EventSaver.ArrivalOrder

/-!
# Series of processed messages

A message is processed when its event is stored, so neither a duplicate nor one whose handling
raises. What a series of processed messages does to a part of the database is a fold.
-/

namespace EventSaver
open JsonData TableData EffectProgram

/-- Every message of a series is processed. -/
def Processed (ext : Externals) : Journal → Db → Prop
  | [], _ => True
  | entry :: rest, db => saveOutcome ext entry.1 entry.2 db = .stored ∧
      Processed ext rest (saveEvent ext entry.1 entry.2 db).2

/-- The cell of a booking. -/
def Db.cellOf (db : Db) (uid : String) : Option BookingCell := (content db.tables).booking uid

/-- The cell of an e-mail job. -/
def Db.emailCellOf (db : Db) (jobId : String) : Option EmailCell := (content db.tables).email jobId

section Steps

variable {ext : Externals} {now : Timestamp} {m : Message} {uid : String} {db : Db}

lemma effect_of_stored (h : saveOutcome ext now m db = .stored) :
    saveEffect ext now m db = .ok (saveEvent ext now m db).2 := by
  cases heffect : saveEffect ext now m db with
  | error e =>
    obtain ⟨reached, hsave, _⟩ := saveEvent_error ext heffect
    rw [saveOutcome, hsave] at h
    cases h
  | ok db' => rw [saveEvent_ok ext heffect]

lemma events_of_stored (h : saveOutcome ext now m db = .stored) :
    ∃ event, EventParser.parse ext now m = .ok event ∧
      (saveEvent ext now m db).2.tables.events =
        db.tables.events ++ [EventRepository.row event] := by
  have heffect := effect_of_stored h
  obtain ⟨event, hparse, hingest⟩ := bind_eq_ok.mp heffect
  rw [saveOutcome, saveEvent_ok ext heffect, trace_execute ext hparse] at h
  cases hd : isDuplicate event db with
  | true =>
    rw [hd] at h
    cases h
  | false =>
    have hevents := ingestEffect_events ext hingest
    rw [hd, if_neg Bool.false_ne_true] at hevents
    exact ⟨event, hparse, hevents⟩

lemma eventIds_of_stored (h : saveOutcome ext now m db = .stored) :
    (saveEvent ext now m db).2.tables.eventIds = db.tables.eventIds ++ [m.eventId] := by
  obtain ⟨event, hparse, hevents⟩ := events_of_stored h
  rw [Tables.eventIds, hevents, List.map_append, ← (EventParser.parse_keys ext hparse).1]
  rfl

/-- What a processed message does: its plan, on the cells of its booking and of its job. -/
theorem content_of_stored (h : db.WellFormed) (hm : m.FiledUnder uid)
    (hstored : saveOutcome ext now m db = .stored) :
    ∃ event work, EventParser.parse ext now m = .ok event ∧
      plan ext m.queueName event uid (bookingKnown m.queueName db uid) 0 = .ok work ∧
      content (saveEvent ext now m db).2.tables =
        ((content db.tables).insertEvent (EventRepository.row event)).work uid work := by
  rw [saveOutcome_eq h hm] at hstored
  rw [content_saveEvent h, Ledger.save_eq hm]
  rcases hdecision : (content db.tables).decision ext now m uid with e | _ | ⟨event, work⟩
  · rw [hdecision] at hstored
    cases hstored
  · rw [hdecision] at hstored
    cases hstored
  · obtain ⟨hparse, _, hplan⟩ := Ledger.decision_eq_some hdecision
    rw [content_known] at hplan
    exact ⟨event, work, hparse, hplan, rfl⟩

/-- The arguments of the handlers of a message, unless it reassigns the client. -/
def Message.handleArgs (ext : Externals) (now : Timestamp) (m : Message) : Option HandleArgs :=
  match EventParser.parse ext now m with
  | .ok event =>
    match ParticipantExtractor.extract ext event.payload with
    | .ok (organizer, client) => some ⟨event, 0, organizer, client, m.queueName⟩
    | .error _ => none
  | .error _ => none

lemma handleArgs_event {args : HandleArgs} (h : m.handleArgs ext now = some args) :
    EventParser.parse ext now m = .ok args.event := by
  unfold Message.handleArgs at h
  split at h
  next event hparse =>
    split at h
    · cases h
      exact hparse
    · cases h
  next => cases h

/-- How a message is handled: the arguments of its handlers, their writes, and the cells of the
bookings and of the e-mail jobs after them. -/
structure Handled (ext : Externals) (now : Timestamp) (m : Message) (uid : String) (db : Db)
    (args : HandleArgs) (writes : List ProjectionWrite) : Prop where
  parse : EventParser.parse ext now m = .ok args.event
  handleArgs : m.eventType ≠ EventType.bookingClientReassigned.value →
    m.handleArgs ext now = some args
  collected : projectionWrites ext args = .ok writes
  booking : ∃ base : BookingCell,
    base.meetingLinks = (db.cellOf uid).elim [] (·.meetingLinks) ∧
      base.chatEvents = (db.cellOf uid).elim [] (·.chatEvents) ∧
      (saveEvent ext now m db).2.cellOf uid =
        some (writes.foldl (fun cell w => cell.write w) base)
  otherBookings : ∀ uid' ≠ uid, (saveEvent ext now m db).2.cellOf uid' = db.cellOf uid'
  email : ∀ jobId, (saveEvent ext now m db).2.emailCellOf jobId =
    writes.foldl (fun cell w => if w.jobId? = some jobId then EmailCell.write uid w cell else cell)
      (db.emailCellOf jobId)

lemma Handled.event {args : HandleArgs} {writes : List ProjectionWrite}
    (h : Handled ext now m uid db args writes) :
    args.event.eventId = m.eventId ∧ args.event.eventType = m.eventType ∧
      args.event.payload = EventParser.orEmpty m.payload :=
  ⟨(EventParser.parse_keys ext h.parse).1, (EventParser.parse_filed ext h.parse).2⟩

/-- Before the writes for an event its booking has a cell with the timelines it had. -/
lemma onBooking_eq (work : BookingWork) (cell : Option BookingCell)
    (h : work.upsert.isSome = true ∨ cell.isSome = true) :
    ∃ base : BookingCell, base.meetingLinks = cell.elim [] (·.meetingLinks) ∧
      base.chatEvents = cell.elim [] (·.chatEvents) ∧
      base.lifecycleEvents = cell.elim [] (·.lifecycleEvents) ∧
      work.onBooking cell = some (work.writes.foldl (fun cell w => cell.write w) base) := by
  have hwrites (ws : List ProjectionWrite) (base : BookingCell) :
      ws.foldl (fun cell w => cell.map (BookingCell.write w)) (some base) =
        some (ws.foldl (fun cell w => cell.write w) base) := by
    induction ws generalizing base with
    | nil => rfl
    | cons w rest ih => exact ih (base.write w)
  obtain ⟨upserted, hupserted, hlinks, hchats, hlifecycles⟩ : ∃ upserted : BookingCell,
      work.upsertCell cell = some upserted ∧
        upserted.meetingLinks = cell.elim [] (·.meetingLinks) ∧
        upserted.chatEvents = cell.elim [] (·.chatEvents) ∧
        upserted.lifecycleEvents = cell.elim [] (·.lifecycleEvents) := by
    unfold BookingWork.upsertCell
    cases hupsert : work.upsert with
    | some row => cases cell <;> exact ⟨_, rfl, rfl, rfl, rfl⟩
    | none =>
      rw [hupsert] at h
      obtain ⟨cell, rfl⟩ := Option.isSome_iff_exists.mp (h.resolve_left Bool.false_ne_true)
      exact ⟨cell, rfl, rfl, rfl, rfl⟩
  obtain ⟨base, hbase, hlinks', hchats', hlifecycles'⟩ : ∃ base : BookingCell,
      work.clientCell (work.organizerCell (some upserted)) = some base ∧
        base.meetingLinks = upserted.meetingLinks ∧ base.chatEvents = upserted.chatEvents ∧
        base.lifecycleEvents = upserted.lifecycleEvents := by
    unfold BookingWork.clientCell BookingWork.organizerCell
    cases work.newClient <;> cases work.organizer <;> exact ⟨_, rfl, rfl, rfl, rfl⟩
  refine ⟨base, hlinks'.trans hlinks, hchats'.trans hchats, hlifecycles'.trans hlifecycles, ?_⟩
  rw [BookingWork.onBooking, hupserted, hbase, hwrites]

theorem handled_of_stored (h : db.WellFormed) (hm : m.FiledUnder uid)
    (hstored : saveOutcome ext now m db = .stored) :
    ∃ args writes, Handled ext now m uid db args writes := by
  obtain ⟨event, work, hparse, hplan, hcontent⟩ := content_of_stored h hm hstored
  obtain ⟨_, htype, _⟩ := EventParser.parse_filed ext hparse
  have hcell : (saveEvent ext now m db).2.cellOf uid = work.onBooking (db.cellOf uid) := by
    rw [Db.cellOf, hcontent]
    exact Function.update_self _ _ _
  have hothers (uid' : String) (hne : uid' ≠ uid) :
      (saveEvent ext now m db).2.cellOf uid' = db.cellOf uid' := by
    rw [Db.cellOf, hcontent]
    exact Function.update_of_ne hne _ _
  have hemail (jobId : String) : (saveEvent ext now m db).2.emailCellOf jobId =
      work.onEmail uid jobId (db.emailCellOf jobId) := by
    rw [Db.emailCellOf, hcontent]
    rfl
  have hfound : work.upsert.isSome = true ∨ (db.cellOf uid).isSome = true := by
    obtain ⟨_, hunknown⟩ := plan_upsert ext hplan
    cases hknown : bookingKnown m.queueName db uid with
    | false =>
      obtain ⟨row, hrow, _⟩ := hunknown hknown
      exact .inl (hrow ▸ rfl)
    | true =>
      rw [← content_known] at hknown
      exact .inr (Bool.and_eq_true_iff.mp hknown).2
  obtain ⟨base, hlinks, hchats, _, hbooking⟩ := onBooking_eq work (db.cellOf uid) hfound
  obtain ⟨organizer, client, hextract, ⟨_, _, _, _, hwrites⟩ | ⟨_, _, _, hclient, hwrites⟩⟩ :=
    plan_eq_ok ext hplan
  · refine ⟨_, _, hparse, fun _ => ?_, hwrites, ⟨base, hlinks, hchats, hcell.trans hbooking⟩,
      hothers, hemail⟩
    rw [Message.handleArgs, hparse]
    dsimp only
    rw [hextract]
  · refine ⟨_, _, hparse, fun hne => ?_, hwrites, ⟨base, hlinks, hchats, hcell.trans hbooking⟩,
      hothers, hemail⟩
    rw [reassignedClient, if_neg (htype ▸ hne)] at hclient
    rw [← Except.ok.inj hclient, Message.handleArgs, hparse]
    dsimp only
    rw [hextract]
    rfl

/-- A processed message is new. -/
lemma fresh_of_stored (h : db.WellFormed) (hstored : saveOutcome ext now m db = .stored) :
    m.eventId ∉ db.tables.eventIds := by
  have hnodup : (saveEvent ext now m db).2.tables.eventIds.Nodup :=
    (h.saveEvent now m).eventIds_nodup
  rw [eventIds_of_stored hstored, List.nodup_append'] at hnodup
  exact fun hmem => hnodup.2.2 hmem (List.mem_singleton.mpr rfl)

end Steps

namespace Processed

variable {ext : Externals} {db : Db} {ms : Journal}

/-- What a series of processed messages does to a part of the database on which each of them does
a step. -/
theorem fold {σ : Type} (π : Db → σ) (step : Timestamp × Message → σ → σ)
    {P : Timestamp × Message → Prop} (hp : Processed ext ms db) (h : db.WellFormed)
    (hms : ∀ entry ∈ ms, P entry)
    (hstep : ∀ db : Db, db.WellFormed → ∀ entry, P entry →
      saveOutcome ext entry.1 entry.2 db = .stored →
      π (saveEvent ext entry.1 entry.2 db).2 = step entry (π db)) :
    π (saveAll ext ms db) = ms.foldl (fun s entry => step entry s) (π db) := by
  induction ms generalizing db with
  | nil => rfl
  | cons entry rest ih =>
    obtain ⟨hstored, hrest⟩ := hp
    obtain ⟨hentry, hms⟩ := List.forall_mem_cons.mp hms
    rw [List.foldl_cons, ← hstep db h entry hentry hstored]
    exact ih hrest (h.saveEvent entry.1 entry.2) hms

lemma eventIds (hp : Processed ext ms db) :
    (saveAll ext ms db).tables.eventIds =
      db.tables.eventIds ++ ms.map fun entry => entry.2.eventId := by
  induction ms generalizing db with
  | nil => exact (List.append_nil _).symm
  | cons entry rest ih =>
    obtain ⟨hstored, hrest⟩ := hp
    have hevents := ih hrest
    rw [eventIds_of_stored hstored, List.append_assoc] at hevents
    exact hevents

variable (ext ms) in
lemma wellFormed (h : db.WellFormed) : (saveAll ext ms db).WellFormed := by
  induction ms generalizing db with
  | nil => exact h
  | cons entry rest ih => exact ih (h.saveEvent entry.1 entry.2)

/-- Messages that are all processed have different event ids. -/
lemma nodup_eventIds (hp : Processed ext ms db) (h : db.WellFormed) :
    (ms.map fun entry => entry.2.eventId).Nodup := by
  have hnodup : (saveAll ext ms db).tables.eventIds.Nodup :=
    (wellFormed ext ms h).eventIds_nodup
  rw [hp.eventIds, List.nodup_append'] at hnodup
  exact hnodup.2.1

end Processed

section Known

variable {ext : Externals} {now : Timestamp} {m : Message} {uid : String} {db : Db}

/-- The handling of a message for a booking that exists does not raise. -/
def Message.Handles (ext : Externals) (now : Timestamp) (uid : String) (m : Message) : Prop :=
  ∃ event work, EventParser.parse ext now m = .ok event ∧
    plan ext m.queueName event uid (m.queueName != BOOKING_LIFECYCLE_SAVER_QUEUE) 0 = .ok work

/-- A message about an existing booking is processed if it is new and its handling does not
raise. -/
lemma stored_iff (h : db.WellFormed) (hm : m.FiledUnder uid)
    (hcell : (db.cellOf uid).isSome = true) :
    saveOutcome ext now m db = .stored ↔ m.Handles ext now uid ∧ ¬ db.Stores m := by
  have hknown : (content db.tables).known m.queueName uid =
      (m.queueName != BOOKING_LIFECYCLE_SAVER_QUEUE) := by
    rw [Ledger.known]
    change (_ && (db.cellOf uid).isSome) = _
    rw [hcell, Bool.and_true]
  rw [saveOutcome_eq h hm, Ledger.decision, hknown]
  cases hparse : EventParser.parse ext now m with
  | error e =>
    refine ⟨fun h => (by cases h), ?_⟩
    rintro ⟨⟨event, _, hevent, _⟩, _⟩
    rw [hparse] at hevent
    cases hevent
  | ok event =>
    rw [ok_bind]
    by_cases hstores : db.Stores m
    · have hconflict : (content db.tables).Conflicts (EventRepository.row event) := by
        obtain ⟨hid, hkey⟩ := EventParser.parse_keys ext hparse
        obtain ⟨e, he, hshares⟩ := hstores
        refine (content_conflicts h).mpr (List.any_eq_true.mpr ⟨e, he, ?_⟩)
        simpa [EventRow.conflicts, EventRepository.row, hid, hkey] using hshares
      rw [if_pos hconflict]
      exact ⟨fun h => (by cases h), fun h => absurd hstores h.2⟩
    · rw [if_neg (not_conflicts_of_not_stores h hparse hstores)]
      cases hplan : plan ext m.queueName event uid (m.queueName != BOOKING_LIFECYCLE_SAVER_QUEUE) 0 with
      | error e =>
        refine ⟨fun h => (by cases h), ?_⟩
        rintro ⟨⟨event', _, hevent, hwork⟩, _⟩
        rw [hparse] at hevent
        rw [← Except.ok.inj hevent, hplan] at hwork
        cases hwork
      | ok work => exact ⟨fun _ => ⟨⟨event, work, hparse, hplan⟩, hstores⟩, fun _ => rfl⟩

/-- After a message has been processed its event is stored too. -/
lemma stores_of_stored (hstored : saveOutcome ext now m db = .stored) {m' : Message} :
    (saveEvent ext now m db).2.Stores m' ↔ db.Stores m' ∨ m.SharesKey m' := by
  refine ⟨stores_saveEvent, fun hstores => ?_⟩
  obtain ⟨event, hparse, hevents⟩ := events_of_stored hstored
  obtain ⟨hid, hkey⟩ := EventParser.parse_keys ext hparse
  rcases hstores with hstores | hshares
  · exact hstores.mono (hevents ▸ List.subset_append_left _ _)
  · refine ⟨EventRepository.row event, ?_, ?_⟩
    · rw [hevents]
      exact List.mem_append_right _ (List.mem_singleton.mpr rfl)
    · rcases hshares with hshares | ⟨hsome, hshares⟩
      · exact .inl (hid.trans hshares)
      · exact .inr ⟨hshares ▸ hsome, hkey.trans hshares⟩

lemma cellOf_of_stored (h : db.WellFormed) (hm : m.FiledUnder uid)
    (hstored : saveOutcome ext now m db = .stored) :
    ((saveEvent ext now m db).2.cellOf uid).isSome = true := by
  obtain ⟨_, _, hhandled⟩ := handled_of_stored h hm hstored
  obtain ⟨_, _, _, hcell⟩ := hhandled.booking
  rw [hcell]
  rfl

/-- Which series of messages about an existing booking are processed. -/
theorem processed_iff {ms : Journal} (h : db.WellFormed) (hms : ∀ entry ∈ ms, entry.2.FiledUnder uid)
    (hcell : (db.cellOf uid).isSome = true) :
    Processed ext ms db ↔
      (∀ entry ∈ ms, entry.2.Handles ext entry.1 uid ∧ ¬ db.Stores entry.2) ∧
        ms.Pairwise fun entry entry' => ¬ entry.2.SharesKey entry'.2 := by
  induction ms generalizing db with
  | nil => simp [Processed]
  | cons entry rest ih =>
    obtain ⟨hentry, hrest⟩ := List.forall_mem_cons.mp hms
    rw [Processed, List.forall_mem_cons, List.pairwise_cons, ← stored_iff h hentry hcell]
    constructor
    · rintro ⟨hstored, hp⟩
      obtain ⟨hall, hkeys⟩ := (ih (h.saveEvent entry.1 entry.2) hrest
        (cellOf_of_stored h hentry hstored)).mp hp
      simp only [stores_of_stored hstored, not_or] at hall
      exact ⟨⟨hstored, fun later hlater => ⟨(hall later hlater).1, (hall later hlater).2.1⟩⟩,
        fun later hlater => (hall later hlater).2.2, hkeys⟩
    · rintro ⟨⟨hstored, hall⟩, hshares, hkeys⟩
      refine ⟨hstored, (ih (h.saveEvent entry.1 entry.2) hrest
        (cellOf_of_stored h hentry hstored)).mpr ⟨fun later hlater => ?_, hkeys⟩⟩
      rw [stores_of_stored hstored, not_or]
      exact ⟨(hall later hlater).1, (hall later hlater).2, hshares later hlater⟩

lemma Message.SharesKey.symm {m m' : Message} (h : m.SharesKey m') : m'.SharesKey m := by
  rcases h with hid | ⟨hsome, hkey⟩
  · exact .inl hid.symm
  · exact .inr ⟨hkey ▸ hsome, hkey.symm⟩

/-- Messages about an existing booking are processed in every order if they are in one. -/
theorem Processed.perm {ms ms' : Journal} (hp : Processed ext ms db) (h : db.WellFormed)
    (hms : ∀ entry ∈ ms, entry.2.FiledUnder uid) (hcell : (db.cellOf uid).isSome = true)
    (hperm : ms.Perm ms') : Processed ext ms' db := by
  have hms' : ∀ entry ∈ ms', entry.2.FiledUnder uid := fun entry hentry =>
    hms entry (hperm.mem_iff.mpr hentry)
  obtain ⟨hall, hkeys⟩ := (processed_iff h hms hcell).mp hp
  refine (processed_iff h hms' hcell).mpr
    ⟨fun entry hentry => hall entry (hperm.mem_iff.mpr hentry), ?_⟩
  exact (hperm.pairwise_iff fun {entry entry'} hne hshares => hne hshares.symm).mp hkeys

end Known

section Kinds

variable {ext : Externals} {args : HandleArgs} {writes : List ProjectionWrite}

/-- What the handlers write, in their order. -/
def handlerKinds : List ProjectionWrite.Kind :=
  [.meetingLink, .emailNotification, .telegramNotification, .emailStatusHistory, .chatEvent,
    .chatRead, .videoEvent, .lifecycleEvent]

/-- The writes of the handlers of some kinds. -/
lemma collectWrites_filter {bs : List StatementBuilder} {kinds : List ProjectionWrite.Kind}
    (hbs : List.Forall₂ (fun b kind => b.Writes (ProjectionWrite.Of kind)) bs kinds)
    (h : collectWrites args bs = .ok writes) (p : ProjectionWrite.Kind → Bool) :
    ∃ ws : List (Option ProjectionWrite),
      List.Forall₂ (fun (b : StatementBuilder × ProjectionWrite.Kind) w => b.1.write args = .ok w)
        ((bs.zip kinds).filter fun b => p b.2) ws ∧
      writes.filter (fun w => p w.kind) = ws.flatMap Option.toList := by
  induction hbs generalizing writes with
  | nil =>
    cases h
    exact ⟨[], .nil, rfl⟩
  | @cons b kind bs kinds hb _ ih =>
    rw [collectWrites] at h
    obtain ⟨write, hwrite, h⟩ := bind_eq_ok.mp h
    obtain ⟨rest, hrest, h⟩ := bind_eq_ok.mp h
    cases h
    obtain ⟨ws, hws, hfilter⟩ := ih hrest
    have hkind : ∀ w ∈ write.toList, w.kind = kind := fun w hw =>
      (hb args w (Option.mem_toList.mp hw ▸ hwrite)).2.1
    rw [List.zip_cons_cons, List.filter_append, hfilter]
    cases hp : p kind with
    | true =>
      refine ⟨write :: ws, ?_, ?_⟩
      · rw [List.filter_cons, hp, if_pos rfl]
        exact .cons hwrite hws
      · rw [List.flatMap_cons, List.filter_eq_self.mpr fun w hw => by rw [hkind w hw, hp]]
    | false =>
      refine ⟨ws, ?_, ?_⟩
      · rw [List.filter_cons, hp, if_neg Bool.false_ne_true]
        exact hws
      · rw [List.filter_eq_nil_iff.mpr fun w hw => by simp [hkind w hw, hp], List.nil_append]

lemma projectionWrites_filter (h : projectionWrites ext args = .ok writes)
    (p : ProjectionWrite.Kind → Bool) :
    ∃ ws : List (Option ProjectionWrite),
      List.Forall₂ (fun (b : StatementBuilder × ProjectionWrite.Kind) w => b.1.write args = .ok w)
        (((statementBuilders ext).zip handlerKinds).filter fun b => p b.2) ws ∧
      writes.filter (fun w => p w.kind) = ws.flatMap Option.toList :=
  collectWrites_filter (statementBuilders_writes ext) h p

/-- A reading that only writes of some kinds change. -/
lemma foldl_filter_kind {σ : Type} {f : σ → ProjectionWrite → σ} {p : ProjectionWrite.Kind → Bool}
    (hf : ∀ s w, p w.kind = false → f s w = s) (s : σ) :
    writes.foldl f s = (writes.filter fun w => p w.kind).foldl f s := by
  rw [List.foldl_filter]
  congr 1
  funext s w
  cases hw : p w.kind with
  | true => rfl
  | false => exact hf s w hw

end Kinds

end EventSaver
