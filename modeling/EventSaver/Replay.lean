import EventSaver.MessageFlow

/-!
# Rebuilding the store from its events

A stored event is a record of its message, but for the queue and for what the `payload` column does
not give back. Saving the stored events again, in the order in which they were stored, rebuilds all
tables, and where an event is stored already it changes nothing, so that a rebuilding that was
interrupted can be started again.
-/

namespace EventSaver
open JsonData TableData EffectProgram Transitions

/-- The message of a stored event, received again from a queue with the payload that is read back
for the delivered one. -/
def EventRow.message (readBack : Json → Json) (queueName : String) (e : EventRow) : Message where
  queueName := queueName
  eventId := e.eventId
  bookingId := e.bookingId
  eventType := e.eventType
  source := e.source
  time := .datetime ⟨e.occurredAt, some 0⟩
  payload := readBack e.payload
  idempotencyKey := e.idempotencyKey
  traceId := e.traceId
  spanId := e.spanId
  dataschema := e.dataschema

/-- The messages of stored events, each with the queue it is received from. -/
def replay (readBack : Json → Json) (now : Timestamp) (entries : List (EventRow × String)) :
    Journal :=
  entries.map fun entry => (now, entry.1.message readBack entry.2)

/-- The row is what an entry of a journal stores. -/
def IsRowOf (ext : Externals) (entry : Timestamp × Message) (e : EventRow) : Prop :=
  ∃ event, EventParser.parse ext entry.1 entry.2 = .ok event ∧ e = EventRepository.row event

section Rows

variable {ext : Externals} {readBack : Json → Json} {now : Timestamp} {m : Message}
  {event : ParsedEvent} {e : EventRow} {db : Db}

lemma orEmpty_orEmpty (data : Json) :
    EventParser.orEmpty (EventParser.orEmpty data) = EventParser.orEmpty data := by
  unfold EventParser.orEmpty
  cases htruthy : data.truthy with
  | true => simp [htruthy]
  | false => rfl

/-- The message of a row is parsed to the event that was stored. -/
lemma parse_row_message (now' : Timestamp) (h : EventParser.parse ext now m = .ok event)
    (hkept : readBack event.payload = event.payload) (queueName : String) :
    EventParser.parse ext now' ((EventRepository.row event).message readBack queueName) =
      .ok event := by
  obtain ⟨occurredAt, _, h⟩ := bind_eq_ok.mp h
  cases h
  unfold EventParser.parse
  simp only [EventRepository.row, EventRow.message, hkept, EventParser.parseOccurredAt,
    PyDatetime.instant, Option.getD_some, sub_zero, ok_bind, orEmpty_orEmpty]
  rfl

/-- Saving a stored event again is saving its message. -/
lemma saveEvent_row_message (now' : Timestamp) (h : IsRowOf ext (now, m) e)
    (hkept : readBack e.payload = e.payload) (db : Db) :
    saveEvent ext now' (e.message readBack m.queueName) db = saveEvent ext now m db := by
  obtain ⟨event, hparse, rfl⟩ := h
  have hexecute : IngestEvent.execute ext now'
      ((EventRepository.row event).message readBack m.queueName) =
        IngestEvent.execute ext now m := by
    rw [IngestEvent.execute, parse_row_message now' hparse hkept m.queueName, IngestEvent.execute,
      hparse]
    rfl
  rw [saveEvent, saveEventUnder, hexecute, saveEvent, saveEventUnder]

/-- Saving an event that is stored changes nothing. -/
lemma saveEvent_stored (now : Timestamp) (queueName : String) (he : e ∈ db.tables.events) :
    saveEvent ext now (e.message readBack queueName) db = (.ok (), db) := by
  refine saveEvent_ok ext ?_
  have hparse : ∃ event, EventParser.parse ext now (e.message readBack queueName) = .ok event :=
    ⟨_, rfl⟩
  obtain ⟨event, hparse⟩ := hparse
  have hduplicate : isDuplicate event db = true := by
    refine List.any_eq_true.mpr ⟨e, he, ?_⟩
    have hid : event.eventId = e.eventId := (EventParser.parse_keys ext hparse).1
    rw [EventRow.conflicts, EventRepository.row, hid, beq_self_eq_true, Bool.true_or]
  rw [saveEffect, hparse, ok_bind, ingestEffect, if_pos hduplicate]

end Rows

section Runs

variable {ext : Externals} {readBack : Json → Json} {db db' : Db}

lemma onceEach_concat (journal more : Journal) (db : Db) :
    onceEach ext (journal ++ more) db = onceEach ext journal db >>= onceEach ext more := by
  induction journal generalizing db with
  | nil => rfl
  | cons entry rest ih =>
    rw [List.cons_append, onceEach, onceEach]
    rcases saveEvent ext entry.1 entry.2 db with ⟨e | _, db'⟩
    · rfl
    · exact ih db'

/-- Replaying stored events changes nothing. -/
lemma onceEach_stored (now : Timestamp) {entries : List (EventRow × String)}
    (h : ∀ entry ∈ entries, entry.1 ∈ db.tables.events) :
    onceEach ext (replay readBack now entries) db = .ok db := by
  induction entries with
  | nil => rfl
  | cons entry rest ih =>
    rw [List.forall_mem_cons] at h
    rw [replay, List.map_cons, onceEach, saveEvent_stored now entry.2 h.1]
    exact ih h.2

/-- Without a duplicate, every entry of a journal stores its row. -/
lemma onceEach_rows {journal : Journal} (h : onceEach ext journal db = .ok db')
    (hkeys : journal.Pairwise fun entry entry' => ¬ entry.2.SharesKey entry'.2)
    (hnew : ∀ entry ∈ journal, ¬ db.Stores entry.2) :
    ∃ rows, db'.tables.events = db.tables.events ++ rows ∧
      List.Forall₂ (IsRowOf ext) journal rows := by
  induction journal generalizing db with
  | nil =>
    cases h
    exact ⟨[], (List.append_nil _).symm, .nil⟩
  | cons entry rest ih =>
    rw [onceEach] at h
    rw [List.pairwise_cons] at hkeys
    rw [List.forall_mem_cons] at hnew
    rcases hsave : saveEvent ext entry.1 entry.2 db with ⟨e | _, after⟩
    · rw [hsave] at h
      cases h
    · rw [hsave] at h
      have heffect : saveEffect ext entry.1 entry.2 db = .ok after := by
        rcases heffect : saveEffect ext entry.1 entry.2 db with e | reached
        · obtain ⟨reached, herror, _⟩ := saveEvent_error ext heffect
          cases herror.symm.trans hsave
        · rw [saveEvent_ok ext heffect] at hsave
          cases hsave
          rfl
      obtain ⟨event, hparse, hingest⟩ := bind_eq_ok.mp heffect
      obtain ⟨hid, hkey⟩ := EventParser.parse_keys ext hparse
      have hnot : isDuplicate event db = false := by
        refine Bool.eq_false_iff.mpr fun hduplicate => hnew.1 ?_
        obtain ⟨e, he, hconflict⟩ := List.any_eq_true.mp hduplicate
        refine ⟨e, he, ?_⟩
        simpa [EventRow.conflicts, EventRepository.row, hid, hkey] using hconflict
      have hevents : after.tables.events = db.tables.events ++ [EventRepository.row event] := by
        rw [ingestEffect_events ext hingest, hnot, if_neg Bool.false_ne_true]
      obtain ⟨rows, hrows, hall⟩ := ih h hkeys.2 fun entry' hentry' hstores => by
        obtain ⟨e, he, hshared⟩ := hstores
        rw [hevents, List.mem_append, List.mem_singleton] at he
        rcases he with he | rfl
        · exact hnew.2 entry' hentry' ⟨e, he, hshared⟩
        · refine hkeys.1 entry' hentry' ?_
          have hrow : (EventRepository.row event).eventId = entry.2.eventId ∧
              (EventRepository.row event).idempotencyKey = entry.2.idempotencyKey := ⟨hid, hkey⟩
          rw [hrow.1, hrow.2] at hshared
          refine hshared.imp_right fun hsame => ⟨?_, hsame.2⟩
          rw [hsame.2]
          exact hsame.1
      refine ⟨EventRepository.row event :: rows, ?_, .cons ⟨event, hparse, rfl⟩ hall⟩
      rw [hrows, hevents, List.append_assoc]
      rfl

/-- Replaying the rows of a journal is executing the journal. -/
lemma onceEach_replay (now : Timestamp) {journal : Journal} {rows : List EventRow}
    (h : List.Forall₂ (IsRowOf ext) journal rows)
    (hkept : ∀ e ∈ rows, readBack e.payload = e.payload) (db : Db) :
    onceEach ext (replay readBack now (rows.zip (journal.map fun entry => entry.2.queueName))) db =
      onceEach ext journal db := by
  induction h generalizing db with
  | nil => rfl
  | @cons entry e rest rows hrow _ ih =>
    rw [List.forall_mem_cons] at hkept
    rw [List.map_cons, List.zip_cons_cons, replay, List.map_cons, onceEach,
      saveEvent_row_message now hrow hkept.1, onceEach]
    rcases saveEvent ext entry.1 entry.2 db with ⟨e | _, db'⟩
    · rfl
    · exact ih hkept.2 db'

lemma rowIds {journal : Journal} {rows : List EventRow}
    (h : List.Forall₂ (IsRowOf ext) journal rows) :
    (rows.map fun e => e.eventId) = journal.map fun entry => entry.2.eventId := by
  induction h with
  | nil => rfl
  | cons hrow _ ih =>
    obtain ⟨event, hparse, rfl⟩ := hrow
    rw [List.map_cons, List.map_cons, ih]
    exact congrArg (· :: _) (EventParser.parse_keys ext hparse).1

/-- A row beside a queue name belongs to an entry of the journal. -/
lemma exists_entry {journal : Journal} {rows : List EventRow} {e : EventRow} {queueName : String}
    (h : List.Forall₂ (IsRowOf ext) journal rows)
    (hmem : (e, queueName) ∈ rows.zip (journal.map fun entry => entry.2.queueName)) :
    ∃ entry ∈ journal, IsRowOf ext entry e ∧ entry.2.queueName = queueName := by
  induction h with
  | nil => cases hmem
  | @cons entry e' rest rows hrow _ ih =>
    rw [List.map_cons, List.zip_cons_cons, List.mem_cons] at hmem
    rcases hmem with hmem | hmem
    · cases hmem
      exact ⟨entry, List.mem_cons_self, hrow, rfl⟩
    · obtain ⟨entry', hentry', hfound⟩ := ih hmem
      exact ⟨entry', List.mem_cons_of_mem _ hentry', hfound⟩

/-- The events of a store are the rows of its journal, in the same order. -/
lemma Service.Follows.rows {s : Service} {journal : Journal}
    (h : Service.Follows ext (s, journal)) :
    List.Forall₂ (IsRowOf ext) journal s.db.tables.events ∧
      ∃ db, onceEach ext journal .empty = .ok db ∧ db.tables.events = s.db.tables.events ∧
        s.db.tables.SameContent db.tables := by
  obtain ⟨db, honce, hdb, hcontent⟩ := h.once
  dsimp only at honce hcontent
  obtain ⟨rows, hevents, hrows⟩ := onceEach_rows honce h.pairwise
    fun entry _ hstores => absurd hstores.choose_spec.1 List.not_mem_nil
  have hnil : rows = db.tables.events := hevents.symm
  subst hnil
  have hids : db.tables.eventIds = journal.map fun entry => entry.2.eventId := rowIds hrows
  have hkeys : db.tables.eventIds = s.db.tables.eventIds := by
    have hfst := congrArg (List.map Prod.fst) h.keys
    rw [List.map_map, List.map_map] at hfst
    exact hids.trans hfst.symm
  have hsame : db.tables.events = s.db.tables.events :=
    eq_of_perm_of_map_eq hdb.eventIds_nodup (perm_events hdb h.wellFormed hcontent) hkeys
  exact ⟨hsame ▸ hrows, db, honce, hsame,
    sameContent_of_content_eq h.wellFormed hdb hcontent.symm⟩

/-- A replay that was interrupted leaves its part of the events, and goes on from there. -/
lemma onceEach_resumed (now : Timestamp) {journal : Journal} {rows : List EventRow}
    (hrows : List.Forall₂ (IsRowOf ext) journal rows) (honce : onceEach ext journal .empty = .ok db)
    (hkeys : journal.Pairwise fun entry entry' => ¬ entry.2.SharesKey entry'.2)
    (hkept : ∀ e ∈ rows, readBack e.payload = e.payload) (k : Nat) :
    ∃ part, onceEach ext (journal.take k) .empty = .ok part ∧
      onceEach ext
        (replay readBack now (rows.zip (journal.map fun entry => entry.2.queueName))) part =
          .ok db := by
  have hparts := honce
  rw [← List.take_append_drop k journal, onceEach_concat] at hparts
  obtain ⟨part, hpart, hrest⟩ := bind_eq_ok.mp hparts
  refine ⟨part, hpart, ?_⟩
  obtain ⟨stored, hevents, hstored⟩ := onceEach_rows hpart
    (hkeys.sublist (List.take_sublist k journal))
    fun entry _ hstores => absurd hstores.choose_spec.1 List.not_mem_nil
  have hunique : Relator.RightUnique (IsRowOf ext) := by
    rintro entry e e' ⟨event, hparse, rfl⟩ ⟨event', hparse', rfl⟩
    rw [Except.ok.inj (hparse.symm.trans hparse')]
  have htake : stored = rows.take k :=
    List.right_unique_forall₂' hunique hstored (List.forall₂_take k hrows)
  -- The first part is found stored, and the second is saved as it was the first time.
  have hfirst : onceEach ext (replay readBack now ((rows.take k).zip
      ((journal.take k).map fun entry => entry.2.queueName))) part = .ok part := by
    refine onceEach_stored now fun entry hentry => ?_
    rw [hevents, htake]
    exact List.mem_append_right _ (List.of_mem_zip hentry).1
  have hkeptPart : ∀ e ∈ rows.take k, readBack e.payload = e.payload :=
    fun e he => hkept e (List.mem_of_mem_take he)
  calc onceEach ext
        (replay readBack now (rows.zip (journal.map fun entry => entry.2.queueName))) part
      = onceEach ext journal part := onceEach_replay now hrows hkept part
    _ = onceEach ext (journal.take k) part >>= onceEach ext (journal.drop k) := by
        rw [← onceEach_concat, List.take_append_drop]
    _ = .ok part >>= onceEach ext (journal.drop k) := by
        rw [← onceEach_replay now (List.forall₂_take k hrows) hkeptPart, hfirst]
    _ = .ok db := hrest

end Runs

/-- After any run of the flow, saving the stored events once more, each from the queue it came
from, leaves the present tables alone, and where the payloads are read back as they were delivered
it rebuilds the tables from nothing, also when it is interrupted and started again. -/
theorem rebuild {ext : Externals} {n : Nat} {labels : List FlowAction} {f : Flow}
    (h : Run (Flow.Step ext n) (fun _ => True) labels .initial f) :
    ∃ entries : List (EventRow × String),
      entries.map Prod.fst = f.service.db.tables.events ∧
      (∀ entry ∈ entries, ∃ d ∈ f.published, d.queueName = entry.2 ∧
        ∃ event, d.event = some event ∧ event.id = entry.1.eventId) ∧
      ∀ readBack now,
        onceEach ext (replay readBack now entries) f.service.db = .ok f.service.db ∧
        ((∀ e ∈ f.service.db.tables.events, readBack e.payload = e.payload) →
          ∃ db, onceEach ext (replay readBack now entries) .empty = .ok db ∧
            db.tables.events = f.service.db.tables.events ∧
            f.service.db.tables.SameContent db.tables ∧
            ∀ k, ∃ part, onceEach ext (replay readBack now (entries.take k)) .empty = .ok part ∧
              onceEach ext (replay readBack now entries) part = .ok db) := by
  have hinv := h.invariant (fun _ _ _ _ hstep hinv => Flow.Inv.step hinv hstep) Flow.inv_initial
  obtain ⟨hrows, db, honce, hevents, hcontent⟩ := hinv.follows.rows
  have hlength := hrows.length_eq
  refine ⟨f.service.db.tables.events.zip (f.journal.map fun entry => entry.2.queueName), ?_, ?_,
    fun readBack now => ⟨?_, fun hkept => ⟨db, ?_, hevents, hcontent, fun k => ?_⟩⟩⟩
  · exact List.map_fst_zip (by rw [List.length_map, hlength])
  · rintro ⟨e, queueName⟩ hentry
    obtain ⟨entry, hmem, ⟨event, hparse, rfl⟩, rfl⟩ := exists_entry hrows hentry
    obtain ⟨d, hd, cloudEvent, hevent, hmessage⟩ := hinv.journal entry hmem
    rw [hmessage] at hparse ⊢
    exact ⟨d, hd, rfl, cloudEvent, hevent, (EventParser.parse_keys ext hparse).1.symm⟩
  · exact onceEach_stored now fun entry hentry => (List.of_mem_zip hentry).1
  · rw [onceEach_replay now hrows hkept]
    exact honce
  · obtain ⟨part, hpart, hresumed⟩ :=
      onceEach_resumed now hrows honce hinv.follows.pairwise hkept k
    refine ⟨part, ?_, hresumed⟩
    have htake : (f.service.db.tables.events.zip
        (f.journal.map fun entry => entry.2.queueName)).take k =
        (f.service.db.tables.events.take k).zip
          ((f.journal.take k).map fun entry => entry.2.queueName) := by
      rw [List.map_take]
      exact List.take_zipWith
    rw [htake, onceEach_replay now (List.forall₂_take k hrows)
      fun e he => hkept e (List.mem_of_mem_take he)]
    exact hpart

/-- A column that orders the members of an object by the length of their keys. -/
def shortKeysFirst : Json → Json
  | .obj fields => .obj (fields.insertionSort fun field field' =>
      field.1.toList.length ≤ field'.1.toList.length)
  | json => json

/-- The one event of a run whose first commit is not acknowledged, read back from such a column. -/
theorem rebuild_lostAcknowledgement :
    ∃ (f : Flow) (entries : List (EventRow × String)) (db : Db),
      f.service.db.tables.events.length = 1 ∧ entries.map Prod.fst = f.service.db.tables.events ∧
        onceEach .sample (replay shortKeysFirst 0 entries) .empty = .ok db ∧
        f.service.db.tables.SameContent db.tables := by
  let event : CloudEvent := { Service.createdEvent with
    data := listing [participant .organizer "a@example.org" .null] }
  let d : Delivery := ⟨BOOKING_LIFECYCLE_SAVER_QUEUE, some event⟩
  let a := Service.lostAcknowledgement.attempts
  have hrun : Run (Flow.Step .sample 2) (fun _ => True) [.publish, .deliver, .attempt (a 1)]
      .initial _ :=
    .cons trivial (.publish _ d) <|
    .cons trivial (@Flow.Step.deliver _ _ _ [] [] d rfl) <|
    .cons trivial (@Flow.Step.attempt _ _ _ [] [] d event 1 (a 1) rfl) (.nil _)
  obtain ⟨entries, hfst, _, hreplay⟩ := rebuild hrun
  obtain ⟨_, db, honce, _, hcontent, _⟩ :=
    (hreplay shortKeysFirst 0).imp_right fun h => h (List.forall_mem_singleton.mpr rfl)
  exact ⟨_, entries, db, rfl, hfst, honce, hcontent⟩

end EventSaver
