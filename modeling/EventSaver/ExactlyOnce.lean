import EventSaver.Consumer
import EventSaver.SameContent

/-!
# Exactly-once effects under faults

A run consumes any sequence of deliveries and redeliveries, with any faults at the save attempts.
Beside it runs a journal of the attempts that stored a new event, and the database of the run is
the one that executing the journal once, without faults, produces.
-/

namespace EventSaver
open JsonData TableData EffectProgram

/-- One delivery, and the clock and the fault of each of its save attempts. -/
structure Consumption where
  delivery : Delivery
  attempts : Nat → Attempt

/-- A row of `events` with the event id of the message or with its idempotency key. -/
def Db.Stores (db : Db) (m : Message) : Prop :=
  ∃ e ∈ db.tables.events,
    e.eventId = m.eventId ∨ (m.idempotencyKey.isSome ∧ e.idempotencyKey = m.idempotencyKey)

lemma Db.Stores.mono {m : Message} {db db' : Db} (h : db.Stores m)
    (hsub : db.tables.events ⊆ db'.tables.events) : db'.Stores m := by
  obtain ⟨e, he, hkey⟩ := h
  exact ⟨e, hsub he, hkey⟩

/-- The messages whose events were new, each with the clock of the attempt that stored it. -/
abbrev Journal := List (Timestamp × Message)

/-- Execute `save_event` once for each entry of a journal. -/
def onceEach (ext : Externals) : Journal → Db → Except Exc Db
  | [], db => .ok db
  | (now, m) :: rest, db =>
    match saveEvent ext now m db with
    | (.ok _, db') => onceEach ext rest db'
    | (.error e, _) => .error e

namespace Service

def initial : Service := ⟨.empty, .zero⟩

variable (ext : Externals) (retryAttempts : Nat)

/-- The service after a sequence of consumptions. -/
def run (cs : List Consumption) (s : Service) : Service :=
  cs.foldl (fun s c => (consume ext retryAttempts c.attempts c.delivery s).2) s

/-- Whether a save attempt takes effect. -/
def attemptCommits (a : Attempt) (m : Message) (s : Service) : Bool :=
  commits (execute ext) a.fault (IngestEvent.execute ext a.now m) s

/-- Whether a save attempt takes effect and its insertion into `events` has reported a new row. -/
def storesNew (a : Attempt) (m : Message) (s : Service) : Bool :=
  attemptCommits ext a m s &&
    ((IngestEvent.execute ext a.now m).trace (execute ext) s).any reportsNew

def saveJournaled (a : Attempt) (m : Message) (s : Service × Journal) :
    Except Exc Unit × Service × Journal :=
  let saved := saveEvent ext a m s.1
  (saved.1, saved.2, if storesNew ext a m s.1 then s.2 ++ [(a.now, m)] else s.2)

/-- The consumption of a delivery that keeps the journal. -/
def consumeJournaled (c : Consumption) (s : Service × Journal) : Settlement × Service × Journal :=
  RabbitEventConsumerRunner.consumeMessage
    (fun event attempt =>
      saveJournaled ext (c.attempts attempt) (event.message c.delivery.queueName))
    (fun eventType outcome s =>
      ({ s.1 with
          metrics := s.1.metrics.recordMessage c.delivery.queueName eventType outcome }, s.2))
    retryAttempts c.delivery s

def runJournaled (cs : List Consumption) (s : Service × Journal) : Service × Journal :=
  cs.foldl (fun s c => (consumeJournaled ext retryAttempts c s).2) s

/-- Keeping the journal does not change the run. -/
theorem consumeJournaled_fst (c : Consumption) (s : Service × Journal) :
    ((consumeJournaled ext retryAttempts c s).1, (consumeJournaled ext retryAttempts c s).2.1) =
      consume ext retryAttempts c.attempts c.delivery s.1 := by
  rw [consumeJournaled, consume, RabbitEventConsumerRunner.consumeMessage,
    RabbitEventConsumerRunner.consumeMessage]
  cases c.delivery.event with
  | none => rfl
  | some event =>
    have hretry := RabbitEventConsumerRunner.saveWithRetry_map Prod.fst
      (fun attempt =>
        saveEvent ext (c.attempts attempt) (event.message c.delivery.queueName))
      (fun attempt =>
        saveJournaled ext (c.attempts attempt) (event.message c.delivery.queueName))
      (fun _ _ => rfl) retryAttempts 1 s
    simp only [hretry]

lemma runJournaled_fst (cs : List Consumption) (s : Service × Journal) :
    (runJournaled ext retryAttempts cs s).1 = run ext retryAttempts cs s.1 := by
  induction cs generalizing s with
  | nil => rfl
  | cons c rest ih =>
    rw [runJournaled, run, List.foldl_cons, List.foldl_cons,
      ← consumeJournaled_fst ext retryAttempts c s]
    exact ih _

section Attempts

variable {ext retryAttempts} {a : Attempt} {m : Message} {s : Service}

/-- An attempt that takes effect has the effect of its message, which is new to the journal
exactly when it is no duplicate. -/
lemma attempt_commits (h : attemptCommits ext a m s = true) :
    ∃ event, EventParser.parse ext a.now m = .ok event ∧
      ingestEffect ext m.queueName event s.db = .ok (saveEvent ext a m s).2.db ∧
      storesNew ext a m s = !isDuplicate event s.db := by
  have hcommits : commits (SqlExecutor.execute ext) a.fault (IngestEvent.execute ext a.now m) s.db =
      true := by
    rw [refines.commits]
    exact h
  have heffect := saveEventUnder_of_commits ext hcommits
  rw [saveEvent_eq] at heffect
  obtain ⟨event, hparse, hingest⟩ := bind_eq_ok.mp heffect
  refine ⟨event, hparse, hingest, ?_⟩
  rw [storesNew, h, ← refines.trace, trace_execute ext hparse, Bool.true_and]

/-- An attempt that does not take effect raises and leaves every table as it was. -/
lemma attempt_not_commits (h : attemptCommits ext a m s = false) :
    (∃ e, (saveEvent ext a m s).1 = .error e) ∧
      (saveEvent ext a m s).2.db.tables = s.db.tables ∧ storesNew ext a m s = false := by
  have hcommits : commits (SqlExecutor.execute ext) a.fault (IngestEvent.execute ext a.now m) s.db =
      false := by
    rw [refines.commits]
    exact h
  obtain ⟨e, reached, herror, _⟩ := saveEventUnder_of_not_commits ext hcommits
  rw [saveEvent_eq, Prod.mk.injEq] at herror
  refine ⟨⟨e, herror.1⟩, ?_, ?_⟩
  · rw [herror.2]
    rfl
  · rw [storesNew, h, Bool.false_and]

/-- A store that holds what the journal says. -/
structure Follows (ext : Externals) (s : Service × Journal) : Prop where
  wellFormed : s.1.db.WellFormed
  keys : s.1.db.tables.events.map (fun e => (e.eventId, e.idempotencyKey)) =
    s.2.map fun entry => (entry.2.eventId, entry.2.idempotencyKey)
  once : ∃ db, onceEach ext s.2 .empty = .ok db ∧ db.WellFormed ∧
    content db.tables = content s.1.db.tables

lemma onceEach_append (journal : Journal) (now : Timestamp) (m : Message) (db : Db) :
    onceEach ext (journal ++ [(now, m)]) db =
      onceEach ext journal db >>= onceEach ext [(now, m)] := by
  induction journal generalizing db with
  | nil => rfl
  | cons entry rest ih =>
    rw [List.cons_append, onceEach, onceEach]
    rcases EventSaver.saveEvent ext entry.1 entry.2 db with ⟨e | _, db'⟩
    · rfl
    · exact ih db'

variable {s' : Service} {journal : Journal}

lemma Follows.of_tables (h : Follows ext (s, journal)) (hwf : s'.db.WellFormed)
    (htables : s'.db.tables = s.db.tables) : Follows ext (s', journal) := by
  obtain ⟨db, honce, hdb, hcontent⟩ := h.once
  refine ⟨hwf, ?_, db, honce, hdb, ?_⟩
  · rw [htables]
    exact h.keys
  · rw [htables]
    exact hcontent

/-- A message that is no duplicate has the same effect on the database of the journal. -/
lemma Follows.append {now : Timestamp} {event : ParsedEvent} (h : Follows ext (s, journal))
    (hwf : s'.db.WellFormed) (hparse : EventParser.parse ext now m = .ok event)
    (hd : isDuplicate event s.db = false)
    (hingest : ingestEffect ext m.queueName event s.db = .ok s'.db) :
    Follows ext (s', journal ++ [(now, m)]) := by
  obtain ⟨db, honce, hdb, hcontent⟩ := h.once
  have hrecord : (saveEffect ext now m db).map (fun db' => content db'.tables) =
      .ok (content s'.db.tables) := by
    have heffect : saveEffect ext now m s.db = .ok s'.db := by
      rw [saveEffect, hparse]
      exact hingest
    rw [content_saveEffect hdb, hcontent, ← content_saveEffect h.wellFormed, heffect]
    rfl
  obtain ⟨db', heffect, hcontent'⟩ := except_map_eq_ok.mp hrecord
  have hsave := saveEvent_ok ext heffect
  refine ⟨hwf, ?_, db', ?_, ?_, hcontent'⟩
  · have hevents := ingestEffect_events ext hingest
    obtain ⟨hid, hkey⟩ := EventParser.parse_keys ext hparse
    have hkeys := h.keys
    rw [hd] at hevents
    dsimp only at hkeys ⊢
    rw [hevents, List.map_append, List.map_append, hkeys]
    simp [EventRepository.row, hid, hkey]
  · rw [onceEach_append, honce, ok_bind, onceEach, hsave]
    rfl
  · have hunder := hdb.saveEventUnder ext .none now m
    have hsave' : (saveEventUnder ext .none now m db).2 = db' := congrArg Prod.snd hsave
    rwa [hsave'] at hunder

/-- One attempt keeps the store and the journal together. -/
theorem Follows.saveJournaled {s : Service × Journal} (h : Follows ext s) (a : Attempt)
    (m : Message) : Follows ext (saveJournaled ext a m s).2 := by
  obtain ⟨s, journal⟩ := s
  have hwf : (saveEvent ext a m s).2.db.WellFormed := by
    have hunder := h.wellFormed.saveEventUnder ext a.fault a.now m
    rwa [saveEvent_eq] at hunder
  unfold Service.saveJournaled
  dsimp only
  cases hcommits : attemptCommits ext a m s with
  | false =>
    obtain ⟨_, htables, hnew⟩ := attempt_not_commits hcommits
    rw [hnew]
    exact h.of_tables hwf htables
  | true =>
    obtain ⟨event, hparse, hingest, hnew⟩ := attempt_commits hcommits
    rw [hnew]
    cases hd : isDuplicate event s.db with
    | true =>
      rw [ingestEffect, if_pos hd] at hingest
      exact h.of_tables hwf (congrArg Db.tables (Except.ok.inj hingest).symm)
    | false => exact h.append hwf hparse hd hingest

lemma Follows.consumeJournaled {s : Service × Journal} (h : Follows ext s) (c : Consumption) :
    Follows ext (consumeJournaled ext retryAttempts c s).2 := by
  rw [Service.consumeJournaled, RabbitEventConsumerRunner.consumeMessage]
  cases c.delivery.event with
  | none => exact ⟨h.wellFormed, h.keys, h.once⟩
  | some event =>
    have hretry := RabbitEventConsumerRunner.saveWithRetry_inv (I := Follows ext)
      (fun k s hs => hs.saveJournaled (c.attempts k) (event.message c.delivery.queueName))
      retryAttempts 1 h
    exact ⟨hretry.wellFormed, hretry.keys, hretry.once⟩

lemma Follows.runJournaled (cs : List Consumption) {s : Service × Journal} (h : Follows ext s) :
    Follows ext (runJournaled ext retryAttempts cs s) := by
  induction cs generalizing s with
  | nil => exact h
  | cons c rest ih => exact ih (h.consumeJournaled c)

lemma follows_initial : Follows ext (initial, []) :=
  ⟨.empty, rfl, .empty, rfl, .empty, rfl⟩

/-- Events are never deleted. -/
lemma saveEvent_events (a : Attempt) (m : Message) (s : Service) :
    s.db.tables.events ⊆ (saveEvent ext a m s).2.db.tables.events := by
  cases hcommits : attemptCommits ext a m s with
  | false =>
    obtain ⟨_, htables, _⟩ := attempt_not_commits hcommits
    rw [htables]
    exact List.Subset.refl _
  | true =>
    obtain ⟨event, _, hingest, _⟩ := attempt_commits hcommits
    rw [ingestEffect_events ext hingest]
    exact List.subset_append_left _ _

lemma consume_events (c : Consumption) (s : Service) :
    s.db.tables.events ⊆
      (consume ext retryAttempts c.attempts c.delivery s).2.db.tables.events := by
  rw [consume, RabbitEventConsumerRunner.consumeMessage]
  cases c.delivery.event with
  | none => exact List.Subset.refl _
  | some event =>
    exact RabbitEventConsumerRunner.saveWithRetry_inv
      (I := fun t : Service => s.db.tables.events ⊆ t.db.tables.events)
      (fun k t ht => List.Subset.trans ht (saveEvent_events (c.attempts k) _ t)) retryAttempts 1
      (List.Subset.refl _)

lemma run_events (cs : List Consumption) (s : Service) :
    s.db.tables.events ⊆ (run ext retryAttempts cs s).db.tables.events := by
  induction cs generalizing s with
  | nil => exact List.Subset.refl _
  | cons c rest ih => exact List.Subset.trans (consume_events c s) (ih _)

/-- After an attempt that takes effect the event is stored. -/
lemma stores_of_commits (h : attemptCommits ext a m s = true) :
    (saveEvent ext a m s).2.db.Stores m := by
  obtain ⟨event, hparse, hingest, _⟩ := attempt_commits h
  obtain ⟨hid, hkey⟩ := EventParser.parse_keys ext hparse
  have hevents := ingestEffect_events ext hingest
  cases hd : isDuplicate event s.db with
  | false =>
    rw [hd] at hevents
    refine ⟨EventRepository.row event, ?_, .inl hid⟩
    rw [hevents]
    exact List.mem_append_right _ (List.mem_singleton_self _)
  | true =>
    obtain ⟨e, he, hconflict⟩ := List.any_eq_true.mp hd
    refine ⟨e, saveEvent_events a m s he, ?_⟩
    simpa [EventRow.conflicts, EventRepository.row, hid, hkey] using hconflict

/-- After an acknowledgement the event is stored. -/
lemma stores_of_ack {c : Consumption} {event : CloudEvent} (he : c.delivery.event = some event)
    (hack : (consume ext retryAttempts c.attempts c.delivery s).1 = .ack) :
    (consume ext retryAttempts c.attempts c.delivery s).2.db.Stores
      (event.message c.delivery.queueName) := by
  rw [consume, RabbitEventConsumerRunner.consumeMessage, he] at hack ⊢
  dsimp only at hack ⊢
  obtain ⟨k, t, hsave⟩ := RabbitEventConsumerRunner.exists_save_of_ack (Prod.ext hack rfl)
  have hcommits := commits_of_transact_ok (execute ext) rollback hsave
  have hstores := stores_of_commits hcommits
  rwa [hsave] at hstores

/-- The journal names no event twice. -/
lemma Follows.pairwise (h : Follows ext (s, journal)) :
    journal.Pairwise fun entry entry' => ¬ entry.2.SharesKey entry'.2 := by
  have hevents := h.wellFormed.events
  have hkeys : (journal.map fun entry =>
      (entry.2.eventId, entry.2.idempotencyKey)).Pairwise fun k k' =>
        ¬ (k.1 = k'.1 ∨ (k.2.isSome ∧ k.2 = k'.2)) := by
    rw [← h.keys, List.pairwise_map]
    refine hevents.imp fun {e e'} hne hshare => ?_
    dsimp only at hshare
    rw [EventRow.conflicts, Bool.or_eq_false_iff] at hne
    rcases hshare with hid | ⟨hsome, hkey⟩
    · simp [hid] at hne
    · rw [hkey] at hsome
      simp [hkey, hsome] at hne
  exact List.pairwise_map.mp hkeys

end Attempts

/-- In every run, an acknowledged event is stored for good; the database is the one that
executing once each, in commit order, exactly the messages whose events were new produces; and
an attempt that raises before its commit changes no table. -/
theorem exactly_once (cs : List Consumption) :
    (∀ before c after event, cs = before ++ c :: after → c.delivery.event = some event →
      (consume ext retryAttempts c.attempts c.delivery
        (run ext retryAttempts before initial)).1 = .ack →
      (run ext retryAttempts cs initial).db.Stores (event.message c.delivery.queueName)) ∧
    (∃ journal db, runJournaled ext retryAttempts cs (initial, []) =
        (run ext retryAttempts cs initial, journal) ∧
      journal.Pairwise (fun entry entry' => ¬ entry.2.SharesKey entry'.2) ∧
      onceEach ext journal .empty = .ok db ∧
      (run ext retryAttempts cs initial).db.tables.SameContent db.tables) ∧
    ∀ a m s, attemptCommits ext a m s = false →
      (∃ e, (saveEvent ext a m s).1 = .error e) ∧
        (saveEvent ext a m s).2.db.tables = s.db.tables := by
  refine ⟨?_, ?_, ?_⟩
  · rintro before c after event rfl he hack
    rw [run, List.foldl_append]
    exact (stores_of_ack he hack).mono (run_events after _)
  · have hfst := runJournaled_fst ext retryAttempts cs (initial, [])
    have hfollows : Follows ext (runJournaled ext retryAttempts cs (initial, [])) :=
      follows_initial.runJournaled cs
    rcases hjournaled : runJournaled ext retryAttempts cs (initial, []) with ⟨final, journal⟩
    rw [hjournaled] at hfst hfollows
    obtain ⟨db, honce, hdb, hcontent⟩ := hfollows.once
    refine ⟨journal, db, ?_, hfollows.pairwise, honce, ?_⟩
    · rw [← hfst]
    · rw [← hfst]
      exact sameContent_of_content_eq hfollows.wellFormed hdb hcontent.symm
  · intro a m s h
    obtain ⟨herror, htables, _⟩ := attempt_not_commits h
    exact ⟨herror, htables⟩

def createdEvent : CloudEvent where
  id := "e"
  type := EventType.bookingCreated.value
  source := SourceType.booking.value
  time := .datetime ⟨0, some 0⟩
  bookingId := some "b"
  data := .obj []
  idempotencykey := none
  traceid := none
  spanid := none
  dataschema := none

/-- A delivery whose first commit takes effect without being acknowledged. -/
def lostAcknowledgement : Consumption where
  delivery := ⟨BOOKING_LIFECYCLE_SAVER_QUEUE, some createdEvent⟩
  attempts attempt := ⟨0, if attempt = 1 then .unacknowledged .operationalError else .none⟩

theorem exactly_once_lostAcknowledgement :
    (run .sample 2 [lostAcknowledgement] initial).db.Stores
      (createdEvent.message BOOKING_LIFECYCLE_SAVER_QUEUE) :=
  (exactly_once .sample 2 [lostAcknowledgement]).1 [] lostAcknowledgement [] createdEvent rfl rfl
    rfl
end Service

end EventSaver
