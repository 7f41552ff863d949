import EventSaver.ExactlyOnce
import EventSaver.StatementOrder

/-!
# The business counters

An attempt counts its event inside its transaction, and a rollback leaves the counters alone. They
are exact in the runs in which every attempt that has counted its event commits.
-/

namespace EventSaver
open JsonData TableData EffectProgram

/-- A save attempt as it was made: the clock, the fault, the message and the database it met. -/
structure AttemptMade where
  attempt : Attempt
  message : Message
  db : Db

/-- Whether a fault leaves an attempt the time to count its event, by its second call. -/
def sparesCounter : Fault Exc → Bool
  | .before n _ => decide (2 ≤ n)
  | _ => true

namespace AttemptMade

variable (ext : Externals)

/-- Whether an attempt counts its event. -/
def counts (x : AttemptMade) : Bool :=
  match EventParser.parse ext x.attempt.now x.message with
  | .ok event => !isDuplicate event x.db && sparesCounter x.attempt.fault
  | .error _ => false

/-- Whether an attempt commits. -/
def commits (x : AttemptMade) : Bool :=
  EffectProgram.commits (SqlExecutor.execute ext) x.attempt.fault
    (IngestEvent.execute ext x.attempt.now x.message) x.db

/-- Whether an attempt has counted its event and is rolled back. -/
def countsInVain (x : AttemptMade) : Bool := x.counts ext && !x.commits ext

end AttemptMade

namespace Service

variable (ext : Externals) (retryAttempts : Nat)

def saveLogged (a : Attempt) (m : Message) (s : Service × List AttemptMade) :
    Except Exc Unit × Service × List AttemptMade :=
  let saved := saveEvent ext a m s.1
  (saved.1, saved.2, s.2 ++ [⟨a, m, s.1.db⟩])

/-- The consumption of a delivery that keeps a log of the attempts. -/
def consumeLogged (c : Consumption) (s : Service × List AttemptMade) :
    Settlement × Service × List AttemptMade :=
  RabbitEventConsumerRunner.consumeMessage
    (fun event attempt =>
      saveLogged ext (c.attempts attempt) (event.message c.delivery.queueName))
    (fun eventType outcome s =>
      ({ s.1 with
          metrics := s.1.metrics.recordMessage c.delivery.queueName eventType outcome }, s.2))
    retryAttempts c.delivery s

def runLogged (cs : List Consumption) (s : Service × List AttemptMade) :
    Service × List AttemptMade :=
  cs.foldl (fun s c => (consumeLogged ext retryAttempts c s).2) s

/-- The attempts made in a run. -/
def attemptsMade (cs : List Consumption) (s : Service) : List AttemptMade :=
  (runLogged ext retryAttempts cs (s, [])).2

/-- Keeping the log does not change the run. -/
lemma runLogged_fst (cs : List Consumption) (s : Service × List AttemptMade) :
    (runLogged ext retryAttempts cs s).1 = run ext retryAttempts cs s.1 := by
  have hconsume (c : Consumption) (s : Service × List AttemptMade) :
      (consumeLogged ext retryAttempts c s).2.1 =
        (consume ext retryAttempts c.attempts c.delivery s.1).2 := by
    rw [consumeLogged, consume, RabbitEventConsumerRunner.consumeMessage,
      RabbitEventConsumerRunner.consumeMessage]
    cases c.delivery.event with
    | none => rfl
    | some event =>
      have hretry := RabbitEventConsumerRunner.saveWithRetry_map Prod.fst
        (fun attempt => saveEvent ext (c.attempts attempt) (event.message c.delivery.queueName))
        (fun attempt => saveLogged ext (c.attempts attempt) (event.message c.delivery.queueName))
        (fun _ _ => rfl) retryAttempts 1 s
      simp only [hretry]
  induction cs generalizing s with
  | nil => rfl
  | cons c rest ih =>
    rw [runLogged, run, List.foldl_cons, List.foldl_cons, ← hconsume c s]
    exact ih _

/-- The rows of `events` a process has committed since `start`. -/
def committedEvents (start : Db) (s : Service) : List EventRow :=
  s.db.tables.events.drop start.tables.events.length

def committedLifecycle (start : Db) (s : Service) : List (Linked LifecycleEvent) :=
  s.db.tables.lifecycleEvents.drop start.tables.lifecycleEvents.length

/-- The counters count the rows that the process has committed. -/
structure CountersExact (start : Db) (s : Service) : Prop where
  events : ∀ eventType, s.metrics.eventsTotal eventType =
    (committedEvents start s).countP fun e => e.eventType == eventType
  lifecycle : ∀ action, s.metrics.bookingLifecycleTotal action =
    (committedLifecycle start s).countP fun l => l.row.action == action

end Service

lemma inc_apply (counter : String → Nat) (key label : String) :
    Metrics.inc counter key label = counter label + if (key == label) = true then 1 else 0 := by
  rw [Metrics.inc]
  by_cases h : label = key
  · simp [h]
  · simp [h, Ne.symm h]

section Programs

variable {ext : Externals}

/-- A call that counts no lifecycle transition and writes none. -/
def Call.KeepsLifecycle : Call → Prop
  | .incBookingLifecycleTotal _ => False
  | .project _ => False
  | _ => True

/-- A call that does not count events. -/
def Call.KeepsEventsTotal : Call → Prop
  | .incEventsTotal _ => False
  | _ => True

/-- A call of the branch that writes the bookings row. -/
def Call.WritesBooking : Call → Prop
  | .upsertBooking _ => True
  | .saveOrganizerHistory _ _ => True
  | .updateClient _ _ => True
  | _ => False

lemma Call.WritesBooking.keepsLifecycle {c : Call} (h : c.WritesBooking) : c.KeepsLifecycle := by
  cases c <;> first | exact h.elim | trivial

lemma Call.WritesBooking.keepsEventsTotal {c : Call} (h : c.WritesBooking) :
    c.KeepsEventsTotal := by
  cases c <;> first | exact h.elim | trivial

lemma Call.Projects.keepsEventsTotal {c : Call} (h : c.Projects) : c.KeepsEventsTotal := by
  cases c <;> first | exact h.elim | trivial

/-- Nothing has happened to the lifecycle table and its counter. -/
def SameLifecycle (s s' : Service) : Prop :=
  s'.metrics.bookingLifecycleTotal = s.metrics.bookingLifecycleTotal ∧
    s'.db.tables.lifecycleEvents = s.db.tables.lifecycleEvents

/-- The lifecycle rows that were added have been counted. -/
def LifecycleCounted (s s' : Service) : Prop :=
  ∃ rows, s'.db.tables.lifecycleEvents = s.db.tables.lifecycleEvents ++ rows ∧
    ∀ action, s'.metrics.bookingLifecycleTotal action =
      s.metrics.bookingLifecycleTotal action + rows.countP fun l => l.row.action == action

lemma SameLifecycle.refl (s : Service) : SameLifecycle s s := ⟨rfl, rfl⟩

lemma SameLifecycle.trans {s₁ s₂ s₃ : Service} (h₁ : SameLifecycle s₁ s₂)
    (h₂ : SameLifecycle s₂ s₃) : SameLifecycle s₁ s₃ :=
  ⟨h₂.1.trans h₁.1, h₂.2.trans h₁.2⟩

lemma SameLifecycle.counted {s₁ s₂ s₃ : Service} (h₁ : SameLifecycle s₁ s₂)
    (h₂ : LifecycleCounted s₂ s₃) : LifecycleCounted s₁ s₃ := by
  obtain ⟨rows, hrows, hcount⟩ := h₂
  refine ⟨rows, by rw [hrows, h₁.2], fun action => ?_⟩
  rw [hcount, h₁.1]

lemma LifecycleCounted.of_same {s s' : Service} (h : SameLifecycle s s') : LifecycleCounted s s' :=
  h.counted ⟨[], (List.append_nil _).symm, fun _ => rfl⟩

variable (ext) in
lemma sameLifecycle_call (c : Call) (hc : c.KeepsLifecycle) (s : Service) (r : c.Reply)
    (s' : Service) (h : Service.execute ext c s = .ok (r, s')) : SameLifecycle s s' := by
  rw [Service.execute] at h
  rcases hexec : SqlExecutor.execute ext c s.db with e | ⟨reply, db⟩
  · rw [hexec] at h
    cases h
  · rw [hexec] at h
    cases h
    cases c with
    | insertEvent row =>
      rw [SqlExecutor.execute] at hexec
      split at hexec <;> cases hexec <;> exact .refl _
    | backfillUserIdByEmail email role userId =>
      obtain ⟨email, _, hexec⟩ := bind_eq_ok.mp hexec
      cases hexec
      exact .refl _
    | incEventsTotal _ => cases hexec; exact .refl _
    | findByBookingUid _ => cases hexec; exact .refl _
    | upsertBooking _ => cases hexec; exact .refl _
    | saveOrganizerHistory _ _ => cases hexec; exact .refl _
    | updateClient _ _ => cases hexec; exact .refl _
    | incBookingLifecycleTotal _ => cases hc
    | project _ => cases hc

/-- A part of a program that does nothing to the lifecycle. -/
lemma sameLifecycle_bind {α : Type} {p : Ingest α} (hp : p.Every Call.KeepsLifecycle)
    {f : α → Ingest Unit} {s s' : Service}
    (h : (p >>= f).run (Service.execute ext) s = (.ok (), s')) :
    ∃ a t, SameLifecycle s t ∧ (f a).run (Service.execute ext) t = (.ok (), s') := by
  obtain ⟨a, t, hrun, hrest⟩ := Program.run_bind_eq_ok _ h
  have hsame := hp.run_rel (Service.execute ext) SameLifecycle.refl SameLifecycle.trans
    (sameLifecycle_call ext) s
  rw [hrun] at hsame
  exact ⟨a, t, hsame, hrest⟩

lemma execute_project {stmt : ProjectionStmt} {w : ProjectionWrite} (h : stmt.bind = .ok w)
    (s : Service) :
    Service.execute ext (.project stmt) s = .ok ((), ⟨w.apply s.db, s.metrics⟩) := by
  rw [Service.execute, SqlExecutor.execute, h]
  rfl

lemma execute_project_error {stmt : ProjectionStmt} {e : Exc} (h : stmt.bind = .error e)
    (s : Service) : Service.execute ext (.project stmt) s = .error e := by
  rw [Service.execute, SqlExecutor.execute, h]
  rfl

/-- A handler that leaves the lifecycle to the last one. -/
def LeavesLifecycle (ext : Externals) (h : ProjectionHandler) : Prop :=
  ∀ args s s', h.canHandle args.event = true →
    (ProjectionExecutor.project h args).run (Service.execute ext) s = (.ok (), s') →
    SameLifecycle s s'

lemma lifecycleEvents_apply {w : ProjectionWrite} (hw : w.kind ≠ .lifecycleEvent) (db : Db) :
    (w.apply db).tables.lifecycleEvents = db.tables.lifecycleEvents := by
  cases w <;> first | rfl | exact absurd rfl hw

lemma leavesLifecycle_of {canHandle : ParsedEvent → Bool}
    {statement : HandleArgs → Except Exc (Option ProjectionStmt)} {kind : ProjectionWrite.Kind}
    (hwrites : StatementBuilder.Writes ⟨canHandle, statement⟩ (ProjectionWrite.Of kind))
    (hkind : kind ≠ .lifecycleEvent) :
    LeavesLifecycle ext ⟨canHandle, fun args => Program.lift (statement args)⟩ := by
  intro args s s' hcan hrun
  rw [ProjectionExecutor.project, Program.run_lift_bind] at hrun
  rcases hstatement : statement args with e | _ | stmt
  · rw [hstatement] at hrun
    cases hrun
  · rw [hstatement] at hrun
    cases hrun
    exact .refl _
  · rw [hstatement] at hrun
    cases hbind : stmt.bind with
    | error e =>
      dsimp only at hrun
      rw [Program.perform, Program.run_call_error _ (execute_project_error hbind s)] at hrun
      cases hrun
    | ok w =>
      dsimp only at hrun
      rw [Program.perform, Program.run_call_ok _ (execute_project hbind s)] at hrun
      cases hrun
      have hwrite : StatementBuilder.write ⟨canHandle, statement⟩ args = .ok (some w) :=
        StatementBuilder.write_eq_some.mpr ⟨hcan, stmt, hstatement, hbind⟩
      have hw : w.kind ≠ .lifecycleEvent := by
        rw [(hwrites args w hwrite).2.1]
        exact hkind
      exact ⟨rfl, lifecycleEvents_apply hw s.db⟩

/-- The last handler counts the row it adds for an event that has none yet. -/
lemma lifecycleCounted_project {args : HandleArgs} {s s' : Service}
    (hfresh : ∀ l ∈ s.db.tables.lifecycleEvents, l.row.rawEventId ≠ args.event.eventId)
    (hrun : (ProjectionExecutor.project ⟨LifecycleProjection.canHandle, LifecycleProjection.handle ext⟩
      args).run (Service.execute ext) s = (.ok (), s')) : LifecycleCounted s s' := by
  rw [ProjectionExecutor.project] at hrun
  dsimp only at hrun
  rw [LifecycleProjection.handle, LifecycleProjection.statement] at hrun
  cases haction : LifecycleProjection.actionOf args.event.eventType with
  | none =>
    rw [haction] at hrun
    cases hrun
    exact .of_same (.refl s)
  | some action =>
    rw [haction] at hrun
    cases hdetails : LifecycleProjection.extractDetails ext args.event with
    | error e =>
      rw [hdetails] at hrun
      cases hrun
    | ok details =>
      rw [hdetails] at hrun
      cases hrun
      have hinsert (row : LifecycleEvent) (ref : Nat) (hrow : row.rawEventId = args.event.eventId) :
          insertUnless (fun l : Linked LifecycleEvent => l.row.rawEventId == row.rawEventId) ⟨ref, row⟩
            s.db.tables.lifecycleEvents = s.db.tables.lifecycleEvents ++ [⟨ref, row⟩] := by
        refine if_neg fun hany => ?_
        obtain ⟨l, hl, heq⟩ := List.any_eq_true.mp hany
        exact hfresh l hl ((beq_iff_eq.mp heq).trans hrow)
      refine ⟨_, hinsert _ _ rfl, fun label => ?_⟩
      rw [List.countP_singleton]
      exact inc_apply s.metrics.bookingLifecycleTotal action label

/-- The handlers but the last leave the lifecycle alone. -/
lemma lifecycleCounted_executeProjections {args : HandleArgs} {hs : List ProjectionHandler}
    (hhs : ∀ h ∈ hs, LeavesLifecycle ext h) {s s' : Service}
    (hfresh : ∀ l ∈ s.db.tables.lifecycleEvents, l.row.rawEventId ≠ args.event.eventId)
    (hrun : (ProjectionExecutor.executeProjections args
      (hs ++ [⟨LifecycleProjection.canHandle, LifecycleProjection.handle ext⟩])).run
        (Service.execute ext) s = (.ok (), s')) : LifecycleCounted s s' := by
  induction hs generalizing s with
  | nil =>
    rw [List.nil_append, ProjectionExecutor.executeProjections] at hrun
    split at hrun
    · obtain ⟨_, t, hrun, hrest⟩ := Program.run_bind_eq_ok _ hrun
      cases hrest
      exact lifecycleCounted_project hfresh hrun
    · cases hrun
      exact .of_same (.refl _)
  | cons h rest ih =>
    obtain ⟨hh, hrest⟩ := List.forall_mem_cons.mp hhs
    rw [List.cons_append, ProjectionExecutor.executeProjections] at hrun
    split at hrun
    next hcan =>
      obtain ⟨_, t, hrun, hrunRest⟩ := Program.run_bind_eq_ok _ hrun
      have hsame := hh args s t hcan hrun
      exact hsame.counted (ih hrest (hsame.2 ▸ hfresh) hrunRest)
    next => exact ih hrest hfresh hrun

variable (ext) in
lemma leavesLifecycle_handlers : ∀ h ∈ (projectionHandlers ext).take 7, LeavesLifecycle ext h := by
  intro h hh
  simp only [projectionHandlers, List.take_succ_cons, List.take_zero, List.mem_cons,
    List.not_mem_nil, or_false] at hh
  rcases hh with rfl | rfl | rfl | rfl | rfl | rfl | rfl
  · exact leavesLifecycle_of (fun _ _ => meetingLink_write) (by decide)
  · exact leavesLifecycle_of (fun _ _ => emailNotification_write) (by decide)
  · exact leavesLifecycle_of (fun _ _ => telegram_write) (by decide)
  · exact leavesLifecycle_of (fun _ _ => emailStatusHistory_write) (by decide)
  · exact leavesLifecycle_of (fun _ _ => chatEvent_write) (by decide)
  · exact leavesLifecycle_of (fun _ _ => chatReadUpdate_write) (by decide)
  · exact leavesLifecycle_of (fun _ _ => videoEvent_write) (by decide)

variable (ext) in
lemma every_upsertBooking (event : ParsedEvent) (bookingId : String)
    (organizerUserId clientUserId : Option Uuid) :
    (IngestEvent.upsertBooking ext event bookingId organizerUserId clientUserId).Every
      Call.WritesBooking := by
  unfold IngestEvent.upsertBooking
  refine (Program.every_lift _).bind fun data => ?_
  refine Program.Every.bind ?_ fun ref => Program.Every.bind ?_ fun _ => Program.Every.bind ?_
    fun _ => trivial
  · refine ⟨trivial, fun id => ?_⟩
    cases id <;> trivial
  · unfold IngestEvent.saveOrganizerHistory
    split
    · cases organizerUserId with
      | none => trivial
      | some organizer => exact ⟨trivial, fun _ => trivial⟩
    · trivial
  · unfold IngestEvent.reassignClient
    split
    · refine (Program.every_lift _).bind fun newClient => ?_
      cases newClient with
      | none => trivial
      | some u => exact ⟨trivial, fun _ => trivial⟩
    · trivial

lemma every_getOrNone {P : Call → Prop} {bookingId queueName : String}
    (hP : P (.findByBookingUid bookingId)) :
    (BookingRepository.getOrNone bookingId queueName).Every P := by
  unfold BookingRepository.getOrNone
  split
  · trivial
  · exact ⟨hP, fun _ => trivial⟩

lemma every_backfill {P : Call → Prop} (hP : ∀ email role userId,
    P (.backfillUserIdByEmail email role userId)) (email role : Json) (userId : Uuid) :
    (BookingRepository.backfillUserIdByEmail email role userId).Every P := by
  unfold BookingRepository.backfillUserIdByEmail
  refine (Program.every_lift _).bind fun column => ?_
  cases column with
  | none => trivial
  | some column => exact ⟨hP _ _ _, fun _ => trivial⟩

variable (ext) in
lemma every_process (queueName : String) (event : ParsedEvent) :
    (IngestEvent.process ext queueName event).Every Call.KeepsEventsTotal := by
  unfold IngestEvent.process
  split
  · refine (Program.every_lift _).bind fun user => ?_
    exact every_backfill (fun _ _ _ => trivial) _ _ _
  · split
    · trivial
    · split
      · trivial
      · refine (Program.every_lift _).bind fun found => ?_
        refine (every_getOrNone trivial).bind fun known => ?_
        have hproject (args : HandleArgs) := (every_executeProjections ext args).mono
          fun _ hc => hc.keepsEventsTotal
        cases known with
        | some id => exact hproject _
        | none =>
          refine ((every_upsertBooking ext event _ _ _).mono fun _ hc =>
            hc.keepsEventsTotal).bind fun booking => ?_
          exact hproject _

/-- What follows the insertion of a new event counts the lifecycle row it adds. -/
lemma lifecycleCounted_process {queueName : String} {event : ParsedEvent} {s s' : Service}
    (hfresh : ∀ l ∈ s.db.tables.lifecycleEvents, l.row.rawEventId ≠ event.eventId)
    (hrun : (IngestEvent.process ext queueName event).run (Service.execute ext) s =
      (.ok (), s')) : LifecycleCounted s s' := by
  rw [IngestEvent.process] at hrun
  split at hrun
  · obtain ⟨user, t, hsame, hrun⟩ := sameLifecycle_bind (Program.every_lift _) hrun
    have hbackfill : (BookingRepository.backfillUserIdByEmail user.1 user.2.1 user.2.2).Every
        Call.KeepsLifecycle := every_backfill (fun _ _ _ => trivial) _ _ _
    have hsame' := hbackfill.run_rel (Service.execute ext) SameLifecycle.refl SameLifecycle.trans
      (sameLifecycle_call ext) t
    rw [hrun] at hsame'
    exact .of_same (hsame.trans hsame')
  · split at hrun
    · cases hrun
      exact .of_same (.refl s)
    · split at hrun
      · cases hrun
        exact .of_same (.refl s)
      · rw [IngestEvent.processBooking] at hrun
        obtain ⟨found, t₁, hsame₁, hrun⟩ := sameLifecycle_bind (Program.every_lift _) hrun
        obtain ⟨known, t₂, hsame₂, hrun⟩ := sameLifecycle_bind (every_getOrNone trivial) hrun
        have hsame₁₂ := hsame₁.trans hsame₂
        cases known with
        | some id =>
          refine hsame₁₂.counted ?_
          exact lifecycleCounted_executeProjections (leavesLifecycle_handlers ext)
            (hsame₁₂.2 ▸ hfresh) hrun
        | none =>
          obtain ⟨booking, t₃, hsame₃, hrun⟩ :=
            sameLifecycle_bind ((every_upsertBooking ext event _ _ _).mono
              fun _ hc => hc.keepsLifecycle) hrun
          have hsame := hsame₁₂.trans hsame₃
          refine hsame.counted ?_
          exact lifecycleCounted_executeProjections (leavesLifecycle_handlers ext)
            (hsame.2 ▸ hfresh) hrun

end Programs

section Attempts

variable {ext : Externals} {a : Attempt} {m : Message} {s : Service} {event : ParsedEvent}

lemma metrics_saveEvent :
    (Service.saveEvent ext a m s).2.metrics =
      (runFaulty (Service.execute ext) a.fault.pending (IngestEvent.execute ext a.now m)
        s).2.metrics := by
  rw [Service.saveEvent, transact]
  rcases runFaulty (Service.execute ext) a.fault.pending (IngestEvent.execute ext a.now m) s with
    ⟨e | _, t⟩
  · rfl
  · cases a.fault <;> rfl

lemma eventsTotal_process (f : Option (Nat × Exc)) (queueName : String) (s : Service) :
    (runFaulty (Service.execute ext) f (IngestEvent.process ext queueName event)
      s).2.metrics.eventsTotal = s.metrics.eventsTotal := by
  refine (every_process ext queueName event).runFaulty_rel (Service.execute ext)
    (R := fun s s' => s'.metrics.eventsTotal = s.metrics.eventsTotal) (fun _ => rfl)
    (fun h₁ h₂ => h₂.trans h₁) (fun c hc s r s' h => ?_) f s
  rw [Service.execute] at h
  rcases hexec : SqlExecutor.execute ext c s.db with e | ⟨reply, db⟩
  · rw [hexec] at h
    cases h
  · rw [hexec] at h
    cases h
    cases c <;> first | rfl | exact hc.elim

lemma eventsTotal_gated {f : Option (Nat × Exc)} (hf : ∀ e, f ≠ some (0, e)) (queueName : String)
    (s : Service) :
    (runFaulty (Service.execute ext) f (IngestEvent.gated ext queueName event true)
      s).2.metrics.eventsTotal = Metrics.inc s.metrics.eventsTotal event.eventType := by
  have hcall : IngestEvent.gated ext queueName event true =
      .call (S := Calls) (.incEventsTotal event.eventType) fun _ =>
        IngestEvent.process ext queueName event := rfl
  rw [hcall, runFaulty.eq_4 _ _ _ _ _ fun e => hf e]
  exact eventsTotal_process _ queueName _

lemma execute_insertEvent :
    Service.execute ext (.insertEvent (EventRepository.row event)) s =
      if isDuplicate event s.db then .ok (false, s)
      else .ok (true, ⟨insertRow event s.db, s.metrics⟩) := by
  have hinsert : SqlExecutor.execute ext (.insertEvent (EventRepository.row event)) s.db =
      if isDuplicate event s.db then .ok (false, s.db) else .ok (true, insertRow event s.db) := rfl
  rw [Service.execute, hinsert]
  by_cases hd : isDuplicate event s.db = true
  · rw [if_pos hd, if_pos hd]
    rfl
  · rw [if_neg hd, if_neg hd]
    rfl

/-- A run that is not stopped at once inserts the event. -/
lemma runFaulty_execute (hparse : EventParser.parse ext a.now m = .ok event)
    {f : Option (Nat × Exc)} (hf : ∀ e, f ≠ some (0, e)) :
    (runFaulty (Service.execute ext) f (IngestEvent.execute ext a.now m) s).2 =
      if isDuplicate event s.db then s
      else (runFaulty (Service.execute ext) (f.map fun p => (p.1 - 1, p.2))
        (IngestEvent.gated ext m.queueName event true) ⟨insertRow event s.db, s.metrics⟩).2 := by
  rw [execute_of_parse hparse, runFaulty.eq_4 _ _ _ _ _ fun e => hf e]
  rw [execute_insertEvent]
  by_cases hd : isDuplicate event s.db = true
  · rw [if_pos hd, if_pos hd]
    rcases f with _ | ⟨_ | _ | n, e⟩ <;> rfl
  · rw [if_neg hd, if_neg hd]

/-- An attempt counts its event, or leaves the counters alone. -/
lemma attempt_counts :
    ((AttemptMade.mk a m s.db).counts ext = true →
      (Service.saveEvent ext a m s).2.metrics.eventsTotal =
        Metrics.inc s.metrics.eventsTotal m.eventType) ∧
    ((AttemptMade.mk a m s.db).counts ext = false →
      (Service.saveEvent ext a m s).2.metrics = s.metrics) := by
  rw [metrics_saveEvent, AttemptMade.counts]
  dsimp only
  cases hparse : EventParser.parse ext a.now m with
  | error e =>
    refine ⟨fun h => (by cases h), fun _ => ?_⟩
    rw [execute_of_not_parse hparse]
    rcases a.fault with _ | ⟨_ | n, e⟩ | e <;> rfl
  | ok event =>
    have htype := (EventParser.parse_filed ext hparse).2.1
    have hrun {f : Option (Nat × Exc)} (hf : ∀ e, f ≠ some (0, e)) :=
      @runFaulty_execute ext a m s event hparse f hf
    have hnone (e : Exc) : (none : Option (Nat × Exc)) ≠ some (0, e) := by simp
    have hbefore (e : Exc) : runFaulty (Service.execute ext) (some (0, e))
        (IngestEvent.execute ext a.now m) s = (.error e, s) := by rw [runFaulty]
    have hlater (n : Nat) (e e' : Exc) : some (n + 1, e) ≠ some (0, e') := by simp
    dsimp only
    by_cases hd : isDuplicate event s.db = true
    · refine ⟨fun h => ?_, fun _ => ?_⟩
      · rw [hd] at h
        cases h
      · rcases a.fault with _ | ⟨_ | n, e⟩ | e <;> simp only [Fault.pending]
        · rw [hrun hnone, if_pos hd]
        · rw [hbefore]
        · rw [hrun (hlater _ _), if_pos hd]
        · rw [hrun hnone, if_pos hd]
    · rw [Bool.eq_false_iff.mpr hd, Bool.not_false, Bool.true_and, ← htype]
      rcases a.fault with _ | ⟨_ | _ | n, e⟩ | e <;> simp only [Fault.pending]
      · refine ⟨fun _ => ?_, fun h => (by cases h)⟩
        rw [hrun hnone, if_neg hd]
        exact eventsTotal_gated hnone m.queueName _
      · refine ⟨fun h => (by cases h), fun _ => ?_⟩
        rw [hbefore]
      · refine ⟨fun h => absurd h (by simp [sparesCounter]), fun _ => ?_⟩
        rw [hrun (hlater _ _), if_neg hd]
        rfl
      · refine ⟨fun _ => ?_, fun h => absurd h (by simp [sparesCounter])⟩
        rw [hrun (hlater _ _), if_neg hd]
        exact eventsTotal_gated (hlater n e) m.queueName _
      · refine ⟨fun _ => ?_, fun h => (by cases h)⟩
        rw [hrun hnone, if_neg hd]
        exact eventsTotal_gated hnone m.queueName _

lemma sparesCounter_of_commits (hparse : EventParser.parse ext a.now m = .ok event)
    (hnew : ¬ isDuplicate event s.db = true) (h : Service.attemptCommits ext a m s = true) :
    sparesCounter a.fault = true := by
  have hstops (e : Exc) : (runFaulty (Service.execute ext) (some (0, e))
      (IngestEvent.execute ext a.now m) s).1.isOk = false := by
    rw [runFaulty]
    rfl
  have hstops' (e : Exc) : (runFaulty (Service.execute ext) (some (1, e))
      (IngestEvent.execute ext a.now m) s).1.isOk = false := by
    have hinsert : Service.execute ext (.insertEvent (EventRepository.row event)) s =
        .ok (true, ⟨insertRow event s.db, s.metrics⟩) := by
      rw [execute_insertEvent, if_neg hnew]
    rw [execute_of_parse hparse, runFaulty.eq_4 _ _ _ _ _ (by simp), hinsert]
    rfl
  rw [Service.attemptCommits, commits] at h
  generalize a.fault = fault at h ⊢
  rcases fault with _ | ⟨_ | _ | n, e⟩ | e
  · rfl
  · cases (hstops e).symm.trans h
  · cases (hstops' e).symm.trans h
  · simp [sparesCounter]
  · rfl

/-- An attempt that commits has counted the lifecycle row it adds. -/
lemma lifecycleCounted_saveEvent (hwf : s.db.WellFormed)
    (h : Service.attemptCommits ext a m s = true) :
    LifecycleCounted s (Service.saveEvent ext a m s).2 := by
  rw [Service.attemptCommits, commits] at h
  rcases hfaulty : runFaulty (Service.execute ext) a.fault.pending
    (IngestEvent.execute ext a.now m) s with ⟨e | _, t⟩
  · rw [hfaulty] at h
    cases h
  · have hsave : (Service.saveEvent ext a m s).2 = t := by
      rw [Service.saveEvent, transact, hfaulty]
      cases a.fault <;> rfl
    have hrun := run_of_runFaulty_ok _ hfaulty
    rw [hsave]
    cases hparse : EventParser.parse ext a.now m with
    | error e =>
      rw [execute_of_not_parse hparse] at hrun
      cases hrun
    | ok event =>
      rw [execute_of_parse hparse] at hrun
      by_cases hd : isDuplicate event s.db = true
      · have hinsert : Service.execute ext (.insertEvent (EventRepository.row event)) s =
            .ok (false, s) := by
          rw [execute_insertEvent, if_pos hd]
        rw [Program.run_call_ok _ hinsert] at hrun
        cases hrun
        exact .of_same (.refl s)
      · have hinsert : Service.execute ext (.insertEvent (EventRepository.row event)) s =
            .ok (true, ⟨insertRow event s.db, s.metrics⟩) := by
          rw [execute_insertEvent, if_neg hd]
        rw [Program.run_call_ok _ hinsert] at hrun
        have hfresh : ∀ l ∈ s.db.tables.lifecycleEvents, l.row.rawEventId ≠ event.eventId :=
          fun l hl heq => not_mem_eventIds (Bool.eq_false_iff.mpr hd)
            (heq ▸ hwf.lifecycleSources l hl)
        have hsame : SameLifecycle s ⟨insertRow event s.db,
            s.metrics.count (.incEventsTotal event.eventType)⟩ := ⟨rfl, rfl⟩
        exact hsame.counted (lifecycleCounted_process hfresh hrun)

end Attempts

namespace Service

variable {ext : Externals} {retryAttempts : Nat} {start : Db}

/-- What has been counted: the committed rows, and the attempts that counted in vain. -/
structure Counted (ext : Externals) (start : Db) (s : Service × List AttemptMade) : Prop where
  wellFormed : s.1.db.WellFormed
  events : ∃ rows, s.1.db.tables.events = start.tables.events ++ rows ∧
    ∀ eventType, s.1.metrics.eventsTotal eventType =
      (rows.countP fun e => e.eventType == eventType) +
        s.2.countP fun x => x.countsInVain ext && x.message.eventType == eventType
  lifecycle : ∃ rows, s.1.db.tables.lifecycleEvents = start.tables.lifecycleEvents ++ rows ∧
    ((∀ x ∈ s.2, x.countsInVain ext = false) → ∀ action,
      s.1.metrics.bookingLifecycleTotal action = rows.countP fun l => l.row.action == action)

namespace Counted

lemma initial (h : start.WellFormed) : Counted ext start (⟨start, .zero⟩, []) where
  wellFormed := h
  events := ⟨[], (List.append_nil _).symm, fun _ => rfl⟩
  lifecycle := ⟨[], (List.append_nil _).symm, fun _ _ => rfl⟩

/-- What an attempt adds to the counters and to the tables. -/
lemma saveLogged {s : Service × List AttemptMade} (h : Counted ext start s) (a : Attempt)
    (m : Message) : Counted ext start (Service.saveLogged ext a m s).2 := by
  obtain ⟨s, log⟩ := s
  obtain ⟨hcounts, hidle⟩ := @attempt_counts ext a m s
  obtain ⟨rows, hrows, htotal⟩ := h.events
  obtain ⟨lifecycles, hlifecycles, hlifecycle⟩ := h.lifecycle
  have hwf : (saveEvent ext a m s).2.db.WellFormed := by
    have hsave := h.wellFormed.saveEventUnder ext a.fault a.now m
    rwa [saveEvent_eq] at hsave
  have hcommits : (AttemptMade.mk a m s.db).commits ext = attemptCommits ext a m s :=
    refines.commits a.fault _ s
  have hlog (eventType : String) : (log ++ [AttemptMade.mk a m s.db]).countP
        (fun x => x.countsInVain ext && x.message.eventType == eventType) =
      log.countP (fun x => x.countsInVain ext && x.message.eventType == eventType) +
        if ((AttemptMade.mk a m s.db).countsInVain ext && m.eventType == eventType) = true then 1
        else 0 := by
    rw [List.countP_append, List.countP_singleton]
  cases hc : attemptCommits ext a m s with
  | true =>
    have hinVain : (AttemptMade.mk a m s.db).countsInVain ext = false := by
      rw [AttemptMade.countsInVain, hcommits, hc, Bool.not_true, Bool.and_false]
    obtain ⟨event, hparse, hingest, _⟩ := attempt_commits hc
    have hevents := ingestEffect_events ext hingest
    obtain ⟨added, hadded, hcounted⟩ := lifecycleCounted_saveEvent h.wellFormed hc
    refine ⟨hwf, ?_, lifecycles ++ added, ?_, fun hall action => ?_⟩
    · by_cases hd : isDuplicate event s.db = true
      · have hnot : (AttemptMade.mk a m s.db).counts ext = false := by
          rw [AttemptMade.counts]
          simp only [hparse, hd, Bool.not_true, Bool.false_and]
        rw [if_pos hd, List.append_nil] at hevents
        refine ⟨rows, hevents.trans hrows, fun eventType => ?_⟩
        rw [EventSaver.Service.saveLogged, hlog, hinVain, hidle hnot, htotal]
        rfl
      · have hcount : (AttemptMade.mk a m s.db).counts ext = true := by
          rw [AttemptMade.counts]
          simp only [hparse, Bool.eq_false_iff.mpr hd, Bool.not_false, Bool.true_and]
          exact sparesCounter_of_commits hparse hd hc
        rw [if_neg hd] at hevents
        refine ⟨rows ++ [EventRepository.row event], ?_, fun eventType => ?_⟩
        · rw [← List.append_assoc, ← hrows]
          exact hevents
        · have htype : (EventRepository.row event).eventType = m.eventType :=
            (EventParser.parse_filed ext hparse).2.1
          rw [EventSaver.Service.saveLogged, hlog, hinVain, hcounts hcount, inc_apply, htotal,
            List.countP_append, List.countP_singleton, htype, Bool.false_and,
            if_neg Bool.false_ne_true, Nat.add_zero]
          exact Nat.add_right_comm _ _ _
    · rw [← List.append_assoc, ← hlifecycles]
      exact hadded
    · have hold := hlifecycle (fun x hx => hall x (List.mem_append_left _ hx)) action
      rw [List.countP_append, ← hold]
      exact hcounted action
  | false =>
    have hinVain : (AttemptMade.mk a m s.db).countsInVain ext =
        (AttemptMade.mk a m s.db).counts ext := by
      rw [AttemptMade.countsInVain, hcommits, hc, Bool.not_false, Bool.and_true]
    have htables := (attempt_not_commits hc).2.1
    refine ⟨hwf, ⟨rows, ?_, fun eventType => ?_⟩, lifecycles, ?_, fun hall action => ?_⟩
    · exact (congrArg Tables.events htables).trans hrows
    · rw [EventSaver.Service.saveLogged, hlog, hinVain]
      cases hcount : (AttemptMade.mk a m s.db).counts ext with
      | true =>
        rw [hcounts hcount, inc_apply, htotal, Bool.true_and]
        exact Nat.add_assoc _ _ _
      | false =>
        rw [hidle hcount, htotal]
        rfl
    · exact (congrArg Tables.lifecycleEvents htables).trans hlifecycles
    · have hold := hlifecycle (fun x hx => hall x (List.mem_append_left _ hx)) action
      have hnot := hall _ (List.mem_append_right _ (List.mem_singleton_self _))
      rw [← hold]
      exact congrArg (fun metrics => metrics.bookingLifecycleTotal action) (hidle (hinVain ▸ hnot))

lemma consumeLogged {s : Service × List AttemptMade} (h : Counted ext start s) (c : Consumption) :
    Counted ext start (Service.consumeLogged ext retryAttempts c s).2 := by
  have hrecord {s : Service × List AttemptMade} (h : Counted ext start s) (queue type outcome : String) :
      Counted ext start
        ({ s.1 with metrics := s.1.metrics.recordMessage queue type outcome }, s.2) :=
    ⟨h.wellFormed, h.events, h.lifecycle⟩
  rw [Service.consumeLogged, RabbitEventConsumerRunner.consumeMessage]
  cases c.delivery.event with
  | none => exact hrecord h _ _ _
  | some event =>
    exact hrecord (RabbitEventConsumerRunner.saveWithRetry_inv (I := Counted ext start)
      (fun attempt s hs => hs.saveLogged (c.attempts attempt) _) retryAttempts 1 h) _ _ _

lemma runLogged (cs : List Consumption) {s : Service × List AttemptMade}
    (h : Counted ext start s) : Counted ext start (Service.runLogged ext retryAttempts cs s) := by
  induction cs generalizing s with
  | nil => exact h
  | cons c rest ih => exact ih (h.consumeLogged c)

end Counted

variable (ext retryAttempts) in
/-- After a run the counters count the committed rows if and only if no attempt of the run has
counted its event and was then rolled back. -/
theorem countersExact_iff (h : start.Reachable ext) (cs : List Consumption) :
    CountersExact start (run ext retryAttempts cs ⟨start, .zero⟩) ↔
      ∀ x ∈ attemptsMade ext retryAttempts cs ⟨start, .zero⟩, x.countsInVain ext = false := by
  have hcounted : Counted ext start (runLogged ext retryAttempts cs (⟨start, .zero⟩, [])) :=
    (Counted.initial h.wellFormed).runLogged cs
  obtain ⟨rows, hrows, htotal⟩ := hcounted.events
  obtain ⟨lifecycles, hlifecycles, hlifecycle⟩ := hcounted.lifecycle
  rw [runLogged_fst] at hrows hlifecycles htotal hlifecycle
  have hevents : committedEvents start (run ext retryAttempts cs ⟨start, .zero⟩) = rows := by
    rw [committedEvents, hrows, List.drop_left]
  have hlifecycleRows :
      committedLifecycle start (run ext retryAttempts cs ⟨start, .zero⟩) = lifecycles := by
    rw [committedLifecycle, hlifecycles, List.drop_left]
  constructor
  · intro hexact x hx
    have hsum := htotal x.message.eventType
    rw [hexact.events, hevents, left_eq_add, List.countP_eq_zero] at hsum
    have hnot := hsum x hx
    rw [beq_self_eq_true, Bool.and_true] at hnot
    exact Bool.eq_false_iff.mpr hnot
  · intro hnone
    refine ⟨fun eventType => ?_, fun action => ?_⟩
    · have hzero : (attemptsMade ext retryAttempts cs ⟨start, .zero⟩).countP
          (fun x => x.countsInVain ext && x.message.eventType == eventType) = 0 := by
        rw [List.countP_eq_zero]
        intro x hx
        rw [hnone x hx, Bool.false_and]
        exact Bool.false_ne_true
      rw [htotal, hevents]
      exact congrArg (_ + ·) hzero
    · rw [hlifecycle hnone, hlifecycleRows]

/-- A lost acknowledgement does not disturb the counters. -/
theorem countersExact_lostAcknowledgement :
    CountersExact .empty (run .sample 2 [lostAcknowledgement] ⟨.empty, .zero⟩) :=
  (countersExact_iff .sample 2 .empty [lostAcknowledgement]).mpr (by decide)

/-- A delivery whose first attempt loses the connection after the event has been inserted. -/
def lostConnection : Consumption where
  delivery := ⟨BOOKING_LIFECYCLE_SAVER_QUEUE, some createdEvent⟩
  attempts attempt := ⟨0, if attempt = 1 then .before 2 .operationalError else .none⟩

/-- The retry stores one event, and two have been counted. -/
theorem not_countersExact_lostConnection :
    ¬ CountersExact .empty (run .sample 2 [lostConnection] ⟨.empty, .zero⟩) := fun hexact =>
  absurd (hexact.events EventType.bookingCreated.value) (by decide)

end Service

end EventSaver
