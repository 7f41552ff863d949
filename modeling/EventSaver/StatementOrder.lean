import EventSaver.Ingest
import EventSaver.Library.Waiting

/-!
# The order of the statements

The insertion of the event gates everything else. An event filed under a booking is looked up or
not, then written or not, then projected, table by table.
-/

namespace EventSaver
open JsonData TableData EffectProgram

/-- The calls of the projection loop. -/
def Call.Projects : Call → Prop
  | .project _ => True
  | .incBookingLifecycleTotal _ => True
  | _ => False

/-- The calls that may follow an upsert. -/
def Call.FollowsUpsert : Call → Prop
  | .saveOrganizerHistory _ _ => True
  | .updateClient _ _ => True
  | c => c.Projects

def Call.IsInsertion : Call → Prop
  | .insertEvent _ => True
  | _ => False

lemma Call.Projects.followsUpsert {c : Call} (h : c.Projects) : c.FollowsUpsert := by
  cases c <;> first | exact h | trivial

lemma Call.FollowsUpsert.not_isInsertion {c : Call} (h : c.FollowsUpsert) : ¬ c.IsInsertion := by
  cases c <;> first | exact h.elim | exact not_false

/-- The program raises, or upserts the row of a booking. -/
def MustUpsert (uid : String) (p : Ingest Unit) : Prop :=
  (∃ e, p = .throw e) ∨
    ∃ row next, p = .call (S := Calls) (.upsertBooking row) next ∧ row.bookingUid = uid

/-- A program that has not written any bookings row yet, and that may write the row of booking
`uid`. If `looks`, it may look that row up, and writes it when there is none; if `synced`, it may
end with a backfill. -/
inductive Unwritten (looks synced : Prop) (uid : String) : Ingest Unit → Prop
  | pure : Unwritten looks synced uid (.pure ())
  | throw (e : Exc) : Unwritten looks synced uid (.throw e)
  | count {eventType : String} {next : Unit → Ingest Unit}
      (h : ∀ r, Unwritten looks synced uid (next r)) :
      Unwritten looks synced uid (.call (S := Calls) (.incEventsTotal eventType) next)
  | lookup {next : Option Nat → Ingest Unit} (hlooks : looks) (hnone : MustUpsert uid (next none))
      (h : ∀ r, Unwritten looks synced uid (next r)) :
      Unwritten looks synced uid (.call (S := Calls) (.findByBookingUid uid) next)
  | upsert {row : Booking} {next : Option Nat → Ingest Unit} (huid : row.bookingUid = uid)
      (h : ∀ r, (next r).Every Call.FollowsUpsert) :
      Unwritten looks synced uid (.call (S := Calls) (.upsertBooking row) next)
  | backfill {email : Json} {role : RecipientRole} {userId : Uuid} {next : Unit → Ingest Unit}
      (hsynced : synced) (h : ∀ r, next r = .pure ()) :
      Unwritten looks synced uid (.call (S := Calls) (.backfillUserIdByEmail email role userId) next)
  | project {c : Call} {next : c.Reply → Ingest Unit} (hc : c.Projects)
      (h : ∀ r, Unwritten looks synced uid (next r)) :
      Unwritten looks synced uid (.call (S := Calls) c next)

section Shape

variable {ext : Externals} {uid : String} {p : Ingest Unit}

lemma unwritten_of_projects {looks synced : Prop} (h : p.Every Call.Projects) :
    Unwritten looks synced uid p := by
  induction p with
  | pure a => exact .pure
  | throw e => exact .throw e
  | call c next ih => exact .project h.1 fun r => ih r (h.2 r)

lemma Unwritten.every_not_isInsertion {looks synced : Prop} (h : Unwritten looks synced uid p) :
    p.Every fun c : Call => ¬ c.IsInsertion := by
  induction h with
  | pure => trivial
  | throw e => trivial
  | count _ ih => exact ⟨not_false, ih⟩
  | lookup _ _ _ ih => exact ⟨not_false, ih⟩
  | upsert _ hnext => exact ⟨not_false, fun r => (hnext r).mono fun c hc => hc.not_isInsertion⟩
  | backfill _ hnext => exact ⟨not_false, fun r => by rw [hnext r]; trivial⟩
  | project hc _ ih => exact ⟨hc.followsUpsert.not_isInsertion, ih⟩

variable (ext) in
lemma every_executeProjections (args : HandleArgs) :
    (ProjectionExecutor.executeProjections args (projectionHandlers ext)).Every Call.Projects := by
  have hlift (statement : Except Exc (Option ProjectionStmt)) :
      (Program.lift statement : Ingest (Option ProjectionStmt)).Every Call.Projects :=
    Program.every_lift statement
  have hlifecycle : (LifecycleProjection.handle ext args).Every Call.Projects := by
    refine (Program.every_lift _).bind fun statement => ?_
    rcases statement with _ | ⟨action, stmt⟩
    · trivial
    · exact ⟨trivial, fun _ => trivial⟩
  have hhandlers : ∀ handler ∈ projectionHandlers ext,
      (handler.handle args).Every Call.Projects := by
    simp only [projectionHandlers, List.forall_mem_cons, List.not_mem_nil, false_imp_iff,
      implies_true, and_true]
    exact ⟨hlift _, hlift _, hlift _, hlift _, hlift _, hlift _, hlift _, hlifecycle⟩
  generalize projectionHandlers ext = handlers at hhandlers
  induction handlers with
  | nil => trivial
  | cons handler rest ih =>
    rw [List.forall_mem_cons] at hhandlers
    have hproject : (ProjectionExecutor.project handler args).Every Call.Projects := by
      refine hhandlers.1.bind fun stmt => ?_
      cases stmt with
      | none => trivial
      | some stmt => exact ⟨trivial, fun _ => trivial⟩
    have hrest := ih hhandlers.2
    rw [ProjectionExecutor.executeProjections]
    by_cases hc : handler.canHandle args.event = true
    · rw [if_pos hc]
      exact hproject.bind fun _ => hrest
    · rw [if_neg hc]
      exact hrest

variable {event : ParsedEvent}

lemma every_saveOrganizerHistory (ref : Nat) (organizer : Option Uuid) :
    (IngestEvent.saveOrganizerHistory event ref organizer).Every Call.FollowsUpsert := by
  unfold IngestEvent.saveOrganizerHistory
  split
  · cases organizer with
    | none => trivial
    | some u => exact ⟨trivial, fun _ => trivial⟩
  · trivial

lemma every_reassignClient (ref : Nat) (client : Option Uuid) :
    (IngestEvent.reassignClient ext event ref client).Every Call.FollowsUpsert := by
  unfold IngestEvent.reassignClient
  split
  · refine (Program.every_lift _).bind fun newClient => ?_
    cases newClient with
    | none => trivial
    | some u => exact ⟨trivial, fun _ => trivial⟩
  · trivial

/-- The branch that writes the row, and what follows. -/
lemma upsertBooking_shape (looks synced : Prop) (organizer client : Option Uuid)
    {next : Nat × Option Uuid → Ingest Unit} (hnext : ∀ a, (next a).Every Call.Projects) :
    MustUpsert uid (IngestEvent.upsertBooking ext event uid organizer client >>= next) ∧
      Unwritten looks synced uid (IngestEvent.upsertBooking ext event uid organizer client >>= next) := by
  unfold IngestEvent.upsertBooking
  cases hdata : BookingDataExtractor.extract ext uid event.eventType event.payload with
  | error e => exact ⟨.inl ⟨e, rfl⟩, .throw e⟩
  | ok data =>
    have huid := BookingDataExtractor.extract_bookingId ext hdata
    simp only [Program.lift_ok, Program.bind_pure', BookingRepository.upsert, bind_assoc]
    refine ⟨.inr ⟨_, _, rfl, huid⟩, .upsert huid fun ref => ?_⟩
    cases ref with
    | none => trivial
    | some ref =>
      refine (every_saveOrganizerHistory ref organizer).bind fun _ => ?_
      refine (every_reassignClient ref client).bind fun _ => ?_
      exact (hnext _).mono fun c hc => hc.followsUpsert

theorem unwritten_processBooking (queueName : String) (synced : Prop) :
    Unwritten (queueName ≠ BOOKING_LIFECYCLE_SAVER_QUEUE) synced uid
      (IngestEvent.processBooking ext queueName event uid) := by
  unfold IngestEvent.processBooking
  cases ParticipantExtractor.extract ext event.payload with
  | error e => exact .throw e
  | ok ids =>
    obtain ⟨organizer, client⟩ := ids
    have hproject (ref : Nat) (client : Option Uuid) :=
      every_executeProjections ext ⟨event, ref, organizer, client, queueName⟩
    simp only [Program.lift_ok, Program.bind_pure', BookingRepository.getOrNone]
    by_cases hq : queueName = BOOKING_LIFECYCLE_SAVER_QUEUE
    · rw [if_pos hq]
      exact (upsertBooking_shape _ _ organizer client fun a => hproject a.1 a.2).2
    · rw [if_neg hq]
      have hupsert (looks : Prop) := @upsertBooking_shape ext uid event looks synced organizer client _
        fun a => hproject a.1 a.2
      refine .lookup hq (hupsert True).1 fun known => ?_
      cases known with
      | none => exact (hupsert _).2
      | some ref => exact unwritten_of_projects (hproject ref client)

theorem unwritten_process (queueName : String)
    (huid : ∀ bookingId, event.bookingId = some bookingId → bookingId = uid) :
    Unwritten (queueName ≠ BOOKING_LIFECYCLE_SAVER_QUEUE)
      (event.eventType = EventType.userSynced.value) uid (IngestEvent.process ext queueName event) := by
  unfold IngestEvent.process
  by_cases ht : event.eventType = EventType.userSynced.value
  · rw [if_pos ht]
    cases IngestEvent.syncedUser ext event.payload with
    | error e => exact .throw e
    | ok user =>
      obtain ⟨email, role, userId⟩ := user
      simp only [Program.lift_ok, Program.bind_pure', BookingRepository.backfillUserIdByEmail]
      rcases BookingRepository.roleColumn role with e | _ | column
      · exact .throw e
      · exact .pure
      · exact .backfill ht fun _ => rfl
  · rw [if_neg ht]
    cases hid : event.bookingId with
    | none => exact .pure
    | some bookingId =>
      obtain rfl := huid bookingId hid
      by_cases hempty : bookingId = ""
      · simp only [hempty, if_true]
        exact .pure
      · simp only [hempty, if_false]
        exact unwritten_processBooking queueName _

end Shape

/-- What follows the insertion of an event, given whether a row has been inserted. -/
def IngestEvent.gated (ext : Externals) (queueName : String) (event : ParsedEvent)
    (isInserted : Bool) : Ingest Unit :=
  if isInserted then do
    Program.perform (S := Calls) (.incEventsTotal event.eventType)
    process ext queueName event
  else return ()

section Execute

variable {ext : Externals} {now : Timestamp} {m : Message} {event : ParsedEvent}

lemma execute_of_parse (h : EventParser.parse ext now m = .ok event) :
    IngestEvent.execute ext now m =
      .call (S := Calls) (.insertEvent (EventRepository.row event))
        (IngestEvent.gated ext m.queueName event) := by
  rw [IngestEvent.execute, h]
  rfl

lemma execute_of_not_parse {e : Exc} (h : EventParser.parse ext now m = .error e) :
    IngestEvent.execute ext now m = .throw e := by
  rw [IngestEvent.execute, h]
  rfl

/-- The program of a message raises at once, or inserts the event first. -/
lemma execute_path {tr : List (Σ c : Call, c.Reply)} {rest : Ingest Unit}
    (h : (IngestEvent.execute ext now m).Path tr rest) :
    (tr = [] ∧ rest = IngestEvent.execute ext now m) ∨
      ∃ event isInserted tail, EventParser.parse ext now m = .ok event ∧
        tr = ⟨.insertEvent (EventRepository.row event), isInserted⟩ :: tail ∧
        (IngestEvent.gated ext m.queueName event isInserted).Path tail rest := by
  cases hparse : EventParser.parse ext now m with
  | error e =>
    rw [execute_of_not_parse hparse] at h ⊢
    exact .inl h.of_throw
  | ok event =>
    rw [execute_of_parse hparse] at h ⊢
    rcases h.of_call with h | ⟨isInserted, tail, htr, h⟩
    · exact .inl h
    · exact .inr ⟨event, isInserted, tail, rfl, htr, h⟩

lemma unwritten_gated {uid : String} (isInserted : Bool)
    (huid : ∀ bookingId, event.bookingId = some bookingId → bookingId = uid) :
    Unwritten (m.queueName ≠ BOOKING_LIFECYCLE_SAVER_QUEUE)
      (event.eventType = EventType.userSynced.value) uid
      (IngestEvent.gated ext m.queueName event isInserted) := by
  cases isInserted with
  | false => exact .pure
  | true => exact .count fun _ => unwritten_process m.queueName huid

lemma gated_every_not_isInsertion (isInserted : Bool) :
    (IngestEvent.gated ext m.queueName event isInserted).Every fun c : Call => ¬ c.IsInsertion := by
  refine (@unwritten_gated ext m event (event.bookingId.getD "") isInserted ?_).every_not_isInsertion
  intro bookingId hid
  rw [hid]
  rfl

end Execute

/-- The tables that a save writes behind those of the events and the bookings. -/
inductive SideTable where
  | organizerHistory
  | meetingLinks
  | emailNotifications
  | telegramNotifications
  | emailStatusHistory
  | chatEvents
  | videoEvents
  | lifecycleEvents
  deriving DecidableEq

/-- The place of a table in the order of a save, which leaves 8 to the handler of read messages. -/
def SideTable.place : SideTable → Nat
  | .organizerHistory => 2
  | .meetingLinks => 3
  | .emailNotifications => 4
  | .telegramNotifications => 5
  | .emailStatusHistory => 6
  | .chatEvents => 7
  | .videoEvents => 9
  | .lifecycleEvents => 10

def ProjectionStmt.table : ProjectionStmt → SideTable
  | .upsertMeetingLink _ _ _ _ _ => .meetingLinks
  | .deleteMeetingLink _ _ => .meetingLinks
  | .upsertEmailSent _ _ => .emailNotifications
  | .upsertEmailStatus _ _ => .emailNotifications
  | .insertTelegramNotification _ _ => .telegramNotifications
  | .insertEmailStatusHistory _ _ => .emailStatusHistory
  | .insertChatEvent _ _ _ _ _ _ _ _ => .chatEvents
  | .updateChatRead _ _ _ _ => .chatEvents
  | .insertVideoEvent _ _ _ _ _ _ _ => .videoEvents
  | .insertLifecycleEvent _ _ => .lifecycleEvents

def Call.table : Call → Option SideTable
  | .saveOrganizerHistory _ _ => some .organizerHistory
  | .project stmt => some stmt.table
  | _ => none

/-- The place of a statement in the order of a save. -/
def Call.place : Call → Option Nat
  | .insertEvent _ => some 0
  | .upsertBooking _ => some 1
  | c => c.table.map SideTable.place

lemma Call.place_of_table {c : Call} {t : SideTable} (h : c.table = some t) :
    c.place = some t.place := by
  cases c with
  | saveOrganizerHistory ref userId => exact congrArg (Option.map SideTable.place) h
  | project stmt => exact congrArg (Option.map SideTable.place) h
  | _ => cases h

/-- The calls of a program come in the order of their places, from a place on, each place once. -/
structure FromPlace {α : Type} (n : Nat) (p : Ingest α) : Prop where
  ascends : p.Ascends (fun _ _ => True) (· < ·) Call.place
  above : ∀ k < n, p.Above (fun _ _ => True) (· < ·) Call.place k

namespace FromPlace

variable {α β : Type} {n : Nat} {p : Ingest α} {f : α → Ingest β}

lemma of_every (h : p.Every fun c : Call => c.place = none) : FromPlace n p := by
  refine ⟨h.ascends, fun k _ => (h.mono fun c hc l hl => ?_).above⟩
  rw [hc] at hl
  cases hl

lemma mono {m : Nat} (h : FromPlace n p) (hm : m ≤ n) : FromPlace m p :=
  ⟨h.ascends, fun k hk => h.above k (hk.trans_le hm)⟩

/-- A call at a place, before what comes later. -/
lemma call {c : Call} {next : c.Reply → Ingest α} {k : Nat} (hc : c.place = some k) (hn : n ≤ k)
    (h : ∀ r, FromPlace (k + 1) (next r)) : FromPlace n (.call (S := Calls) c next) := by
  refine ⟨fun r _ => ⟨fun k' hk' => ?_, (h r).ascends⟩,
    fun k' hk' => ⟨fun l hl => ?_, fun r _ _ => ?_⟩⟩
  · obtain rfl := Option.some.inj (hc.symm.trans hk')
    exact (h r).above k (Nat.lt_succ_self k)
  · obtain rfl := Option.some.inj (hc.symm.trans hl)
    omega
  · exact (h r).above k' (by omega)

/-- A program that comes to no place, before one that does. -/
lemma none_bind (hp : p.Every fun c : Call => c.place = none) (hf : ∀ a, FromPlace n (f a)) :
    FromPlace n (p >>= f) := by
  refine ⟨Program.Ascends.none_bind hp fun a => (hf a).ascends, fun k hk => ?_⟩
  exact ((of_every hp).above k hk).bind fun a => (hf a).above k hk

end FromPlace

section Places

variable {ext : Externals} {args : HandleArgs}

/-- A handler builds a statement on the table of a place, and makes no other. -/
def BuildsAt (k : Nat) (p : Ingest (Option ProjectionStmt)) : Prop :=
  p.Ensures (fun (_ : Unit) _ _ _ => True) (fun _ (c : Call) => c.place = none)
    (fun _ built => ∀ stmt, built = some stmt → stmt.table.place = k) ()

lemma buildsAt_lift {k : Nat} {built : Except Exc (Option ProjectionStmt)}
    (h : ∀ stmt, built = .ok (some stmt) → stmt.table.place = k) : BuildsAt k (Program.lift built) := by
  cases built with
  | error e => exact True.intro
  | ok built => exact fun stmt hstmt => h stmt (congrArg Except.ok hstmt)

lemma meetingLink_table {stmt : ProjectionStmt}
    (h : MeetingLinkProjection.handle args = .ok (some stmt)) : stmt.table = .meetingLinks := by
  unfold MeetingLinkProjection.handle at h
  split at h
  · cases h
  · split at h
    · cases h
      rfl
    · obtain ⟨_, _, h⟩ := bind_eq_ok.mp h
      obtain ⟨_, _, h⟩ := bind_eq_ok.mp h
      cases h
      rfl

lemma emailNotification_table {stmt : ProjectionStmt}
    (h : EmailNotificationProjection.handle ext args = .ok (some stmt)) :
    stmt.table = .emailNotifications := by
  unfold EmailNotificationProjection.handle EmailNotificationProjection.handleEmailSent
    EmailNotificationProjection.handleEmailStatus at h
  split at h
  · simp only [bind_eq_ok] at h
    obtain ⟨_, _, _, _, h⟩ := h
    split at h
    · simp only [bind_eq_ok] at h
      obtain ⟨_, _, _, _, _, _, h⟩ := h
      cases h
      rfl
    · cases h
  · split at h
    · simp only [bind_eq_ok] at h
      obtain ⟨_, _, _, _, h⟩ := h
      split at h
      · simp only [bind_eq_ok] at h
        obtain ⟨_, _, _, _, _, _, _, _, _, _, h⟩ := h
        split at h
        · cases h
          rfl
        · cases h
      · cases h
    · cases h

lemma telegram_table {stmt : ProjectionStmt}
    (h : TelegramNotificationProjection.handle args = .ok (some stmt)) :
    stmt.table = .telegramNotifications := by
  simp only [TelegramNotificationProjection.handle, bind_eq_ok] at h
  obtain ⟨_, _, _, _, _, _, _, _, h⟩ := h
  cases h
  rfl

lemma emailStatusHistory_table {stmt : ProjectionStmt}
    (h : EmailStatusHistoryProjection.handle ext args = .ok (some stmt)) :
    stmt.table = .emailStatusHistory := by
  simp only [EmailStatusHistoryProjection.handle, bind_eq_ok] at h
  obtain ⟨_, _, _, _, h⟩ := h
  split at h
  · simp only [bind_eq_ok] at h
    obtain ⟨_, _, _, _, _, _, h⟩ := h
    split at h
    · simp only [bind_eq_ok] at h
      obtain ⟨_, _, h⟩ := h
      cases h
      rfl
    · cases h
  · cases h

lemma chatEvent_table {stmt : ProjectionStmt}
    (h : ChatEventProjection.handle ext args = .ok (some stmt)) : stmt.table = .chatEvents := by
  simp only [ChatEventProjection.handle, bind_eq_ok] at h
  obtain ⟨_, _, _, _, _, _, _, _, h⟩ := h
  cases h
  rfl

lemma videoEvent_table {stmt : ProjectionStmt}
    (h : VideoEventProjection.handle ext args = .ok (some stmt)) : stmt.table = .videoEvents := by
  simp only [VideoEventProjection.handle, bind_eq_ok] at h
  obtain ⟨_, _, _, _, _, _, _, _, h⟩ := h
  cases h
  rfl

lemma lifecycle_buildsAt : BuildsAt 10 (LifecycleProjection.handle ext args) := by
  unfold LifecycleProjection.handle LifecycleProjection.statement
  cases LifecycleProjection.actionOf args.event.eventType with
  | none => exact fun stmt hstmt => absurd hstmt.symm (Option.some_ne_none stmt)
  | some action =>
    cases LifecycleProjection.extractDetails ext args.event with
    | error e => exact True.intro
    | ok details =>
      refine ⟨rfl, fun _ _ _ stmt hstmt => ?_⟩
      rw [← Option.some.inj hstmt]
      rfl

/-- The statement of a handler comes at its place. -/
lemma fromPlace_project {handler : ProjectionHandler} {k : Nat} {next : Unit → Ingest Unit}
    (h : BuildsAt k (handler.handle args)) (hnext : FromPlace (k + 1) (next ())) :
    FromPlace k (ProjectionExecutor.project handler args >>= next) := by
  unfold ProjectionExecutor.project
  unfold BuildsAt at h
  generalize handler.handle args = built at h
  induction built with
  | pure built =>
    cases built with
    | none => exact hnext.mono (Nat.le_succ k)
    | some stmt => exact .call (congrArg some (h stmt rfl)) le_rfl fun _ => hnext
  | throw e => exact .of_every True.intro
  | call c next' ih =>
    exact .none_bind (p := .call (S := Calls) c .pure) ⟨h.1, fun _ => True.intro⟩ fun r =>
      ih r (h.2 r () True.intro)

/-- The handlers, those that handle the event at their places, write in the order of these. -/
lemma fromPlace_executeProjections {handlers : List ProjectionHandler} (places : List Nat)
    (h : List.Forall₂ (fun handler k => handler.canHandle args.event = true →
      BuildsAt k (handler.handle args)) handlers places) (hplaces : places.Pairwise (· < ·)) {n : Nat}
    (hn : ∀ k ∈ places, n ≤ k) :
    FromPlace n (ProjectionExecutor.executeProjections args handlers) := by
  induction h generalizing n with
  | nil => exact .of_every True.intro
  | @cons handler k handlers places hhandler _ ih =>
    obtain ⟨hfirst, hrest⟩ := List.pairwise_cons.mp hplaces
    obtain ⟨hk, hplaces'⟩ := List.forall_mem_cons.mp hn
    rw [ProjectionExecutor.executeProjections]
    by_cases hcan : handler.canHandle args.event = true
    · rw [if_pos hcan]
      exact (fromPlace_project (hhandler hcan) (ih hrest hfirst)).mono hk
    · rw [if_neg hcan]
      exact ih hrest hplaces'

variable {event : ParsedEvent} {m : Message} {now : Timestamp}

/-- The handlers write in the order of their places, for an event that is not a read message. -/
lemma fromPlace_handlers (htype : args.event.eventType ≠ EventType.getstreamMessageRead.value) :
    FromPlace 3 (ProjectionExecutor.executeProjections args (projectionHandlers ext)) := by
  refine fromPlace_executeProjections [3, 4, 5, 6, 7, 8, 9, 10] ?_ (by decide) (by decide)
  have hread : ¬ ChatReadUpdateProjection.canHandle args.event = true := by
    rw [ChatReadUpdateProjection.canHandle, Bool.and_eq_true, beq_iff_eq, beq_iff_eq]
    exact fun h => htype h.2
  have hlift {k : Nat} {built : Except Exc (Option ProjectionStmt)}
      (h : ∀ stmt, built = .ok (some stmt) → stmt.table.place = k) :
      BuildsAt k (Program.lift built) := buildsAt_lift h
  simp only [projectionHandlers, List.forall₂_cons, List.forall₂_nil_left_iff, and_true]
  exact ⟨fun _ => hlift fun stmt h => congrArg SideTable.place (meetingLink_table h),
    fun _ => hlift fun stmt h => congrArg SideTable.place (emailNotification_table h),
    fun _ => hlift fun stmt h => congrArg SideTable.place (telegram_table h),
    fun _ => hlift fun stmt h => congrArg SideTable.place (emailStatusHistory_table h),
    fun _ => hlift fun stmt h => congrArg SideTable.place (chatEvent_table h),
    fun h => absurd h hread,
    fun _ => hlift fun stmt h => congrArg SideTable.place (videoEvent_table h),
    fun _ => lifecycle_buildsAt⟩

lemma every_reassignClient_place (ref : Nat) (client : Option Uuid) :
    (IngestEvent.reassignClient ext event ref client).Every fun c : Call => c.place = none := by
  unfold IngestEvent.reassignClient
  split
  · refine (Program.every_lift _).bind fun newClient => ?_
    cases newClient with
    | none => trivial
    | some u => exact ⟨rfl, fun _ => trivial⟩
  · trivial

lemma fromPlace_upsertBooking {uid : String} {organizer client : Option Uuid}
    {next : Nat × Option Uuid → Ingest Unit} (hnext : ∀ a, FromPlace 3 (next a)) :
    FromPlace 1 (IngestEvent.upsertBooking ext event uid organizer client >>= next) := by
  unfold IngestEvent.upsertBooking
  cases BookingDataExtractor.extract ext uid event.eventType event.payload with
  | error e => exact .of_every True.intro
  | ok data =>
    simp only [Program.lift_ok, Program.bind_pure', BookingRepository.upsert, bind_assoc]
    refine .call rfl le_rfl fun ref => ?_
    cases ref with
    | none => exact .of_every True.intro
    | some ref =>
      have hrest : FromPlace 3 (IngestEvent.reassignClient ext event ref client >>= fun client =>
          next (ref, client)) := .none_bind (every_reassignClient_place ref client) fun _ => hnext _
      unfold IngestEvent.saveOrganizerHistory
      split
      · cases organizer with
        | none => exact hrest.mono (by decide)
        | some u => exact .call rfl le_rfl fun _ => hrest
      · exact hrest.mono (by decide)

/-- A save of a message that neither announces a user nor tells what has been read writes its tables
one after the other, each once. -/
theorem fromPlace_execute (hsynced : m.eventType ≠ EventType.userSynced.value)
    (hread : m.eventType ≠ EventType.getstreamMessageRead.value) :
    FromPlace 0 (IngestEvent.execute ext now m) := by
  cases hparse : EventParser.parse ext now m with
  | error e =>
    rw [execute_of_not_parse hparse]
    exact .of_every True.intro
  | ok event =>
    rw [execute_of_parse hparse]
    rw [← (EventParser.parse_filed ext hparse).2.1] at hsynced hread
    refine .call rfl le_rfl fun isInserted => ?_
    cases isInserted with
    | false => exact .of_every True.intro
    | true =>
      refine .none_bind (p := Program.perform (S := Calls) (.incEventsTotal event.eventType))
        ⟨rfl, fun _ => True.intro⟩ fun _ => ?_
      unfold IngestEvent.process
      rw [if_neg hsynced]
      cases event.bookingId with
      | none => exact .of_every True.intro
      | some uid =>
        by_cases hempty : uid = ""
        · simp only [hempty, if_true]
          exact .of_every True.intro
        · simp only [hempty, if_false]
          unfold IngestEvent.processBooking
          have hhandlers (ref : Nat) (organizer client : Option Uuid) :=
            @fromPlace_handlers ext ⟨event, ref, organizer, client, m.queueName⟩ hread
          cases ParticipantExtractor.extract ext event.payload with
          | error e => exact .of_every True.intro
          | ok ids =>
            obtain ⟨organizer, client⟩ := ids
            have hupsert := @fromPlace_upsertBooking ext event uid organizer client _
              fun a => hhandlers a.1 organizer a.2
            simp only [Program.lift_ok, Program.bind_pure', BookingRepository.getOrNone]
            by_cases hq : m.queueName = BOOKING_LIFECYCLE_SAVER_QUEUE
            · rw [if_pos hq]
              exact hupsert
            · rw [if_neg hq]
              refine .none_bind (p := Program.perform (S := Calls) (.findByBookingUid uid))
                ⟨rfl, fun _ => True.intro⟩ fun known => ?_
              cases known with
              | none => exact hupsert
              | some ref => exact (hhandlers ref organizer client).mono (by decide)

end Places

end EventSaver
