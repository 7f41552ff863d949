import EventSaver.ReadCommitted
import EventSaver.StatementOrder

/-!
# The row of one booking under concurrency

What a `save_event` transaction depends on when all messages are about one booking: the row of the
booking, the sequence of ids and the users that events list. Whether its insertion finds a conflict
is settled beforehand.
-/

namespace EventSaver
open JsonData TableData EffectProgram

/-- The row of a booking, the sequence, and the e-mails listed for a booking and a role. -/
@[ext] structure RowState where
  row : Option BookingRow
  seq : Nat
  listed : String → RecipientRole → String → Bool

variable (ext : Externals) (known : EventRow → Bool)

def Visible.rowState (uid : String) (s : Visible) : RowState where
  row := s.bookings uid
  seq := s.bookingsSeq
  listed := participantListed ext s.events

namespace RowState

/-- The state once a row has been inserted into `events`. -/
def insert (row : EventRow) (x : RowState) : RowState :=
  if known row then x
  else
    { x with
      listed := fun bookingUid role email =>
        x.listed bookingUid role email || participantListed ext [row] bookingUid role email }

/-- The effect of one call on the row of a booking. -/
def execute : Handler Calls Exc RowState
  | .insertEvent row, x => .ok (!known row, x.insert ext known row)
  | .incEventsTotal _, x => .ok ((), x)
  | .backfillUserIdByEmail email role userId, x => do
    let email ← nullableTextParam email
    return ((), { x with row := x.row.map (BookingRow.backfill x.listed role email userId) })
  | .findByBookingUid _, x => .ok (x.row.map (·.id), x)
  | .upsertBooking row, x =>
    let b := row.upserted x.seq x.row
    .ok (some b.id, { x with row := some b, seq := x.seq + 1 })
  | .saveOrganizerHistory _ _, x => .ok ((), x)
  | .updateClient ref clientUserId, x =>
    .ok ((), { x with
      row := x.row.map (BookingRow.updateId ref (·.setUserId .client clientUserId)) })
  | .incBookingLifecycleTotal _, x => .ok ((), x)
  | .project stmt, x => do
    let _ ← stmt.bind
    return ((), x)

end RowState

/-- The call is about the row of the given booking. -/
def Call.About (uid : String) : Call → Prop
  | .findByBookingUid bookingUid => bookingUid = uid
  | .upsertBooking row => row.bookingUid = uid
  | _ => True

variable {ext known} {uid : String}

lemma participantListed_append (events events' : List EventRow) (bookingUid email : String)
    (role : RecipientRole) :
    participantListed ext (events ++ events') bookingUid role email =
      (participantListed ext events bookingUid role email ||
        participantListed ext events' bookingUid role email) :=
  List.any_append

/-- The calls do on the row of their booking what they do on everything visible. -/
lemma Visible.execute_rowState {c : Call} (hc : c.About uid) {s : Visible}
    (hknown : ∀ row, c = .insertEvent row → s.events.any row.conflicts = known row) :
    (Visible.execute ext c s).map (fun out => (out.1, out.2.rowState ext uid)) =
      RowState.execute ext known c (s.rowState ext uid) := by
  cases c with
  | insertEvent row =>
    have hconflict := hknown row rfl
    simp only [Visible.execute, RowState.execute, RowState.insert, hconflict]
    cases known row with
    | true => rfl
    | false =>
      simp only [Except.map, Visible.rowState, Bool.not_false, Bool.false_eq_true, if_false]
      congr 3
      funext bookingUid role email
      exact participantListed_append _ _ _ _ _
  | incEventsTotal _ => rfl
  | backfillUserIdByEmail email role userId =>
    have hvisible : Visible.execute ext (.backfillUserIdByEmail email role userId) s =
        nullableTextParam email >>= fun email => .ok ((), { s with
          bookings := fun uid => (s.bookings uid).map
            (BookingRow.backfill (participantListed ext s.events) role email userId) }) := rfl
    have hrow : RowState.execute ext known (.backfillUserIdByEmail email role userId)
          (s.rowState ext uid) =
        nullableTextParam email >>= fun email => .ok ((), { s.rowState ext uid with
          row := (s.bookings uid).map
            (BookingRow.backfill (participantListed ext s.events) role email userId) }) := rfl
    rw [hvisible, hrow]
    cases nullableTextParam email <;> rfl
  | findByBookingUid bookingUid =>
    obtain rfl : bookingUid = uid := hc
    rfl
  | upsertBooking row =>
    obtain rfl : row.bookingUid = uid := hc
    simp only [Visible.execute, RowState.execute, Except.map, Visible.rowState,
      Function.update_self]
  | saveOrganizerHistory _ _ => rfl
  | updateClient _ _ => rfl
  | incBookingLifecycleTotal _ => rfl
  | project stmt =>
    have hvisible : Visible.execute ext (.project stmt) s = stmt.bind >>= fun _ => .ok ((), s) := rfl
    have hrow : RowState.execute ext known (.project stmt) (s.rowState ext uid) =
        stmt.bind >>= fun _ => .ok ((), s.rowState ext uid) := rfl
    rw [hvisible, hrow]
    cases stmt.bind <;> rfl

variable (known) in
/-- A call that is no insertion is answered as the row of its booking says. -/
lemma RowState.execute_of_visible {c : Call} (hc : c.About uid) (hinsertion : ¬ c.IsInsertion)
    {s s' : Visible} {r : c.Reply} (answer : Visible.execute ext c s = .ok (r, s')) :
    RowState.execute ext known c (s.rowState ext uid) = .ok (r, s'.rowState ext uid) := by
  rw [← Visible.execute_rowState hc fun row hrow => absurd (hrow ▸ trivial) hinsertion, answer]
  rfl

/-- The calls a program makes before it writes, apart from the insertion. -/
def Call.Quiet : Call → Prop
  | .incEventsTotal _ => True
  | .findByBookingUid _ => True
  | c => c.Projects

lemma Call.Quiet.not_isInsertion {c : Call} (h : c.Quiet) : ¬ c.IsInsertion := by
  cases c <;> first | exact h.elim | exact not_false

lemma Call.Quiet.not_writes {c : Call} (h : c.Quiet) (s : Visible) :
    c.writes ext s uid = false := by
  cases c <;> first | exact h.elim | rfl

/-- A call before the first write leaves the row as it is, and is answered alike on every row with
the same id. -/
lemma RowState.execute_quiet {c : Call} (hc : c.Quiet) {x x' : RowState} {r : c.Reply}
    (h : RowState.execute ext known c x = .ok (r, x')) :
    x' = x ∧ ∀ y : RowState, ((∀ bookingUid, c ≠ .findByBookingUid bookingUid) ∨
      y.row.map (·.id) = x.row.map (·.id)) → RowState.execute ext known c y = .ok (r, y) := by
  cases c with
  | incEventsTotal _ =>
    cases h
    exact ⟨rfl, fun _ _ => rfl⟩
  | findByBookingUid bookingUid =>
    cases h
    refine ⟨rfl, fun y hy => ?_⟩
    rcases hy with hy | hy
    · exact absurd rfl (hy bookingUid)
    · rw [RowState.execute, hy]
  | incBookingLifecycleTotal _ =>
    cases h
    exact ⟨rfl, fun _ _ => rfl⟩
  | project stmt =>
    obtain ⟨write, hbind, h⟩ := bind_eq_ok.mp h
    cases h
    refine ⟨rfl, fun y _ => ?_⟩
    have hy : RowState.execute ext known (.project stmt) y =
        stmt.bind >>= fun _ => .ok ((), y) := rfl
    rw [hy, hbind]
    rfl
  | insertEvent _ => exact hc.elim
  | backfillUserIdByEmail _ _ _ => exact hc.elim
  | upsertBooking _ => exact hc.elim
  | saveOrganizerHistory _ _ => exact hc.elim
  | updateClient _ _ => exact hc.elim

/-- A program that must upsert makes no quiet call. -/
lemma MustUpsert.replays_quiet {p q : Ingest Unit} (h : MustUpsert uid p) {x t : RowState}
    {tr : List (Σ c : Call, c.Reply)}
    (hreplays : Program.Replays (RowState.execute ext known) p x tr q t)
    (hquiet : ∀ e ∈ tr, e.1.Quiet) : q = p := by
  cases hreplays with
  | nil => rfl
  | cons answer hrest =>
    rcases h with ⟨e, he⟩ | ⟨row, next, hcall, _⟩
    · cases he
    · obtain ⟨rfl, _⟩ := Program.call.inj hcall
      exact ((List.forall_mem_cons.mp hquiet).1).elim

/-- Before the first write a program is answered alike on every row with the same id. When there
was no row and there is one now, that is so unless the program is to write the row. -/
theorem Unwritten.replays_quiet {looks synced : Prop} {p q : Ingest Unit} {x t : RowState}
    {tr : List (Σ c : Call, c.Reply)}
    (hreplays : Program.Replays (RowState.execute ext known) p x tr q t)
    (h : Unwritten looks synced uid p) (hquiet : ∀ e ∈ tr, e.1.Quiet) (y : RowState) :
    (y.row.map (·.id) = x.row.map (·.id) →
      Program.Replays (RowState.execute ext known) p y tr q y) ∧
    (x.row = none → Program.Replays (RowState.execute ext known) p y tr q y ∨
      looks ∧ MustUpsert uid q) := by
  induction hreplays with
  | nil p x => exact ⟨fun _ => .nil p y, fun _ => .inl (.nil p y)⟩
  | @cons c next r x x' t tr q answer hrest ih =>
    obtain ⟨hc, htail⟩ := List.forall_mem_cons.mp hquiet
    obtain ⟨rfl, hsame⟩ := RowState.execute_quiet hc answer
    have hstep (hnext : Unwritten looks synced uid (next r))
        (hlookup : ∀ bookingUid, c ≠ .findByBookingUid bookingUid) :
        (y.row.map (·.id) = x'.row.map (·.id) →
          Program.Replays (RowState.execute ext known) (.call c next) y (⟨c, r⟩ :: tr) q y) ∧
        (x'.row = none →
          Program.Replays (RowState.execute ext known) (.call c next) y (⟨c, r⟩ :: tr) q y ∨
            looks ∧ MustUpsert uid q) := by
      obtain ⟨hid, hnone⟩ := ih hnext htail
      have hanswer := hsame y (.inl hlookup)
      exact ⟨fun hy => .cons hanswer (hid hy),
        fun hx => (hnone hx).imp_left fun hreplays => .cons hanswer hreplays⟩
    cases h with
    | count hnext => exact hstep (hnext r) nofun
    | project hprojects hnext =>
      refine hstep (hnext r) fun bookingUid hlookup => ?_
      subst hlookup
      exact hprojects.elim
    | upsert _ _ => exact hc.elim
    | backfill _ _ => exact hc.elim
    | lookup hlooks hupserts hnext =>
      obtain ⟨hid, hnone⟩ := ih (hnext r) htail
      refine ⟨fun hy => .cons (hsame y (.inr hy)) (hid hy), fun hx => ?_⟩
      by_cases hy : y.row.map (·.id) = x'.row.map (·.id)
      · exact .inl (.cons (hsame y (.inr hy)) (hid hy))
      · cases answer
        rw [hx] at hrest
        exact .inr ⟨hlooks, hupserts.replays_quiet hrest htail ▸ hupserts⟩

/-- A call after an upsert keeps the id of the row, and does not depend on the users listed. -/
lemma RowState.execute_followsUpsert {c : Call} (hc : c.FollowsUpsert) {x x' : RowState}
    {r : c.Reply} (h : RowState.execute ext known c x = .ok (r, x')) :
    x'.row.map (·.id) = x.row.map (·.id) ∧ x'.seq = x.seq ∧
      ∀ listed, RowState.execute ext known c { x with listed := listed } =
        .ok (r, { x' with listed := listed }) := by
  cases c with
  | saveOrganizerHistory _ _ =>
    cases h
    exact ⟨rfl, rfl, fun _ => rfl⟩
  | updateClient ref u =>
    cases h
    refine ⟨?_, rfl, fun _ => rfl⟩
    dsimp only
    rw [Option.map_map]
    congr 1
    funext b
    simp only [Function.comp, BookingRow.updateId]
    split <;> rfl
  | incBookingLifecycleTotal _ =>
    cases h
    exact ⟨rfl, rfl, fun _ => rfl⟩
  | project stmt =>
    obtain ⟨write, hbind, h⟩ := bind_eq_ok.mp h
    cases h
    refine ⟨rfl, rfl, fun listed => ?_⟩
    have hy : RowState.execute ext known (.project stmt) { x with listed := listed } =
        stmt.bind >>= fun _ => .ok ((), { x with listed := listed }) := rfl
    rw [hy, hbind]
    rfl
  | incEventsTotal _ => exact hc.elim
  | findByBookingUid _ => exact hc.elim
  | insertEvent _ => exact hc.elim
  | backfillUserIdByEmail _ _ _ => exact hc.elim
  | upsertBooking _ => exact hc.elim

lemma Unwritten.every_about {looks synced : Prop} {p : Ingest Unit} (h : Unwritten looks synced uid p) :
    p.Every fun c : Call => c.About uid ∧ ¬ c.IsInsertion := by
  have hfollows (c : Call) (hc : c.FollowsUpsert) : c.About uid ∧ ¬ c.IsInsertion := by
    refine ⟨?_, hc.not_isInsertion⟩
    cases c <;> first | exact hc.elim | trivial
  induction h with
  | pure => trivial
  | throw e => trivial
  | count _ ih => exact ⟨⟨trivial, not_false⟩, ih⟩
  | lookup _ _ _ ih => exact ⟨⟨rfl, not_false⟩, ih⟩
  | upsert huid hnext => exact ⟨⟨huid, not_false⟩, fun r => (hnext r).mono hfollows⟩
  | backfill _ hnext => exact ⟨⟨trivial, not_false⟩, fun r => by rw [hnext r]; trivial⟩
  | project hc _ ih => exact ⟨hfollows _ hc.followsUpsert, ih⟩

/-- `save_event` does on the row of its booking what its program does. -/
theorem saveEvent_rowState {now : Timestamp} {m : Message} {event : ParsedEvent} {db : Db}
    {t : RowState} (hparse : EventParser.parse ext now m = .ok event)
    (huid : ∀ bookingId, m.bookingId = some bookingId → bookingId = uid)
    (hknown : db.tables.events.any (EventRepository.row event).conflicts =
      known (EventRepository.row event))
    (hrun : (IngestEvent.gated ext m.queueName event (!known (EventRepository.row event))).run
      (RowState.execute ext known)
      ((db.visible.rowState ext uid).insert ext known (EventRepository.row event)) =
        (.ok (), t)) :
    (saveEvent ext now m db).2.visible.rowState ext uid = t ∧
      (saveEvent ext now m db).2.tables.events = db.tables.events ++
        if known (EventRepository.row event) then [] else [EventRepository.row event] := by
  have hbooking := (EventParser.parse_filed ext hparse).1
  have hinsert := @Visible.execute_rowState ext known uid (.insertEvent (EventRepository.row event))
    trivial db.visible fun row hrow => by cases hrow; exact hknown
  obtain ⟨⟨isInserted, s⟩, hanswer, hstate⟩ := except_map_eq_ok.mp hinsert
  obtain ⟨rfl, hs⟩ := Prod.mk.inj hstate
  have hevery := (@unwritten_gated ext m event uid (!known (EventRepository.row event))
    (hbooking ▸ huid)).every_about
  have hgated := hevery.run_map (K := Visible.execute ext) (H := RowState.execute ext known)
    (π := Visible.rowState ext uid) (fun c hc s => Visible.execute_rowState hc.1 fun row hrow =>
      absurd (hrow ▸ trivial) hc.2) s
  rw [hs, hrun] at hgated
  have hvisible := (refines_visible ext).runFaulty none (IngestEvent.execute ext now m) db
  rw [runFaulty_none, runFaulty_none] at hvisible
  generalize hrunDb : (IngestEvent.execute ext now m).run (SqlExecutor.execute ext) db = out
    at hvisible
  obtain ⟨result, db'⟩ := out
  rw [execute_of_parse hparse, Program.run_call_ok _ hanswer] at hvisible
  rw [hvisible] at hgated
  obtain ⟨rfl, rfl⟩ := Prod.mk.inj hgated
  have hsave : saveEvent ext now m db = (.ok (), db') := by
    rw [saveEvent, saveEventUnder, transact_none, hrunDb]
  rw [hsave]
  refine ⟨rfl, ?_⟩
  have hrealises := realises_execute ext now m db
  cases heffect : saveEffect ext now m db with
  | error e =>
    rw [heffect] at hrealises
    obtain ⟨db'', hrun'⟩ := hrealises
    rw [hrunDb] at hrun'
    cases hrun'
  | ok db'' =>
    rw [heffect] at hrealises
    obtain ⟨_, rfl⟩ := Prod.mk.inj (hrunDb.symm.trans hrealises)
    obtain ⟨event', hparse', hingest⟩ := bind_eq_ok.mp heffect
    obtain rfl : event = event' := Except.ok.inj (hparse.symm.trans hparse')
    rw [ingestEffect_events ext hingest, isDuplicate, hknown]

end EventSaver
