import EventSaver.Library.Pool
import EventSaver.BookingRecord

/-!
# Concurrent transactions

`save_event` transactions at the isolation level READ COMMITTED: every statement sees what is
committed and what its own transaction has written. The insertion of an event waits for an
uncommitted event in conflict with it, a statement that writes a bookings row for the open
transaction that has written that row before. The rows of the side tables are not in view here,
and where waits for them matter they are added.
-/

namespace EventSaver
open JsonData TableData EffectProgram

/-- What the answers to the statements of a `save_event` transaction depend on: the stored events,
the bookings row of every booking_uid, and the sequence of their ids. -/
@[ext] structure Visible where
  events : List EventRow
  bookings : String → Option BookingRow
  bookingsSeq : Nat

def Db.visible (db : Db) : Visible where
  events := db.tables.events
  bookings := fun uid => findBooking uid db.tables.bookings
  bookingsSeq := db.bookingsSeq

/-- The `WHERE` clause of the backfill, given which e-mails are listed for a booking and a role. -/
def Booking.reachedBy (listed : String → RecipientRole → String → Bool) (role : RecipientRole)
    (email : Option String) (b : Booking) : Bool :=
  match email with
  | some email => b.userId role == none && listed b.bookingUid role email
  | none => false

/-- The row that an upsert leaves, given the one it finds. -/
def Booking.upserted (id : Nat) (row : Booking) (found : Option BookingRow) : BookingRow :=
  found.elim { row with id := id } fun b => b.update row.merge

/-- A row after a write to the row of a given id. -/
def BookingRow.updateId (ref : Nat) (f : Booking → Booking) (b : BookingRow) : BookingRow :=
  if b.id == ref then b.update f else b

/-- A row after the backfill for a user. -/
def BookingRow.backfill (listed : String → RecipientRole → String → Bool) (role : RecipientRole)
    (email : Option String) (userId : Uuid) (b : BookingRow) : BookingRow :=
  if b.reachedBy listed role email then b.update (·.setUserId role userId) else b

variable (ext : Externals)

/-- The effect of one call on what is visible. -/
def Visible.execute : Handler Calls Exc Visible
  | .insertEvent row, s =>
    if s.events.any row.conflicts then .ok (false, s)
    else .ok (true, { s with events := s.events ++ [row] })
  | .incEventsTotal _, s => .ok ((), s)
  | .backfillUserIdByEmail email role userId, s => do
    let email ← nullableTextParam email
    return ((), { s with
      bookings := fun uid =>
        (s.bookings uid).map (BookingRow.backfill (participantListed ext s.events) role email userId) })
  | .findByBookingUid bookingUid, s => .ok ((s.bookings bookingUid).map (·.id), s)
  | .upsertBooking row, s =>
    let b := row.upserted s.bookingsSeq (s.bookings row.bookingUid)
    .ok (some b.id, { s with
      bookingsSeq := s.bookingsSeq + 1
      bookings := Function.update s.bookings row.bookingUid (some b) })
  | .saveOrganizerHistory _ _, s => .ok ((), s)
  | .updateClient ref clientUserId, s =>
    .ok ((), { s with
      bookings := fun uid =>
        (s.bookings uid).map (BookingRow.updateId ref (·.setUserId .client clientUserId)) })
  | .incBookingLifecycleTotal _, s => .ok ((), s)
  | .project stmt, s => do
    let _ ← stmt.bind
    return ((), s)

/-- The statements do on what is visible what they do on the database. -/
theorem refines_visible : Refines (SqlExecutor.execute ext) (Visible.execute ext) Db.visible := by
  intro c db
  cases c with
  | insertEvent row =>
    rw [SqlExecutor.execute, Visible.execute]
    have hevents : db.visible.events = db.tables.events := rfl
    rw [hevents]
    split <;> rfl
  | incEventsTotal _ => rfl
  | backfillUserIdByEmail email role userId =>
    have hexec : SqlExecutor.execute ext (.backfillUserIdByEmail email role userId) db =
        nullableTextParam email >>= fun email => .ok ((), { db with
          tables.bookings :=
            backfillBookings ext db.tables.events role email userId db.tables.bookings }) := rfl
    have hvisible : Visible.execute ext (.backfillUserIdByEmail email role userId) db.visible =
        nullableTextParam email >>= fun email => .ok ((), { db.visible with
          bookings := fun uid => (findBooking uid db.tables.bookings).map
            (BookingRow.backfill (participantListed ext db.tables.events) role email userId) }) := rfl
    rw [hexec, hvisible]
    cases nullableTextParam email with
    | error e => rfl
    | ok email =>
      have hfind (uid : String) :
          findBooking uid
              (backfillBookings ext db.tables.events role email userId db.tables.bookings) =
            (findBooking uid db.tables.bookings).map
              (BookingRow.backfill (participantListed ext db.tables.events) role email userId) := by
        cases email with
        | none => exact Option.map_id'.symm
        | some email => exact find?_updateWhere fun b => by simp
      simp only [ok_bind, Except.map, Db.visible, hfind]
  | findByBookingUid _ => rfl
  | upsertBooking row =>
    have hfind (uid : String) :
        findBooking uid (upsertBookingRow db.bookingsSeq row db.tables.bookings) =
          Function.update (fun uid => findBooking uid db.tables.bookings) row.bookingUid
            (some (row.upserted db.bookingsSeq (findBooking row.bookingUid db.tables.bookings)))
            uid := by
      by_cases huid : uid = row.bookingUid
      · subst huid
        rw [Function.update_self]
        exact findBooking_upsertBookingRow _ _ _
      · rw [Function.update_of_ne huid]
        refine find?_upsertWhere_other (fun b => by simp) (fun b hb => ?_) ?_
        · rw [beq_iff_eq] at hb
          rw [hb]
          exact beq_eq_false_iff_ne.mpr (Ne.symm huid)
        · exact beq_eq_false_iff_ne.mpr (Ne.symm huid)
    have hself := hfind row.bookingUid
    rw [Function.update_self] at hself
    simp only [SqlExecutor.execute, Visible.execute, Except.map, Db.visible, hself, hfind]
    rfl
  | saveOrganizerHistory _ _ => rfl
  | updateClient ref u =>
    have hfind (uid : String) :
        findBooking uid (updateWhere (fun b => b.id == ref) (fun b => b.update (·.setUserId .client u))
            db.tables.bookings) =
          (findBooking uid db.tables.bookings).map
            (BookingRow.updateId ref (·.setUserId .client u)) :=
      find?_updateWhere fun b => by simp
    simp only [SqlExecutor.execute, Visible.execute, Except.map, Db.visible, hfind]
  | incBookingLifecycleTotal _ => rfl
  | project stmt =>
    have hexec : SqlExecutor.execute ext (.project stmt) db =
        stmt.bind >>= fun write => .ok ((), write.apply db) := rfl
    have hvisible : Visible.execute ext (.project stmt) db.visible =
        stmt.bind >>= fun _ => .ok ((), db.visible) := rfl
    rw [hexec, hvisible]
    cases stmt.bind with
    | error e => rfl
    | ok write => simp [Except.map, Db.visible]

/-- What an open transaction has written: the events it has inserted, and its version of every
bookings row it has written. -/
structure Writes where
  events : List EventRow
  bookings : String → Option BookingRow

/-- Whether a statement writes the bookings row of a booking_uid. -/
def Call.writes (s : Visible) (uid : String) : Call → Bool
  | .upsertBooking row => uid == row.bookingUid
  | .updateClient ref _ => (s.bookings uid).any fun b => b.id == ref
  | .backfillUserIdByEmail email role _ =>
    match nullableTextParam email with
    | .ok email => (s.bookings uid).any fun b => b.reachedBy (participantListed ext s.events) role email
    | .error _ => false
  | _ => false

namespace Writes

def empty : Writes := ⟨[], fun _ => none⟩

def view (own : Writes) (s : Visible) : Visible where
  events := s.events ++ own.events
  bookings := fun uid => (own.bookings uid).or (s.bookings uid)
  bookingsSeq := s.bookingsSeq

/-- What has been written after a statement that took the view from `s` to `s'`. -/
def after (own : Writes) (c : Call) (s s' : Visible) : Writes where
  events := own.events ++ s'.events.drop s.events.length
  bookings := fun uid => if c.writes ext s uid then s'.bookings uid else own.bookings uid

/-- Whether a statement waits for a transaction that has written `other`. An insertion that a
visible row settles does not wait. The statements of the projections are taken never to wait, as
nothing that is read here depends on when they are answered. -/
def Blocks (c : Call) (s : Visible) (other : Writes) : Prop :=
  match c with
  | .insertEvent row => ¬ s.events.any row.conflicts ∧ other.events.any row.conflicts
  | c => ∃ uid, c.writes ext s uid ∧ (other.bookings uid).isSome

/-- Nobody waits for a transaction that has written nothing. -/
lemma not_blocks_empty (c : Call) (s : Visible) : ¬ Blocks ext c s empty := by
  cases c with
  | insertEvent row =>
    rintro ⟨_, hconflict⟩
    cases hconflict
  | _ =>
    rintro ⟨_, _, hsome⟩
    cases hsome

end Writes

/-- A statement changes the rows it writes and no other, and appends to the events. -/
lemma Visible.execute_frame {c : Call} {s s' : Visible} {r : c.Reply}
    (h : Visible.execute ext c s = .ok (r, s')) :
    s'.events = s.events ++ s'.events.drop s.events.length ∧
      ∀ uid, (c.writes ext s uid = true → (s'.bookings uid).isSome = true) ∧
        (c.writes ext s uid = false → s'.bookings uid = s.bookings uid) := by
  have hsame (s : Visible) : s.events = s.events ++ s.events.drop s.events.length := by
    rw [List.drop_length, List.append_nil]
  have hidle (huid : ∀ uid, c.writes ext s uid = false) (hs : s' = s) :
      s'.events = s.events ++ s'.events.drop s.events.length ∧
        ∀ uid, (c.writes ext s uid = true → (s'.bookings uid).isSome = true) ∧
          (c.writes ext s uid = false → s'.bookings uid = s.bookings uid) := by
    subst hs
    refine ⟨hsame _, fun uid => ⟨fun hw => ?_, fun _ => rfl⟩⟩
    exact absurd ((huid uid).symm.trans hw) Bool.false_ne_true
  cases c with
  | insertEvent row =>
    rw [Visible.execute] at h
    split at h
    · cases h
      exact hidle (fun _ => rfl) rfl
    · cases h
      refine ⟨?_, fun uid => ⟨fun hw => (nomatch hw), fun _ => rfl⟩⟩
      rw [List.drop_left]
  | incEventsTotal _ =>
    cases h
    exact hidle (fun _ => rfl) rfl
  | backfillUserIdByEmail email role userId =>
    obtain ⟨email', hemail, h⟩ := bind_eq_ok.mp h
    cases h
    refine ⟨hsame s, fun uid => ?_⟩
    rw [Call.writes, hemail]
    dsimp only
    cases s.bookings uid with
    | none => exact ⟨nofun, fun _ => rfl⟩
    | some b =>
      refine ⟨fun _ => rfl, fun hw => ?_⟩
      have hb : b.reachedBy (participantListed ext s.events) role email' = false := hw
      rw [Option.map_some, BookingRow.backfill, hb]
      rfl
  | findByBookingUid _ =>
    cases h
    exact hidle (fun _ => rfl) rfl
  | upsertBooking row =>
    cases h
    refine ⟨hsame s, fun uid => ⟨fun hw => ?_, fun hw => ?_⟩⟩
    · rw [eq_of_beq hw]
      dsimp only
      rw [Function.update_self]
      rfl
    · exact Function.update_of_ne (ne_of_beq_false hw) _ _
  | saveOrganizerHistory _ _ =>
    cases h
    exact hidle (fun _ => rfl) rfl
  | updateClient ref u =>
    cases h
    refine ⟨hsame s, fun uid => ?_⟩
    rw [Call.writes]
    dsimp only
    cases s.bookings uid with
    | none => exact ⟨nofun, fun _ => rfl⟩
    | some b =>
      refine ⟨fun _ => rfl, fun hw => ?_⟩
      have hb : (b.id == ref) = false := hw
      rw [Option.map_some, BookingRow.updateId, hb]
      rfl
  | incBookingLifecycleTotal _ =>
    cases h
    exact hidle (fun _ => rfl) rfl
  | project stmt =>
    obtain ⟨write, _, h⟩ := bind_eq_ok.mp h
    cases h
    exact hidle (fun _ => rfl) rfl

/-- READ COMMITTED. No rollback takes an id back. -/
def readCommitted : Isolation Calls Exc Visible Writes where
  handler := Visible.execute ext
  start := .empty
  view := Writes.view
  write := Writes.after ext
  outside := fun s reached => { s with bookingsSeq := reached.bookingsSeq }
  Waits := Writes.Blocks ext
  view_start s := by
    exact Visible.ext (List.append_nil _) rfl rfl
  view_write {own s c r s'} h := by
    obtain ⟨hevents, hrows⟩ := Visible.execute_frame ext h
    refine Visible.ext ?_ (funext fun uid => ?_) rfl
    · calc s.events ++ (own.events ++ s'.events.drop (own.view s).events.length)
          = (own.view s).events ++ s'.events.drop (own.view s).events.length :=
            (List.append_assoc _ _ _).symm
        _ = s'.events := hevents.symm
    · change (if c.writes ext (own.view s) uid then s'.bookings uid else own.bookings uid).or
        (s.bookings uid) = s'.bookings uid
      cases hw : c.writes ext (own.view s) uid with
      | true =>
        obtain ⟨b, hb⟩ := Option.isSome_iff_exists.mp ((hrows uid).1 hw)
        rw [if_pos rfl, hb, Option.some_or]
      | false =>
        rw [if_neg Bool.false_ne_true, (hrows uid).2 hw]
        rfl

lemma passes_empty (n : Nat) (t : Tx Calls Exc Writes) (s : Visible) :
    (readCommitted ext).Passes .empty n t s :=
  Isolation.passes _ (fun c s => Writes.not_blocks_empty ext c s) n t s

end EventSaver
