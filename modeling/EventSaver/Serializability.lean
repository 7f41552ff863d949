import EventSaver.ArrivalOrder
import EventSaver.Duplicates
import EventSaver.RowState

/-!
# Serializability of the ingestion of one booking

`save_event` transactions for messages of one booking, interleaved statement by statement. As long
as no transaction upserts a row whose absence it has looked up too early, and no two that announce
users pass each other by, the row of the booking is the one that some serial order of the
transactions leaves.
-/

namespace EventSaver
open JsonData TableData EffectProgram

/-- The `UPDATE` of a `user.synced` message. -/
def Call.IsBackfill : Call → Prop
  | .backfillUserIdByEmail _ _ _ => True
  | _ => False

section Definitions

variable {ι : Type} (ext : Externals) (entry : ι → Timestamp × Message) (uid : String) (db : Db)

/-- A transaction that looks the booking up executes its upsert only while no row of the booking
is committed. -/
def UpsertsUnseen (p : IngestPool ι) : Action Calls ι → Prop
  | .call i (.upsertBooking _) =>
    (entry i).2.queueName ≠ BOOKING_LIFECYCLE_SAVER_QUEUE → p.shared.bookings uid = none
  | _ => True

/-- A transaction executes its backfill only while no other open transaction that has done so has
inserted an event that lists the e-mail for the booking. -/
def BackfillsUnlisted (p : IngestPool ι) : Action Calls ι → Prop
  | .call i (.backfillUserIdByEmail email role _) =>
    ∀ j, j ≠ i → p.Running j → (∃ e ∈ (p.tx j).trace, e.1.IsBackfill) →
      ∀ e, nullableTextParam email = .ok (some e) →
        participantListed ext (p.tx j).own.events uid role e = false
  | _ => True

/-- The database after the given transactions have run one after the other. -/
def serially (order : List ι) : Db := saveAll ext (order.map entry) db

/-- Whether the database has had an event in conflict with a row from the beginning. -/
def Db.knows (row : EventRow) : Bool := db.tables.events.any row.conflicts

/-- How far an open transaction has come, given the row state `x` that the serial order of the
transactions before it leaves and the value `seq` of the sequence. -/
inductive Phase (x : RowState) (seq : Nat) (m : Message) (now : Timestamp) :
    Tx Calls Exc Writes → Prop
  | fresh {t : Tx Calls Exc Writes} (trace : t.trace = []) (own : t.own.bookings uid = none) :
      Phase x seq m now t
  | reading {t : Tx Calls Exc Writes} {event : ParsedEvent} {tail : List (Σ c : Call, c.Reply)}
      (parse : EventParser.parse ext now m = .ok event)
      (trace : t.trace =
        ⟨.insertEvent (EventRepository.row event), !db.knows (EventRepository.row event)⟩ :: tail)
      (own : t.own.bookings uid = none) (quiet : ∀ e ∈ tail, e.1.Quiet)
      (replays : Program.Replays (RowState.execute ext db.knows)
        (IngestEvent.gated ext m.queueName event (!db.knows (EventRepository.row event)))
        (x.insert ext db.knows (EventRepository.row event)) tail t.rest
        (x.insert ext db.knows (EventRepository.row event)))
      (rest : Unwritten (m.queueName ≠ BOOKING_LIFECYCLE_SAVER_QUEUE)
        (event.eventType = EventType.userSynced.value) uid t.rest) : Phase x seq m now t
  | writing {t : Tx Calls Exc Writes} {event : ParsedEvent} {tail : List (Σ c : Call, c.Reply)}
      {b : BookingRow} (parse : EventParser.parse ext now m = .ok event)
      (trace : t.trace =
        ⟨.insertEvent (EventRepository.row event), !db.knows (EventRepository.row event)⟩ :: tail)
      (own : t.own.bookings uid = some b) (following : ∀ e ∈ tail, ¬ e.1.IsInsertion)
      (replays : ∀ y : RowState, y.row = x.row → y.seq = x.seq →
        (∀ bookingUid role email, x.listed bookingUid role email = true →
          y.listed bookingUid role email = true) →
        Program.Replays (RowState.execute ext db.knows)
          (IngestEvent.gated ext m.queueName event (!db.knows (EventRepository.row event)))
          (y.insert ext db.knows (EventRepository.row event)) tail t.rest
          ⟨some b, seq, (y.insert ext db.knows (EventRepository.row event)).listed⟩)
      (id : x.row = none ∨ some b.id = x.row.map (·.id)) (rest : t.rest.Every Call.FollowsUpsert) :
      Phase x seq m now t
  | doomed {t : Tx Calls Exc Writes} (own : t.own.bookings uid = none) (row : x.row ≠ none)
      (looks : m.queueName ≠ BOOKING_LIFECYCLE_SAVER_QUEUE) (rest : MustUpsert uid t.rest) :
      Phase x seq m now t

/-- A transaction whose backfill has reached nothing. -/
structure Settled (t : Tx Calls Exc Writes) : Prop where
  rest : t.rest = .pure ()
  own : t.own.bookings uid = none
  backfilled : ∃ e ∈ t.trace, e.1.IsBackfill

/-- An open transaction of the serial order has inserted an event that lists an e-mail. -/
def ListedAhead (p : IngestPool ι) (order : List ι) (bookingUid : String) (role : RecipientRole)
    (email : String) : Prop :=
  ∃ i ∈ order, p.Running i ∧
    participantListed ext (p.tx i).own.events bookingUid role email = true

/-- The committed state of a pool is the one that a serial order leaves, as far as the booking
goes, and every open transaction can be the next one in that order. -/
structure Serializes (p : IngestPool ι) (order : List ι) : Prop where
  nodup : order.Nodup
  committed : ∀ i, p.Committed i → i ∈ order
  ordered : ∀ i ∈ order, p.Committed i ∨ p.Running i ∧ Settled uid (p.tx i)
  row : (serially ext entry db order).visible.bookings uid = p.shared.bookings uid
  listed : ∀ bookingUid role email,
    participantListed ext (serially ext entry db order).tables.events bookingUid role email = true ↔
      participantListed ext p.shared.events bookingUid role email = true ∨
        ListedAhead ext p order bookingUid role email
  seq : (∀ i, p.Running i → (p.tx i).own.bookings uid = none) →
    p.shared.bookingsSeq = (serially ext entry db order).bookingsSeq
  holder : ∀ i j, p.Running i → p.Running j → (p.tx i).own.bookings uid ≠ none →
    (p.tx j).own.bookings uid ≠ none → i = j
  known : ∀ i, i ∉ order → ∀ event, EventParser.parse ext (entry i).1 (entry i).2 = .ok event →
    (serially ext entry db order).tables.events.any (EventRepository.row event).conflicts =
      db.knows (EventRepository.row event)
  knownShared : ∀ i, i ∉ order → ∀ event,
    EventParser.parse ext (entry i).1 (entry i).2 = .ok event →
    p.shared.events.any (EventRepository.row event).conflicts =
      db.knows (EventRepository.row event)
  phase : ∀ i, p.Running i → i ∉ order →
    Phase ext uid db ((serially ext entry db order).visible.rowState ext uid)
      p.shared.bookingsSeq (entry i).2 (entry i).1 (p.tx i)

end Definitions

section Serial

variable {ι : Type} {ext : Externals} {entry : ι → Timestamp × Message} {uid : String} {db : Db}

lemma serially_concat (order : List ι) (i : ι) :
    serially ext entry db (order ++ [i]) =
      (saveEvent ext (entry i).1 (entry i).2 (serially ext entry db order)).2 := by
  rw [serially, List.map_append, saveAll, List.foldl_append]
  rfl

variable (ext) in
lemma insert_row (known : EventRow → Bool) (row : EventRow) (x : RowState) :
    (x.insert ext known row).row = x.row ∧ (x.insert ext known row).seq = x.seq := by
  unfold RowState.insert
  split <;> exact ⟨rfl, rfl⟩

lemma insert_listed_mono {known : EventRow → Bool} {row : EventRow} {x y : RowState}
    (hlisted : ∀ bookingUid role email, x.listed bookingUid role email = true →
      y.listed bookingUid role email = true) {bookingUid email : String} {role : RecipientRole}
    (h : (x.insert ext known row).listed bookingUid role email = true) :
    (y.insert ext known row).listed bookingUid role email = true := by
  unfold RowState.insert at h ⊢
  split at h
  · rw [if_pos ‹_›]
    exact hlisted _ _ _ h
  · rw [if_neg ‹_›]
    rcases Bool.or_eq_true_iff.mp h with h | h
    · exact Bool.or_eq_true_iff.mpr (.inl (hlisted _ _ _ h))
    · exact Bool.or_eq_true_iff.mpr (.inr h)

lemma Booking.reachedBy_mono {listed listed' : String → RecipientRole → String → Bool}
    (hlisted : ∀ bookingUid role email, listed bookingUid role email = true →
      listed' bookingUid role email = true) {b : Booking} {role : RecipientRole}
    {email : Option String} (h : b.reachedBy listed role email = true) :
    b.reachedBy listed' role email = true := by
  cases email with
  | none => exact h
  | some email =>
    obtain ⟨hnone, hlist⟩ := Bool.and_eq_true_iff.mp h
    exact Bool.and_eq_true_iff.mpr ⟨hnone, hlisted _ _ _ hlist⟩

/-- Whether a backfill reaches a row depends on its e-mail alone. -/
lemma Booking.reachedBy_congr {listed listed' : String → RecipientRole → String → Bool}
    {role : RecipientRole} {email : Option String}
    (hlisted : ∀ e, email = some e → ∀ bookingUid,
      listed bookingUid role e = listed' bookingUid role e) (b : Booking) :
    b.reachedBy listed role email = b.reachedBy listed' role email := by
  cases email with
  | none => rfl
  | some e => exact congrArg (b.userId role == none && ·) (hlisted e rfl b.bookingUid)

/-- What a transaction that can be the next one in the serial order leaves. -/
theorem serially_next {order : List ι} {i : ι} {event : ParsedEvent} {t : RowState}
    (hbooking : (entry i).2.bookingId = some uid)
    (hparse : EventParser.parse ext (entry i).1 (entry i).2 = .ok event)
    (hknown : (serially ext entry db order).tables.events.any
      (EventRepository.row event).conflicts = db.knows (EventRepository.row event))
    (hrun : (IngestEvent.gated ext (entry i).2.queueName event
        (!db.knows (EventRepository.row event))).run (RowState.execute ext db.knows)
      (((serially ext entry db order).visible.rowState ext uid).insert ext db.knows
        (EventRepository.row event)) = (.ok (), t)) :
    (serially ext entry db (order ++ [i])).visible.rowState ext uid = t ∧
      (serially ext entry db (order ++ [i])).tables.events =
        (serially ext entry db order).tables.events ++
          if db.knows (EventRepository.row event) then [] else [EventRepository.row event] := by
  rw [serially_concat]
  refine saveEvent_rowState hparse (fun bookingId h => ?_) hknown hrun
  exact Option.some.inj (h.symm.trans hbooking)

section Backfill

variable {listed : String → RecipientRole → String → Bool} {role : RecipientRole}
  {email : Option String} {userId : Uuid} {row : Option BookingRow}

/-- A backfill that reaches no row leaves it. -/
lemma map_backfill_of_unreached (h : (row.any fun b => b.reachedBy listed role email) = false) :
    row.map (BookingRow.backfill listed role email userId) = row := by
  cases row with
  | none => rfl
  | some b =>
    have hb : b.reachedBy listed role email = false := h
    rw [Option.map_some, BookingRow.backfill, hb]
    rfl

lemma map_backfill_of_reached {b : BookingRow} (hrow : row = some b)
    (h : b.reachedBy listed role email = true) :
    row.map (BookingRow.backfill listed role email userId) =
      some (b.update (·.setUserId role userId)) := by
  rw [hrow, Option.map_some, BookingRow.backfill, if_pos h]

end Backfill

lemma RowState.execute_backfill {known : EventRow → Bool} {email : Json} {email' : Option String}
    {role : RecipientRole} {userId : Uuid} (h : nullableTextParam email = .ok email')
    (y : RowState) : RowState.execute ext known (.backfillUserIdByEmail email role userId) y =
      .ok ((), { y with row := y.row.map (BookingRow.backfill y.listed role email' userId) }) := by
  have hy : RowState.execute ext known (.backfillUserIdByEmail email role userId) y =
      nullableTextParam email >>= fun email => .ok ((), { y with
        row := y.row.map (BookingRow.backfill y.listed role email userId) }) := rfl
  rw [hy, h]
  rfl

end Serial

namespace Phase

variable {ext : Externals} {uid : String} {db : Db} {x x' : RowState} {seq seq' : Nat} {m : Message}
  {now : Timestamp} {t : Tx Calls Exc Writes}

/-- Only a transaction that has written the row depends on the sequence. -/
lemma of_seq (h : Phase ext uid db x seq m now t) (hown : t.own.bookings uid = none) :
    Phase ext uid db x seq' m now t := by
  cases h with
  | fresh trace own => exact .fresh trace own
  | reading parse trace own quiet replays rest => exact .reading parse trace own quiet replays rest
  | writing parse trace own following replays id rest =>
    rw [own] at hown
    cases hown
  | doomed own row looks rest => exact .doomed own row looks rest

/-- A transaction that has not written is answered alike after another state with the same id. -/
lemma reading_moves {event : ParsedEvent} {tail : List (Σ c : Call, c.Reply)} {rest : Ingest Unit}
    (hbooking : m.bookingId = some uid) (hparse : EventParser.parse ext now m = .ok event)
    (hquiet : ∀ e ∈ tail, e.1.Quiet)
    (hreplays : Program.Replays (RowState.execute ext db.knows)
      (IngestEvent.gated ext m.queueName event (!db.knows (EventRepository.row event)))
      (x.insert ext db.knows (EventRepository.row event)) tail rest
      (x.insert ext db.knows (EventRepository.row event))) (x' : RowState) :
    (x'.row.map (·.id) = x.row.map (·.id) →
      Program.Replays (RowState.execute ext db.knows)
        (IngestEvent.gated ext m.queueName event (!db.knows (EventRepository.row event)))
        (x'.insert ext db.knows (EventRepository.row event)) tail rest
        (x'.insert ext db.knows (EventRepository.row event))) ∧
    (x.row = none →
      Program.Replays (RowState.execute ext db.knows)
        (IngestEvent.gated ext m.queueName event (!db.knows (EventRepository.row event)))
        (x'.insert ext db.knows (EventRepository.row event)) tail rest
        (x'.insert ext db.knows (EventRepository.row event)) ∨
      m.queueName ≠ BOOKING_LIFECYCLE_SAVER_QUEUE ∧ MustUpsert uid rest) := by
  have hid := (EventParser.parse_filed ext hparse).1
  have hgated := @unwritten_gated ext m event uid (!db.knows (EventRepository.row event))
    fun bookingId h => Option.some.inj (h.symm.trans (hid.trans hbooking))
  have hmoves := hgated.replays_quiet hreplays hquiet
    (x'.insert ext db.knows (EventRepository.row event))
  rwa [(insert_row ext db.knows (EventRepository.row event) x).1,
    (insert_row ext db.knows (EventRepository.row event) x').1] at hmoves

/-- A transaction before it in the serial order that does not write the row does not matter. -/
lemma grow (hbooking : m.bookingId = some uid) (h : Phase ext uid db x seq m now t)
    (hrow : x'.row = x.row) (hseq : x'.seq = x.seq)
    (hlisted : ∀ bookingUid role email, x.listed bookingUid role email = true →
      x'.listed bookingUid role email = true) : Phase ext uid db x' seq m now t := by
  cases h with
  | fresh trace own => exact .fresh trace own
  | reading parse trace own quiet replays rest =>
    refine .reading parse trace own quiet ?_ rest
    exact (reading_moves hbooking parse quiet replays x').1 (by rw [hrow])
  | writing parse trace own following replays id rest =>
    refine .writing parse trace own following (fun y hy hyseq hylisted => ?_) (hrow ▸ id) rest
    exact replays y (hy.trans hrow) (hyseq.trans hseq) fun bookingUid role email h =>
      hylisted bookingUid role email (hlisted bookingUid role email h)
  | doomed own row looks rest => exact .doomed own (hrow ▸ row) looks rest

/-- When another transaction has written the row and committed, one that has written nothing can
still be the next one, unless it has found no row and is to write one. -/
lemma written (hbooking : m.bookingId = some uid) (h : Phase ext uid db x seq m now t)
    (hown : t.own.bookings uid = none) (hrow : x'.row ≠ none)
    (hid : x.row = none ∨ x'.row.map (·.id) = x.row.map (·.id)) :
    Phase ext uid db x' seq m now t := by
  cases h with
  | fresh trace own => exact .fresh trace own
  | reading parse trace own quiet replays rest =>
    have hmoves := reading_moves hbooking parse quiet replays x'
    rcases hid with hnone | hid
    · rcases hmoves.2 hnone with hreplays | ⟨hlooks, hmust⟩
      · exact .reading parse trace own quiet hreplays rest
      · exact .doomed own hrow hlooks hmust
    · exact .reading parse trace own quiet (hmoves.1 hid) rest
  | writing parse trace own following replays id rest =>
    rw [own] at hown
    cases hown
  | doomed own row looks rest => exact .doomed own hrow looks rest

section Call

variable {s s' : Visible} {c : Call} {next : c.Reply → Ingest Unit} {r : c.Reply}
  {event : ParsedEvent} {tail : List (Σ c : Call, c.Reply)}

/-- A transaction after a call that took its view of `s` to `s'`. -/
def called (ext : Externals) (t : Tx Calls Exc Writes) (s s' : Visible) (c : Call) (r : c.Reply)
    (rest : Ingest Unit) : Tx Calls Exc Writes :=
  ⟨.running, t.trace ++ [⟨c, r⟩], rest, t.own.after ext c (t.own.view s) s'⟩

lemma called_own (rest : Ingest Unit) :
    (called ext t s s' c r rest).own.bookings uid =
      if c.writes ext (t.own.view s) uid then s'.bookings uid else t.own.bookings uid := rfl

lemma called_trace {e : Σ c : Call, c.Reply} (htrace : t.trace = e :: tail) (rest : Ingest Unit) :
    (called ext t s s' c r rest).trace = e :: (tail ++ [⟨c, r⟩]) := by
  rw [called, htrace]
  rfl

/-- The committed state looks to the booking like `x`, except for the sequence and for events that
are not committed yet. -/
structure Sees (ext : Externals) (uid : String) (x : RowState) (seq : Nat) (s : Visible) :
    Prop where
  row : s.bookings uid = x.row
  seq : s.bookingsSeq = seq
  listed : ∀ bookingUid role email, participantListed ext s.events bookingUid role email = true →
    x.listed bookingUid role email = true

/-- What a transaction sees of the booking. -/
lemma Sees.view (hs : Sees ext uid x seq s) (own : Writes) :
    (own.view s).rowState ext uid = ⟨(own.bookings uid).or x.row, seq,
      fun bookingUid role email => participantListed ext s.events bookingUid role email ||
        participantListed ext own.events bookingUid role email⟩ := by
  refine RowState.ext ?_ hs.seq ?_
  · change (own.bookings uid).or (s.bookings uid) = _
    rw [hs.row]
  · funext bookingUid role email
    exact participantListed_append _ _ _ _ _

/-- A transaction that has inserted its event sees the users listed as the next transaction in the
serial order does. -/
lemma insert_listed {known : EventRow → Bool} {row : EventRow} {own : Writes}
    (hown : own.events = if known row then [] else [row]) :
    (fun bookingUid role email => x.listed bookingUid role email ||
      participantListed ext own.events bookingUid role email) = (x.insert ext known row).listed := by
  rw [hown, RowState.insert]
  cases known row with
  | true =>
    funext bookingUid role email
    exact Bool.or_false _
  | false => rfl

lemma call_fresh (hbooking : m.bookingId = some uid)
    (hprogram : t.rest = IngestEvent.execute ext now m) (htrace : t.trace = [])
    (hown : t.own = .empty)
    (hknown : ∀ event, EventParser.parse ext now m = .ok event →
      s.events.any (EventRepository.row event).conflicts = db.knows (EventRepository.row event))
    (hrest : t.rest = .call (S := Calls) c next)
    (answer : Visible.execute ext c (t.own.view s) = .ok (r, s')) :
    Phase ext uid db x s'.bookingsSeq m now (called ext t s s' c r (next r)) := by
  rw [hprogram] at hrest
  cases hparse : EventParser.parse ext now m with
  | error e =>
    rw [execute_of_not_parse hparse] at hrest
    cases hrest
  | ok event =>
    rw [execute_of_parse hparse] at hrest
    obtain ⟨rfl, hnext⟩ := Program.call.inj hrest
    obtain rfl := eq_of_heq hnext
    have hview : t.own.view s = s := by
      rw [hown]
      exact (readCommitted ext).view_start s
    have hr : r = !db.knows (EventRepository.row event) := by
      rw [hview, Visible.execute, hknown event hparse] at answer
      cases hk : db.knows (EventRepository.row event) <;> rw [hk] at answer <;> cases answer <;> rfl
    subst hr
    refine .reading hparse ?_ ?_ (List.forall_mem_nil _) (.nil _ _) ?_
    · rw [called, htrace]
      rfl
    · rw [called_own, hown]
      rfl
    · have hid := (EventParser.parse_filed ext hparse).1
      exact unwritten_gated _ fun bookingId h => Option.some.inj (h.symm.trans (hid.trans hbooking))

/-- A quiet call of a transaction that has written nothing. -/
lemma call_quiet (hs : Sees ext uid x seq s) (hparse : EventParser.parse ext now m = .ok event)
    (htrace : t.trace =
      ⟨.insertEvent (EventRepository.row event), !db.knows (EventRepository.row event)⟩ :: tail)
    (hown : t.own.bookings uid = none) (hquiet : ∀ e ∈ tail, e.1.Quiet)
    (hreplays : Program.Replays (RowState.execute ext db.knows)
      (IngestEvent.gated ext m.queueName event (!db.knows (EventRepository.row event)))
      (x.insert ext db.knows (EventRepository.row event)) tail t.rest
      (x.insert ext db.knows (EventRepository.row event)))
    (hrest : t.rest = .call (S := Calls) c next) (hc : c.Quiet) (habout : c.About uid)
    (hnext : Unwritten (m.queueName ≠ BOOKING_LIFECYCLE_SAVER_QUEUE)
      (event.eventType = EventType.userSynced.value) uid (next r))
    (answer : Visible.execute ext c (t.own.view s) = .ok (r, s')) :
    Phase ext uid db x s'.bookingsSeq m now (called ext t s s' c r (next r)) := by
  have hrow := RowState.execute_of_visible db.knows habout hc.not_isInsertion answer
  obtain ⟨_, hsame⟩ := RowState.execute_quiet hc hrow
  have hid : (x.insert ext db.knows (EventRepository.row event)).row.map (·.id) =
      ((t.own.view s).rowState ext uid).row.map (·.id) := by
    rw [(insert_row ext _ _ x).1, hs.view, hown]
    rfl
  refine .reading hparse (called_trace htrace _) ?_ ?_
    (hreplays.snoc hrest (hsame _ (.inr hid))) hnext
  · rw [called_own, hc.not_writes, hown]
    rfl
  · exact List.forall_mem_append.mpr ⟨hquiet, List.forall_mem_singleton.mpr hc⟩

/-- The upsert of a transaction that has written nothing. -/
lemma call_upsert (hbooking : m.bookingId = some uid) (hs : Sees ext uid x seq s)
    (hparse : EventParser.parse ext now m = .ok event)
    (htrace : t.trace =
      ⟨.insertEvent (EventRepository.row event), !db.knows (EventRepository.row event)⟩ :: tail)
    (hown : t.own.bookings uid = none) (hquiet : ∀ e ∈ tail, e.1.Quiet)
    (hreplays : Program.Replays (RowState.execute ext db.knows)
      (IngestEvent.gated ext m.queueName event (!db.knows (EventRepository.row event)))
      (x.insert ext db.knows (EventRepository.row event)) tail t.rest
      (x.insert ext db.knows (EventRepository.row event)))
    {row : Booking} {next : Option Nat → Ingest Unit} {r : Option Nat}
    (hrest : t.rest = .call (S := Calls) (.upsertBooking row) next) (huid : row.bookingUid = uid)
    (hnext : (next r).Every Call.FollowsUpsert) (hseq : seq = x.seq)
    (answer : Visible.execute ext (.upsertBooking row) (t.own.view s) = .ok (r, s')) :
    Phase ext uid db x s'.bookingsSeq m now
      (called ext t s s' (.upsertBooking row) r (next r)) := by
  have habout : (Call.upsertBooking row).About uid := huid
  have hrow := RowState.execute_of_visible db.knows habout not_false answer
  rw [hs.view, hown, Option.none_or, hseq] at hrow
  obtain ⟨hr, hs'⟩ := Prod.mk.inj (Except.ok.inj hrow)
  have hbookings : s'.bookings uid = some (row.upserted x.seq x.row) :=
    (congrArg RowState.row hs').symm
  have hseq' : s'.bookingsSeq = x.seq + 1 := (congrArg RowState.seq hs').symm
  refine .writing hparse (called_trace htrace _) (b := row.upserted x.seq x.row) ?_ ?_
    (fun y hy hyseq hylisted => ?_) ?_ hnext
  · rw [called_own, Call.writes, huid, beq_self_eq_true, if_pos rfl, hbookings]
  · exact List.forall_mem_append.mpr ⟨fun e he => (hquiet e he).not_isInsertion,
      List.forall_mem_singleton.mpr not_false⟩
  · have hmoves := (reading_moves hbooking hparse hquiet hreplays y).1 (by rw [hy])
    refine hmoves.snoc hrest ?_
    rw [RowState.execute, (insert_row ext _ _ y).1, (insert_row ext _ _ y).2, hy, hyseq, hseq', ← hr]
  · cases x.row with
    | none => exact .inl rfl
    | some b => exact .inr rfl

/-- The backfill of a transaction: it writes the row, or it reaches nothing. -/
lemma call_backfill (hbooking : m.bookingId = some uid) (hs : Sees ext uid x seq s)
    (hparse : EventParser.parse ext now m = .ok event)
    (htrace : t.trace =
      ⟨.insertEvent (EventRepository.row event), !db.knows (EventRepository.row event)⟩ :: tail)
    (hown : t.own.bookings uid = none) (hquiet : ∀ e ∈ tail, e.1.Quiet)
    (hevents : t.own.events =
      if db.knows (EventRepository.row event) then [] else [EventRepository.row event])
    (hreplays : Program.Replays (RowState.execute ext db.knows)
      (IngestEvent.gated ext m.queueName event (!db.knows (EventRepository.row event)))
      (x.insert ext db.knows (EventRepository.row event)) tail t.rest
      (x.insert ext db.knows (EventRepository.row event)))
    {email : Json} {role : RecipientRole} {userId : Uuid} {next : Unit → Ingest Unit} {r : Unit}
    (hunlisted : ∀ e, nullableTextParam email = .ok (some e) → ∀ bookingUid,
      x.listed bookingUid role e = true → participantListed ext s.events bookingUid role e = true)
    (hrest : t.rest = .call (S := Calls) (.backfillUserIdByEmail email role userId) next)
    (hnext : next r = .pure ())
    (hseq : (Call.backfillUserIdByEmail email role userId).writes ext (t.own.view s) uid = true →
      seq = x.seq)
    (answer : Visible.execute ext (.backfillUserIdByEmail email role userId) (t.own.view s) =
      .ok (r, s')) :
    Phase ext uid db x s'.bookingsSeq m now
        (called ext t s s' (.backfillUserIdByEmail email role userId) r (next r)) ∨
      (Call.backfillUserIdByEmail email role userId).writes ext (t.own.view s) uid = false ∧
        (IngestEvent.gated ext m.queueName event (!db.knows (EventRepository.row event))).run
          (RowState.execute ext db.knows) (x.insert ext db.knows (EventRepository.row event)) =
            (.ok (), x.insert ext db.knows (EventRepository.row event)) := by
  have habout : (Call.backfillUserIdByEmail email role userId).About uid := trivial
  have hrow := RowState.execute_of_visible db.knows habout not_false answer
  have hview := hs.view t.own
  rw [hown, Option.none_or] at hview
  rw [hview] at hrow
  obtain ⟨email', hemail, hs'⟩ := bind_eq_ok.mp hrow
  obtain ⟨_, hs'⟩ := Prod.mk.inj (Except.ok.inj hs')
  -- The transaction sees the e-mail listed as the next one in the serial order does.
  have hagree (b : Booking) :
      b.reachedBy (fun bookingUid role e => participantListed ext s.events bookingUid role e ||
        participantListed ext t.own.events bookingUid role e) role email' =
      b.reachedBy (x.insert ext db.knows (EventRepository.row event)).listed role email' := by
    refine Booking.reachedBy_congr (fun e he bookingUid => ?_) b
    have hsame : participantListed ext s.events bookingUid role e = x.listed bookingUid role e :=
      Bool.eq_iff_iff.mpr ⟨hs.listed bookingUid role e,
        hunlisted e (hemail.trans (congrArg Except.ok he)) bookingUid⟩
    rw [← insert_listed hevents, hsame]
  have hwrites : (Call.backfillUserIdByEmail email role userId).writes ext (t.own.view s) uid =
      x.row.any fun b => b.reachedBy (x.insert ext db.knows (EventRepository.row event)).listed
        role email' := by
    rw [Call.writes, hemail]
    refine (congrArg₂ (fun (row : Option BookingRow) listed =>
      row.any fun b => b.reachedBy listed role email')
      (congrArg RowState.row hview) (congrArg RowState.listed hview)).trans ?_
    exact congrArg x.row.any (funext fun b => hagree b.toBooking)
  have hexecute (y : RowState) := @RowState.execute_backfill ext db.knows _ _ role userId hemail y
  cases hreached : x.row.any fun b => b.reachedBy
      (x.insert ext db.knows (EventRepository.row event)).listed role email' with
  | false =>
    refine .inr ⟨hwrites.trans hreached, ?_⟩
    rw [hreplays.run_eq, hrest, Program.run_call_ok _ (hexecute _), hnext, Program.run_pure]
    refine congrArg _ (RowState.ext ?_ rfl rfl)
    rw [(insert_row ext _ _ x).1]
    exact map_backfill_of_unreached hreached
  | true =>
    have hseqx := hseq (hwrites.trans hreached)
    obtain ⟨b, hx, hb⟩ := (Option.any_eq_true _ _).mp hreached
    have hbookings : s'.bookings uid = some (b.update (·.setUserId role userId)) :=
      (congrArg RowState.row hs').symm.trans
        (map_backfill_of_reached hx ((hagree b.toBooking).trans hb))
    have hseq' : s'.bookingsSeq = seq := (congrArg RowState.seq hs').symm
    refine .inl (.writing hparse (called_trace htrace _)
      (b := b.update (·.setUserId role userId)) ?_ ?_ (fun y hy hyseq hylisted => ?_) ?_ ?_)
    · rw [called_own, hwrites, hreached, if_pos rfl, hbookings]
    · exact List.forall_mem_append.mpr ⟨fun e he => (hquiet e he).not_isInsertion,
        List.forall_mem_singleton.mpr not_false⟩
    · have hmoves := (reading_moves hbooking hparse hquiet hreplays y).1 (by rw [hy])
      refine hmoves.snoc hrest ?_
      have hby : b.reachedBy (y.insert ext db.knows (EventRepository.row event)).listed role email' =
          true :=
        Booking.reachedBy_mono (fun _ _ _ => insert_listed_mono hylisted) hb
      rw [hexecute, (insert_row ext _ _ y).1, hy, map_backfill_of_reached hx hby, hseq', hseqx,
        ← hyseq, ← (insert_row ext db.knows (EventRepository.row event) y).2]
    · exact .inr (by rw [hx]; rfl)
    · rw [hnext]
      trivial

/-- A call after the write. -/
lemma call_following (hs : Sees ext uid x seq s)
    (hparse : EventParser.parse ext now m = .ok event)
    (htrace : t.trace =
      ⟨.insertEvent (EventRepository.row event), !db.knows (EventRepository.row event)⟩ :: tail)
    {b : BookingRow} (hown : t.own.bookings uid = some b)
    (hfollowing : ∀ e ∈ tail, ¬ e.1.IsInsertion)
    (hreplays : ∀ y : RowState, y.row = x.row → y.seq = x.seq →
      (∀ bookingUid role email, x.listed bookingUid role email = true →
        y.listed bookingUid role email = true) →
      Program.Replays (RowState.execute ext db.knows)
        (IngestEvent.gated ext m.queueName event (!db.knows (EventRepository.row event)))
        (y.insert ext db.knows (EventRepository.row event)) tail t.rest
        ⟨some b, seq, (y.insert ext db.knows (EventRepository.row event)).listed⟩)
    (hid : x.row = none ∨ some b.id = x.row.map (·.id))
    (hrest : t.rest = .call (S := Calls) c next) (hc : c.FollowsUpsert)
    (hnext : (next r).Every Call.FollowsUpsert)
    (answer : Visible.execute ext c (t.own.view s) = .ok (r, s')) :
    Phase ext uid db x s'.bookingsSeq m now (called ext t s s' c r (next r)) := by
  have habout : c.About uid := by
    cases c <;> first | exact hc.elim | trivial
  have hrow := RowState.execute_of_visible db.knows habout hc.not_isInsertion answer
  rw [hs.view, hown, Option.some_or] at hrow
  obtain ⟨hsameId, hsameSeq, hlisted⟩ := RowState.execute_followsUpsert hc hrow
  have hseq' : s'.bookingsSeq = seq := hsameSeq
  have hid' : (s'.bookings uid).map (·.id) = some b.id := hsameId
  obtain ⟨b', hb', hidb⟩ := Option.map_eq_some_iff.mp hid'
  refine .writing hparse (called_trace htrace _) (b := b') ?_ ?_
    (fun y hy hyseq hylisted => ?_) (hidb ▸ hid) hnext
  · rw [called_own]
    cases hw : c.writes ext (t.own.view s) uid with
    | true => exact hb'
    | false =>
      have hframe := ((Visible.execute_frame ext answer).2 uid).2 hw
      rw [if_neg Bool.false_ne_true, ← hb', hframe, hown]
      exact (congrArg (·.or (s.bookings uid)) hown).symm
  · exact List.forall_mem_append.mpr ⟨hfollowing, List.forall_mem_singleton.mpr hc.not_isInsertion⟩
  · refine (hreplays y hy hyseq hylisted).snoc hrest ?_
    have hstate : s'.rowState ext uid = ⟨some b', seq, participantListed ext s'.events⟩ :=
      RowState.ext hb' hseq' rfl
    have hanswer := hlisted (y.insert ext db.knows (EventRepository.row event)).listed
    rw [hstate] at hanswer
    rw [hseq']
    exact hanswer

/-- What a transaction whose trace begins with its insertion has inserted. -/
lemma own_events (hinserted : t.own.events = t.trace.filterMap insertedRow)
    (htrace : t.trace =
      ⟨.insertEvent (EventRepository.row event), !db.knows (EventRepository.row event)⟩ :: tail)
    (htail : ∀ e ∈ tail, ¬ e.1.IsInsertion) :
    t.own.events =
      if db.knows (EventRepository.row event) then [] else [EventRepository.row event] := by
  have hnone : tail.filterMap insertedRow = [] :=
    List.filterMap_eq_nil_iff.mpr fun e he => insertedRow_eq_none (htail e he)
  rw [hinserted, htrace]
  cases db.knows (EventRepository.row event) with
  | true => exact hnone
  | false => exact congrArg (EventRepository.row event :: ·) hnone

/-- An answered call takes a transaction from one phase to the next, or it is a backfill that
reaches nothing. -/
theorem call (hbooking : m.bookingId = some uid) (h : Phase ext uid db x seq m now t)
    (hs : Sees ext uid x seq s)
    (hfollows : Pool.Follows (readCommitted ext) (IngestEvent.execute ext now m) t)
    (hinserted : t.own.events = t.trace.filterMap insertedRow)
    (hknown : ∀ event, EventParser.parse ext now m = .ok event →
      s.events.any (EventRepository.row event).conflicts = db.knows (EventRepository.row event))
    (hrest : t.rest = .call (S := Calls) c next)
    (answer : Visible.execute ext c (t.own.view s) = .ok (r, s'))
    (hseq : c.writes ext (t.own.view s) uid = true → t.own.bookings uid = none → seq = x.seq)
    (hunseen : ∀ row, c = .upsertBooking row →
      m.queueName ≠ BOOKING_LIFECYCLE_SAVER_QUEUE → s.bookings uid = none)
    (hunlisted : ∀ email role userId, c = .backfillUserIdByEmail email role userId →
      ∀ e, nullableTextParam email = .ok (some e) → ∀ bookingUid,
        x.listed bookingUid role e = true → participantListed ext s.events bookingUid role e = true) :
    Phase ext uid db x s'.bookingsSeq m now (called ext t s s' c r (next r)) ∨
      c.writes ext (t.own.view s) uid = false ∧ t.own.bookings uid = none ∧ next r = .pure () ∧
        c.IsBackfill ∧ ∃ event, EventParser.parse ext now m = .ok event ∧
          t.own.events =
            (if db.knows (EventRepository.row event) then [] else [EventRepository.row event]) ∧
          (IngestEvent.gated ext m.queueName event (!db.knows (EventRepository.row event))).run
            (RowState.execute ext db.knows) (x.insert ext db.knows (EventRepository.row event)) =
              (.ok (), x.insert ext db.knows (EventRepository.row event)) := by
  cases h with
  | fresh trace own =>
    have hprogram : t.rest = IngestEvent.execute ext now m := by
      rcases execute_path hfollows.path with ⟨_, h⟩ | ⟨_, _, _, _, h, _⟩
      · exact h
      · rw [trace] at h
        cases h
    exact .inl (call_fresh hbooking hprogram trace (hfollows.fresh trace) hknown hrest answer)
  | @reading event tail parse trace own quiet replays rest =>
    have hevents := own_events hinserted trace fun e he => (quiet e he).not_isInsertion
    rw [hrest] at rest
    cases rest with
    | count hnext =>
      exact .inl (call_quiet hs parse trace own quiet replays hrest trivial trivial (hnext r) answer)
    | lookup _ _ hnext =>
      exact .inl (call_quiet hs parse trace own quiet replays hrest trivial rfl (hnext r) answer)
    | project hc hnext =>
      refine .inl (call_quiet hs parse trace own quiet replays hrest ?_ ?_ (hnext r) answer) <;>
        cases c <;> first | exact hc.elim | trivial
    | @upsert row _ huid hnext =>
      have hwrites : (Call.upsertBooking row).writes ext (t.own.view s) uid = true := by
        rw [Call.writes, huid, beq_self_eq_true]
      exact .inl (call_upsert hbooking hs parse trace own quiet replays hrest huid (hnext r)
        (hseq hwrites own) answer)
    | backfill hsynced hnext =>
      rcases call_backfill hbooking hs parse trace own quiet hevents replays (hunlisted _ _ _ rfl)
        hrest (hnext r) (fun hwrites => hseq hwrites own) answer with h | ⟨hwrites, hrun⟩
      · exact .inl h
      · exact .inr ⟨hwrites, own, hnext r, trivial, event, parse, hevents, hrun⟩
  | @writing event tail b parse trace own following replays id rest =>
    rw [hrest] at rest
    exact .inl (call_following hs parse trace own following replays id hrest rest.1 (rest.2 r)
      answer)
  | doomed own row looks rest =>
    rcases rest with ⟨e, he⟩ | ⟨row', next', hcall, _⟩
    · rw [hrest] at he
      cases he
    · rw [hrest] at hcall
      obtain ⟨rfl, _⟩ := Program.call.inj hcall
      exact absurd (hs.row.symm.trans (hunseen row' rfl looks)) row

/-- A transaction at its end leaves, as the next one in the serial order, the row it sees. -/
theorem commit (h : Phase ext uid db x seq m now t)
    (hfollows : Pool.Follows (readCommitted ext) (IngestEvent.execute ext now m) t)
    (hinserted : t.own.events = t.trace.filterMap insertedRow) (hrest : t.rest = .pure ()) :
    ∃ event t', EventParser.parse ext now m = .ok event ∧
      (IngestEvent.gated ext m.queueName event (!db.knows (EventRepository.row event))).run
        (RowState.execute ext db.knows) (x.insert ext db.knows (EventRepository.row event)) =
          (.ok (), t') ∧
      t'.row = (t.own.bookings uid).or x.row ∧
      t'.listed = (fun bookingUid role email => x.listed bookingUid role email ||
        participantListed ext t.own.events bookingUid role email) ∧
      (t.own.bookings uid = none → t'.seq = x.seq) ∧
      (t.own.bookings uid ≠ none → t'.seq = seq ∧
        (x.row = none ∨ t'.row.map (·.id) = x.row.map (·.id))) := by
  have hlisted {event : ParsedEvent} {tail : List (Σ c : Call, c.Reply)}
      (trace : t.trace =
        ⟨.insertEvent (EventRepository.row event), !db.knows (EventRepository.row event)⟩ :: tail)
      (htail : ∀ e ∈ tail, ¬ e.1.IsInsertion) :
      (x.insert ext db.knows (EventRepository.row event)).listed =
        fun bookingUid role email => x.listed bookingUid role email ||
          participantListed ext t.own.events bookingUid role email :=
    (insert_listed (own_events hinserted trace htail)).symm
  cases h with
  | fresh trace own =>
    rcases execute_path hfollows.path with ⟨_, hprogram⟩ | ⟨_, _, _, _, h, _⟩
    · rw [hrest] at hprogram
      cases hparse : EventParser.parse ext now m with
      | error e =>
        rw [execute_of_not_parse hparse] at hprogram
        cases hprogram
      | ok event =>
        rw [execute_of_parse hparse] at hprogram
        cases hprogram
    · rw [trace] at h
      cases h
  | @reading event tail parse trace own quiet replays rest =>
    obtain ⟨hrow, hseq⟩ := insert_row ext db.knows (EventRepository.row event) x
    refine ⟨event, _, parse, ?_, ?_, ?_, fun _ => hseq, fun hsome => absurd own hsome⟩
    · rw [replays.run_eq, hrest, Program.run_pure]
    · rw [hrow, own, Option.none_or]
    · exact hlisted trace fun e he => (quiet e he).not_isInsertion
  | @writing event tail b parse trace own following replays id rest =>
    have hrun := (replays x rfl rfl fun _ _ _ h => h).run_eq
    rw [hrest, Program.run_pure] at hrun
    refine ⟨event, _, parse, hrun, ?_, ?_, ?_, fun _ => ⟨rfl, id⟩⟩
    · rw [own, Option.some_or]
    · exact hlisted trace following
    · rw [own]
      nofun
  | doomed own row looks rest =>
    rcases rest with ⟨e, he⟩ | ⟨row', next', hcall, _⟩
    · rw [hrest] at he
      cases he
    · rw [hrest] at hcall
      cases hcall

end Call

end Phase

/-- Messages about one booking, of which no two share a key. -/
structure OneBooking {ι : Type} (entry : ι → Timestamp × Message) (uid : String) : Prop where
  booking : ∀ i, (entry i).2.bookingId = some uid
  keys : ∀ i j, i ≠ j → ¬ (entry i).2.SharesKey (entry j).2

section Step

variable {ι : Type} {ext : Externals} {entry : ι → Timestamp × Message} {uid : String} {db : Db}
  {p q : IngestPool ι} {order : List ι} {i j : ι}

/-- The events of two of the messages are not in conflict. -/
lemma OneBooking.not_conflicts (hm : OneBooking entry uid) {event event' : ParsedEvent}
    (hij : i ≠ j) (h : EventParser.parse ext (entry i).1 (entry i).2 = .ok event)
    (h' : EventParser.parse ext (entry j).1 (entry j).2 = .ok event') :
    (EventRepository.row event).conflicts (EventRepository.row event') = false := by
  obtain ⟨hid, hkey⟩ := EventParser.parse_keys ext h
  obtain ⟨hid', hkey'⟩ := EventParser.parse_keys ext h'
  by_contra hconflict
  simp only [EventRow.conflicts, EventRepository.row, hid, hid', hkey, hkey',
    Bool.not_eq_false, Bool.or_eq_true, Bool.and_eq_true, beq_iff_eq] at hconflict
  refine hm.keys j i hij.symm ?_
  rcases hconflict with hid | ⟨hsome, hkey⟩
  · exact .inl hid
  · exact .inr ⟨hkey ▸ hsome, hkey⟩

/-- The event of a message lists for the booking only. -/
lemma OneBooking.listed_uid (hm : OneBooking entry uid) {events : List EventRow}
    (hrows : ∀ row ∈ events, ∃ event, EventParser.parse ext (entry i).1 (entry i).2 = .ok event ∧
      row = EventRepository.row event) {bookingUid email : String} {role : RecipientRole}
    (h : participantListed ext events bookingUid role email = true) : bookingUid = uid := by
  obtain ⟨row, hrow, hlisted⟩ := List.any_eq_true.mp h
  obtain ⟨event, hparse, rfl⟩ := hrows row hrow
  have hid : event.bookingId = some uid :=
    (EventParser.parse_filed ext hparse).1.trans (hm.booking i)
  rw [EventRow.listed] at hlisted
  split at hlisted
  · rename_i hbooking
    exact Option.some.inj (hbooking.symm.trans hid)
  · cases hlisted

/-- A backfill inserts nothing. -/
lemma Call.IsBackfill.after_events {c : Call} (hc : c.IsBackfill) {s s' : Visible} {r : c.Reply}
    (h : Visible.execute ext c s = .ok (r, s')) (own : Writes) :
    (own.after ext c s s').events = own.events := by
  cases c with
  | backfillUserIdByEmail email role userId =>
    obtain ⟨_, _, h⟩ := bind_eq_ok.mp h
    cases h
    exact (congrArg (own.events ++ ·) (List.drop_length)).trans (List.append_nil _)
  | _ => exact hc.elim

/-- Every call of the transaction is about the booking. -/
lemma OneBooking.every_about (hm : OneBooking entry uid) (i : ι) :
    (saves ext entry i).Every fun c : Call => c.About uid := by
  cases hparse : EventParser.parse ext (entry i).1 (entry i).2 with
  | error e =>
    rw [saves, execute_of_not_parse hparse]
    trivial
  | ok event =>
    rw [saves, execute_of_parse hparse]
    refine ⟨trivial, fun isInserted => ?_⟩
    have hid := (EventParser.parse_filed ext hparse).1
    have hgated := @unwritten_gated ext (entry i).2 event uid isInserted fun bookingId h =>
      Option.some.inj (h.symm.trans (hid.trans (hm.booking i)))
    exact hgated.every_about.mono fun c hc => hc.1

/-- A call about a booking that does not write its row leaves the sequence alone. -/
lemma Visible.execute_seq {c : Call} {s s' : Visible} {r : c.Reply} (hc : c.About uid)
    (hw : c.writes ext s uid = false) (h : Visible.execute ext c s = .ok (r, s')) :
    s'.bookingsSeq = s.bookingsSeq := by
  cases c with
  | insertEvent row =>
    rw [Visible.execute] at h
    split at h <;> cases h <;> rfl
  | upsertBooking row =>
    have huid : row.bookingUid = uid := hc
    rw [Call.writes, huid, beq_self_eq_true] at hw
    cases hw
  | backfillUserIdByEmail email role userId =>
    obtain ⟨_, _, h⟩ := bind_eq_ok.mp h
    cases h
    rfl
  | project stmt =>
    obtain ⟨_, _, h⟩ := bind_eq_ok.mp h
    cases h
    rfl
  | incEventsTotal _ => cases h; rfl
  | findByBookingUid _ => cases h; rfl
  | saveOrganizerHistory _ _ => cases h; rfl
  | updateClient _ _ => cases h; rfl
  | incBookingLifecycleTotal _ => cases h; rfl

lemma listedAhead_congr (h : ∀ j ∈ order, q.tx j = p.tx j) {bookingUid email : String}
    {role : RecipientRole} : ListedAhead ext q order bookingUid role email ↔
      ListedAhead ext p order bookingUid role email := by
  refine exists_congr fun j => and_congr_right fun hj => ?_
  rw [Pool.Running, h j hj]
  rfl

lemma listedAhead_concat {bookingUid email : String} {role : RecipientRole} :
    ListedAhead ext q (order ++ [i]) bookingUid role email ↔
      ListedAhead ext q order bookingUid role email ∨
        q.Running i ∧ participantListed ext (q.tx i).own.events bookingUid role email = true := by
  simp only [ListedAhead, List.mem_append, List.mem_singleton, or_and_right, exists_or,
    exists_eq_left]

namespace Serializes

lemma sees (h : Serializes ext entry uid db p order) :
    Phase.Sees ext uid ((serially ext entry db order).visible.rowState ext uid)
      p.shared.bookingsSeq p.shared :=
  ⟨h.row.symm, rfl, fun bookingUid role email hlisted =>
    (h.listed bookingUid role email).mpr (.inl hlisted)⟩

lemma heldOnce (h : Serializes ext entry uid db p order) :
    p.HeldOnce fun t => t.own.bookings uid ≠ none := h.holder

/-- What another transaction publishes is in conflict with no event that is still to come. -/
lemma knownShared_append (h : Serializes ext entry uid db p order) (hm : OneBooking entry uid)
    (hji : j ≠ i) (hj : j ∉ order) {added : List EventRow}
    (hevents : q.shared.events = p.shared.events ++ added)
    (hadded : ∀ row ∈ added, ∃ event, EventParser.parse ext (entry i).1 (entry i).2 = .ok event ∧
      row = EventRepository.row event)
    {event : ParsedEvent} (hparse : EventParser.parse ext (entry j).1 (entry j).2 = .ok event) :
    q.shared.events.any (EventRepository.row event).conflicts =
      db.knows (EventRepository.row event) := by
  have hnone : added.any (EventRepository.row event).conflicts = false := by
    refine List.any_eq_false.mpr fun row hrow => ?_
    obtain ⟨event', hparse', rfl⟩ := hadded row hrow
    rw [hm.not_conflicts hji hparse hparse']
    exact Bool.false_ne_true
  rw [hevents, List.any_append, hnone, Bool.or_false]
  exact h.knownShared j hj event hparse

/-- What a transaction lists goes where it goes: to the committed events, or ahead of them. -/
lemma listed_append (h : Serializes ext entry uid db p order) (hi : i ∉ order)
    (hother : ∀ j, j ≠ i → q.tx j = p.tx j) {added : List EventRow}
    (hevents : q.shared.events = p.shared.events ++ added)
    (hstatus : q.Committed i ∧ added = (p.tx i).own.events ∨
      (q.Running i ∧ Settled uid (q.tx i)) ∧ added = [] ∧ (q.tx i).own.events = (p.tx i).own.events)
    (bookingUid : String) (role : RecipientRole) (email : String) :
    (participantListed ext (serially ext entry db order).tables.events bookingUid role email ||
        participantListed ext (p.tx i).own.events bookingUid role email) = true ↔
      participantListed ext q.shared.events bookingUid role email = true ∨
        ListedAhead ext q (order ++ [i]) bookingUid role email := by
  have hahead := @listedAhead_congr _ ext p q order
    (fun j hj => hother j fun hji => hi (hji ▸ hj)) bookingUid email role
  rw [Bool.or_eq_true, h.listed, hevents, participantListed_append, Bool.or_eq_true,
    listedAhead_concat, hahead]
  rcases hstatus with ⟨hc, rfl⟩ | ⟨⟨hr, _⟩, rfl, hown⟩
  · have hnot : ¬ q.Running i := fun hr => by
      rw [Pool.Running, hc] at hr
      cases hr
    simp only [hnot, false_and, or_false]
    exact or_right_comm
  · rw [hown]
    simp only [hr, true_and, participantListed, List.any_nil, Bool.false_eq_true, or_false]
    exact or_assoc

/-- The transaction that goes next in the serial order: it has committed, or it is settled. -/
theorem append (h : Serializes ext entry uid db p order) (hm : OneBooking entry uid) (hi : i ∉ order)
    (hrunningi : p.Running i) (hother : ∀ j, j ≠ i → q.tx j = p.tx j)
    (hseq : q.shared.bookingsSeq = p.shared.bookingsSeq) {added : List EventRow}
    (hevents : q.shared.events = p.shared.events ++ added)
    (hstatus : q.Committed i ∧ added = (p.tx i).own.events ∨
      (q.Running i ∧ Settled uid (q.tx i)) ∧ added = [] ∧ (q.tx i).own.events = (p.tx i).own.events)
    (hadded : ∀ row ∈ added, ∃ event, EventParser.parse ext (entry i).1 (entry i).2 = .ok event ∧
      row = EventRepository.row event)
    {event : ParsedEvent} (hparse : EventParser.parse ext (entry i).1 (entry i).2 = .ok event)
    {t : RowState}
    (hrun : (IngestEvent.gated ext (entry i).2.queueName event
        (!db.knows (EventRepository.row event))).run (RowState.execute ext db.knows)
      (((serially ext entry db order).visible.rowState ext uid).insert ext db.knows
        (EventRepository.row event)) = (.ok (), t))
    (hrow : t.row = q.shared.bookings uid)
    (hlisted : t.listed = fun bookingUid role email =>
      participantListed ext (serially ext entry db order).tables.events bookingUid role email ||
        participantListed ext (p.tx i).own.events bookingUid role email)
    (hidle : (p.tx i).own.bookings uid = none →
      q.shared.bookings uid = p.shared.bookings uid ∧
        t.seq = (serially ext entry db order).bookingsSeq)
    (hwritten : (p.tx i).own.bookings uid ≠ none → q.shared.bookings uid ≠ none ∧
      t.seq = p.shared.bookingsSeq ∧ (p.shared.bookings uid = none ∨
        (q.shared.bookings uid).map (·.id) = (p.shared.bookings uid).map (·.id))) :
    Serializes ext entry uid db q (order ++ [i]) := by
  obtain ⟨hstate, hserial⟩ :=
    serially_next (hm.booking i) hparse (h.known i hi event hparse) hrun
  have hrunning {j : ι} (hj : j ≠ i) (hr : q.Running j) : p.Running j := by
    rwa [Pool.Running, ← hother j hj]
  have hiown (hr : q.Running i) : (q.tx i).own.bookings uid = none := by
    rcases hstatus with ⟨hc, _⟩ | ⟨⟨_, hs⟩, _⟩
    · rw [Pool.Running, hc] at hr
      cases hr
    · exact hs.own
  have hmono (bookingUid : String) (role : RecipientRole) (email : String)
      (hx : ((serially ext entry db order).visible.rowState ext uid).listed bookingUid role email =
        true) : t.listed bookingUid role email = true := by
    rw [hlisted]
    exact Bool.or_eq_true_iff.mpr (.inl hx)
  have hlater {j : ι} (hj : j ∉ order ++ [i]) : j ≠ i ∧ j ∉ order :=
    ⟨fun hji => hj (List.mem_append_right _ (List.mem_singleton.mpr hji)),
      fun hjorder => hj (List.mem_append_left _ hjorder)⟩
  exact {
    nodup := List.nodup_append.mpr ⟨h.nodup, List.nodup_singleton i, fun a ha b hb hab => by
      rw [List.mem_singleton.mp hb] at hab
      exact hi (hab ▸ ha)⟩
    committed := fun j hj => by
      by_cases hji : j = i
      · exact List.mem_append_right _ (List.mem_singleton.mpr hji)
      · rw [Pool.Committed, hother j hji] at hj
        exact List.mem_append_left _ (h.committed j hj)
    ordered := fun j hj => by
      rcases List.mem_append.mp hj with hj | hj
      · have hji : j ≠ i := fun hji => hi (hji ▸ hj)
        have hordered := h.ordered j hj
        rwa [Pool.Committed, Pool.Running, ← hother j hji] at hordered
      · rw [List.mem_singleton.mp hj]
        exact hstatus.imp And.left And.left
    row := (congrArg RowState.row hstate).trans hrow
    listed := fun bookingUid role email => by
      have hserial : participantListed ext (serially ext entry db (order ++ [i])).tables.events
          bookingUid role email = _ :=
        congrFun₃ ((congrArg RowState.listed hstate).trans hlisted) bookingUid role email
      rw [hserial]
      exact h.listed_append hi hother hevents hstatus bookingUid role email
    seq := fun hnone => by
      have hseqt : (serially ext entry db (order ++ [i])).bookingsSeq = t.seq :=
        congrArg RowState.seq hstate
      rw [hseq, hseqt]
      by_cases hown : (p.tx i).own.bookings uid = none
      · rw [(hidle hown).2]
        refine h.seq fun j hj => ?_
        by_cases hji : j = i
        · rw [hji]
          exact hown
        · rw [← hother j hji]
          refine hnone j ?_
          rwa [Pool.Running, hother j hji]
      · exact (hwritten hown).2.1.symm
    holder := h.heldOnce.move hother
      fun hr hheld => absurd (hiown hr) hheld
    known := fun j hj event' hparse' => by
      obtain ⟨hji, hjorder⟩ := hlater hj
      rw [hserial, List.any_append, h.known j hjorder event' hparse']
      split
      · exact Bool.or_false _
      · rw [List.any_cons, hm.not_conflicts hji hparse' hparse]
        exact Bool.or_false _
    knownShared := fun j hj event' hparse' =>
      h.knownShared_append hm (hlater hj).1 (hlater hj).2 hevents hadded hparse'
    phase := fun j hj hnew => by
      obtain ⟨hji, hjorder⟩ := hlater hnew
      have hphase := h.phase j (hrunning hji hj) hjorder
      rw [hstate, hseq, hother j hji]
      by_cases hown : (p.tx i).own.bookings uid = none
      · obtain ⟨hsame, hseqt⟩ := hidle hown
        exact hphase.grow (hm.booking j) (hrow.trans (hsame.trans h.row.symm)) hseqt hmono
      · obtain ⟨hsome, _, hid⟩ := hwritten hown
        have hjown : (p.tx j).own.bookings uid = none := by
          by_contra hjs
          exact hji (h.holder j i (hrunning hji hj) hrunningi hjs hown)
        rw [← hrow, ← h.row] at hid
        exact hphase.written (hm.booking j) hjown (hrow ▸ hsome) hid }

/-- What a transaction that is about to write the row finds in front of it. -/
lemma own_eq_none_of_writes {i j : ι} {c : Call}
    (free : ∀ j, j ≠ i → p.Running j →
      ¬ Writes.Blocks ext c (p.view (readCommitted ext) i) (p.tx j).own)
    (hw : c.writes ext (p.view (readCommitted ext) i) uid = true) (hj : j ≠ i) (hr : p.Running j) :
    (p.tx j).own.bookings uid = none := by
  by_contra hown
  refine free j hj hr ?_
  have hblocks : ∃ uid, c.writes ext (p.view (readCommitted ext) i) uid = true ∧
      ((p.tx j).own.bookings uid).isSome = true := ⟨uid, hw, Option.isSome_iff_ne_none.mpr hown⟩
  cases c with
  | insertEvent row => cases hw
  | _ => exact hblocks

section Call

variable {c : Call} {next : c.Reply → Ingest Unit} {r : c.Reply} {s : Visible}

/-- A call after which its transaction can still be the next one. -/
lemma call_phase (h : Serializes ext entry uid db p order) (running : p.Running i) (hi : i ∉ order)
    (hother : ∀ j, j ≠ i → q.tx j = p.tx j)
    (htx : q.tx i = Phase.called ext (p.tx i) p.shared s c r (next r))
    (hshared : q.shared = { p.shared with bookingsSeq := s.bookingsSeq })
    (free : ∀ j, j ≠ i → p.Running j →
      ¬ Writes.Blocks ext c (p.view (readCommitted ext) i) (p.tx j).own)
    (hseq : c.writes ext (p.view (readCommitted ext) i) uid = false →
      s.bookingsSeq = p.shared.bookingsSeq)
    (hsome : c.writes ext (p.view (readCommitted ext) i) uid = true → (s.bookings uid).isSome = true)
    (hphase : Phase ext uid db ((serially ext entry db order).visible.rowState ext uid)
      s.bookingsSeq (entry i).2 (entry i).1 (Phase.called ext (p.tx i) p.shared s c r (next r))) :
    Serializes ext entry uid db q order := by
  have hrunning {j : ι} (hr : q.Running j) : p.Running j := by
    by_cases hj : j = i
    · rw [hj]
      exact running
    · rwa [Pool.Running, ← hother j hj]
  have hcommitted {j : ι} (hc : q.Committed j) : p.Committed j := by
    by_cases hj : j = i
    · rw [hj, Pool.Committed, htx] at hc
      cases hc
    · rwa [Pool.Committed, ← hother j hj]
  have hown : (q.tx i).own.bookings uid =
      if c.writes ext (p.view (readCommitted ext) i) uid then s.bookings uid
      else (p.tx i).own.bookings uid := by
    rw [htx]
    rfl
  exact {
    nodup := h.nodup
    committed := fun j hj => h.committed j (hcommitted hj)
    ordered := fun j hj => by
      have hji : j ≠ i := fun hji => hi (hji ▸ hj)
      have hordered := h.ordered j hj
      rwa [Pool.Committed, Pool.Running, ← hother j hji] at hordered
    row := by
      rw [hshared]
      exact h.row
    listed := fun bookingUid role email => by
      rw [hshared, listedAhead_congr fun j hj => hother j fun hji => hi (hji ▸ hj)]
      exact h.listed bookingUid role email
    seq := fun hnone => by
      have hiq : q.Running i := by rw [Pool.Running, htx]; rfl
      have hinone := hnone i hiq
      rw [hown] at hinone
      cases hw : c.writes ext (p.view (readCommitted ext) i) uid with
      | true =>
        rw [hw, if_pos rfl] at hinone
        have hs := hsome hw
        rw [hinone] at hs
        cases hs
      | false =>
        rw [hw, if_neg Bool.false_ne_true] at hinone
        rw [hshared]
        refine (hseq hw).trans (h.seq fun j hj => ?_)
        by_cases hji : j = i
        · rw [hji]
          exact hinone
        · rw [← hother j hji]
          refine hnone j ?_
          rwa [Pool.Running, hother j hji]
    holder := by
      refine h.heldOnce.move hother
        fun _ hheld j hji hj hjs => ?_
      rw [hown] at hheld
      cases hw : c.writes ext (p.view (readCommitted ext) i) uid with
      | true => exact hjs (own_eq_none_of_writes free hw hji hj)
      | false =>
        rw [hw, if_neg Bool.false_ne_true] at hheld
        exact hji (h.holder j i hj running hjs hheld)
    known := h.known
    knownShared := fun j hj event hparse => by
      rw [hshared]
      exact h.knownShared j hj event hparse
    phase := fun j hj hjorder => by
      by_cases hji : j = i
      · subst hji
        rw [htx, hshared]
        exact hphase
      · have hjphase := h.phase j (hrunning hj) hjorder
        rw [hother j hji, hshared]
        cases hw : c.writes ext (p.view (readCommitted ext) i) uid with
        | true => exact hjphase.of_seq (own_eq_none_of_writes free hw hji (hrunning hj))
        | false => exact (hseq hw).symm ▸ hjphase }

/-- A transaction gets a call answered. -/
lemma call (h : Serializes ext entry uid db p order) (hm : OneBooking entry uid)
    (hfollows : ∀ i, Pool.Follows (readCommitted ext) (saves ext entry i) (p.tx i))
    (hapart : HoldApart p) (running : p.Running i)
    (rest : (p.tx i).rest = .call (S := Calls) c next)
    (free : ∀ j, j ≠ i → p.Running j →
      ¬ Writes.Blocks ext c (p.view (readCommitted ext) i) (p.tx j).own)
    (answer : Visible.execute ext c (p.view (readCommitted ext) i) = .ok (r, s))
    (hunseen : UpsertsUnseen entry uid p (.call i c))
    (hunlisted : BackfillsUnlisted ext uid p (.call i c))
    (hother : ∀ j, j ≠ i → q.tx j = p.tx j)
    (htx : q.tx i = Phase.called ext (p.tx i) p.shared s c r (next r))
    (hshared : q.shared = { p.shared with bookingsSeq := s.bookingsSeq }) :
    ∃ order, Serializes ext entry uid db q order := by
  have hi : i ∉ order := by
    intro hi
    rcases h.ordered i hi with hc | ⟨_, hsettled⟩
    · rw [Pool.Running, hc] at running
      cases running
    · rw [hsettled.rest] at rest
      cases rest
  have habout : Call.About uid c := by
    have hevery := ((hfollows i).path.every (hm.every_about i)).2
    rw [rest] at hevery
    exact hevery.1
  have hseq (hw : c.writes ext (p.view (readCommitted ext) i) uid = false) :
      s.bookingsSeq = p.shared.bookingsSeq :=
    Visible.execute_seq (s := p.view (readCommitted ext) i) habout hw answer
  have hfound (hw : c.writes ext (p.view (readCommitted ext) i) uid = true)
      (hown : (p.tx i).own.bookings uid = none) :
      p.shared.bookingsSeq = (serially ext entry db order).bookingsSeq := by
    refine h.seq fun j hj => ?_
    by_cases hji : j = i
    · rw [hji]
      exact hown
    · exact own_eq_none_of_writes free hw hji hj
  have hahead (email : Json) (role : RecipientRole) (userId : Uuid)
      (hc : c = .backfillUserIdByEmail email role userId) (e : String)
      (he : nullableTextParam email = .ok (some e)) (bookingUid : String)
      (hlisted : participantListed ext (serially ext entry db order).tables.events bookingUid role e =
        true) : participantListed ext p.shared.events bookingUid role e = true := by
    rcases (h.listed bookingUid role e).mp hlisted with hshared | ⟨j, hj, hr, hahead⟩
    · exact hshared
    · exfalso
      subst hc
      rcases h.ordered j hj with hcommitted | ⟨_, hsettled⟩
      · rw [Pool.Running, hcommitted] at hr
        cases hr
      · obtain rfl := hm.listed_uid (fun row hrow => inserted_of_follows (hfollows j)
          (by rwa [← hapart.own j])) hahead
        rw [hunlisted j (fun hji => hi (hji ▸ hj)) hr hsettled.backfilled e he] at hahead
        cases hahead
  rcases Phase.call (hm.booking i) (h.phase i running hi) h.sees (hfollows i) (hapart.own i)
    (h.knownShared i hi) rest answer hfound (fun row hc => by subst hc; exact hunseen) hahead with
    hphase | ⟨hw, hown, hnext, hback, event, hparse, hevents, hrun⟩
  · exact ⟨order, h.call_phase running hi hother htx hshared free hseq
      ((Visible.execute_frame ext answer).2 uid).1 hphase⟩
  · have hsettled : Settled uid (q.tx i) := by
      refine ⟨by rw [htx]; exact hnext, ?_, ⟨c, r⟩, by rw [htx]; exact List.mem_concat_self, hback⟩
      rw [htx, Phase.called_own]
      exact (if_neg (by rw [hw]; exact Bool.false_ne_true)).trans hown
    have hsame : (q.tx i).own.events = (p.tx i).own.events := by
      rw [htx]
      exact hback.after_events answer _
    have hrunningq : q.Running i := by
      rw [Pool.Running, htx]
      rfl
    have hnone : q.shared.events = p.shared.events ++ [] := by
      rw [hshared, List.append_nil]
    have hseqq : q.shared.bookingsSeq = p.shared.bookingsSeq := by
      rw [hshared]
      exact hseq hw
    obtain ⟨hrow, hseqx⟩ := insert_row ext db.knows (EventRepository.row event)
      ((serially ext entry db order).visible.rowState ext uid)
    refine ⟨order ++ [i], h.append hm hi running hother hseqq hnone
      (.inr ⟨⟨hrunningq, hsettled⟩, rfl, hsame⟩) (List.forall_mem_nil _) hparse hrun ?_
      (Phase.insert_listed hevents).symm (fun _ => ⟨by rw [hshared], hseqx⟩)
      (fun hsome => absurd hown hsome)⟩
    rw [hrow, hshared]
    exact h.row

end Call

/-- A transaction that is already part of the serial order commits. -/
lemma commit_settled (h : Serializes ext entry uid db p order) (hm : OneBooking entry uid)
    (hi : i ∈ order) (running : p.Running i) (hsettled : Settled uid (p.tx i))
    (hother : ∀ j, j ≠ i → q.tx j = p.tx j)
    (htx : q.tx i = { p.tx i with status := .committed })
    (hshared : q.shared = p.view (readCommitted ext) i)
    (hadded : ∀ row ∈ (p.tx i).own.events, ∃ event,
      EventParser.parse ext (entry i).1 (entry i).2 = .ok event ∧
        row = EventRepository.row event) :
    Serializes ext entry uid db q order := by
  have hevents : q.shared.events = p.shared.events ++ (p.tx i).own.events := by
    rw [hshared]
    rfl
  have hbookings : q.shared.bookings uid =
      ((p.tx i).own.bookings uid).or (p.shared.bookings uid) := by
    rw [hshared]
    rfl
  have hseq : q.shared.bookingsSeq = p.shared.bookingsSeq := by
    rw [hshared]
    rfl
  have hrunning {j : ι} (hr : q.Running j) : j ≠ i ∧ p.Running j := by
    have hji : j ≠ i := by
      rintro rfl
      rw [Pool.Running, htx] at hr
      cases hr
    rw [Pool.Running, hother j hji] at hr
    exact ⟨hji, hr⟩
  exact {
    nodup := h.nodup
    committed := fun j hj => by
      by_cases hji : j = i
      · rw [hji]
        exact hi
      · rw [Pool.Committed, hother j hji] at hj
        exact h.committed j hj
    ordered := fun j hj => by
      by_cases hji : j = i
      · rw [hji, Pool.Committed, htx]
        exact .inl rfl
      · have hordered := h.ordered j hj
        rwa [Pool.Committed, Pool.Running, ← hother j hji] at hordered
    row := by
      rw [hbookings, hsettled.own, Option.none_or]
      exact h.row
    listed := fun bookingUid role email => by
      rw [h.listed, hevents, participantListed_append, Bool.or_eq_true, or_assoc]
      refine or_congr_right ⟨?_, ?_⟩
      · rintro ⟨j, hj, hr, hahead⟩
        by_cases hji : j = i
        · exact .inl (hji ▸ hahead)
        · refine .inr ⟨j, hj, ?_, by rwa [hother j hji]⟩
          rwa [Pool.Running, hother j hji]
      · rintro (hown | ⟨j, hj, hr, hahead⟩)
        · exact ⟨i, hi, running, hown⟩
        · obtain ⟨hji, hr⟩ := hrunning hr
          exact ⟨j, hj, hr, by rwa [← hother j hji]⟩
    seq := fun hnone => by
      refine hseq.trans (h.seq fun j hj => ?_)
      by_cases hji : j = i
      · rw [hji]
        exact hsettled.own
      · rw [← hother j hji]
        refine hnone j ?_
        rwa [Pool.Running, hother j hji]
    holder := h.heldOnce.move hother
      fun hr => absurd rfl (hrunning hr).1
    known := h.known
    knownShared := fun j hj event hparse => by
      have hji : j ≠ i := by
        rintro rfl
        exact hj hi
      exact h.knownShared_append hm hji hj hevents hadded hparse
    phase := fun j hj hjorder => by
      obtain ⟨hji, hj⟩ := hrunning hj
      rw [hother j hji, hseq]
      exact h.phase j hj hjorder }

/-- A transaction commits. -/
lemma commit (h : Serializes ext entry uid db p order) (hm : OneBooking entry uid)
    (hfollows : Pool.Follows (readCommitted ext) (saves ext entry i) (p.tx i))
    (hapart : HoldApart p) (running : p.Running i) (rest : (p.tx i).rest = .pure ())
    (hother : ∀ j, j ≠ i → q.tx j = p.tx j)
    (htx : q.tx i = { p.tx i with status := .committed })
    (hshared : q.shared = p.view (readCommitted ext) i) :
    ∃ order, Serializes ext entry uid db q order := by
  have hadded : ∀ row ∈ (p.tx i).own.events, ∃ event,
      EventParser.parse ext (entry i).1 (entry i).2 = .ok event ∧
        row = EventRepository.row event := by
    intro row hrow
    rw [hapart.own i] at hrow
    exact inserted_of_follows hfollows hrow
  by_cases hi : i ∈ order
  · rcases h.ordered i hi with hc | ⟨_, hsettled⟩
    · rw [Pool.Running, hc] at running
      cases running
    · exact ⟨order, h.commit_settled hm hi running hsettled hother htx hshared hadded⟩
  · have hcommitted : q.Committed i := by rw [Pool.Committed, htx]
    have hevents : q.shared.events = p.shared.events ++ (p.tx i).own.events := by
      rw [hshared]
      rfl
    have hbookings : q.shared.bookings uid =
        ((p.tx i).own.bookings uid).or (p.shared.bookings uid) := by
      rw [hshared]
      rfl
    have hseq : q.shared.bookingsSeq = p.shared.bookingsSeq := by
      rw [hshared]
      rfl
    obtain ⟨event, t, hparse, hrun, hrow, hlisted, hidle, hwritten⟩ :=
      (h.phase i running hi).commit hfollows (hapart.own i) rest
    have hrow' : t.row = q.shared.bookings uid := by
      rw [hrow, hbookings, ← h.row]
      rfl
    refine ⟨order ++ [i], h.append hm hi running hother hseq hevents (.inl ⟨hcommitted, rfl⟩) hadded
      hparse hrun hrow' hlisted (fun hown => ⟨?_, hidle hown⟩) fun hown => ⟨?_, ?_⟩⟩
    · rw [hbookings, hown, Option.none_or]
    · obtain ⟨b, hb⟩ := Option.ne_none_iff_exists'.mp hown
      rw [hbookings, hb, Option.some_or]
      exact Option.some_ne_none b
    · obtain ⟨hseqt, hid⟩ := hwritten hown
      rw [← hrow', ← h.row]
      exact ⟨hseqt, hid⟩

/-- A step that rolls nothing back. -/
theorem step [DecidableEq ι] (h : Serializes ext entry uid db p order) (hm : OneBooking entry uid)
    (hfollows : ∀ i, Pool.Follows (readCommitted ext) (saves ext entry i) (p.tx i))
    (hapart : HoldApart p) {a : Action Calls ι} (hunseen : UpsertsUnseen entry uid p a)
    (hunlisted : BackfillsUnlisted ext uid p a) (hstep : p.Step (readCommitted ext) a q)
    (hnot : (q.tx a.tx).status ≠ .aborted) : ∃ order, Serializes ext entry uid db q order := by
  have hother (j : ι) (hj : j ≠ a.tx) : q.tx j = p.tx j := hstep.tx_of_ne hj
  cases hstep with
  | @call i c next r s running rest free answer =>
    exact h.call hm hfollows hapart running rest free answer hunseen hunlisted hother
      Pool.set_tx_self rfl
  | @commit i running rest =>
    exact h.commit hm (hfollows i) hapart running rest hother Pool.set_tx_self rfl
  | @abort i running =>
    refine absurd ?_ hnot
    rw [Action.tx, Pool.set_tx_self]

end Serializes

/-- Along a run of `save_event` transactions that upsert a row only while they are right about its
absence, and that do not pass by one another with their backfills, the committed state is that of a
serial order, until a transaction is rolled back. -/
theorem serializes_of_run [DecidableEq ι] (hm : OneBooking entry uid)
    (run : Pool.Run (readCommitted ext)
      (fun p a => UpsertsUnseen entry uid p a ∧ BackfillsUnlisted ext uid p a)
      (Pool.start (readCommitted ext) db.visible (saves ext entry)) p)
    (hall : ∀ i, (p.tx i).status ≠ .aborted) : ∃ order, Serializes ext entry uid db p order := by
  induction run with
  | refl =>
    refine ⟨[], .nil, fun i hi => (nomatch hi), fun i hi => (nomatch hi), rfl, fun _ _ _ => ?_,
      fun _ => rfl, fun i j _ _ hi => absurd rfl hi, fun i _ event _ => rfl,
      fun i _ event _ => rfl, fun i _ _ => .fresh rfl rfl⟩
    exact ⟨.inl, fun h => h.elim id fun ⟨_, hi, _⟩ => nomatch hi⟩
  | @tail p q hrun hlast ih =>
    obtain ⟨a, ⟨hunseen, hunlisted⟩, hstep⟩ := hlast
    have hbefore (i : ι) : (p.tx i).status ≠ .aborted := by
      by_cases hi : i = a.tx
      · rw [hi, hstep.running]
        nofun
      · rw [← hstep.tx_of_ne hi]
        exact hall i
    obtain ⟨order, h⟩ := ih hbefore
    exact h.step hm (Pool.Run.follows hrun) (holdApart_of_run hrun) hunseen hunlisted hstep
      (hall a.tx)

/-- The bookings row that concurrent `save_event` transactions of one booking leave, when all of
them commit, is the one that they leave one after the other in some order. It is so in every run in
which no transaction that has looked the booking up upserts over a committed row, and none executes
its backfill while another open one that has executed its own lists the e-mail. -/
theorem serializable [DecidableEq ι] (hm : OneBooking entry uid)
    (run : Pool.Run (readCommitted ext)
      (fun p a => UpsertsUnseen entry uid p a ∧ BackfillsUnlisted ext uid p a)
      (Pool.start (readCommitted ext) db.visible (saves ext entry)) p)
    (hall : ∀ i, p.Committed i) :
    ∃ order : List ι, order.Nodup ∧ (∀ i, i ∈ order) ∧
      (p.shared.bookings uid).map (·.toBooking) =
        (saveAll ext (order.map entry) db).bookingOf uid := by
  have hnot (i : ι) : (p.tx i).status ≠ .aborted := by
    rw [hall i]
    nofun
  obtain ⟨order, h⟩ := serializes_of_run hm run hnot
  refine ⟨order, h.nodup, fun i => h.committed i (hall i), ?_⟩
  rw [← h.row]
  rfl

end Step

/-- An announcement of a user that lists its participants. -/
def announcing (role email userId : String) (participants : List Json) : Json :=
  .obj [("original", .obj [("email", .str email), ("role", .str role), ("user_id", .str userId)]),
    ("normalized", .obj [("participants", .arr participants)])]

/-- The creation of a booking, and the announcement of its organizer, who is listed there. -/
def createdAndAnnounced (i : Bool) : Timestamp × Message :=
  if i then (0, .sample BOOKING_LIFECYCLE_SAVER_QUEUE "1" "b" .bookingCreated 1 (.obj []))
  else (0, .sample BOOKING_LIFECYCLE_SAVER_QUEUE "2" "b" .userSynced 2
    (announcing "organizer" "a@example.org" "00000000-0000-0000-0000-00000000000a"
      [participant .organizer "a@example.org" .null]))

/-- Two messages of a booking that have different ids and no idempotency key. -/
lemma oneBooking_of_bool {entry : Bool → Timestamp × Message} {uid : String}
    (hbooking : ∀ i, (entry i).2.bookingId = some uid)
    (hkeys : ∀ i, (entry i).2.idempotencyKey = none)
    (hids : (entry true).2.eventId ≠ (entry false).2.eventId) : OneBooking entry uid := by
  refine ⟨hbooking, fun i j hij => ?_⟩
  rintro (hid | ⟨hsome, _⟩)
  · cases i <;> cases j <;> first | exact hij rfl | exact hids hid | exact hids hid.symm
  · rw [hkeys i] at hsome
    cases hsome

lemma createdAndAnnounced_oneBooking : OneBooking createdAndAnnounced "b" :=
  oneBooking_of_bool (fun i => by cases i <;> rfl) (fun i => by cases i <;> rfl) (by decide)

/-- A message of the lifecycle queue beside which no other transaction has begun. -/
lemma steps_of_idle {ι : Type} {ext : Externals} (entry : ι → Timestamp × Message) {uid : String}
    {p : IngestPool ι} {i : ι} (hqueue : (entry i).2.queueName = BOOKING_LIFECYCLE_SAVER_QUEUE)
    (hidle : ∀ j, j ≠ i → p.Running j → (p.tx j).trace = []) (q : IngestPool ι)
    (a : Action Calls ι) (hq : ∀ j, j ≠ i → q.tx j = p.tx j) (ha : a.tx = i) :
    UpsertsUnseen entry uid q a ∧ BackfillsUnlisted ext uid q a := by
  subst ha
  cases a with
  | call i c =>
    cases c with
    | upsertBooking row => exact ⟨fun hne => absurd hqueue hne, trivial⟩
    | backfillUserIdByEmail email role userId =>
      refine ⟨trivial, fun j hj hr hback => ?_⟩
      obtain ⟨e, he, _⟩ := hback
      rw [Pool.Running, hq j hj] at hr
      rw [hq j hj, hidle j hj hr] at he
      cases he
    | _ => exact ⟨trivial, trivial⟩
  | _ => exact ⟨trivial, trivial⟩

theorem serializable_createdAndAnnounced : ∃ p : IngestPool Bool, (∀ i, p.Committed i) ∧
    ∃ order : List Bool, order.Nodup ∧ (∀ i, i ∈ order) ∧
      (p.shared.bookings "b").map (·.toBooking) =
        (saveAll .sample (order.map createdAndAnnounced) .empty).bookingOf "b" := by
  let start : IngestPool Bool := Pool.start (readCommitted .sample) Db.empty.visible
    (saves .sample createdAndAnnounced)
  obtain ⟨p, hsteps, hcommitted, hother, hshared⟩ :=
    Pool.exists_commit (I := readCommitted .sample) (p := start) (i := true) 20 rfl
      (fun _ _ _ => passes_empty .sample 20 _ _)
      (steps_of_idle createdAndAnnounced rfl fun _ _ _ => rfl) rfl
  have hfalse := hother false Bool.false_ne_true
  have halone (j : Bool) (hj : j ≠ false) (hr : p.Running j) : False := by
    cases j with
    | false => exact hj rfl
    | true =>
      rw [Pool.Running, hcommitted] at hr
      cases hr
  obtain ⟨q, hsteps', hcommitted', hother', hshared'⟩ :=
    Pool.exists_commit (I := readCommitted .sample) (p := p) (i := false) 20
      (by rw [Pool.Running, hfalse]; rfl) (fun j hj hr => (halone j hj hr).elim)
      (steps_of_idle createdAndAnnounced rfl fun j hj hr => (halone j hj hr).elim)
      (by rw [hfalse, hshared]; rfl)
  have hall (i : Bool) : q.Committed i := by
    cases i with
    | false => exact hcommitted'
    | true => rwa [Pool.Committed, hother' true (by decide)]
  exact ⟨q, hall, serializable createdAndAnnounced_oneBooking (hsteps.trans hsteps') hall⟩

/-- The two orders of two transactions. -/
lemma order_of_bool {order : List Bool} (hnodup : order.Nodup) (hmem : ∀ i, i ∈ order) :
    order = [true, false] ∨ order = [false, true] := by
  have hperm : order.Perm [true, false] :=
    (List.perm_ext_iff_of_nodup hnodup (by decide)).mpr fun i => by
      cases i <;> simp [hmem]
  obtain ⟨i, j, rfl⟩ := List.length_eq_two.mp hperm.length_eq
  cases i <;> cases j
  · exact absurd hnodup (by decide)
  · exact .inr rfl
  · exact .inl rfl
  · exact absurd hnodup (by decide)

/-- A transaction whose event is in no conflict passes one that has written no row. -/
lemma passes_of_rowless {ext : Externals} {now : Timestamp} {m : Message} {event : ParsedEvent}
    (hparse : EventParser.parse ext now m = .ok event) {other : Writes}
    (hevents : other.events.any (EventRepository.row event).conflicts = false)
    (hrows : ∀ uid, other.bookings uid = none) (n : Nat) {t : Tx Calls Exc Writes}
    (ht : t.rest = IngestEvent.execute ext now m) (s : Visible) :
    (readCommitted ext).Passes other n t s := by
  refine Isolation.passes_of_every _ (P := fun c : Call =>
    ∀ row, c = .insertEvent row → row = EventRepository.row event) (fun c s hc hblocks => ?_) n ?_ s
  · cases c with
    | insertEvent row =>
      rw [hc row rfl] at hblocks
      exact absurd (hevents.symm.trans hblocks.2) Bool.false_ne_true
    | _ =>
      obtain ⟨uid, _, hsome⟩ := hblocks
      rw [hrows uid] at hsome
      cases hsome
  · rw [ht, execute_of_parse hparse]
    refine ⟨fun row hrow => (Call.insertEvent.inj hrow).symm, fun isInserted => ?_⟩
    exact (gated_every_not_isInsertion isInserted).mono fun c hc row hrow => absurd (hrow ▸ trivial) hc

/-- The announcements of an organizer and of a client, each of which lists the other user. -/
def announcements (i : Bool) : Timestamp × Message :=
  if i then (0, .sample BOOKING_LIFECYCLE_SAVER_QUEUE "2" "b" .userSynced 2
    (announcing "organizer" "a@example.org" "00000000-0000-0000-0000-00000000000a"
      [participant .client "c@example.org" .null]))
  else (0, .sample BOOKING_LIFECYCLE_SAVER_QUEUE "3" "b" .userSynced 3
    (announcing "client" "c@example.org" "00000000-0000-0000-0000-00000000000b"
      [participant .organizer "a@example.org" .null]))

/-- A booking that lists nobody. -/
def unlistedBooking : Db :=
  (saveEvent .sample 0 (.sample BOOKING_LIFECYCLE_SAVER_QUEUE "1" "b" .bookingCreated 1 (.obj []))
    .empty).2

/-- Why backfills may not pass by one another: neither sees the event of the other one, so that the
row keeps both NULLs. One after the other, the second one finds its user listed by the first. -/
theorem not_serializable_announcements : OneBooking announcements "b" ∧
    ∃ p : IngestPool Bool, Pool.Run (readCommitted .sample) (UpsertsUnseen announcements "b")
        (Pool.start (readCommitted .sample) unlistedBooking.visible (saves .sample announcements)) p ∧
      (∀ i, p.Committed i) ∧
      ∀ order : List Bool, order.Nodup → (∀ i, i ∈ order) →
        (p.shared.bookings "b").map (·.toBooking) ≠
          (saveAll .sample (order.map announcements) unlistedBooking).bookingOf "b" := by
  refine ⟨oneBooking_of_bool (fun i => by cases i <;> rfl) (fun i => by cases i <;> rfl)
    (by decide), ?_⟩
  let start : IngestPool Bool := Pool.start (readCommitted .sample) unlistedBooking.visible
    (saves .sample announcements)
  have hok (q : IngestPool Bool) (a : Action Calls Bool) : UpsertsUnseen announcements "b" q a := by
    cases a with
    | call i c =>
      cases c with
      | upsertBooking row => cases i <;> exact fun hqueue => absurd rfl hqueue
      | _ => trivial
    | _ => trivial
  -- The announcement of the organizer inserts its event, and its backfill reaches nothing.
  obtain ⟨p, hfirst, hother, hadvance⟩ :=
    Pool.exists_advance (I := readCommitted .sample) (p := start) (i := true) 3 rfl
      (fun _ _ _ => passes_empty .sample 3 _ _) fun q a _ _ => hok q a
  have htrue : p.tx true = _ := congrArg Prod.fst hadvance
  have hshared : p.shared = unlistedBooking.visible := congrArg Prod.snd hadvance
  have hfalse := hother false Bool.false_ne_true
  have hunreached : ∀ b ∈ unlistedBooking.tables.bookings, b.reachedBy
      (participantListed .sample (p.view (readCommitted .sample) true).events) .organizer
        (some "a@example.org") = false := by
    rw [Pool.view, htrue, hshared]
    decide
  have hown (uid : String) : (p.tx true).own.bookings uid = none := by
    rw [Pool.view, hshared] at hunreached
    rw [htrue] at hunreached ⊢
    refine if_neg fun hwrites => ?_
    obtain ⟨b, hb, hreached⟩ := (Option.any_eq_true _ _).mp hwrites
    have hfound : findBooking uid unlistedBooking.tables.bookings = some b := hb
    have hnot := hunreached b (List.mem_of_find?_eq_some hfound)
    exact Bool.false_ne_true (hnot.symm.trans hreached)
  -- The other one runs to its end, and neither sees the event of the other.
  obtain ⟨q, hsecond, hcommitted, hother', hshared'⟩ :=
    Pool.exists_commit (I := readCommitted .sample) (p := p) (i := false) 20
      (by rw [Pool.Running, hfalse]; rfl) (fun j hj _ => by
        cases j with
        | false => exact absurd rfl hj
        | true =>
          rw [hfalse]
          refine passes_of_rowless (m := (announcements false).2) rfl ?_ hown 20 rfl _
          rw [htrue]
          decide)
      (fun q a _ _ => hok q a) (by rw [hfalse, hshared]; rfl)
  have htrue' : q.tx true = _ := (hother' true (by decide)).trans htrue
  obtain ⟨r, hlast, hcommitted', hother'', hfinal⟩ :=
    Pool.exists_commit (I := readCommitted .sample) (p := q) (i := true) 20
      (by rw [Pool.Running, htrue']; rfl)
      (fun j hj hr => by
        cases j with
        | false => rw [Pool.Running, hcommitted] at hr; cases hr
        | true => exact absurd rfl hj)
      (fun q a _ _ => hok q a) (by rw [htrue', hshared']; rfl)
  have hall (i : Bool) : r.Committed i := by
    cases i with
    | false => rwa [Pool.Committed, hother'' false Bool.false_ne_true]
    | true => exact hcommitted'
  refine ⟨r, (hfirst.trans hsecond).trans hlast, hall, fun order hnodup hmem hsame => ?_⟩
  have hids : (r.shared.bookings "b").map (fun b => (b.organizerUserId, b.clientUserId)) =
      some (none, none) := by
    rw [hfinal]
    rfl
  have hserial : ((saveAll .sample (order.map announcements) unlistedBooking).bookingOf "b").map
      (fun b => (b.organizerUserId, b.clientUserId)) ≠ some (none, none) := by
    rcases order_of_bool hnodup hmem with rfl | rfl <;> decide
  rw [← hsame, Option.map_map] at hserial
  exact hserial hids

/-- A chat message and the creation of its booking. -/
def chatAndCreated (i : Bool) : Timestamp × Message :=
  if i then (0, .sample "events.chat" "1" "b" .chatMessageSent 2 (.obj []))
  else (0, .sample BOOKING_LIFECYCLE_SAVER_QUEUE "2" "b" .bookingCreated 1 (.obj []))

/-- The chat message looks the booking up before the creation commits, and upserts it after that:
`first_seen_at` is the time of the creation, `last_seen_at` that of the chat message. -/
theorem not_serializable_chatAndCreated : OneBooking chatAndCreated "b" ∧
    ∃ p : IngestPool Bool, Pool.Steps (readCommitted .sample)
        (Pool.start (readCommitted .sample) Db.empty.visible (saves .sample chatAndCreated)) p ∧
      (∀ i, p.Committed i) ∧
      ∀ order : List Bool, order.Nodup → (∀ i, i ∈ order) →
        (p.shared.bookings "b").map (·.toBooking) ≠
          (saveAll .sample (order.map chatAndCreated) .empty).bookingOf "b" := by
  refine ⟨oneBooking_of_bool (fun i => by cases i <;> rfl) (fun i => by cases i <;> rfl)
    (by decide), ?_⟩
  let start : IngestPool Bool := Pool.start (readCommitted .sample) Db.empty.visible
    (saves .sample chatAndCreated)
  -- The chat message inserts its event and finds no booking.
  obtain ⟨p, hlooks, hother, hlooked⟩ :=
    Pool.exists_advance (I := readCommitted .sample) (p := start) (i := true) 3 rfl
      (fun _ _ _ => passes_empty .sample 3 _ _) (fun _ _ _ _ => trivial)
  have htrue : p.tx true = _ := congrArg Prod.fst hlooked
  have hshared : p.shared = Db.empty.visible := congrArg Prod.snd hlooked
  have hfalse := hother false Bool.false_ne_true
  obtain ⟨q, hcreates, hcommitted, hother', hshared'⟩ :=
    Pool.exists_commit (I := readCommitted .sample) (p := p) (i := false) 20
      (by rw [Pool.Running, hfalse]; rfl)
      (fun j hj _ => by
        cases j with
        | false => exact absurd rfl hj
        | true =>
          rw [htrue, hfalse]
          exact passes_of_rowless (m := (chatAndCreated false).2) rfl (by decide) (fun _ => rfl) 20
            rfl _)
      (fun _ _ _ _ => trivial) (by rw [hfalse, hshared]; rfl)
  have htrue' : q.tx true = _ := (hother' true (by decide)).trans htrue
  obtain ⟨r, hupserts, hcommitted', hother'', hfinal⟩ :=
    Pool.exists_commit (I := readCommitted .sample) (p := q) (i := true) 20
      (by rw [Pool.Running, htrue']; rfl)
      (fun j hj hr => by
        cases j with
        | false => rw [Pool.Running, hcommitted] at hr; cases hr
        | true => exact absurd rfl hj)
      (fun _ _ _ _ => trivial) (by rw [htrue', hshared']; rfl)
  have hall (i : Bool) : r.Committed i := by
    cases i with
    | false => rwa [Pool.Committed, hother'' false Bool.false_ne_true]
    | true => exact hcommitted'
  refine ⟨r, (hlooks.trans hcreates).trans hupserts, hall, fun order hnodup hmem hsame => ?_⟩
  have hseen : (r.shared.bookings "b").map (fun b => (b.firstSeenAt, b.lastSeenAt)) =
      some (1, 2) := by
    rw [hfinal]
    rfl
  have hserial : ((saveAll .sample (order.map chatAndCreated) .empty).bookingOf "b").map
      (fun b => (b.firstSeenAt, b.lastSeenAt)) ≠ some (1, 2) := by
    rcases order_of_bool hnodup hmem with rfl | rfl <;> decide
  rw [← hsame, Option.map_map] at hserial
  exact hserial hseen

end EventSaver
