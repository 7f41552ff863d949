import EventSaver.History
import EventSaver.Library.Simulation

/-!
# What the periodic backfill adds

A run of the service with cycles of the backfill in it and the same run without them take the same
course. The two databases differ in user ids of bookings only, and where they differ the first one
holds an id that a resolver has given for an e-mail that stored events list for the booking.
-/

namespace EventSaver
open JsonData TableData EffectProgram

/-- A transaction of the service: an attempt to save a message, or a cycle of the backfill. -/
inductive Transaction where
  | save (fault : Fault Exc) (now : Timestamp) (m : Message)
  | cycle (batchSize : Nat) (c : CycleAttempt)

namespace Transaction

def isSave : Transaction → Bool
  | .save _ _ _ => true
  | .cycle _ _ => false

def cycle? : Transaction → Option CycleAttempt
  | .save _ _ _ => none
  | .cycle _ c => some c

variable (ext : Externals)

/-- How the attempts to save in a series of transactions end, and the database after it. -/
def runAll : List Transaction → Db → List (Except Exc Unit) × Db
  | [], db => ([], db)
  | .save fault now m :: rest, db =>
    let saved := saveEventUnder ext fault now m db
    let ended := runAll rest saved.2
    (saved.1 :: ended.1, ended.2)
  | .cycle batchSize c :: rest, db => runAll rest (runOnceUnder ext batchSize c db).2

lemma runAll_grows (transactions : List Transaction) (db : Db) :
    db.Grows (runAll ext transactions db).2 := by
  induction transactions generalizing db with
  | nil => exact .refl db
  | cons t rest ih =>
    cases t with
    | save fault now m => exact (Db.Grows.saveEventUnder fault now m db).trans (ih _)
    | cycle batchSize c => exact (Db.Grows.runOnceUnder batchSize c db).trans (ih _)

end Transaction

/-- A resolver has given an id for an e-mail that the events list for a role of a booking. -/
def GivenBy (ext : Externals) (cycles : List CycleAttempt) (events : List EventRow) (uid : String)
    (role : RecipientRole) (u : Uuid) : Prop :=
  ∃ c ∈ cycles, ∃ n email, email ∈ (listedEmails ext events uid role).map Prod.snd ∧
    c.resolver n email role = .ok (.answered (some u))

lemma GivenBy.mono {ext : Externals} {cycles cycles' : List CycleAttempt}
    {events events' : List EventRow} {uid : String} {role : RecipientRole} {u : Uuid}
    (h : GivenBy ext cycles events uid role u) (hcycles : cycles ⊆ cycles')
    (hevents : events <+: events') : GivenBy ext cycles' events' uid role u := by
  obtain ⟨c, hc, n, email, hemail, hanswer⟩ := h
  obtain ⟨added, rfl⟩ := hevents
  refine ⟨c, hcycles hc, n, email, ?_, hanswer⟩
  rw [listedEmails, List.flatMap_append, List.map_append]
  exact List.mem_append_left _ hemail

def Booking.withoutUserIds (b : Booking) : Booking :=
  { b with organizerUserId := none, clientUserId := none }

/-- A bookings row with, and the same row without, some ids that have been given. -/
structure FilledRow (given : String → RecipientRole → Uuid → Prop) (b b' : BookingRow) : Prop where
  id : b.id = b'.id
  known : b.withoutUserIds = b'.withoutUserIds
  userId : ∀ role, b.userId role = b'.userId role ∨
    ∃ u, b.userId role = some u ∧ given b.bookingUid role u

/-- A database with, and the same database without, some ids of bookings. -/
structure FilledDb (given : String → RecipientRole → Uuid → Prop) (db db' : Db) : Prop where
  frame : db' = { db with tables.bookings := db'.tables.bookings }
  bookings : List.Forall₂ (FilledRow given) db.tables.bookings db'.tables.bookings

section Rows

/-- A visit to a slot sets user ids only. -/
lemma withoutUserIds_foldl (ext : Externals) (resolve : String → RecipientRole → Option Uuid)
    (events : List EventRow) (slots : List (Candidate × RecipientRole)) (b : BookingRow) :
    (slots.foldl (visitRow ext resolve events) b).withoutUserIds = b.withoutUserIds := by
  have hvisit (b : BookingRow) (slot : Candidate × RecipientRole) :
      (visitRow ext resolve events b slot).withoutUserIds = b.withoutUserIds := by
    unfold visitRow
    split
    next userId _ =>
      split
      · cases slot.2 <;> rfl
      · rfl
    next => rfl
  induction slots generalizing b with
  | nil => rfl
  | cons slot rest ih => exact (ih _).trans (hvisit b slot)

variable {given : String → RecipientRole → Uuid → Prop} {b b' : BookingRow}

namespace FilledRow

lemma refl (b : BookingRow) : FilledRow given b b := ⟨rfl, rfl, fun _ => .inl rfl⟩

lemma bookingUid_eq (h : FilledRow given b b') : b.bookingUid = b'.bookingUid := by
  change b.withoutUserIds.bookingUid = b'.withoutUserIds.bookingUid
  rw [h.known]

lemma merge (h : FilledRow given b b') (row : Booking) :
    FilledRow given (b.update row.merge) (b'.update row.merge) where
  id := h.id
  known := by
    change (row.merge b.withoutUserIds).withoutUserIds = (row.merge b'.withoutUserIds).withoutUserIds
    rw [h.known]
  userId role := by
    have hor (first : Option Uuid) {x y : Option Uuid}
        (hxy : x = y ∨ ∃ u, x = some u ∧ given b.bookingUid role u) :
        first.or x = first.or y ∨ ∃ u, first.or x = some u ∧ given b.bookingUid role u := by
      cases first with
      | none => exact hxy
      | some u => exact .inl rfl
    cases role with
    | organizer => exact hor row.organizerUserId (h.userId .organizer)
    | client => exact hor row.clientUserId (h.userId .client)

/-- One id set on both sides. -/
lemma setUserId (h : FilledRow given b b') (role : RecipientRole) (u : Uuid) :
    FilledRow given (b.update (·.setUserId role u)) (b'.update (·.setUserId role u)) where
  id := h.id
  known := by cases role <;> exact h.known
  userId role' := by
    have hset := b.toBooking.userId_setUserId role role' u
    have hset' := b'.toBooking.userId_setUserId role role' u
    rw [BookingRow.update_toBooking, BookingRow.update_toBooking, hset, hset',
      b.toBooking.setUserId_bookingUid]
    split
    · exact .inl rfl
    · exact h.userId role'

end FilledRow

/-- Visits to slots of a window, which fill columns with ids that have been given. -/
lemma FilledRow.visit {ext : Externals} {resolve : String → RecipientRole → Option Uuid}
    {batchSize : Nat} {db : Db} {done : List (Candidate × RecipientRole)}
    (h : FilledRow given b b') (hids : (db.tables.bookings.map (·.id)).Nodup)
    (hb : b ∈ db.tables.bookings) (hdone : ∀ slot ∈ done, slot ∈ cycleSlots batchSize db)
    (hgiven : ∀ role u, foundUserId ext resolve db.tables.events b.bookingUid role = some u →
      given b.bookingUid role u) :
    FilledRow given (done.foldl (visitRow ext resolve db.tables.events) b) b' := by
  have hknown := withoutUserIds_foldl ext resolve db.tables.events done b
  refine ⟨(foldl_visitRow_id done b).trans h.id, hknown.trans h.known, fun role => ?_⟩
  have huid : (done.foldl (visitRow ext resolve db.tables.events) b).bookingUid = b.bookingUid := by
    change (Booking.withoutUserIds _).bookingUid = b.withoutUserIds.bookingUid
    rw [hknown]
  rw [huid]
  cases hcolumn : b.userId role with
  | some u =>
    rw [(foldl_visitRow_fillsNulls done b).kept role u hcolumn, ← hcolumn]
    exact h.userId role
  | none =>
    cases hfilled : (done.foldl (visitRow ext resolve db.tables.events) b).userId role with
    | none =>
      rw [← hcolumn]
      exact h.userId role
    | some u =>
      refine .inr ⟨u, rfl, hgiven role u ?_⟩
      exact ((foldl_visitRow_eq_some_iff hdone hids hb hcolumn).mp hfilled).2

/-- A user.synced event fills a column on both sides, or on the second only, where the first holds
an id that has been given. -/
lemma filledRow_backfill (ext : Externals) (events : List EventRow) (role : RecipientRole)
    (email : Option String) (userId : Uuid) {bookings bookings' : List BookingRow}
    (h : List.Forall₂ (FilledRow given) bookings bookings') :
    List.Forall₂ (FilledRow given) (backfillBookings ext events role email userId bookings)
      (backfillBookings ext events role email userId bookings') := by
  cases email with
  | none => exact h
  | some email =>
    refine forall₂_updateWhere h fun b b' hb => ?_
    rw [hb.bookingUid_eq]
    cases participantListed ext events b'.bookingUid role email with
    | false =>
      rw [Bool.and_false, Bool.and_false]
      exact hb
    | true =>
      rw [Bool.and_true, Bool.and_true]
      rcases hb.userId role with heq | ⟨u, hu, hgiven⟩
      · rw [heq]
        split
        · exact hb.setUserId role userId
        · exact hb
      · rw [hu, if_neg (by simp)]
        split
        · refine ⟨hb.id, ?_, fun role' => ?_⟩
          · cases role <;> exact hb.known
          · have hset := b'.toBooking.userId_setUserId role role' userId
            rw [BookingRow.update_toBooking, hset]
            split
            next hrole => exact .inr ⟨u, hrole ▸ hu, hrole ▸ hgiven⟩
            next => exact hb.userId role'
        · exact hb

end Rows

section Databases

variable {ext : Externals} {given : String → RecipientRole → Uuid → Prop} {db db' : Db}

namespace FilledDb

lemma refl (db : Db) : FilledDb given db db :=
  ⟨rfl, List.forall₂_same.mpr fun b _ => .refl b⟩

lemma rollback {reached reached' : Db} (h : FilledDb given db db')
    (hreached : FilledDb given reached reached') :
    FilledDb given (db.rollback reached) (db'.rollback reached') where
  frame := by rw [hreached.frame, h.frame]; rfl
  bookings := h.bookings

/-- The calls of a save_event transaction are answered alike. -/
lemma inStep (ext : Externals) (given : String → RecipientRole → Uuid → Prop) :
    InStep (SqlExecutor.execute ext) (SqlExecutor.execute ext) (FilledDb given) := by
  rintro c db db' ⟨hframe, hrows⟩
  generalize db'.tables.bookings = bookings' at hframe hrows
  subst hframe
  cases c with
  | insertEvent row =>
    refine .inr ?_
    by_cases hany : db.tables.events.any row.conflicts = true
    · exact ⟨false, _, _, if_pos hany, if_pos hany, rfl, hrows⟩
    · exact ⟨true, _, _, if_neg hany, if_neg hany, rfl, hrows⟩
  | incEventsTotal eventType => exact .inr ⟨(), _, _, rfl, rfl, rfl, hrows⟩
  | backfillUserIdByEmail email role userId =>
    cases hemail : nullableTextParam email with
    | error e =>
      refine .inl ⟨e, ?_, ?_⟩
      · rw [SqlExecutor.execute, hemail]
        rfl
      · rw [SqlExecutor.execute, hemail]
        rfl
    | ok email =>
      let filled (bookings : List BookingRow) : Db := { db with
        tables.bookings := backfillBookings ext db.tables.events role email userId bookings }
      refine .inr ⟨(), filled db.tables.bookings, filled bookings', ?_, ?_, rfl,
        filledRow_backfill ext db.tables.events role email userId hrows⟩
      · rw [SqlExecutor.execute, hemail]
        rfl
      · rw [SqlExecutor.execute, hemail]
        rfl
  | findByBookingUid bookingUid =>
    have hid : (findBooking bookingUid db.tables.bookings).map (·.id) =
        (findBooking bookingUid bookings').map (·.id) :=
      find?_map_eq_of_forall₂ hrows (fun b b' hb => by rw [hb.bookingUid_eq]) fun _ _ hb => hb.id
    refine .inr ⟨_, db, { db with tables.bookings := bookings' }, rfl, ?_, rfl, hrows⟩
    rw [hid]
    rfl
  | upsertBooking row =>
    have hrows' : List.Forall₂ (FilledRow given)
        (upsertBookingRow db.bookingsSeq row db.tables.bookings)
        (upsertBookingRow db.bookingsSeq row bookings') :=
      forall₂_upsertWhere hrows (fun b b' hb => by rw [hb.bookingUid_eq])
        (fun _ _ hb => hb.merge row) (.refl _)
    have hid : (findBooking row.bookingUid
          (upsertBookingRow db.bookingsSeq row db.tables.bookings)).map (·.id) =
        (findBooking row.bookingUid (upsertBookingRow db.bookingsSeq row bookings')).map (·.id) :=
      find?_map_eq_of_forall₂ hrows' (fun b b' hb => by rw [hb.bookingUid_eq]) fun _ _ hb => hb.id
    let upserted (bookings : List BookingRow) : Db := { db with
      bookingsSeq := db.bookingsSeq + 1
      tables.bookings := upsertBookingRow db.bookingsSeq row bookings }
    refine .inr ⟨_, upserted db.tables.bookings, upserted bookings', rfl, ?_, rfl, hrows'⟩
    rw [hid]
    rfl
  | saveOrganizerHistory ref row => exact .inr ⟨(), _, _, rfl, rfl, rfl, hrows⟩
  | updateClient ref u =>
    refine .inr ⟨(), _, _, rfl, rfl, rfl, forall₂_updateWhere hrows fun b b' hb => ?_⟩
    rw [hb.id]
    split
    · exact hb.setUserId .client u
    · exact hb
  | incBookingLifecycleTotal action => exact .inr ⟨(), _, _, rfl, rfl, rfl, hrows⟩
  | project stmt =>
    cases hbind : stmt.bind with
    | error e =>
      refine .inl ⟨e, ?_, ?_⟩
      · rw [SqlExecutor.execute, hbind]
        rfl
      · rw [SqlExecutor.execute, hbind]
        rfl
    | ok w =>
      refine .inr ⟨(), w.apply db, w.apply { db with tables.bookings := bookings' }, ?_, ?_, ?_, ?_⟩
      · rw [SqlExecutor.execute, hbind]
        rfl
      · rw [SqlExecutor.execute, hbind]
        rfl
      · cases w <;> rfl
      · rw [w.apply_bookings, w.apply_bookings]
        exact hrows

/-- An attempt to save ends alike, with or without the ids. -/
lemma saveEventUnder (ext : Externals) (h : FilledDb given db db') (fault : Fault Exc)
    (now : Timestamp) (m : Message) :
    (saveEventUnder ext fault now m db).1 = (saveEventUnder ext fault now m db').1 ∧
      FilledDb given (saveEventUnder ext fault now m db).2
        (saveEventUnder ext fault now m db').2 :=
  (inStep ext given).transact rollback fault (IngestEvent.execute ext now m) h

/-- A cycle fills columns with ids it has been given. -/
lemma cycle (h : FilledDb given db db') (hids : (db.tables.bookings.map (·.id)).Nodup)
    (batchSize : Nat) (c : CycleAttempt)
    (hgiven : ∀ uid role u, GivenBy ext [c] db.tables.events uid role u → given uid role u) :
    FilledDb given (runOnceUnder ext batchSize c db).2 db' := by
  change FilledDb given (UserIdBackfillRunner.runCycle ext batchSize db c) db'
  rcases runCycle_cases ext batchSize c db with hsame | ⟨summary, hrun⟩
  · rw [hsame]
    exact h
  · obtain ⟨done, rest, asked, tally, aborted, hslots, hend⟩ := runOnce_loopEnd hrun
    have hdone : ∀ slot ∈ done, slot ∈ cycleSlots batchSize db := by
      intro slot hslot
      rw [hslots]
      exact List.mem_append_left rest hslot
    rw [hend.committed]
    refine ⟨by rw [h.frame]; rfl, ?_⟩
    rw [visitAll_bookings, List.forall₂_map_left_iff]
    have hrows := (List.forall₂_and_left _ _).mpr ⟨fun b hb => hb, h.bookings⟩
    refine hrows.imp fun b b' hb => ?_
    exact hb.2.visit hids hb.1 hdone fun role u hfound => by
      obtain ⟨email, hemail, hobtained⟩ := foundUserId_eq_some.mp hfound
      obtain ⟨i, hi⟩ := List.mem_iff_getElem?.mp ((obtained_eq_some hend.once).mp hobtained)
      obtain ⟨entry, hentry, rfl⟩ := Option.map_eq_some_iff.mp hemail
      refine hgiven _ _ _ ⟨c, List.mem_singleton_self c, i, entry.2, ?_, ?_⟩
      · exact List.mem_map_of_mem (newest_spec hentry).1
      · exact answersOf_answered (hend.answers i _ _ hi)

/-- Two runs of the service, the second without the cycles of the first. -/
lemma runAll {transactions : List Transaction} (h : FilledDb given db db') (hdb : db.WellFormed)
    (hgiven : ∀ uid role u, GivenBy ext (transactions.filterMap Transaction.cycle?)
      (Transaction.runAll ext transactions db).2.tables.events uid role u → given uid role u) :
    (Transaction.runAll ext transactions db).1 =
        (Transaction.runAll ext (transactions.filter Transaction.isSave) db').1 ∧
      FilledDb given (Transaction.runAll ext transactions db).2
        (Transaction.runAll ext (transactions.filter Transaction.isSave) db').2 := by
  induction transactions generalizing db db' with
  | nil => exact ⟨rfl, h⟩
  | cons t rest ih =>
    cases t with
    | save fault now m =>
      obtain ⟨hended, hsaved⟩ := h.saveEventUnder ext fault now m
      obtain ⟨hends, hrest⟩ := ih hsaved (hdb.saveEventUnder ext fault now m) hgiven
      refine ⟨?_, hrest⟩
      rw [List.filter_cons_of_pos rfl, Transaction.runAll, Transaction.runAll]
      dsimp only
      rw [hended, hends]
    | cycle batchSize c =>
      have hgrows := Transaction.runAll_grows ext rest (runOnceUnder ext batchSize c db).2
      have hevents := ((Db.Grows.runOnceUnder batchSize c db).trans hgrows).events
      have hfilled : FilledDb given (runOnceUnder ext batchSize c db).2 db' :=
        h.cycle hdb.ids batchSize c fun uid role u hu =>
          hgiven uid role u (hu.mono (List.cons_subset_cons c (List.nil_subset _)) hevents)
      refine ih hfilled ?_ fun uid role u hu =>
        hgiven uid role u (hu.mono (List.subset_cons_self _ _) List.prefix_rfl)
      change (UserIdBackfillRunner.runCycle ext batchSize db c).WellFormed
      rcases runCycle_cases ext batchSize c db with hsame | ⟨summary, hrun⟩
      · rw [hsame]
        exact hdb
      · have hwf := hdb.runOnce ext c.resolver batchSize
        rw [hrun] at hwf
        exact hwf

end FilledDb

end Databases

/-- Leaving the cycles of the backfill out of a run changes neither how the attempts to save end
nor what is stored, but for user ids of bookings that a resolver has given. -/
theorem backfill_adds_ids (ext : Externals) (transactions : List Transaction) :
    (Transaction.runAll ext transactions .empty).1 =
        (Transaction.runAll ext (transactions.filter Transaction.isSave) .empty).1 ∧
      FilledDb (GivenBy ext (transactions.filterMap Transaction.cycle?)
          (Transaction.runAll ext transactions .empty).2.tables.events)
        (Transaction.runAll ext transactions .empty).2
        (Transaction.runAll ext (transactions.filter Transaction.isSave) .empty).2 :=
  (FilledDb.refl .empty).runAll .empty fun _ _ _ h => h

end EventSaver
